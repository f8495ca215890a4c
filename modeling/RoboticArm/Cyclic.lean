import Mathlib.Data.List.Basic
import Mathlib.Data.Nat.ModEq

/- Queues in a cyclic array.

   `window n cells h k` is what an array of `n` cells holds from place `h` on over
   `k` places, going round. It is the content of a queue that keeps its oldest
   value at `h` and has `k` of them. The rules are those a queue needs, whatever
   it stores its positions in:

   1. `window_succ`: the oldest value, and the window behind it;
   2. `window_write`: new values stored behind a window that has room for them are
      appended, and leave what was there.

   `Fifo` is the queue itself: a list with a bound, which drops what does not fit. -/
namespace Cyclic

variable {α : Type*}

/-- The `k` values from place `h` on, in an array of `n` cells. -/
def window (n : Nat) (cells : Nat → α) (h k : Nat) : List α :=
  (List.range k).map fun i => cells ((h + i) % n)

@[simp] theorem window_zero (n : Nat) (cells : Nat → α) (h : Nat) : window n cells h 0 = [] := rfl

@[simp] theorem length_window (n : Nat) (cells : Nat → α) (h k : Nat) :
    (window n cells h k).length = k := by
  rw [window, List.length_map, List.length_range]

theorem window_congr {n : Nat} {cells cells' : Nat → α} {h h' k : Nat}
    (hcells : ∀ i < k, cells ((h + i) % n) = cells' ((h' + i) % n)) :
    window n cells h k = window n cells' h' k := by
  apply List.map_congr_left
  intro i hi
  exact hcells i (List.mem_range.1 hi)

/-- Only the place where the window starts counts, not the number of rounds before it. -/
theorem window_modEq {n h h' : Nat} (hh : h ≡ h' [MOD n]) (cells : Nat → α) (k : Nat) :
    window n cells h k = window n cells h' k := by
  apply window_congr
  intro i _
  have hplace : (h + i) % n = (h' + i) % n := hh.add_right i
  rw [hplace]

theorem window_succ (n : Nat) (cells : Nat → α) (h k : Nat) :
    window n cells h (k + 1) = cells (h % n) :: window n cells (h + 1) k := by
  rw [window, List.range_succ_eq_map, List.map_cons, List.map_map]
  congr 1
  apply List.map_congr_left
  intro i _
  simp only [Function.comp_apply]
  congr 2
  omega

theorem window_add (n : Nat) (cells : Nat → α) (h k m : Nat) :
    window n cells h (k + m) = window n cells h k ++ window n cells (h + k) m := by
  induction k generalizing h with
  | zero => rw [Nat.zero_add, Nat.add_zero, window_zero, List.nil_append]
  | succ k ih =>
    have hplace : h + 1 + k = h + (k + 1) := by omega
    rw [show k + 1 + m = k + m + 1 by omega, window_succ, window_succ, ih, hplace, List.cons_append]

theorem place_ne {n h i j : Nat} (hij : i < j) (hj : j < i + n) : (h + i) % n ≠ (h + j) % n := by
  intro heq
  have hdvd : n ∣ h + j - (h + i) := (Nat.modEq_iff_dvd' (by omega)).1 heq
  have hle : n ≤ h + j - (h + i) := Nat.le_of_dvd (by omega) hdvd
  omega

/-- Values stored behind a window, in places it does not cover, are appended to it. -/
theorem window_write {n h k m : Nat} {cells cells' data : Nat → α} (hroom : k + m ≤ n)
    (hnew : ∀ i < m, cells' ((h + k + i) % n) = data i)
    (hold : ∀ j < n, (∀ i < m, j ≠ (h + k + i) % n) → cells' j = cells j) :
    window n cells' h (k + m) = window n cells h k ++ (List.range m).map data := by
  rw [window_add]
  congr 1
  · apply window_congr
    intro i hi
    apply hold _ (Nat.mod_lt _ (by omega))
    intro l hl
    rw [Nat.add_assoc]
    exact place_ne (by omega) (by omega)
  · apply List.map_congr_left
    intro i hi
    exact hnew i (List.mem_range.1 hi)

end Cyclic

/-- A queue of at most `cap` values, oldest first. -/
structure Fifo (α : Type*) (cap : Nat) where
  items : List α
  bounded : items.length ≤ cap

namespace Fifo

variable {α : Type*} {cap : Nat}

def empty : Fifo α cap := ⟨[], Nat.zero_le cap⟩

/-- Room for that many more. -/
def room (q : Fifo α cap) : Nat := cap - q.items.length

/-- Append the first values of `xs`, as many as there is room for. -/
def push (xs : List α) (q : Fifo α cap) : Fifo α cap where
  items := q.items ++ xs.take q.room
  bounded := by
    have hroom := q.bounded
    rw [List.length_append, List.length_take, room]
    omega

/-- The queue without its oldest value. -/
def rest (q : Fifo α cap) : Fifo α cap where
  items := q.items.tail
  bounded := by
    have hbound := q.bounded
    rw [List.length_tail]
    omega

@[simp] theorem items_empty : (empty : Fifo α cap).items = [] := rfl

@[simp] theorem items_push (xs : List α) (q : Fifo α cap) :
    (q.push xs).items = q.items ++ xs.take q.room := rfl

@[simp] theorem items_rest (q : Fifo α cap) : q.rest.items = q.items.tail := rfl

end Fifo
