import RoboticArm.Cyclic
import Mathlib.Algebra.BigOperators.Fin
import Mathlib.Algebra.Order.BigOperators.Group.Finset
import Mathlib.Algebra.Order.Field.Basic
import Mathlib.Tactic.Linarith

/- Smoothing a signal: a limiter in front of a moving average.

   `limit d last v` moves from `last` towards `v`, by at most `d`. `Smoother` keeps
   the values of the last `n` writes in a cyclic array, and their mean. The rules are
   stated for an interval `[lo, hi]`:

   1. `limit_mem`, `mean_mem`: limiting and averaging stay in an interval;
   2. `Within.push`: so does a smoother into which only such values are written;
   3. `Within.of_fresh`: after `n` writes from a smaller interval it is in that one,
      whatever it held before;
   4. `limit_mem_shrink`: limiting towards `v` brings an interval around `v` nearer
      by `d`, which is where such writes come from. -/
namespace Smoothing

variable {K : Type*} [Field K] [LinearOrder K]

/-- From `last` towards `v`, by at most `d`. -/
def limit (d last v : K) : K :=
  if d < v - last then last + d else if v - last < -d then last - d else v

/-- The mean of the cells of an array. -/
def mean (n : Nat) (cells : Nat → K) : K := (∑ i ∈ Finset.range n, cells i) / n

/-- The values written last, the place of the next one, and the mean of them. -/
structure Smoother (K : Type*) where
  cells : Nat → K
  place : Nat
  last : K

/-- Write a value. -/
def Smoother.push (n : Nat) (w : K) (s : Smoother K) : Smoother K :=
  ⟨Function.update s.cells s.place w, (s.place + 1) % n, mean n (Function.update s.cells s.place w)⟩

/-- All the smoother holds is in `[lo, hi]`. -/
structure Within (n : Nat) (lo hi : K) (s : Smoother K) : Prop where
  cells : ∀ i < n, lo ≤ s.cells i ∧ s.cells i ≤ hi
  last : lo ≤ s.last ∧ s.last ≤ hi
  place : s.place < n

/-- The last `k` values written are in `[lo, hi]`. -/
def Fresh (n : Nat) (lo hi : K) (k : Nat) (s : Smoother K) : Prop :=
  ∃ h, s.place = (h + k) % n ∧ ∀ x ∈ Cyclic.window n s.cells h k, lo ≤ x ∧ x ≤ hi

variable [IsStrictOrderedRing K] {n k : Nat} {d lo hi lo' hi' last v m w : K} {s : Smoother K}

theorem limit_mem (hd : 0 ≤ d) (hlast : lo ≤ last ∧ last ≤ hi) (hv : lo ≤ v ∧ v ≤ hi) :
    lo ≤ limit d last v ∧ limit d last v ≤ hi := by
  obtain ⟨hlo, hhi⟩ := hlast
  obtain ⟨hvlo, hvhi⟩ := hv
  unfold limit
  split_ifs with hup hdown
  · exact ⟨by linarith only [hd, hlo], by linarith only [hup, hvhi]⟩
  · exact ⟨by linarith only [hdown, hvlo], by linarith only [hd, hhi]⟩
  · exact ⟨hvlo, hvhi⟩

/-- Limiting towards the middle of an interval brings its ends nearer. -/
theorem limit_mem_shrink (hlast : v - m ≤ last ∧ last ≤ v + m) :
    v - max (m - d) 0 ≤ limit d last v ∧ limit d last v ≤ v + max (m - d) 0 := by
  obtain ⟨hlo, hhi⟩ := hlast
  have hm := le_max_left (m - d) 0
  have hz := le_max_right (m - d) 0
  unfold limit
  split_ifs with hup hdown
  · exact ⟨by linarith, by linarith⟩
  · exact ⟨by linarith, by linarith⟩
  · exact ⟨by linarith, by linarith⟩

theorem mean_mem {cells : Nat → K} (hn : 0 < n) (h : ∀ i < n, lo ≤ cells i ∧ cells i ≤ hi) :
    lo ≤ mean n cells ∧ mean n cells ≤ hi := by
  have hpos : (0 : K) < n := Nat.cast_pos.2 hn
  have hcard : ∀ c : K, ∑ _i ∈ Finset.range n, c = c * n := by
    intro c
    rw [Finset.sum_const, Finset.card_range, nsmul_eq_mul, mul_comm]
  have hlo : lo * n ≤ ∑ i ∈ Finset.range n, cells i := by
    rw [← hcard]
    apply Finset.sum_le_sum
    intro i hi
    exact (h i (Finset.mem_range.1 hi)).1
  have hhi : ∑ i ∈ Finset.range n, cells i ≤ hi * n := by
    rw [← hcard]
    apply Finset.sum_le_sum
    intro i hi
    exact (h i (Finset.mem_range.1 hi)).2
  exact ⟨(le_div_iff₀ hpos).2 hlo, (div_le_iff₀ hpos).2 hhi⟩

omit [Field K] [IsStrictOrderedRing K] in
theorem Within.mono (h : Within n lo hi s) (hlo : lo' ≤ lo) (hhi : hi ≤ hi') : Within n lo' hi' s where
  cells i hi := ⟨hlo.trans (h.cells i hi).1, (h.cells i hi).2.trans hhi⟩
  last := ⟨hlo.trans h.last.1, h.last.2.trans hhi⟩
  place := h.place

theorem Within.push (h : Within n lo hi s) (hw : lo ≤ w ∧ w ≤ hi) : Within n lo hi (s.push n w) := by
  have hn : 0 < n := by have := h.place; omega
  have hcells : ∀ i < n, lo ≤ Function.update s.cells s.place w i ∧
      Function.update s.cells s.place w i ≤ hi := by
    intro i hi
    by_cases hplace : i = s.place
    · rw [hplace, Function.update_self]
      exact hw
    · rw [Function.update_of_ne hplace]
      exact h.cells i hi
  exact ⟨hcells, mean_mem hn hcells, Nat.mod_lt _ hn⟩

omit [Field K] [IsStrictOrderedRing K] in
theorem fresh_zero (lo hi : K) (h : s.place < n) : Fresh n lo hi 0 s :=
  ⟨s.place, (Nat.mod_eq_of_lt h).symm, fun x hx => absurd hx (by simp)⟩

omit [IsStrictOrderedRing K] in
theorem Fresh.push (h : Fresh n lo hi k s) (hk : k < n) (hw : lo ≤ w ∧ w ≤ hi) :
    Fresh n lo hi (k + 1) (s.push n w) := by
  obtain ⟨p, hplace, hwin⟩ := h
  refine ⟨p, ?_, ?_⟩
  · show (s.place + 1) % n = _
    rw [hplace, Nat.mod_add_mod]
    rfl
  · have hwrite : Cyclic.window n (s.push n w).cells p (k + 1) =
        Cyclic.window n s.cells p k ++ (List.range 1).map fun _ => w := by
      apply Cyclic.window_write (by omega)
      · intro i hi
        obtain rfl : i = 0 := by omega
        show Function.update s.cells s.place w _ = w
        rw [Nat.add_zero, ← hplace, Function.update_self]
      · intro j _ hne
        have hother : j ≠ s.place := by
          rw [hplace]
          exact hne 0 (by omega)
        exact Function.update_of_ne hother _ _
    intro x hx
    rw [hwrite, List.mem_append] at hx
    rcases hx with hx | hx
    · exact hwin x hx
    · obtain rfl : x = w := by simpa using hx
      exact hw

/-- After a write, a smoother all of whose values are fresh is within their interval. -/
theorem Within.of_fresh (hn : 0 < n) (h : Fresh n lo hi n s) (hlast : s.last = mean n s.cells) :
    Within n lo hi s := by
  obtain ⟨p, hplace, hwin⟩ := h
  have hcells : ∀ i < n, lo ≤ s.cells i ∧ s.cells i ≤ hi := by
    intro i hi
    apply hwin
    apply List.mem_map.2
    refine ⟨(i + (n - p % n)) % n, List.mem_range.2 (Nat.mod_lt _ hn), ?_⟩
    have hp := Nat.mod_lt p hn
    have hround : (p + (i + (n - p % n)) % n) % n = i := by
      rw [Nat.add_mod_mod, Nat.add_mod, ← Nat.add_mod, ← Nat.mod_add_mod,
        show p % n + (i + (n - p % n)) = i + n by omega, Nat.add_mod_right, Nat.mod_eq_of_lt hi]
    rw [hround]
  refine ⟨hcells, ?_, ?_⟩
  · rw [hlast]
    exact mean_mem hn hcells
  · rw [hplace]
    exact Nat.mod_lt _ hn

end Smoothing
