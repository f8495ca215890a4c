import Mathlib.Algebra.BigOperators.Ring.Finset
import Mathlib.Algebra.Order.AbsoluteValue.Basic
import Mathlib.Algebra.Order.Field.Basic
import Mathlib.Data.Rat.Cast.Order
import Mathlib.Tactic.Linarith
import Mathlib.Tactic.Ring

/- Polynomials with rational coefficients as lists, lowest first, and what they can be on an
   interval.

   `eval` is Horner's scheme in any ordered field. The coefficients about another centre come
   from repeated linear steps (`shift`, `eval_shift`), and on an interval about it the sum of
   their absolute values is a bound that a computation on rationals can give (`abs_eval_le`). -/
namespace Horner

section
variable {K : Type*} [Field K]

def eval (p : List ℚ) (x : K) : K := p.foldr (fun (c : ℚ) v => (c : K) + x * v) 0

@[simp] theorem eval_nil (x : K) : eval [] x = 0 := rfl

@[simp] theorem eval_cons (c : ℚ) (p : List ℚ) (x : K) : eval (c :: p) x = c + x * eval p x := rfl

theorem eval_append (p q : List ℚ) (x : K) : eval (p ++ q) x = eval p x + x ^ p.length * eval q x := by
  induction p with
  | nil => simp
  | cons c p ih =>
    rw [List.cons_append, eval_cons, ih, eval_cons, List.length_cons]
    ring

theorem eval_map_range (f : ℕ → ℚ) (n : ℕ) (x : K) :
    eval ((List.range n).map f) x = ∑ k ∈ Finset.range n, (f k : K) * x ^ k := by
  induction n with
  | zero => rfl
  | succ n ih =>
    rw [List.range_succ, List.map_append, eval_append, ih, Finset.sum_range_succ, List.length_map,
      List.length_range, List.map_singleton, eval_cons, eval_nil]
    ring

/-! ## Differences -/

def sub : List ℚ → List ℚ → List ℚ
  | [], q => q.map fun c => -c
  | p, [] => p
  | c :: p, d :: q => (c - d) :: sub p q

theorem eval_neg (p : List ℚ) (x : K) : eval (p.map fun c => -c) x = -eval p x := by
  induction p with
  | nil => simp
  | cons c p ih =>
    rw [List.map_cons, eval_cons, ih, eval_cons, Rat.cast_neg]
    ring

variable [CharZero K]

theorem eval_sub (p q : List ℚ) (x : K) : eval (sub p q) x = eval p x - eval q x := by
  induction p, q using sub.induct with
  | case1 q => rw [sub, eval_neg, eval_nil, zero_sub]
  | case2 p hp =>
    rw [eval_nil, sub_zero]
    cases p with
    | nil => exact absurd rfl hp
    | cons c p => rfl
  | case3 c p d q ih =>
    rw [sub, eval_cons, ih, eval_cons, eval_cons, Rat.cast_sub]
    ring

/-! ## Another centre -/

/-- The coefficients of `c + (x + m) * p`. -/
def linear (m c : ℚ) : List ℚ → List ℚ
  | [] => [c]
  | d :: p => (c + m * d) :: linear m d p

/-- The coefficients of `p` about `m`. -/
def shift (m : ℚ) : List ℚ → List ℚ
  | [] => []
  | c :: p => linear m c (shift m p)

theorem eval_linear (m c : ℚ) (p : List ℚ) (x : K) :
    eval (linear m c p) x = c + (x + m) * eval p x := by
  induction p generalizing c with
  | nil => simp [linear]
  | cons d p ih =>
    rw [linear, eval_cons, ih, eval_cons, Rat.cast_add, Rat.cast_mul]
    ring

theorem eval_shift (m : ℚ) (p : List ℚ) (x : K) : eval (shift m p) x = eval p (x + m) := by
  induction p with
  | nil => rfl
  | cons c p ih => rw [shift, eval_linear, ih, eval_cons]

theorem cast_eval (p : List ℚ) (x : ℚ) : ((eval p x : ℚ) : K) = eval p (x : K) := by
  induction p with
  | nil => simp
  | cons c p ih => rw [eval_cons, eval_cons, ← ih, Rat.cast_add, Rat.cast_mul, Rat.cast_id]

end

/-! ## Bounds -/

section
variable {K : Type*} [Field K] [LinearOrder K] [IsStrictOrderedRing K]

theorem abs_eval_le_of_abs_le (p : List ℚ) {x r : K} (hx : |x| ≤ r) :
    |eval p x| ≤ eval (p.map fun c => |c|) r := by
  induction p with
  | nil => simp
  | cons c p ih =>
    have hr : 0 ≤ r := (abs_nonneg x).trans hx
    calc |eval (c :: p) x| ≤ |(c : K)| + |x * eval p x| := abs_add_le _ _
      _ = |(c : K)| + |x| * |eval p x| := by rw [abs_mul]
      _ ≤ |(c : K)| + r * eval (p.map fun c => |c|) r := by
        have hmul := mul_le_mul hx ih (abs_nonneg _) hr
        linarith
      _ = eval ((c :: p).map fun c => |c|) r := by rw [List.map_cons, eval_cons, Rat.cast_abs]

/-- What the coefficients about `m` say of the values within `r` of it. -/
def bound (m r : ℚ) (p : List ℚ) : ℚ := eval ((shift m p).map fun c => |c|) r

theorem abs_eval_le (p : List ℚ) {m r : ℚ} {x : K} (hx : |x - m| ≤ r) : |eval p x| ≤ bound m r p := by
  have h := abs_eval_le_of_abs_le (shift m p) hx
  rw [eval_shift, sub_add_cancel] at h
  rw [bound, cast_eval]
  exact h

end

end Horner
