import RoboticArm.Horner
import Mathlib.Analysis.Complex.Basic
import Mathlib.Analysis.Complex.Exponential
import Mathlib.Analysis.Complex.Trigonometric
import Mathlib.Tactic.NormNum

/- Polynomials in place of sine and cosine.

   The first `n` terms of the two series as coefficients in the square of the argument, and how
   far a polynomial is from sine or cosine where it is near them: `abs_sin_sub_le` and
   `abs_cos_sub_le` bound the error of any polynomial of that form on an interval around zero by
   rationals, one for the difference from the series (`Horner.bound`) and one for the rest of
   the series. -/
namespace Series

open Horner

def sinTerms (n : ℕ) : List ℚ := (List.range n).map fun k => (-1) ^ k / ((2 * k + 1).factorial : ℚ)

def cosTerms (n : ℕ) : List ℚ := (List.range n).map fun k => (-1) ^ k / ((2 * k).factorial : ℚ)

/-- The series of the exponential on the imaginary axis, two terms at a time. -/
theorem sum_exp_mul_I (t : ℝ) (n : ℕ) :
    ∑ m ∈ Finset.range (2 * n), (t * Complex.I) ^ m / (m.factorial : ℂ) =
      (eval (cosTerms n) (t ^ 2) : ℝ) + (t * eval (sinTerms n) (t ^ 2) : ℝ) * Complex.I := by
  induction n with
  | zero => simp [sinTerms, cosTerms]
  | succ n ih =>
    have hsin : eval (sinTerms (n + 1)) (t ^ 2) =
        eval (sinTerms n) (t ^ 2) + (-1) ^ n / ((2 * n + 1).factorial : ℝ) * (t ^ 2) ^ n := by
      rw [sinTerms, sinTerms, eval_map_range, eval_map_range, Finset.sum_range_succ]
      push_cast
      rfl
    have hcos : eval (cosTerms (n + 1)) (t ^ 2) =
        eval (cosTerms n) (t ^ 2) + (-1) ^ n / ((2 * n).factorial : ℝ) * (t ^ 2) ^ n := by
      rw [cosTerms, cosTerms, eval_map_range, eval_map_range, Finset.sum_range_succ]
      push_cast
      rfl
    have hodd : (Complex.I) ^ (2 * n + 1) = (-1) ^ n * Complex.I := by
      rw [pow_succ, pow_mul, Complex.I_sq]
    have heven : (Complex.I) ^ (2 * n) = (-1) ^ n := by
      rw [pow_mul, Complex.I_sq]
    rw [show 2 * (n + 1) = 2 * n + 1 + 1 by ring, Finset.sum_range_succ, Finset.sum_range_succ, ih,
      hsin, hcos, mul_pow, mul_pow, hodd, heven]
    push_cast
    ring

section
variable {t : ℝ} {n : ℕ}

theorem norm_exp_sub_le (ht : |t| / (2 * n + 1) ≤ 1 / 2) :
    ‖Complex.exp (t * Complex.I) -
        ∑ m ∈ Finset.range (2 * n), (t * Complex.I) ^ m / (m.factorial : ℂ)‖ ≤
      |t| ^ (2 * n) / (2 * n).factorial * 2 := by
  have hnorm : ‖(t * Complex.I : ℂ)‖ = |t| := by
    rw [norm_mul, Complex.norm_I, mul_one, Complex.norm_real, Real.norm_eq_abs]
  have hbound := Complex.exp_bound' (x := t * Complex.I) (n := 2 * n) (by
    rw [hnorm]
    push_cast
    exact ht)
  rw [hnorm] at hbound
  exact hbound

theorem abs_sin_sub_series_le (ht : |t| / (2 * n + 1) ≤ 1 / 2) :
    |Real.sin t - t * eval (sinTerms n) (t ^ 2)| ≤ |t| ^ (2 * n) / (2 * n).factorial * 2 := by
  refine le_trans ?_ (norm_exp_sub_le ht)
  rw [sum_exp_mul_I, Complex.exp_mul_I, ← Complex.ofReal_cos, ← Complex.ofReal_sin]
  refine le_trans (le_of_eq ?_) (Complex.abs_im_le_norm _)
  simp [Complex.sin_ofReal_re]

theorem abs_cos_sub_series_le (ht : |t| / (2 * n + 1) ≤ 1 / 2) :
    |Real.cos t - eval (cosTerms n) (t ^ 2)| ≤ |t| ^ (2 * n) / (2 * n).factorial * 2 := by
  refine le_trans ?_ (norm_exp_sub_le ht)
  rw [sum_exp_mul_I, Complex.exp_mul_I, ← Complex.ofReal_cos, ← Complex.ofReal_sin]
  refine le_trans (le_of_eq ?_) (Complex.abs_re_le_norm _)
  simp [Complex.cos_ofReal_re]

/-! ## Polynomials in the square -/

/-- How far `t + t ^ 3 * p (t ^ 2)` is from sine where `|t| ≤ 3.1417`, on both counts. -/
def sinError (n : ℕ) (p : List ℚ) : ℚ :=
  (31417 / 10000) ^ 3 * bound 5 5 (sub ((sinTerms n).drop 1) p) +
    (31417 / 10000) ^ (2 * n) / (2 * n).factorial * 2

/-- How far `1 + t ^ 2 * p (t ^ 2)` is from cosine there. -/
def cosError (n : ℕ) (p : List ℚ) : ℚ :=
  (31417 / 10000) ^ 2 * bound 5 5 (sub ((cosTerms n).drop 1) p) +
    (31417 / 10000) ^ (2 * n) / (2 * n).factorial * 2

theorem sinTerms_succ (n : ℕ) : sinTerms (n + 1) = 1 :: (sinTerms (n + 1)).drop 1 := by
  rw [sinTerms, List.range_succ_eq_map, List.map_cons, List.drop_one, List.tail_cons]
  norm_num

theorem cosTerms_succ (n : ℕ) : cosTerms (n + 1) = 1 :: (cosTerms (n + 1)).drop 1 := by
  rw [cosTerms, List.range_succ_eq_map, List.map_cons, List.drop_one, List.tail_cons]
  norm_num

theorem abs_sq_sub_le (ht : |t| ≤ 31417 / 10000) : |t ^ 2 - (5 : ℚ)| ≤ (5 : ℚ) := by
  have hsq : t ^ 2 ≤ (31417 / 10000) ^ 2 := by
    rw [← sq_abs]
    exact pow_le_pow_left₀ (abs_nonneg t) ht 2
  push_cast
  rw [abs_le]
  constructor
  · nlinarith [sq_nonneg t]
  · linarith

theorem ratio_le (hn : 6 ≤ 2 * n) (ht : |t| ≤ 31417 / 10000) : |t| / (2 * n + 1) ≤ 1 / 2 := by
  have hn' : (6 : ℝ) ≤ 2 * n := by exact_mod_cast hn
  rw [div_le_div_iff₀ (by linarith) (by norm_num)]
  linarith

theorem abs_pow_le (ht : |t| ≤ 31417 / 10000) (k : ℕ) : |t ^ k| ≤ (31417 / 10000) ^ k := by
  rw [abs_pow]
  exact pow_le_pow_left₀ (abs_nonneg t) ht k

theorem abs_neg_mul_sub_le {a d r A D R : ℝ} (ha : |a| ≤ A) (hd : |d| ≤ D) (hr : |r| ≤ R) :
    |-(a * d) - r| ≤ A * D + R := by
  calc |-(a * d) - r| ≤ |-(a * d)| + |r| := abs_sub _ _
    _ ≤ A * D + R := by
      rw [abs_neg, abs_mul]
      exact add_le_add (mul_le_mul ha hd (abs_nonneg d) ((abs_nonneg a).trans ha)) hr

theorem rest_le (ht : |t| ≤ 31417 / 10000) : |t| ^ (2 * n) / (2 * n).factorial * 2 ≤
    (31417 / 10000 : ℝ) ^ (2 * n) / (2 * n).factorial * 2 := by
  have hpow := pow_le_pow_left₀ (abs_nonneg t) ht (2 * n)
  have hfact : (0 : ℝ) < (2 * n).factorial := Nat.cast_pos.2 (Nat.factorial_pos _)
  gcongr

theorem abs_sin_sub_le (p : List ℚ) (hn : 6 ≤ 2 * n) (ht : |t| ≤ 31417 / 10000) :
    |t + t ^ 3 * eval p (t ^ 2) - Real.sin t| ≤ (sinError n p : ℝ) := by
  obtain ⟨k, rfl⟩ : ∃ k, n = k + 1 := ⟨n - 1, by omega⟩
  have hrest := (abs_sin_sub_series_le (ratio_le hn ht)).trans (rest_le ht)
  have hdiff := abs_eval_le (sub ((sinTerms (k + 1)).drop 1) p) (abs_sq_sub_le ht)
  -- the polynomial against the series, and the series against the sine
  have hsplit : t + t ^ 3 * eval p (t ^ 2) - Real.sin t =
      -(t ^ 3 * eval (sub ((sinTerms (k + 1)).drop 1) p) (t ^ 2)) -
        (Real.sin t - t * eval (sinTerms (k + 1)) (t ^ 2)) := by
    rw [eval_sub, sinTerms_succ, eval_cons, List.drop_one, List.tail_cons]
    push_cast
    ring
  rw [hsplit, sinError]
  push_cast
  exact abs_neg_mul_sub_le (abs_pow_le ht 3) hdiff hrest

theorem abs_cos_sub_le (p : List ℚ) (hn : 6 ≤ 2 * n) (ht : |t| ≤ 31417 / 10000) :
    |1 + t ^ 2 * eval p (t ^ 2) - Real.cos t| ≤ (cosError n p : ℝ) := by
  obtain ⟨k, rfl⟩ : ∃ k, n = k + 1 := ⟨n - 1, by omega⟩
  have hrest := (abs_cos_sub_series_le (ratio_le hn ht)).trans (rest_le ht)
  have hdiff := abs_eval_le (sub ((cosTerms (k + 1)).drop 1) p) (abs_sq_sub_le ht)
  have hsplit : 1 + t ^ 2 * eval p (t ^ 2) - Real.cos t =
      -(t ^ 2 * eval (sub ((cosTerms (k + 1)).drop 1) p) (t ^ 2)) -
        (Real.cos t - eval (cosTerms (k + 1)) (t ^ 2)) := by
    rw [eval_sub, cosTerms_succ, eval_cons, List.drop_one, List.tail_cons]
    push_cast
    ring
  rw [hsplit, cosError]
  push_cast
  exact abs_neg_mul_sub_le (abs_pow_le ht 2) hdiff hrest

end

end Series
