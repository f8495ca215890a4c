import RoboticArm.Arm
import RoboticArm.Series
import Mathlib.Algebra.Order.Archimedean.Real.Basic
import Mathlib.Algebra.Order.Floor.Ring
import Mathlib.Analysis.Real.Pi.Bounds
import Mathlib.Analysis.SpecialFunctions.Trigonometric.Bounds

/- Sine and cosine as the firmware computes them, over exact numbers.

   `fast_sin_cos` takes off a multiple of `F_PI`, brings the rest to the half of the circle
   around zero, and evaluates two polynomials of degree five in its square. The literals are
   the single-precision numbers nearest to the decimals of the header, so `F_PI` is more than
   `π` by nearly 9 units of the eighth decimal: what is taken off is not quite a multiple of
   the period, and the rest is not quite within `π`.

   1. `reduce_spec`: what is taken off is an even multiple of `F_PI`, and the rest is within 3.1417.
   2. `fast_sin_cos_close`: up to 1000 radians the results are within 2 and 6 millionths of sine
      and cosine, and 3 units of the eighth decimal more for each radian.

   Correspondence (C ↔ Lean):
     `f1`, `f2`, `F_PI`, `0.31830988f`          ↔ `f1`, `f2`, `fPi`, `fPiInv`
     the first lines of `fast_sin`, `fast_cos`  ↔ `reduce`
     `fast_sin`, `fast_cos`, `fast_sin_cos`     ↔ `fastSin`, `fastCos`, `fastSinCos` -/
namespace RoboticArm

section
variable {K : Type*} [Field K]

def f1 (x : K) : K :=
  let u : K := 4874173 / 2 ^ 55 -- 1.3528548e-10f
  let u := u * x + -6953317 / 2 ^ 48 -- -2.4703144e-08f
  let u := u * x + 12109109 / 2 ^ 42 -- 2.7532926e-06f
  let u := u * x + -6817103 / 2 ^ 35 -- -0.00019840381f
  let u := u * x + 1118479 / 2 ^ 27 -- 0.0083333179f
  u * x + -5592405 / 2 ^ 25 -- -0.16666666f

def f2 (x : K) : K :=
  let u : K := 7787001 / 2 ^ 52 -- 1.7290616e-09f
  let u := u * x + -9532673 / 2 ^ 45 -- -2.7093486e-07f
  let u := u * x + 13618355 / 2 ^ 39 -- 2.4771643e-05f
  let u := u * x + -2982405 / 2 ^ 31 -- -0.0013887906f
  let u := u * x + 11184771 / 2 ^ 28 -- 0.041666519f
  u * x + -16777213 / 2 ^ 25 -- -0.49999991f

/-- 3.14159265358979323846f -/
def fPi : K := 13176795 / 4194304

/-- 0.31830988f -/
def fPiInv : K := 10680707 / 33554432

variable [LinearOrder K] [FloorRing K]

/-- `(int)x`. -/
def toInt (x : K) : ℤ := if x < 0 then ⌈x⌉ else ⌊x⌋

/-- The argument brought to the half of the circle around zero. -/
def reduce (x : K) : K :=
  let si := toInt (x * fPiInv)
  let x := x - si * fPi
  if si % 2 = 1 then if 0 < x then x - fPi else x + fPi else x

def fastSin (x : K) : K :=
  let x := reduce x
  x + x * x * x * f1 (x * x)

def fastCos (x : K) : K :=
  let x := reduce x
  1 + x * x * f2 (x * x)

def fastSinCos (x : K) : K × K :=
  let x := reduce x
  (x + x * x * x * f1 (x * x), 1 + x * x * f2 (x * x))

end

/-! ## The polynomials -/

def sinCoefficients : List ℚ :=
  [-5592405 / 2 ^ 25, 1118479 / 2 ^ 27, -6817103 / 2 ^ 35, 12109109 / 2 ^ 42, -6953317 / 2 ^ 48,
    4874173 / 2 ^ 55]

def cosCoefficients : List ℚ :=
  [-16777213 / 2 ^ 25, 11184771 / 2 ^ 28, -2982405 / 2 ^ 31, 13618355 / 2 ^ 39, -9532673 / 2 ^ 45,
    7787001 / 2 ^ 52]

open Horner in
theorem f1_eq (x : ℝ) : f1 x = eval sinCoefficients x := by
  simp only [f1, sinCoefficients, eval_cons, eval_nil]
  push_cast
  ring

open Horner in
theorem f2_eq (x : ℝ) : f2 x = eval cosCoefficients x := by
  simp only [f2, cosCoefficients, eval_cons, eval_nil]
  push_cast
  ring

theorem sinError_le : ((Series.sinError 10 sinCoefficients : ℚ) : ℝ) ≤ 13 / 10 ^ 7 := by
  have h : Series.sinError 10 sinCoefficients ≤ 13 / 10 ^ 7 := by decide +kernel
  have hcast := (Rat.cast_le (K := ℝ)).2 h
  push_cast at hcast
  exact hcast

theorem cosError_le : ((Series.cosError 10 cosCoefficients : ℚ) : ℝ) ≤ 58 / 10 ^ 7 := by
  have h : Series.cosError 10 cosCoefficients ≤ 58 / 10 ^ 7 := by decide +kernel
  have hcast := (Rat.cast_le (K := ℝ)).2 h
  push_cast at hcast
  exact hcast

/-! ## The argument -/

theorem abs_sub_toInt_lt (x : ℝ) : |x - toInt x| < 1 := by
  rw [toInt, abs_lt]
  split
  · exact ⟨by linarith [Int.ceil_lt_add_one x], by linarith [Int.le_ceil x]⟩
  · exact ⟨by linarith [Int.floor_le x], by linarith [Int.lt_floor_add_one x]⟩

theorem abs_fPi_sub_pi_le : |(fPi : ℝ) - Real.pi| ≤ 9 / 10 ^ 8 := by
  have hlo := Real.pi_gt_d20
  have hhi := Real.pi_lt_d20
  rw [fPi, abs_le]
  constructor
  · linarith
  · linarith

theorem even_turns {m : ℤ} (hm : m % 2 = 0) (x : ℝ) :
    x - m * fPi = x - (m / 2 : ℤ) * (2 * fPi) := by
  have hcast : (m : ℝ) = (m / 2 : ℤ) * 2 := by
    have hint : m = m / 2 * 2 := by omega
    exact_mod_cast hint
  rw [← mul_assoc, ← hcast]

/-- An even multiple of `F_PI` is taken off, and the rest is near the half of the circle around
zero. -/
theorem reduce_spec {x : ℝ} (hx : |x| ≤ 1000) :
    ∃ n : ℤ, reduce x = x - n * (2 * fPi) ∧ |reduce x| ≤ 31417 / 10000 := by
  generalize hsi : toInt (x * fPiInv) = si
  have hnear := abs_sub_toInt_lt (x * fPiInv)
  rw [hsi, abs_lt, fPiInv] at hnear
  rw [abs_le] at hx
  have hrest : |x - si * fPi| ≤ 31417 / 10000 := by
    rw [fPi, abs_le]
    constructor <;> linarith
  rw [abs_le] at hrest
  have hreduce : reduce x = if si % 2 = 1 then
      if 0 < x - si * fPi then x - si * fPi - fPi else x - si * fPi + fPi else x - si * fPi := by
    rw [reduce, hsi]
  have hpi : (fPi : ℝ) = 13176795 / 4194304 := rfl
  rw [hreduce]
  -- the multiple of `F_PI` taken off is `si` or, where that is odd, a neighbour
  by_cases hodd : si % 2 = 1
  · rw [if_pos hodd]
    split
    · next hpos =>
      have hup : x - si * fPi - fPi = x - (si + 1 : ℤ) * fPi := by
        push_cast
        ring
      rw [hup]
      refine ⟨(si + 1) / 2, even_turns (by omega) x, ?_⟩
      rw [← hup, abs_le]
      constructor <;> linarith
    · next hneg =>
      have hdown : x - si * fPi + fPi = x - (si - 1 : ℤ) * fPi := by
        push_cast
        ring
      rw [hdown]
      refine ⟨(si - 1) / 2, even_turns (by omega) x, ?_⟩
      rw [← hdown, abs_le]
      constructor <;> linarith
  · rw [if_neg hodd]
    refine ⟨si / 2, even_turns (by omega) x, ?_⟩
    rw [abs_le]
    constructor <;> linarith

/-! ## Sine and cosine -/

/-- What is taken off differs from whole turns by the error of `F_PI` for each half turn. -/
theorem abs_reduce_sub_le {x : ℝ} {n : ℤ} (h : reduce x = x - n * (2 * fPi))
    (hle : |reduce x| ≤ 31417 / 10000) :
    |reduce x - (x - n * (2 * Real.pi))| ≤ 1 / 10 ^ 7 + 3 / 10 ^ 8 * |x| := by
  have hpi := abs_fPi_sub_pi_le
  have hthree : (3 : ℝ) ≤ fPi := by norm_num [fPi]
  have hturns : |(2 * n : ℝ)| ≤ (|x| + 31417 / 10000) / 3 := by
    have hoff : (2 * n : ℝ) * fPi = x - reduce x := by
      rw [h]
      ring
    have habs : |(2 * n : ℝ)| * fPi ≤ |x| + 31417 / 10000 := by
      calc |(2 * n : ℝ)| * fPi = |x - reduce x| := by
            rw [← hoff, abs_mul _ fPi, abs_of_nonneg (zero_le_three.trans hthree)]
        _ ≤ |x| + |reduce x| := abs_sub _ _
        _ ≤ |x| + 31417 / 10000 := add_le_add le_rfl hle
    rw [le_div_iff₀ zero_lt_three]
    exact (mul_le_mul_of_nonneg_left hthree (abs_nonneg _)).trans habs
  have heq : reduce x - (x - n * (2 * Real.pi)) = -(2 * n * (fPi - Real.pi)) := by
    rw [h]
    ring
  rw [heq, abs_neg, abs_mul]
  have hmul := mul_le_mul hturns hpi (abs_nonneg _) (by positivity)
  linarith

theorem abs_fastSin_sub_le {x : ℝ} (hx : |x| ≤ 1000) :
    |fastSin x - Real.sin x| ≤ 2 / 10 ^ 6 + 3 / 10 ^ 8 * |x| := by
  obtain ⟨n, hreduce, hle⟩ := reduce_spec hx
  have hpoly := Series.abs_sin_sub_le sinCoefficients (n := 10) (by decide) hle
  have hshift : |Real.sin (reduce x) - Real.sin x| ≤ 1 / 10 ^ 7 + 3 / 10 ^ 8 * |x| := by
    rw [← Real.sin_sub_int_mul_two_pi x n]
    exact (Real.abs_sin_sub_sin_le _ _).trans (abs_reduce_sub_le hreduce hle)
  have hfast : fastSin x = reduce x + reduce x ^ 3 * Horner.eval sinCoefficients (reduce x ^ 2) := by
    rw [fastSin, f1_eq]
    ring_nf
  calc |fastSin x - Real.sin x|
      ≤ |fastSin x - Real.sin (reduce x)| + |Real.sin (reduce x) - Real.sin x| := abs_sub_le _ _ _
    _ ≤ 13 / 10 ^ 7 + (1 / 10 ^ 7 + 3 / 10 ^ 8 * |x|) := by
      rw [hfast]
      exact add_le_add (hpoly.trans sinError_le) hshift
    _ ≤ 2 / 10 ^ 6 + 3 / 10 ^ 8 * |x| := by linarith

theorem abs_fastCos_sub_le {x : ℝ} (hx : |x| ≤ 1000) :
    |fastCos x - Real.cos x| ≤ 6 / 10 ^ 6 + 3 / 10 ^ 8 * |x| := by
  obtain ⟨n, hreduce, hle⟩ := reduce_spec hx
  have hpoly := Series.abs_cos_sub_le cosCoefficients (n := 10) (by decide) hle
  have hshift : |Real.cos (reduce x) - Real.cos x| ≤ 1 / 10 ^ 7 + 3 / 10 ^ 8 * |x| := by
    rw [← Real.cos_sub_int_mul_two_pi x n]
    exact (Real.abs_cos_sub_cos_le _ _).trans (abs_reduce_sub_le hreduce hle)
  have hfast : fastCos x = 1 + reduce x ^ 2 * Horner.eval cosCoefficients (reduce x ^ 2) := by
    rw [fastCos, f2_eq]
    ring_nf
  calc |fastCos x - Real.cos x|
      ≤ |fastCos x - Real.cos (reduce x)| + |Real.cos (reduce x) - Real.cos x| := abs_sub_le _ _ _
    _ ≤ 58 / 10 ^ 7 + (1 / 10 ^ 7 + 3 / 10 ^ 8 * |x|) := by
      rw [hfast]
      exact add_le_add (hpoly.trans cosError_le) hshift
    _ ≤ 6 / 10 ^ 6 + 3 / 10 ^ 8 * |x| := by linarith

theorem fast_sin_cos_error {x : ℝ} (hx : |x| ≤ 10) :
    |(fastSinCos x).1 - Real.sin x| ≤ 23 / 10 ^ 7 ∧ |(fastSinCos x).2 - Real.cos x| ≤ 63 / 10 ^ 7 := by
  have hsin := abs_fastSin_sub_le (x := x) (by linarith)
  have hcos := abs_fastCos_sub_le (x := x) (by linarith)
  exact ⟨hsin.trans (by linarith), hcos.trans (by linarith)⟩

/-- The three functions agree, and are near sine and cosine for either sign and several hundred
half turns; the error of `F_PI` adds up. -/
theorem fast_sin_cos_close (x : ℝ) (hx : |x| ≤ 1000) : fastSinCos x = (fastSin x, fastCos x) ∧
    |fastSin x - Real.sin x| ≤ 2 / 10 ^ 6 + 3 / 10 ^ 8 * |x| ∧
      |fastCos x - Real.cos x| ≤ 6 / 10 ^ 6 + 3 / 10 ^ 8 * |x| :=
  ⟨rfl, abs_fastSin_sub_le hx, abs_fastCos_sub_le hx⟩

theorem fast_sin_cos_close_hundred : |(-100 : ℝ)| ≤ 1000 ∧
    fastSinCos (-100 : ℝ) = (fastSin (-100), fastCos (-100)) ∧
      |fastSin (-100) - Real.sin (-100)| ≤ 2 / 10 ^ 6 + 3 / 10 ^ 8 * |(-100 : ℝ)| ∧
        |fastCos (-100) - Real.cos (-100)| ≤ 6 / 10 ^ 6 + 3 / 10 ^ 8 * |(-100 : ℝ)| := by
  have hx : |(-100 : ℝ)| ≤ 1000 := by norm_num
  exact ⟨hx, fast_sin_cos_close (-100) hx⟩

end RoboticArm
