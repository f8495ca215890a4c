import Mathlib.Analysis.Complex.Exponential
import Mathlib.Analysis.SpecialFunctions.Complex.Circle
import Mathlib.Data.List.Iterate

/- Two facts about functions known at sample points, for results that are checked by
   computation on integers.

   1. Cosine and sine at the multiples of an angle. `Turn.next` turns a point of the
      plane, in units of `1 / d`, by a fixed point `w` and rounds down; started at 1 and
      iterated it stays within `n * (δ + 2 / d)` of the `n`-th multiple of the angle when
      `w` is within `δ` of the angle itself (`norm_turn_sub_le`).
   2. Covering an interval by a list of intervals, each of which starts before the one
      before it ends (`exists_mem_of_linked`). -/
namespace Samples

/-! ## Cosine and sine by rotation -/

/-- A point of the plane in units of `1 / d`. -/
structure Turn where
  c : Int
  s : Int
  deriving DecidableEq, Repr

namespace Turn

/-- The product with `w`, rounded down to units. -/
def next (d : Int) (w t : Turn) : Turn :=
  ⟨(t.c * w.c - t.s * w.s) / d, (t.c * w.s + t.s * w.c) / d⟩

/-- The point 1. -/
def one (d : Int) : Turn := ⟨d, 0⟩

noncomputable def toComplex (d : Int) (t : Turn) : ℂ := ⟨t.c / d, t.s / d⟩

variable {d : Int} {w t : Turn}

theorem toComplex_one (hd : 0 < d) : (one d).toComplex d = 1 := by
  have hd' : (d : ℝ) ≠ 0 := by exact_mod_cast hd.ne'
  apply Complex.ext
  · simp [one, toComplex, hd']
  · simp [one, toComplex]

theorem abs_ediv_sub_le (hd : 0 < d) (a : Int) :
    |((a / d : Int) : ℝ) / d - (a : ℝ) / d / d| ≤ 1 / d := by
  have hd' : (0 : ℝ) < d := by exact_mod_cast hd
  have hdiv : (a : ℝ) = d * (a / d : Int) + (a % d : Int) := by
    exact_mod_cast (Int.mul_ediv_add_emod a d).symm
  have hlo : (0 : ℝ) ≤ (a % d : Int) := by exact_mod_cast Int.emod_nonneg a hd.ne'
  have hhi : ((a % d : Int) : ℝ) ≤ d := by exact_mod_cast (Int.emod_lt_of_pos a hd).le
  have heq : ((a / d : Int) : ℝ) / d - (a : ℝ) / d / d = -((a % d : Int) / d / d) := by
    rw [hdiv]
    field_simp
    ring
  rw [heq, abs_neg, abs_of_nonneg (by positivity)]
  gcongr
  rw [div_le_one hd']
  exact hhi

theorem norm_next_sub_le (hd : 0 < d) :
    ‖(next d w t).toComplex d - t.toComplex d * w.toComplex d‖ ≤ 2 / d := by
  have hd' : (d : ℝ) ≠ 0 := by exact_mod_cast hd.ne'
  have hre : ((next d w t).toComplex d - t.toComplex d * w.toComplex d).re =
      (((t.c * w.c - t.s * w.s) / d : Int) : ℝ) / d - ((t.c * w.c - t.s * w.s : Int) : ℝ) / d / d := by
    simp only [next, toComplex, Complex.sub_re, Complex.mul_re]
    push_cast
    field_simp
  have him : ((next d w t).toComplex d - t.toComplex d * w.toComplex d).im =
      (((t.c * w.s + t.s * w.c) / d : Int) : ℝ) / d - ((t.c * w.s + t.s * w.c : Int) : ℝ) / d / d := by
    simp only [next, toComplex, Complex.sub_im, Complex.mul_im]
    push_cast
    field_simp
  calc ‖(next d w t).toComplex d - t.toComplex d * w.toComplex d‖
      ≤ |((next d w t).toComplex d - t.toComplex d * w.toComplex d).re| +
        |((next d w t).toComplex d - t.toComplex d * w.toComplex d).im| :=
        Complex.norm_le_abs_re_add_abs_im _
    _ ≤ 1 / d + 1 / d := by
      rw [hre, him]
      exact add_le_add (abs_ediv_sub_le hd _) (abs_ediv_sub_le hd _)
    _ = 2 / d := by ring

/-- The error grows by the same amount in every turn. -/
theorem norm_turn_sub_le {θ δ : ℝ} (hd : 0 < d) (hw : ‖w.toComplex d‖ ≤ 1)
    (hδ : ‖w.toComplex d - Complex.exp (θ * Complex.I)‖ ≤ δ) (n : Nat) :
    ‖((next d w)^[n] (one d)).toComplex d - Complex.exp ((n * θ : ℝ) * Complex.I)‖ ≤
      n * (δ + 2 / d) := by
  induction n with
  | zero => simp [toComplex_one hd]
  | succ n ih =>
    rw [Function.iterate_succ_apply']
    generalize (next d w)^[n] (one d) = t at ih ⊢
    let e : ℂ := Complex.exp ((n * θ : ℝ) * Complex.I)
    have hexp : Complex.exp (((n + 1 : Nat) * θ : ℝ) * Complex.I) =
        e * Complex.exp (θ * Complex.I) := by
      rw [← Complex.exp_add]
      congr 1
      push_cast
      ring
    have he : ‖e‖ = 1 := Complex.norm_exp_ofReal_mul_I _
    -- the rounding, the error so far turned on, and the error of the turn itself
    have hsplit : (next d w t).toComplex d - e * Complex.exp (θ * Complex.I) =
        ((next d w t).toComplex d - t.toComplex d * w.toComplex d) +
          (t.toComplex d - e) * w.toComplex d + e * (w.toComplex d - Complex.exp (θ * Complex.I)) := by
      ring
    have hround := norm_next_sub_le (w := w) (t := t) hd
    have hturn : ‖(t.toComplex d - e) * w.toComplex d‖ ≤ n * (δ + 2 / d) := by
      rw [norm_mul]
      calc ‖t.toComplex d - e‖ * ‖w.toComplex d‖ ≤ ‖t.toComplex d - e‖ * 1 := by gcongr
        _ ≤ n * (δ + 2 / d) := by rw [mul_one]; exact ih
    have hangle : ‖e * (w.toComplex d - Complex.exp (θ * Complex.I))‖ ≤ δ := by
      rw [norm_mul, he, one_mul]
      exact hδ
    rw [hexp, hsplit]
    calc _ ≤ 2 / d + n * (δ + 2 / d) + δ := (norm_add₃_le).trans (by gcongr)
      _ = (n + 1 : Nat) * (δ + 2 / d) := by push_cast; ring

end Turn

/-! ## Covering an interval -/

/-- Intervals that start before `x`, each before the end of the one before it, and the last
of which ends after `x`, cover `x`. -/
theorem exists_mem_of_linked {A K : Type*} [LinearOrder K] (lo hi : A → K) {x : K} :
    ∀ (as : List A) (h : as ≠ []), lo (as.head h) ≤ x → as.IsChain (fun a b => lo b ≤ hi a) →
      x ≤ hi (as.getLast h) → ∃ a ∈ as, lo a ≤ x ∧ x ≤ hi a
  | [a], _, ha, _, hlast => ⟨a, List.mem_singleton_self a, ha, hlast⟩
  | a :: b :: as, _, ha, hlink, hlast => by
    obtain ⟨hab, hrest⟩ := List.isChain_cons_cons.1 hlink
    by_cases hx : x ≤ hi a
    · exact ⟨a, List.mem_cons_self, ha, hx⟩
    · have hb : lo b ≤ x := hab.trans (le_of_not_ge hx)
      obtain ⟨c, hc, hcover⟩ :=
        exists_mem_of_linked lo hi (b :: as) (List.cons_ne_nil b as) hb hrest hlast
      exact ⟨c, List.mem_cons_of_mem a hc, hcover⟩

end Samples
