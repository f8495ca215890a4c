import RoboticArm.Nearest
import RoboticArm.Targets
import RoboticArm.Workspace

/- Whether the tool points down.

   The height formula of the search takes the tool for vertical: it subtracts `A5`. `J5` is
   computed for that, `J2 + J3 + J4 + J5 = π`, and then limited to `[0, 3π/4]` without the
   candidate being dropped.

   The loop counters `i, j, k` of a candidate decide (`vertical_iff`): it is vertical
   exactly when their sum is between 24 and 47. Candidates past either end are counted for
   targets of the box (`not_vertical_counted`). -/
namespace RoboticArm

/-- The candidate of the loop counters `i`, `j` and `k`. -/
noncomputable def candidate (i j k : ℕ) : ℝ × ℝ × ℝ :=
  (-Real.pi / 2 + i * (1 / 10), 0 + j * (1 / 10), 0 + k * (1 / 10))

/-- The search counts the triple as a solution for the target. -/
structure Counted (p : Pos ℝ) (c : ℝ × ℝ × ℝ) : Prop where
  target : InBox p
  grid : c ∈ grid realMath
  passes : passes realMath p.x p.y p.z c

/-- The tool points straight down. -/
def Vertical (c : ℝ × ℝ × ℝ) : Prop :=
  c.1 + c.2.1 + c.2.2 + wrist realMath c.1 c.2.1 c.2.2 = Real.pi

/-- What is left for `J5` is within its limits. -/
theorem vertical_iff_limits (c : ℝ × ℝ × ℝ) :
    Vertical c ↔ Real.pi / 4 ≤ c.1 + c.2.1 + c.2.2 ∧ c.1 + c.2.1 + c.2.2 ≤ Real.pi := by
  have hpi := Real.pi_pos
  have hreal : realMath.pi = Real.pi := rfl
  simp only [Vertical, wrist, hreal]
  generalize c.1 + c.2.1 + c.2.2 = s
  split_ifs with hneg hlarge
  · -- past the lower limit
    refine iff_of_false ?_ ?_
    · intro heq
      linarith
    · rintro ⟨-, hle⟩
      linarith
  · refine iff_of_false ?_ ?_
    · intro heq
      linarith
    · rintro ⟨hge, -⟩
      linarith
  · refine iff_of_true (by ring) ⟨?_, ?_⟩
    · linarith
    · linarith

theorem vertical_candidate_iff (i j k : ℕ) :
    Vertical (candidate i j k) ↔ 24 ≤ i + j + k ∧ i + j + k ≤ 47 := by
  have hlo := Real.pi_gt_d2
  have hhi := Real.pi_lt_d2
  have hsum : (candidate i j k).1 + (candidate i j k).2.1 + (candidate i j k).2.2 =
      -Real.pi / 2 + ((i + j + k : ℕ) : ℝ) / 10 := by
    simp only [candidate]
    push_cast
    ring
  rw [vertical_iff_limits, hsum]
  generalize i + j + k = n
  constructor
  · rintro ⟨hge, hle⟩
    constructor
    · by_contra hlt
      have hn : (n : ℝ) ≤ 23 := by exact_mod_cast Nat.le_of_lt_succ (not_le.1 hlt)
      linarith
    · by_contra hgt
      have hn : (48 : ℝ) ≤ n := by exact_mod_cast Nat.succ_le_of_lt (not_le.1 hgt)
      linarith
  · rintro ⟨hge, hle⟩
    have h24 : (24 : ℝ) ≤ n := by exact_mod_cast hge
    have h47 : (n : ℝ) ≤ 47 := by exact_mod_cast hle
    constructor
    · linarith
    · linarith

/-- A counted candidate is vertical exactly when its loop counters sum up to 24 at least and to
47 at most. -/
theorem vertical_iff {p : Pos ℝ} {c : ℝ × ℝ × ℝ} (h : Counted p c) :
    ∃ i j k : ℕ, c = candidate i j k ∧ (Vertical c ↔ 24 ≤ i + j + k ∧ i + j + k ≤ 47) := by
  obtain ⟨⟨-, i, hi⟩, ⟨-, j, hj⟩, -, k, hk⟩ := (mem_grid_iff rfl).1 h.grid
  have hc : c = candidate i j k := Prod.ext hi (Prod.ext hj hk)
  refine ⟨i, j, k, hc, ?_⟩
  rw [hc]
  exact vertical_candidate_iff i j k

/-! ## Candidates past the limits -/

theorem horizontalDistance_beside {Y : ℝ} (hY : 0 ≤ Y) : horizontalDistance realMath (-10) Y = Y := by
  have hsq : ((-10 + P) * (-10 + P) + Y * Y : ℝ) = Y ^ 2 := by
    norm_num [P]
    ring
  show √((-10 + P) * (-10 + P) + Y * Y) = Y
  rw [hsq, Real.sqrt_sq hY]

theorem counted_high : Counted ⟨-10, 35, 20⟩ (candidate 17 11 20) := by
  have hgrid : onGrid 171120 = true := by decide
  have hcode : candidate 17 11 20 = tripleAt 171120 := by norm_num [candidate, tripleAt, buChang]
  have hheight : heightAt 171120 = 461448316 := by decide +kernel
  have hreach : reachAt 171120 = 699524276 := by decide +kernel
  rw [hcode]
  refine ⟨⟨by norm_num [xMin, xMax], by norm_num [yMin, yMax], by norm_num [zMin, zMax]⟩,
    tripleAt_mem hgrid, passes_of_code hgrid ?_ ?_⟩
  · rw [hheight, abs_le]
    norm_num
  · rw [hreach, horizontalDistance_beside (by norm_num), abs_le]
    norm_num

theorem counted_low : Counted ⟨-10, 15, 50⟩ (candidate 8 15 0) := by
  have hgrid : onGrid 81500 = true := by decide
  have hcode : candidate 8 15 0 = tripleAt 81500 := by norm_num [candidate, tripleAt, buChang]
  have hheight : heightAt 81500 = 1052748346 := by decide +kernel
  have hreach : reachAt 81500 = 298541847 := by decide +kernel
  rw [hcode]
  refine ⟨⟨by norm_num [xMin, xMax], by norm_num [yMin, yMax], by norm_num [zMin, zMax]⟩,
    tripleAt_mem hgrid, passes_of_code hgrid ?_ ?_⟩
  · rw [hheight, abs_le]
    norm_num
  · rw [hreach, horizontalDistance_beside (by norm_num), abs_le]
    norm_num

theorem vertical_iff_high : ∃ i j k : ℕ, candidate 17 11 20 = candidate i j k ∧
    (Vertical (candidate 17 11 20) ↔ 24 ≤ i + j + k ∧ i + j + k ≤ 47) :=
  vertical_iff counted_high

/-- For targets inside the box the search counts candidates that are not vertical, with `J5` limited
to 0 and to 3π/4. -/
theorem not_vertical_counted :
    (Counted ⟨-10, 35, 20⟩ (candidate 17 11 20) ∧ ¬ Vertical (candidate 17 11 20)) ∧
      Counted ⟨-10, 15, 50⟩ (candidate 8 15 0) ∧ ¬ Vertical (candidate 8 15 0) := by
  refine ⟨⟨counted_high, ?_⟩, counted_low, ?_⟩
  · rw [vertical_candidate_iff]
    decide
  · rw [vertical_candidate_iff]
    decide

end RoboticArm
