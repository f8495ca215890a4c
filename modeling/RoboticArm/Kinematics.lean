import RoboticArm.Workspace

/- Where the tool stands after a successful search.

   `tipAt` is the link model of the search read forwards: the three links at the azimuth
   `J1` around the base axis (0, -P), and the tool pointing down from their end.

   The search compares the height of the tip, from which `A5` is already subtracted, with
   a target to which `A5` is added. So the tip of an accepted candidate stands `A5` over
   the target, up to the tolerance (`height_of_search`), and never at it (`not_reaches`). -/
namespace RoboticArm

section
variable {K : Type} [Field K]

/-- The tip of the tool for joints in radians. -/
def tipAt (m : MathH K) (q : Joints K) : Pos K :=
  ⟨curHorizontal m q.j2 q.j3 q.j4 * m.cos q.j1, curHorizontal m q.j2 q.j3 q.j4 * m.sin q.j1 - P,
    curHeight m q.j2 q.j3 q.j4⟩

variable [LinearOrder K]

/-- The tip is within the tolerance of the target in height and in the plane. -/
def Reaches (m : MathH K) (X Y Z : K) (q : Joints K) : Prop :=
  |(tipAt m q).z - Z| ≤ tolerance ∧
    ((tipAt m q).x - X) ^ 2 + ((tipAt m q).y - Y) ^ 2 ≤ tolerance ^ 2

/-- An accepted candidate stands `A5` over the target, up to the tolerance. -/
theorem height_of_search {m : MathH K} {a : Arm K} {X Y Z : K} {q : Joints K}
    (h : search m a X Y Z = some q) : |(tipAt m q).z - (Z + A5)| < tolerance := by
  obtain ⟨c, -, hpass, rfl⟩ := search_sound h
  exact hpass.1

variable [IsStrictOrderedRing K]

theorem not_reaches_of_height {m : MathH K} {X Y Z : K} {q : Joints K}
    (h : |(tipAt m q).z - (Z + A5)| < tolerance) : ¬ Reaches m X Y Z q := by
  rintro ⟨hz, -⟩
  have hlo := (abs_lt.1 h).1
  have hhi := (abs_le.1 hz).2
  simp only [tolerance, A5] at hlo hhi
  linarith

end

/-- Whatever the target and the previous joints, a candidate that the search accepts does not
put the tip within the tolerance of the target. -/
theorem not_reaches {a : Arm ℝ} {X Y Z : ℝ} {q : Joints ℝ} (h : search realMath a X Y Z = some q) :
    ¬ Reaches realMath X Y Z q :=
  not_reaches_of_height (height_of_search h)

theorem exists_search (a : Arm ℝ) {p : Pos ℝ} (hx : -25 ≤ p.x ∧ p.x ≤ 25) (hy : 10 ≤ p.y ∧ p.y ≤ 41)
    (hz : 10 ≤ p.z ∧ p.z ≤ 50) (hreach : neededSq p ≤ armLength ^ 2) :
    ∃ q, search realMath a p.x p.y p.z = some q :=
  Option.isSome_iff_exists.1 (search_isSome.2 (exists_passing hx hy hz hreach))

theorem not_reaches_first_jog : ∃ q, search realMath Arm.boot 5 30 25 = some q ∧
    ¬ Reaches realMath 5 30 25 q := by
  obtain ⟨q, hq⟩ := exists_search Arm.boot (p := ⟨5, 30, 25⟩) (by norm_num) (by norm_num)
    (by norm_num) (by rw [armLength_eq]; norm_num [neededSq, P, A1, A5])
  exact ⟨q, hq, not_reaches hq⟩

/-- For the jog target (0, 30, 25) a candidate is accepted and its tip is more than 8 too high. -/
theorem not_reaches_start : ∃ q, search realMath Arm.boot 0 30 25 = some q ∧
    25 + 8 < (tipAt realMath q).z ∧ ¬ Reaches realMath 0 30 25 q := by
  obtain ⟨q, hq⟩ := exists_search Arm.boot (p := ⟨0, 30, 25⟩) (by norm_num) (by norm_num)
    (by norm_num) (by rw [armLength_eq]; norm_num [neededSq, P, A1, A5])
  have hheight := height_of_search hq
  refine ⟨q, hq, ?_, not_reaches_of_height hheight⟩
  have hlo := (abs_lt.1 hheight).1
  simp only [tolerance, A5] at hlo
  linarith

end RoboticArm
