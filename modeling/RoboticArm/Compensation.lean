import RoboticArm.Motion
import RoboticArm.Runs
import Mathlib.Tactic.Linarith
import Mathlib.Tactic.NormNum

/- The height compensation: the calls of `calculate_z_compensation` in `new.c`.

   The motion functions add the offset a call returns to the absolute height of their
   target, so a call should return how far the ground is off the baseline, limited to 10
   either way, and may round a deviation of up to 2 to nothing. The function also keeps
   the reading it compensated last, for all points and modes together, and returns
   nothing where a reading is less than 1 off that one.

   1. `compensation_of_drifted`, `compensation_of_not_drifted`: what a call does.
   2. `compensation_iff`: when there is something to compensate.
   3. `followed_iff`: the offsets of a history of calls follow the ground exactly when
      every reading outside the dead band has moved since the one compensated last.
   4. `not_drifted_again`, `not_followed_standing`: the reading of a call that
      compensates has not moved at the next one, whose offset is then 0.

   Correspondence (C ↔ Lean):
     `baseline_jiuli`, `current_jiuli`           ↔ `HeightCall`
     the statics after a call                    ↔ `heightStep`
     the returned value, after earlier calls     ↔ `offset` -/
namespace RoboticArm

section
variable {K : Type} [Field K] [LinearOrder K]

/-- A reading off its baseline by more than the dead band, and by 1 or more off the reading
last compensated, both within the range of the sensor. -/
structure Drifted (current baseline : K) (c : Comp K) : Prop where
  based : 10 < baseline ∧ baseline < 50
  sensed : 0 < current ∧ current < 50
  far : 2 < |current - baseline|
  moved : c.isFirstCall = true ∨ 1 ≤ |current - c.lastCompensatedJiuli|

instance decidableDrifted (current baseline : K) (c : Comp K) :
    Decidable (Drifted current baseline c) :=
  decidable_of_iff
    ((10 < baseline ∧ baseline < 50) ∧ (0 < current ∧ current < 50) ∧ 2 < |current - baseline| ∧
      (c.isFirstCall = true ∨ 1 ≤ |current - c.lastCompensatedJiuli|))
    ⟨fun ⟨hbased, hsensed, hfar, hmoved⟩ => ⟨hbased, hsensed, hfar, hmoved⟩,
      fun h => ⟨h.based, h.sensed, h.far, h.moved⟩⟩

/-! ## Histories of calls -/

/-- The arguments of one call. -/
structure HeightCall (K : Type) where
  current : K
  baseline : K
  deriving DecidableEq

/-- The offset the ground asks for, limited to 10 in either direction. -/
def HeightCall.deviation (a : HeightCall K) : K := clampTo (-10) 10 (a.baseline - a.current)

/-- Reading and baseline are in the range that is compensated. -/
def HeightCall.Valid (a : HeightCall K) : Prop :=
  (10 < a.baseline ∧ a.baseline < 50) ∧ 0 < a.current ∧ a.current < 50

/-- The statics of the function before its first call. -/
def Comp.boot : Comp K := ⟨0, true⟩

def heightStep (c : Comp K) (a : HeightCall K) : Comp K :=
  (calculateZCompensation a.current a.baseline c).2

/-- What the call `a` returns after the calls `pre`. -/
def offset (pre : List (HeightCall K)) (a : HeightCall K) : K :=
  (calculateZCompensation a.current a.baseline (Runs.exec heightStep Comp.boot pre)).1

/-- Every offset is within the dead band of the deviation, and a call that repeats the one
before it returns the same offset up to the dead band. -/
structure Followed (calls : List (HeightCall K)) : Prop where
  near : ∀ pre a post, calls = pre ++ a :: post → a.Valid → |offset pre a - a.deviation| ≤ 2
  steady : ∀ pre a post, calls = pre ++ a :: a :: post → a.Valid →
    |offset (pre ++ [a]) a - offset pre a| ≤ 2

/-- A reading outside the dead band is 1 or more off the one last compensated, if there was
one. -/
def Moves (c : Comp K) (a : HeightCall K) : Prop :=
  a.Valid → 2 < |a.current - a.baseline| →
    c.isFirstCall = true ∨ 1 ≤ |a.current - c.lastCompensatedJiuli|

/-! ## One call -/

variable [IsStrictOrderedRing K]

/-- The reading a call compares with, on a first call the baseline. -/
theorem still_iff {current baseline : K} (c : Comp K) (hfar : 2 < |current - baseline|) :
    |current - (if c.isFirstCall = true then (⟨baseline, false⟩ : Comp K)
      else c).lastCompensatedJiuli| < 1 ↔
      ¬ (c.isFirstCall = true ∨ 1 ≤ |current - c.lastCompensatedJiuli|) := by
  by_cases hf : c.isFirstCall = true
  · rw [if_pos hf]
    refine iff_of_false ?_ fun h => h (Or.inl hf)
    linarith
  · rw [if_neg hf]
    simp [hf]

/-- A call with a drifted reading returns the limited deviation and keeps the reading. -/
theorem compensation_of_drifted {current baseline : K} {c : Comp K}
    (h : Drifted current baseline c) :
    calculateZCompensation current baseline c =
      (clampTo (-10) 10 (baseline - current), ⟨current, false⟩) := by
  obtain ⟨⟨hlo, hhi⟩, ⟨hpos, hmax⟩, hfar, hmoved⟩ := h
  have hvalid : ¬ (baseline ≤ 10 ∨ 50 ≤ baseline ∨ 50 ≤ current ∨ current ≤ 0) := by
    simp only [not_or, not_le]
    exact ⟨hlo, hhi, hmax, hpos⟩
  have hstill := mt (still_iff c hfar).1 (not_not.2 hmoved)
  have hlimit : (if (if 10 < baseline - current then (10 : K) else baseline - current) < -10 then -10
      else if 10 < baseline - current then 10 else baseline - current) =
      clampTo (-10) 10 (baseline - current) := by
    unfold clampTo
    dsimp only
    split_ifs <;> linarith
  simp only [calculateZCompensation]
  rw [if_neg hvalid, if_neg (not_le.2 hfar), if_neg hstill, hlimit]
  by_cases hf : c.isFirstCall = true
  · rw [if_pos hf]
  · rw [if_neg hf, ← Bool.eq_false_iff.2 hf]

theorem compensation_of_not_drifted {current baseline : K} {c : Comp K}
    (h : ¬ Drifted current baseline c) : (calculateZCompensation current baseline c).1 = 0 := by
  simp only [calculateZCompensation]
  by_cases hr : baseline ≤ 10 ∨ 50 ≤ baseline ∨ 50 ≤ current ∨ current ≤ 0
  · rw [if_pos hr]
  rw [if_neg hr]
  by_cases hfar : |current - baseline| ≤ 2
  · rw [if_pos hfar]
  rw [if_neg hfar]
  simp only [not_or, not_le] at hr hfar
  obtain ⟨hlo, hhi, hmax, hpos⟩ := hr
  rw [if_pos]
  refine (still_iff c hfar).2 fun hmoved => h ?_
  exact ⟨⟨hlo, hhi⟩, ⟨hpos, hmax⟩, hfar, hmoved⟩

theorem far_iff_clampTo (x : K) : 2 < |clampTo (-10) 10 x| ↔ 2 < |x| := by
  unfold clampTo
  dsimp only
  rw [lt_abs, lt_abs]
  split_ifs <;> constructor <;> intro h <;> rcases h with h | h <;>
    first | (left; linarith) | (right; linarith)

theorem compensation_iff (current baseline : K) (c : Comp K) :
    1 / 100 < |(calculateZCompensation current baseline c).1| ↔ Drifted current baseline c := by
  by_cases h : Drifted current baseline c
  · refine iff_of_true ?_ h
    have hfar : 2 < |baseline - current| := by
      rw [abs_sub_comm]
      exact h.far
    rw [compensation_of_drifted h]
    have hlimited := (far_iff_clampTo (baseline - current)).2 hfar
    linarith
  · refine iff_of_false ?_ h
    rw [compensation_of_not_drifted h, abs_zero]
    norm_num

/-- The reading that has just been compensated has not moved at the next call. -/
theorem not_drifted_again {current baseline : K} {c : Comp K} (h : Drifted current baseline c) :
    ¬ Drifted current baseline (calculateZCompensation current baseline c).2 := by
  rw [compensation_of_drifted h]
  intro hagain
  rcases hagain.moved with hfirst | hfar
  · exact absurd hfirst (by simp)
  · rw [sub_self, abs_zero] at hfar
    linarith

end

/-! ## Whole histories -/

section
variable {K : Type} [Field K] [LinearOrder K] [IsStrictOrderedRing K]

theorem offset_of_moves {c : Comp K} {a : HeightCall K} (hv : a.Valid) (hm : Moves c a) :
    (calculateZCompensation a.current a.baseline c).1 =
      if 2 < |a.current - a.baseline| then a.deviation else 0 := by
  by_cases hfar : 2 < |a.current - a.baseline|
  · have hdrift : Drifted a.current a.baseline c := ⟨hv.1, hv.2, hfar, hm hv hfar⟩
    rw [if_pos hfar, compensation_of_drifted hdrift]
    rfl
  · have hstill : ¬ Drifted a.current a.baseline c := fun h => hfar h.far
    rw [if_neg hfar, compensation_of_not_drifted hstill]

theorem far_deviation (a : HeightCall K) : 2 < |a.deviation| ↔ 2 < |a.current - a.baseline| := by
  rw [abs_sub_comm]
  exact far_iff_clampTo (a.baseline - a.current)

/-- A call follows the ground exactly when its reading moves. -/
theorem near_iff_moves (c : Comp K) (a : HeightCall K) :
    (a.Valid → |(calculateZCompensation a.current a.baseline c).1 - a.deviation| ≤ 2) ↔ Moves c a := by
  constructor
  · intro hnear hv hfar
    by_contra hstill
    have hzero : ¬ Drifted a.current a.baseline c := fun h => hstill h.moved
    have hdev := (far_deviation a).2 hfar
    have h := hnear hv
    rw [compensation_of_not_drifted hzero, zero_sub, abs_neg] at h
    linarith
  · intro hm hv
    rw [offset_of_moves hv hm]
    by_cases hfar : 2 < |a.current - a.baseline|
    · rw [if_pos hfar, sub_self, abs_zero]
      norm_num
    · rw [if_neg hfar, zero_sub, abs_neg]
      exact not_lt.1 (mt (far_deviation a).1 hfar)

/-- The offsets of a history follow the ground exactly when every reading moves. -/
theorem followed_iff (calls : List (HeightCall K)) :
    Followed calls ↔ Runs.Along Moves heightStep Comp.boot calls := by
  constructor
  · intro h
    apply Runs.along_of_split
    intro pre a post hsplit
    exact (near_iff_moves _ a).1 (h.near pre a post hsplit)
  · intro h
    have hmoves : ∀ pre a post, calls = pre ++ a :: post →
        Moves (Runs.exec heightStep Comp.boot pre) a := by
      intro pre a post hsplit
      rw [hsplit] at h
      exact (Runs.along_append.1 h).2.1
    constructor
    · intro pre a post hsplit
      exact (near_iff_moves _ a).2 (hmoves pre a post hsplit)
    · intro pre a post hsplit hv
      have hfirst := offset_of_moves hv (hmoves pre a (a :: post) hsplit)
      have hsecond := offset_of_moves hv (hmoves (pre ++ [a]) a post (by simp [hsplit]))
      rw [offset, offset, hfirst, hsecond, sub_self, abs_zero]
      norm_num

end

/-- A reading of 20 over a baseline of 30, twice. -/
def standing : List (HeightCall ℚ) := [⟨20, 30⟩, ⟨20, 30⟩]

theorem followed_iff_standing :
    Followed standing ↔ Runs.Along Moves heightStep Comp.boot standing :=
  followed_iff standing

/-- The ground stays 10 off, and the second call returns 0. -/
theorem not_followed_standing : ¬ Followed standing := by
  intro h
  have hvalid : (⟨20, 30⟩ : HeightCall ℚ).Valid := by
    refine ⟨⟨?_, ?_⟩, ?_, ?_⟩ <;> norm_num
  have hnear := h.near [⟨20, 30⟩] ⟨20, 30⟩ [] rfl hvalid
  have hfirst : Drifted 20 30 (Comp.boot : Comp ℚ) := by
    refine ⟨hvalid.1, hvalid.2, ?_, Or.inl rfl⟩
    norm_num
  have hoffset : offset [⟨20, 30⟩] (⟨20, 30⟩ : HeightCall ℚ) = 0 :=
    compensation_of_not_drifted (not_drifted_again hfirst)
  have hdev : (⟨20, 30⟩ : HeightCall ℚ).deviation = 10 := by
    norm_num [HeightCall.deviation, clampTo]
  rw [hoffset, hdev] at hnear
  norm_num at hnear

end RoboticArm
