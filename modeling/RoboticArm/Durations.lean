import RoboticArm.Effect

/- The durations: `point_duration`, the one to be set, and the copies in `points`.

   Two keys change the setting by a minute and, in a loop of their own, the copies of
   the marked points; their guards look at the setting only. Marking copies it to one
   cell, the clear key to all of them.

   1. `durations_move`: what a move does to the durations, in one place.
   2. `Coherent`: the setting is two to ten whole minutes, and every marked point has
      it. Every move keeps this, in whatever order the stages come.
   3. `durations_coherent`: so it holds in every state of every sequence of stages, and
      where `RUN_TIME_MINUS` subtracts a minute, there is one to subtract. -/
namespace RoboticArm

/-- The duration to be set, and the one of every cell. -/
structure Durations where
  setting : Nat
  point : Nat → Nat

/-- Change the setting, and the first `n` cells with it. -/
def Durations.change (f : Nat → Nat) (n : Nat) (d : Durations) : Durations :=
  ⟨f d.setting, fun i => if i < n then f (d.point i) else d.point i⟩

namespace Cycle

def durations (c : Cycle) : Durations := ⟨c.ctl.pointDuration, c.duration⟩

/-- The durations after a move. -/
def nextDurations (r : Bool) (c : Cycle) : Move → Durations
  | .key .mark =>
    if c.marks r then
      { c.durations with point := Function.update c.duration c.ctl.pointCount c.ctl.pointDuration }
    else c.durations
  | .key .timeAdd =>
    if c.ctl.pointDuration < pointDurationMax * 60000 then
      c.durations.change (fun d => u32 (d + 60000)) c.ctl.pointCount
    else c.durations
  | .key .timeMinus =>
    if pointDurationMin * 60000 < c.ctl.pointDuration then
      c.durations.change (fun d => u32 (d + 2 ^ 32 - 60000)) c.ctl.pointCount
    else c.durations
  | .key .clear =>
    { c.durations with point := fun i => if i < maxPoints then c.ctl.pointDuration else c.duration i }
  | _ => c.durations

theorem durations_switchMode (m : Nat) (c : Cycle) : (c.switchMode m).durations = c.durations := by
  unfold switchMode
  dsimp only
  split_ifs <;> rfl

theorem durations_markKey (r : Bool) (c : Cycle) :
    (c.markKey r).durations = c.nextDurations r (.key .mark) := by
  unfold markKey nextDurations marks
  cases c.ctl.canMark
  case true => cases r <;> rfl
  case false =>
    show durations (if c.ctl.canSwitch then c.nextMode else c) = c.durations
    split
    · exact eq_nextMode durations c fun m => durations_switchMode m c
    · rfl

theorem durations_startKey (c : Cycle) : c.startKey.durations = c.durations := by
  rw [startKey_eq]
  split_ifs <;> rfl

theorem durations_returnDelay (c : Cycle) : c.returnDelay.durations = c.durations := by
  have hcomplete : ∀ d : Cycle, d.completeReturn.durations = d.durations := by
    intro d
    rw [completeReturn_eq]
    dsimp only
    split_ifs <;> rfl
  simp only [returnDelay]
  split
  · exact hcomplete { c.note (.returnDone c.ctl.returnType) with
      ctl := { c.ctl with returnDelayFlag := false, returnInProgress := false } }
  · rfl

theorem durations_runLogic (c : Cycle) : c.runLogic.durations = c.durations := by
  unfold runLogic
  dsimp only
  split_ifs <;> rfl

theorem durations_tick (c : Cycle) : c.tick.durations = c.durations := by
  rw [tick_eq]
  rfl

theorem durations_move (r v : Bool) (c : Cycle) (m : Move) :
    (c.move r v m).durations = c.nextDurations r m := by
  cases m with
  | key k =>
    cases k with
    | mark => exact durations_markKey r c
    | start => exact durations_startKey c
    | timeAdd => exact apply_ite durations _ _ _
    | timeMinus => exact apply_ite durations _ _ _
    | _ => rfl
  | returnDelay => exact durations_returnDelay c
  | runLogic => exact durations_runLogic c
  | sensors => rfl
  | manual => exact (apply_ite durations _ _ _).trans (ite_self _)
  | tick => exact durations_tick c

/-! ## Coherence -/

/-- The setting is one the keys can reach, and every marked point has it. -/
structure Coherent (c : Cycle) : Prop where
  setting : DurationOk c.ctl.pointDuration
  points : ∀ i < c.ctl.pointCount, c.duration i = c.ctl.pointDuration

theorem coherent_boot : boot.Coherent where
  setting := by simp [boot, Ctl.boot, DurationOk]
  points _ hi := absurd hi (Nat.not_lt_zero _)

variable {c : Cycle}

theorem Coherent.add (h : c.Coherent) (hlt : c.ctl.pointDuration < pointDurationMax * 60000) :
    u32 (c.ctl.pointDuration + 60000) = c.ctl.pointDuration + 60000 ∧
      DurationOk (c.ctl.pointDuration + 60000) := by
  obtain ⟨hmin, hmax, hmod⟩ := h.setting
  simp only [pointDurationMax] at hlt
  exact ⟨u32_of_lt (by omega), by omega, by omega, by omega⟩

theorem Coherent.minus (h : c.Coherent) (hlt : pointDurationMin * 60000 < c.ctl.pointDuration) :
    u32 (c.ctl.pointDuration + 2 ^ 32 - 60000) = c.ctl.pointDuration - 60000 ∧
      DurationOk (c.ctl.pointDuration - 60000) := by
  obtain ⟨hmin, hmax, hmod⟩ := h.setting
  simp only [pointDurationMin] at hlt
  exact ⟨u32_sub (by omega) (by omega), by omega, by omega, by omega⟩

theorem Coherent.change {f : Nat → Nat} {d : Cycle} (h : c.Coherent)
    (hcount : d.ctl.pointCount = c.ctl.pointCount) (hok : DurationOk (f c.ctl.pointDuration))
    (hd : d.durations = c.durations.change f c.ctl.pointCount) : d.Coherent := by
  have hset : d.ctl.pointDuration = f c.ctl.pointDuration := congrArg Durations.setting hd
  have hpoint : d.duration = fun i => if i < c.ctl.pointCount then f (c.duration i) else c.duration i :=
    congrArg Durations.point hd
  constructor
  · rw [hset]
    exact hok
  · intro i hi
    rw [hcount] at hi
    rw [hpoint, hset]
    dsimp only
    rw [if_pos hi, h.points i hi]

theorem Coherent.mark {d : Cycle} (h : c.Coherent) (hcount : d.ctl.pointCount = c.ctl.pointCount + 1)
    (hd : d.durations =
      ⟨c.ctl.pointDuration, Function.update c.duration c.ctl.pointCount c.ctl.pointDuration⟩) :
    d.Coherent := by
  have hset : d.ctl.pointDuration = c.ctl.pointDuration := congrArg Durations.setting hd
  have hpoint : d.duration = Function.update c.duration c.ctl.pointCount c.ctl.pointDuration :=
    congrArg Durations.point hd
  constructor
  · rw [hset]
    exact h.setting
  · intro i hi
    rw [hcount] at hi
    rw [hpoint, hset]
    rcases Nat.lt_succ_iff_lt_or_eq.1 hi with hold | rfl
    · rw [Function.update_of_ne (Nat.ne_of_lt hold)]
      exact h.points i hold
    · exact Function.update_self _ _ _

theorem Coherent.congr {d : Cycle} (h : c.Coherent) (hcount : d.ctl.pointCount = c.ctl.pointCount)
    (hd : d.durations = c.durations) : d.Coherent := by
  have hset : d.ctl.pointDuration = c.ctl.pointDuration := congrArg Durations.setting hd
  have hpoint : d.duration = c.duration := congrArg Durations.point hd
  constructor
  · rw [hset]
    exact h.setting
  · rw [hcount, hpoint, hset]
    exact h.points

theorem count_move (r v : Bool) (c : Cycle) (m : Move) :
    (c.move r v m).ctl.pointCount = (c.nextCourse r m).count :=
  congrArg Course.count (course_move r v c m)

/-- Every move keeps the durations coherent. -/
theorem Coherent.move (h : c.Coherent) (r v : Bool) (m : Move) : (c.move r v m).Coherent := by
  have hcount := count_move r v c m
  have hd := durations_move r v c m
  cases m with
  | key k =>
    cases k with
    | mark =>
      unfold nextCourse at hcount
      unfold nextDurations at hd
      dsimp only at hcount hd
      by_cases hmark : c.marks r = true
      · rw [if_pos hmark] at hcount hd
        exact h.mark hcount hd
      · rw [if_neg hmark] at hcount hd
        exact h.congr hcount hd
    | start => exact h.congr (hcount.trans (count_nextCourse r c (by simp) (by simp))) hd
    | timeAdd =>
      unfold nextDurations at hd
      dsimp only at hd
      split_ifs at hd with hlt
      · refine h.change hcount ?_ hd
        obtain ⟨heq, hok⟩ := h.add hlt
        rw [heq]
        exact hok
      · exact h.congr hcount hd
    | timeMinus =>
      unfold nextDurations at hd
      dsimp only at hd
      split_ifs at hd with hlt
      · refine h.change hcount ?_ hd
        obtain ⟨heq, hok⟩ := h.minus hlt
        rw [heq]
        exact hok
      · exact h.congr hcount hd
    | clear =>
      refine ⟨h.setting, ?_⟩
      intro i hi
      rw [hcount] at hi
      exact absurd hi (Nat.not_lt_zero i)
    | _ => exact h.congr hcount hd
  | _ => exact h.congr (hcount.trans (count_nextCourse r c (by simp) (by simp))) hd

end Cycle

section
variable {K : Type} [Field K] [LinearOrder K]

theorem coherent_exec (env : Env K) (as : List (Stage K)) :
    (Runs.exec (stage env) boot as).cycle.Coherent := by
  refine Runs.exec_inv (P := fun s : Rb K => s.cycle.Coherent) ?_ as Cycle.coherent_boot
  intro s a h
  rw [cycle_stage]
  exact h.move _ _ _

/-- After every sequence of stages, in any order: the setting is two to ten whole minutes,
the duration of every marked point, and where `RUN_TIME_MINUS` takes a minute off, the
setting and the copies it changes have one. -/
theorem durations_coherent (env : Env K) (as : List (Stage K)) :
    let s := Runs.exec (stage env) boot as
    (s.ctl.pointDuration % 60000 = 0 ∧ 120000 ≤ s.ctl.pointDuration ∧
      s.ctl.pointDuration ≤ 600000) ∧
    (∀ i < s.ctl.pointCount, (s.points i).pointDuration = s.ctl.pointDuration) ∧
    (pointDurationMin * 60000 < s.ctl.pointDuration → 60000 ≤ s.ctl.pointDuration ∧
      ∀ i < s.ctl.pointCount, 60000 ≤ (s.points i).pointDuration) := by
  intro s
  have h : s.cycle.Coherent := coherent_exec env as
  obtain ⟨hmin, hmax, hmod⟩ := h.setting
  have hpoints : ∀ i < s.ctl.pointCount, (s.points i).pointDuration = s.ctl.pointDuration := h.points
  have hminute : 60000 ≤ s.ctl.pointDuration := le_trans (by decide) hmin
  refine ⟨⟨hmod, hmin, hmax⟩, hpoints, ?_⟩
  intro _
  refine ⟨hminute, ?_⟩
  intro i hi
  rw [hpoints i hi]
  exact hminute

end

end RoboticArm
