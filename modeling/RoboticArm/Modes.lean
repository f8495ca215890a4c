import RoboticArm.Effect
import RoboticArm.Replay

/- The modes and their timers.

   Exactly one mode should be set, and the timer of a moving mode should run only while
   that mode is set and the arm is set running (`Gear.Coherent`).

   The timers are stopped and started in ten places. `gear_move` says once what each
   move does to them. All but one of the places know whether the arm is set running: the
   completion of a mode-switch return starts the timers of the mode, although the arm may
   have been paused, or its cycle ended, during the delay. `coherent_iff`: the flags of a
   run are coherent in every state exactly when no such return is completed for a stopped
   arm. `pauseAfterSwitch` completes one. -/
namespace RoboticArm

/-- The modes, their timers, and whether the arm is set running. -/
structure Gear where
  start : Bool
  hover : Bool
  circle : Bool
  lr : Bool
  ud : Bool
  timerCircle : Bool
  timerLr : Bool
  timerUd : Bool
  deriving DecidableEq

def Ctl.gear (c : Ctl) : Gear :=
  ⟨c.startFlag, c.modeHover, c.modeCircle, c.modeLr, c.modeUd, c.timerRunningCircle,
   c.timerRunningLr, c.timerRunningUd⟩

namespace Gear

variable {g : Gear}

/-- The arm is stopped, and with it the timers. -/
def halt (g : Gear) : Gear :=
  { g with start := false, timerCircle := false, timerLr := false, timerUd := false }

/-- The timer of the mode is started. -/
def go (g : Gear) : Gear := { g with timerCircle := g.circle, timerLr := g.lr, timerUd := g.ud }

def setMode (m : Nat) (g : Gear) : Gear :=
  { g with
    hover := m == 0, circle := m == 1, lr := m == 2, ud := m == 3
    timerCircle := false, timerLr := false, timerUd := false }

/-- Exactly one mode is set. -/
def OneMode (g : Gear) : Prop := [g.hover, g.circle, g.lr, g.ud].count true = 1

/-- Exactly one mode is set, and the timer of a moving mode runs only while it is set and
the arm is set running. -/
structure Coherent (g : Gear) : Prop where
  one : g.OneMode
  circle : g.timerCircle = true → g.circle = true ∧ g.start = true
  lr : g.timerLr = true → g.lr = true ∧ g.start = true
  ud : g.timerUd = true → g.ud = true ∧ g.start = true

theorem Coherent.halt (h : g.OneMode) : g.halt.Coherent :=
  ⟨h, fun ht => absurd ht Bool.false_ne_true, fun ht => absurd ht Bool.false_ne_true,
    fun ht => absurd ht Bool.false_ne_true⟩

theorem OneMode.moving_of_hover (h : g.OneMode) (hhover : g.hover = true) :
    g.circle = false ∧ g.lr = false ∧ g.ud = false := by
  rw [OneMode, hhover] at h
  revert h
  cases g.circle <;> cases g.lr <;> cases g.ud <;> decide

/-- Starting the timer is right for an arm that is set running, and in the hover mode, which
has none. -/
theorem coherent_go_iff (h : g.OneMode) : g.go.Coherent ↔ g.start = true ∨ g.hover = true := by
  constructor
  · rintro ⟨_, hc, hl, hu⟩
    by_contra hno
    obtain ⟨hstart, hhover⟩ := not_or.1 hno
    have hcircle : g.circle = false := by
      by_contra hf
      exact hstart (hc (Bool.eq_true_of_not_eq_false hf)).2
    have hlr : g.lr = false := by
      by_contra hf
      exact hstart (hl (Bool.eq_true_of_not_eq_false hf)).2
    have hud : g.ud = false := by
      by_contra hf
      exact hstart (hu (Bool.eq_true_of_not_eq_false hf)).2
    rw [OneMode, hcircle, hlr, hud, Bool.eq_false_of_not_eq_true hhover] at h
    exact absurd h (by decide)
  · rintro (hstart | hhover)
    · exact ⟨h, fun ht => ⟨ht, hstart⟩, fun ht => ⟨ht, hstart⟩, fun ht => ⟨ht, hstart⟩⟩
    · obtain ⟨hcircle, hlr, hud⟩ := h.moving_of_hover hhover
      exact ⟨h, fun ht => absurd (hcircle.symm.trans ht) Bool.false_ne_true,
        fun ht => absurd (hlr.symm.trans ht) Bool.false_ne_true,
        fun ht => absurd (hud.symm.trans ht) Bool.false_ne_true⟩

theorem Coherent.setMode {m : Nat} (hm : m < 4) : (g.setMode m).Coherent := by
  refine ⟨?_, fun ht => absurd ht Bool.false_ne_true, fun ht => absurd ht Bool.false_ne_true,
    fun ht => absurd ht Bool.false_ne_true⟩
  have hcases : m = 0 ∨ m = 1 ∨ m = 2 ∨ m = 3 := by omega
  rcases hcases with rfl | rfl | rfl | rfl <;> rfl

end Gear

namespace Cycle

variable {c : Cycle}

/-! ## What each move does -/

/-- A mode change: the timers start at once only for an arm that is set running with no
points to return to. -/
def switchGear (c : Cycle) (m : Nat) : Gear :=
  if c.ctl.startFlag && !decide (0 < c.ctl.pointCount) then (c.ctl.gear.setMode m).go
  else c.ctl.gear.setMode m

def startGear (c : Cycle) : Gear :=
  if c.restarts || c.firstStarts then c.ctl.gear
  else if 0 < c.ctl.pointCount then
    if c.ctl.startFlag then c.ctl.gear.halt else { c.ctl.gear with start := true }.go
  else c.ctl.gear

/-- A completed return: type 1 starts the timers, the types that set the arm running do so
with the timers. -/
def returnGear (c : Cycle) : Gear :=
  if c.ctl.returnType = 1 then c.ctl.gear.go
  else if startsArm c.ctl.returnType then { c.ctl.gear with start := true }.go
  else c.ctl.gear

def nextGear (c : Cycle) : Move → Gear
  | .key .mark =>
    if !c.ctl.canMark && c.ctl.canSwitch then (c.ctl.targetMode.map c.switchGear).getD c.ctl.gear
    else c.ctl.gear
  | .key .start => c.startGear
  | .key .clear => c.ctl.gear.halt
  | .returnDelay => if c.ctl.returnDue then c.returnGear else c.ctl.gear
  | .runLogic => if c.pointDue then c.ctl.gear.halt else c.ctl.gear
  | _ => c.ctl.gear

theorem gear_switchMode (m : Nat) (c : Cycle) : (c.switchMode m).ctl.gear = c.switchGear m := by
  simp only [switchMode, switchGear]
  cases hs : c.ctl.startFlag
  · simp [Ctl.stopTimers, Ctl.setMode, hs, Ctl.gear, Gear.setMode, note]
  · by_cases hp : 0 < c.ctl.pointCount
    · simp [Ctl.stopTimers, Ctl.setMode, hs, hp, Ctl.gear, Gear.setMode, note, startReturnDelay]
    · simp [Ctl.stopTimers, Ctl.setMode, hs, hp, Ctl.gear, Gear.setMode, note, Ctl.startTimers, Gear.go]

theorem gear_markKey (r : Bool) (c : Cycle) :
    (c.markKey r).ctl.gear = c.nextGear (.key .mark) := by
  simp only [markKey, nextGear]
  cases c.ctl.canMark
  case true => cases r <;> rfl
  case false =>
    show Ctl.gear (ctl (if c.ctl.canSwitch then c.nextMode else c)) = _
    rw [nextMode_eq, Bool.not_false, Bool.true_and]
    split
    · cases c.ctl.targetMode with
      | none => rfl
      | some m => exact gear_switchMode m c
    · rfl

theorem gear_startKey (c : Cycle) : c.startKey.ctl.gear = c.startGear := by
  rw [startKey_eq]
  simp only [startGear]
  by_cases hr : c.restarts = true
  · rw [if_pos hr, hr]
    rfl
  · by_cases hf : c.firstStarts = true
    · rw [if_neg hr, if_pos hf, hf, Bool.or_true]
      rfl
    · have hnone : ¬ (c.restarts || c.firstStarts) = true := by simp [hr, hf]
      rw [if_neg hr, if_neg hf, if_neg hnone]
      split_ifs <;> rfl

theorem gear_completeReturn (c : Cycle) : c.completeReturn.ctl.gear = c.returnGear := by
  rw [completeReturn_eq]
  simp only [returnGear]
  split_ifs <;> rfl

theorem gear_returnDelay (c : Cycle) : c.returnDelay.ctl.gear = c.nextGear .returnDelay := by
  simp only [returnDelay, nextGear]
  cases hd : c.ctl.returnDue
  · rfl
  · exact gear_completeReturn { c.note (.returnDone c.ctl.returnType) with
      ctl := { c.ctl with returnDelayFlag := false, returnInProgress := false } }

theorem gear_runLogic (c : Cycle) : c.runLogic.ctl.gear = c.nextGear .runLogic := by
  simp only [runLogic, nextGear]
  split
  · split <;> rfl
  · rfl

theorem gear_tick (c : Cycle) : c.tick.ctl.gear = c.ctl.gear := by
  rw [tick_eq]
  rfl

theorem gear_move (r v : Bool) (c : Cycle) (m : Move) : (c.move r v m).ctl.gear = c.nextGear m := by
  cases m with
  | key k =>
    cases k with
    | mark => exact gear_markKey r c
    | start => exact gear_startKey c
    | timeAdd => exact eq_timeAdd (fun d => d.ctl.gear) c fun _ => rfl
    | timeMinus => exact eq_timeMinus (fun d => d.ctl.gear) c fun _ => rfl
    | _ => rfl
  | returnDelay => exact gear_returnDelay c
  | runLogic => exact gear_runLogic c
  | sensors => rfl
  | manual => exact (apply_ite (fun d : Cycle => d.ctl.gear) _ _ _).trans (ite_self _)
  | tick => exact gear_tick c

/-! ## Coherence -/

/-- A mode-switch return to a moving mode is completed for a stopped arm. -/
def StaleReturn (c : Cycle) (m : Move) : Prop :=
  m = .returnDelay ∧ c.ctl.returnDue = true ∧ c.ctl.returnType = 1 ∧ c.ctl.startFlag = false ∧
    c.ctl.modeHover = false

theorem targetMode_cases {c : Ctl} {m : Nat} (h : c.targetMode = some m) : m < 4 := by
  simp only [Ctl.targetMode] at h
  split_ifs at h <;> cases h <;> decide

theorem coherent_switchGear {m : Nat} (hm : m < 4) : (c.switchGear m).Coherent := by
  have hset : (c.ctl.gear.setMode m).Coherent := .setMode hm
  simp only [switchGear]
  split
  · next h =>
    have hstart : c.ctl.startFlag = true := by
      simp only [Bool.and_eq_true] at h
      exact h.1
    exact (Gear.coherent_go_iff hset.one).2 (Or.inl hstart)
  · exact hset

theorem coherent_startGear (h : c.ctl.gear.Coherent) : c.startGear.Coherent := by
  have hrun : ({ c.ctl.gear with start := true } : Gear).go.Coherent :=
    (Gear.coherent_go_iff (g := { c.ctl.gear with start := true }) h.one).2 (Or.inl rfl)
  simp only [startGear]
  split_ifs
  · exact h
  · exact .halt h.one
  · exact hrun
  · exact h

theorem coherent_returnGear_iff (h : c.ctl.gear.Coherent) : c.returnGear.Coherent ↔
    (c.ctl.returnType = 1 → c.ctl.startFlag = true ∨ c.ctl.modeHover = true) := by
  simp only [returnGear]
  by_cases h1 : c.ctl.returnType = 1
  · rw [if_pos h1, Gear.coherent_go_iff h.one]
    exact ⟨fun hg _ => hg, fun hg => hg h1⟩
  · rw [if_neg h1]
    refine iff_of_true ?_ fun ht => absurd ht h1
    split
    · exact (Gear.coherent_go_iff (g := { c.ctl.gear with start := true }) h.one).2 (Or.inl rfl)
    · exact h

/-- A coherent state stays so exactly when the move is not a stale return. -/
theorem coherent_move_iff (h : c.ctl.gear.Coherent) (r v : Bool) (m : Move) :
    (c.move r v m).ctl.gear.Coherent ↔ ¬ StaleReturn c m := by
  rw [gear_move]
  by_cases hm : m = .returnDelay
  · subst hm
    simp only [nextGear, StaleReturn, true_and]
    by_cases hd : c.ctl.returnDue = true
    · rw [if_pos hd, coherent_returnGear_iff h]
      constructor
      · rintro hg ⟨_, h1, hstart, hhover⟩
        rcases hg h1 with hs | hh
        · exact absurd (hstart.symm.trans hs) Bool.false_ne_true
        · exact absurd (hhover.symm.trans hh) Bool.false_ne_true
      · intro hno h1
        by_contra hstop
        obtain ⟨hs, hh⟩ := not_or.1 hstop
        exact hno ⟨hd, h1, Bool.eq_false_of_not_eq_true hs, Bool.eq_false_of_not_eq_true hh⟩
    · rw [if_neg hd]
      exact iff_of_true h fun hs => hd hs.1
  · refine iff_of_true ?_ fun hs => hm hs.1
    cases m with
    | key k =>
      cases k with
      | mark =>
        simp only [nextGear]
        split
        · cases ht : c.ctl.targetMode with
          | none => exact h
          | some m => exact coherent_switchGear (targetMode_cases ht)
        · exact h
      | start => exact coherent_startGear h
      | clear => exact .halt h.one
      | _ => exact h
    | returnDelay => exact absurd rfl hm
    | runLogic =>
      simp only [nextGear]
      split
      · exact .halt h.one
      · exact h
    | _ => exact h

end Cycle

theorem coherent_boot : Ctl.boot.gear.Coherent := by
  constructor <;> simp [Ctl.boot, Ctl.gear, Gear.OneMode]

section
variable {K : Type} [Field K] [LinearOrder K]

/-- The modes and timers are coherent in every state of a run if and only if no stage of it
completes a mode-switch return to a moving mode for a stopped arm. -/
theorem coherent_iff (env : Env K) (as : List (Step K)) :
    (∀ pre, pre <+: as.flatMap Step.stages → (Runs.exec (stage env) boot pre).ctl.gear.Coherent) ↔
      Throughout (fun s a => ¬ Cycle.StaleReturn s.cycle a.move) env as := by
  have hstep : ∀ (s : Rb K) (a : Stage K), s.ctl.gear.Coherent →
      ((stage env s a).ctl.gear.Coherent ↔ ¬ Cycle.StaleReturn s.cycle a.move) := by
    intro s a h
    show (stage env s a).cycle.ctl.gear.Coherent ↔ _
    rw [cycle_stage]
    exact Cycle.coherent_move_iff h _ _ a.move
  calc (∀ pre, pre <+: as.flatMap Step.stages → (Runs.exec (stage env) boot pre).ctl.gear.Coherent)
      ↔ Runs.Along (fun s a => (stage env s a).ctl.gear.Coherent) (stage env) boot
          (as.flatMap Step.stages) :=
        Runs.along_after_iff (P := fun s : Rb K => s.ctl.gear.Coherent) coherent_boot
    _ ↔ Throughout (fun s a => ¬ Cycle.StaleReturn s.cycle a.move) env as :=
        Runs.along_kept_iff (P := fun s : Rb K => s.ctl.gear.Coherent) hstep coherent_boot

end

/-- The mode of a running arm is changed to left-right, and the arm paused before it is back
at its point. -/
noncomputable def pauseAfterSwitch : List (Step ℝ) :=
  startOne ++ [press 0xfb, press 0xfc] ++ ticks 60 ++ [idle]

/-- The left-right timer then runs for a stopped arm. -/
theorem not_coherent_pauseAfterSwitch : ¬ (run firmware pauseAfterSwitch).ctl.gear.Coherent := by
  have hstate : (run firmware pauseAfterSwitch).cycle.ctl.timerRunningLr = true ∧
      (run firmware pauseAfterSwitch).cycle.ctl.startFlag = false := by
    rw [cycle_run]
    decide +kernel
  intro h
  exact absurd (hstate.2.symm.trans (h.lr hstate.1).2) Bool.false_ne_true

end RoboticArm
