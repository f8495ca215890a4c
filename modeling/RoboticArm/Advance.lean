import RoboticArm.Index

/- The point advance, statement by statement, with the tick handler in between.

   When the time of a point is over, `rb_test08` raises `current_point` first, then
   compares it with `point_count`, and if that was the last point switches the outputs and
   the indicator off before it sets `cycle_complete`. The handler of TIM3 may run between
   any two of these statements; it times `points[current_point]` while
   `start_flag && !cycle_complete && point_count > 0`.

   `AdvanceStmt` names the statements, `advanceStep` is one of them or any other stage of
   the program; a tick may be taken at all of them.

   1. `exec_runLogic`: without ticks the statements are `runLogic`.
   2. `inv_advanceStep`: outside the statements from the increment to the flag an
      unfinished cycle is at a marked point, whatever the order of stages, as long as
      nothing is cleared.
   3. `timesMarked_iff`: every tick times a marked point exactly when none is taken
      between the increment past the last point and the flag. `tickAfterLast` takes one.

   Correspondence (C ↔ Lean):
     `if (start_flag && ...)`, `if (point_timer >= ...)`   ↔ `.testRunning`, `.testDue`
     `current_point++`, `if (current_point >= ...)`        ↔ `.increment`, `.testLast`
     `flame_off` .. `RGB_LED_MODE=0`, `cycle_complete = 1` ↔ `.flameOff` .. `.ledOff`, `.complete`
     what follows up to `RUN_START()`                      ↔ `.finishStop` .. `.home`
     the other branch up to `start_return_delay`           ↔ `.switchStop` .. `.back`
     the motions of the four modes                         ↔ `.modes` -/
namespace RoboticArm

/-- The statement the main loop is about to run; at `testRunning` it may also be at any other
stage of an iteration. -/
inductive AdvanceStmt where
  | testRunning
  | testDue
  | increment
  | testLast
  | flameOff
  | fanOff
  | lightOff
  | ledOff
  | complete
  | finishStop
  | finishCircle
  | finishLr
  | finishUd
  | prompt
  | home
  | switchStop
  | switchCircle
  | switchLr
  | switchUd
  | back
  | modes
  deriving DecidableEq, Repr

variable {K : Type}

def stopArm (s : Rb K) : Rb K := { s with ctl := { s.ctl with startFlag := false } }

def stopCircle (s : Rb K) : Rb K := { s with ctl := { s.ctl with timerRunningCircle := false } }

def stopLr (s : Rb K) : Rb K := { s with ctl := { s.ctl with timerRunningLr := false } }

def stopUd (s : Rb K) : Rb K := { s with ctl := { s.ctl with timerRunningUd := false } }

/-- The program, and the statement that is next. -/
structure Advance (K : Type) where
  rb : Rb K
  stmt : AdvanceStmt

/-- A statement, with the distance reading a motion would take, or another stage. -/
inductive AdvanceAct (K : Type) where
  | stmt (raw : K)
  | stage (a : Stage K)

section
variable [Field K] [LinearOrder K]

/-- The statement at hand, and where it leads. -/
def AdvanceStmt.exec (env : Env K) (raw : K) (s : Rb K) : AdvanceStmt → Rb K × AdvanceStmt
  | .testRunning => (s, if s.ctl.running then .testDue else .testRunning)
  | .testDue => (s, if s.here.pointDuration ≤ s.here.pointTimer then .increment else .modes)
  | .increment => ({ s with ctl := { s.ctl with currentPoint := s.ctl.currentPoint + 1 } }, .testLast)
  | .testLast => (s, if s.ctl.pointCount ≤ s.ctl.currentPoint then .flameOff else .switchStop)
  | .flameOff => (s.writeBit .flame false, .fanOff)
  | .fanOff => (s.writeBit .fan false, .lightOff)
  | .lightOff => (s.writeBit .light false, .ledOff)
  | .ledOff => ({ s with led := { s.led with rgbLedMode := 0 } }, .complete)
  | .complete =>
    ({ s.note .cycleComplete with ctl := { s.ctl with cycleComplete := true } }, .finishStop)
  | .finishStop => (stopArm s, .finishCircle)
  | .finishCircle => (stopCircle s, .finishLr)
  | .finishLr => (stopLr s, .finishUd)
  | .finishUd => (stopUd s, .prompt)
  | .prompt => (s.setYuyin 8, .home)
  | .home => (runStart s, .testRunning)
  | .switchStop => (stopArm s, .switchCircle)
  | .switchCircle => (stopCircle s, .switchLr)
  | .switchLr => (stopLr s, .switchUd)
  | .switchUd => (stopUd s, .back)
  | .back => (startReturnDelay env 5 s.ctl.currentPoint s, .testRunning)
  | .modes => (runMode env raw s, .testRunning)

def advanceStep (env : Env K) (s : Advance K) : AdvanceAct K → Advance K
  | .stmt raw =>
    let r := s.stmt.exec env raw s.rb
    ⟨r.1, r.2⟩
  | .stage a =>
    if a.move = .tick ∨ s.stmt = .testRunning then { s with rb := stage env s.rb a } else s

def Advance.boot : Advance K := ⟨RoboticArm.boot, .testRunning⟩

/-! ## Without ticks -/

theorem exec_stages (env : Env K) (s : Rb K) (as : List (Stage K)) :
    Runs.exec (advanceStep env) ⟨s, .testRunning⟩ (as.map .stage) =
      ⟨Runs.exec (stage env) s as, .testRunning⟩ := by
  induction as generalizing s with
  | nil => rfl
  | cons a as ih =>
    have hstep : advanceStep env ⟨s, .testRunning⟩ (.stage a) = ⟨stage env s a, .testRunning⟩ :=
      if_pos (Or.inr rfl)
    rw [List.map_cons, Runs.exec_cons, Runs.exec_cons, hstep]
    exact ih (stage env s a)

omit [Field K] [LinearOrder K] in
theorem stop_eq (t : Rb K) : stopUd (stopLr (stopCircle (stopArm t))) =
    { t with ctl := { t.ctl.stopTimers with startFlag := false } } := rfl

theorem exec_finishCycle (env : Env K) (raw : K) (t : Rb K) :
    Runs.exec (advanceStep env) ⟨t, .flameOff⟩ (List.replicate 11 (.stmt raw)) =
      ⟨finishCycle t, .testRunning⟩ := by
  simp only [List.replicate_succ, List.replicate_zero, Runs.exec_cons, Runs.exec_nil, advanceStep,
    AdvanceStmt.exec, stop_eq]
  rfl

theorem exec_switchPoint (env : Env K) (raw : K) (t : Rb K) :
    Runs.exec (advanceStep env) ⟨t, .switchStop⟩ (List.replicate 5 (.stmt raw)) =
      ⟨switchPoint env t, .testRunning⟩ := by
  simp only [List.replicate_succ, List.replicate_zero, Runs.exec_cons, Runs.exec_nil, advanceStep,
    AdvanceStmt.exec, stop_eq, switchPoint]

/-- With no tick in between, the statements are the stage of an iteration. -/
theorem exec_runLogic (env : Env K) (raw : K) (s : Rb K) :
    ∃ n, Runs.exec (advanceStep env) ⟨s, .testRunning⟩ (List.replicate n (.stmt raw)) =
      ⟨runLogic env raw s, .testRunning⟩ := by
  simp only [runLogic]
  by_cases hrun : s.ctl.running
  · have hdue : advanceStep env ⟨s, .testRunning⟩ (.stmt raw) = ⟨s, .testDue⟩ := by
      simp only [advanceStep, AdvanceStmt.exec, if_pos hrun]
    rw [if_pos hrun]
    by_cases hover : s.here.pointDuration ≤ s.here.pointTimer
    · let t : Rb K := { s with ctl := { s.ctl with currentPoint := s.ctl.currentPoint + 1 } }
      have hincrement : advanceStep env ⟨s, .testDue⟩ (.stmt raw) = ⟨s, .increment⟩ := by
        simp only [advanceStep, AdvanceStmt.exec, if_pos hover]
      have hraised : advanceStep env ⟨s, .increment⟩ (.stmt raw) = ⟨t, .testLast⟩ := rfl
      rw [if_pos hover]
      by_cases hlast : t.ctl.pointCount ≤ t.ctl.currentPoint
      · have hbranch : advanceStep env ⟨t, .testLast⟩ (.stmt raw) = ⟨t, .flameOff⟩ := by
          simp only [advanceStep, AdvanceStmt.exec, if_pos hlast]
        refine ⟨15, ?_⟩
        rw [List.replicate_succ, Runs.exec_cons, hdue, List.replicate_succ, Runs.exec_cons,
          hincrement, List.replicate_succ, Runs.exec_cons, hraised, List.replicate_succ,
          Runs.exec_cons, hbranch, exec_finishCycle, if_pos hlast]
      · have hbranch : advanceStep env ⟨t, .testLast⟩ (.stmt raw) = ⟨t, .switchStop⟩ := by
          simp only [advanceStep, AdvanceStmt.exec, if_neg hlast]
        refine ⟨9, ?_⟩
        rw [List.replicate_succ, Runs.exec_cons, hdue, List.replicate_succ, Runs.exec_cons,
          hincrement, List.replicate_succ, Runs.exec_cons, hraised, List.replicate_succ,
          Runs.exec_cons, hbranch, exec_switchPoint, if_neg hlast]
    · have hmodes : advanceStep env ⟨s, .testDue⟩ (.stmt raw) = ⟨s, .modes⟩ := by
        simp only [advanceStep, AdvanceStmt.exec, if_neg hover]
      refine ⟨3, ?_⟩
      rw [if_neg hover, List.replicate_succ, Runs.exec_cons, hdue, List.replicate_succ,
        Runs.exec_cons, hmodes]
      rfl
  · refine ⟨1, ?_⟩
    rw [if_neg hrun]
    simp only [List.replicate_succ, List.replicate_zero, Runs.exec_cons, Runs.exec_nil, advanceStep,
      AdvanceStmt.exec, if_neg hrun]

end

/-! ## The point that is timed -/

/-- The cell the handler of TIM3 adds 100 ms to. -/
def timed (s : Rb K) : Option Nat := if s.ctl.running then some s.ctl.currentPoint else none

/-- What the rest of the handler keeps of what its last statement reads. -/
theorem tick_reads (s : Rb K) : ∃ t : Rb K, tim3IrqHandler s = tickPoint t ∧
    t.points = s.points ∧ t.ctl.course = s.ctl.course := by
  have h100 : ∀ t : Rb K, (tick100ms t).points = t.points ∧ (tick100ms t).ctl = t.ctl := by
    intro t
    simp only [tick100ms]
    split <;> exact ⟨rfl, rfl⟩
  have hflame : ∀ t : Rb K,
      (tickFlame t).points = t.points ∧ (tickFlame t).ctl.course = t.ctl.course := by
    intro t
    simp only [tickFlame]
    split_ifs <;> exact ⟨rfl, rfl⟩
  have hreturn : ∀ t : Rb K,
      (tickReturn t).points = t.points ∧ (tickReturn t).ctl.course = t.ctl.course := by
    intro t
    simp only [tickReturn]
    split_ifs <;> exact ⟨rfl, rfl⟩
  have hmodes : ∀ t : Rb K, (tickModes t).points = t.points ∧ (tickModes t).ctl = t.ctl :=
    fun _ => ⟨rfl, rfl⟩
  refine ⟨_, rfl, ?_, ?_⟩
  · rw [(hreturn _).1, (hmodes _).1]
    exact (hflame _).1.trans (h100 _).1
  · rw [(hreturn _).2, (hmodes _).2]
    exact (hflame _).2.trans (congrArg Ctl.course (h100 _).2)

theorem running_congr {c d : Ctl} (h : c.course = d.course) : c.running = d.running := by
  simp only [Ctl.course, Course.mk.injEq] at h
  simp only [Ctl.running, h]

/-- The handler writes no other cell, and in that one only the timer. -/
theorem points_tim3IrqHandler (s : Rb K) : (tim3IrqHandler s).points =
    match timed s with
    | some i => Function.update s.points i
        { s.points i with pointTimer := u32 ((s.points i).pointTimer + 100) }
    | none => s.points := by
  obtain ⟨t, htick, hpoints, hcourse⟩ := tick_reads s
  have hcurrent : t.ctl.currentPoint = s.ctl.currentPoint := congrArg Course.current hcourse
  rw [htick, tickPoint, timed, running_congr hcourse]
  split
  · simp only [Rb.setPoint, Rb.here, hpoints, hcurrent]
  · exact hpoints

/-- From the increment up to the flag the two are out of step. -/
def advanced : List AdvanceStmt := [.testLast, .flameOff, .fanOff, .lightOff, .ledOff, .complete]

/-- An unfinished cycle is at a marked point, or at the first with none marked yet. -/
def Course.AtPoint (c : Course) : Prop := c.complete = false → c.current = 0 ∨ c.current < c.count

theorem Course.AtPoint.move {c : Cycle} (h : c.ctl.course.AtPoint) (r : Bool) {m : Move}
    (hclear : m ≠ .key .clear) : (c.nextCourse r m).AtPoint := by
  unfold Course.AtPoint
  cases Cycle.courseMove_next r c m with
  | mark _ _ hnext =>
    rw [hnext]
    exact fun hopen => (h hopen).imp_right Nat.lt_succ_of_lt
  | restart _ _ hnext =>
    rw [hnext]
    exact fun _ => Or.inl rfl
  | clear hm _ => exact absurd hm hclear
  | finish _ _ hnext =>
    rw [hnext]
    exact fun hopen => Bool.noConfusion hopen
  | switch _ hswitch hnext =>
    simp only [Cycle.switchesPoint, Bool.and_eq_true, decide_eq_true_eq] at hswitch
    rw [hnext]
    exact fun _ => Or.inr hswitch.2
  | same hnext | firstStart _ _ hnext | toggle _ _ _ _ hnext | arrive _ _ hnext =>
    rw [hnext]
    exact h

/-! ## Steps -/

/-- What holds at each statement. -/
structure Advance.Inv (s : Advance K) : Prop where
  count : s.rb.ctl.pointCount ≤ maxPoints
  armed : s.stmt = .testDue ∨ s.stmt = .increment ∨ s.stmt ∈ advanced → s.rb.ctl.running = true
  atPoint : s.stmt ∉ advanced → s.rb.ctl.course.AtPoint

/-- The invariant reads no more than the course. -/
theorem Advance.Inv.of_course {s : Advance K} (h : s.Inv) {t : Rb K} {next : AdvanceStmt}
    (hcourse : t.ctl.course = s.rb.ctl.course)
    (harmed : next = .testDue ∨ next = .increment ∨ next ∈ advanced → s.rb.ctl.running = true)
    (hpoint : next ∉ advanced → s.rb.ctl.course.AtPoint) : (⟨t, next⟩ : Advance K).Inv where
  count := (congrArg Course.count hcourse).trans_le h.count
  armed hnext := (running_congr hcourse).trans (harmed hnext)
  atPoint hnext := hcourse ▸ hpoint hnext

theorem inv_advanceBoot [Field K] : (Advance.boot : Advance K).Inv where
  count := Nat.zero_le maxPoints
  armed := by simp [Advance.boot, advanced]
  atPoint _ _ := Or.inl rfl

theorem Advance.Inv.of_advanced {t : Rb K} (next : AdvanceStmt) (hnext : next ∈ advanced)
    (hcount : t.ctl.pointCount ≤ maxPoints) (hrun : t.ctl.running = true) :
    (⟨t, next⟩ : Advance K).Inv where
  count := hcount
  armed _ := hrun
  atPoint hno := absurd hnext hno

theorem Advance.Inv.of_disarmed {t : Rb K} (next : AdvanceStmt)
    (hnext : ¬ (next = .testDue ∨ next = .increment ∨ next ∈ advanced))
    (hcount : t.ctl.pointCount ≤ maxPoints) (hpoint : t.ctl.course.AtPoint) :
    (⟨t, next⟩ : Advance K).Inv where
  count := hcount
  armed hno := absurd hno hnext
  atPoint _ := hpoint

/-- No clear key. -/
def AdvanceAct.NoClear : AdvanceAct K → Prop
  | .stage a => a.move ≠ .key .clear
  | .stmt _ => True

/-- If the step is a tick that times a point, that point is marked. -/
def TimesMarked (s : Advance K) : AdvanceAct K → Prop
  | .stage a => a.move = .tick → ∀ i, timed s.rb = some i → i < s.rb.ctl.pointCount ∧ i < maxPoints
  | .stmt _ => True

/-- No tick between the increment past the last point and the flag. -/
def OutsideAdvance (s : Advance K) : AdvanceAct K → Prop
  | .stage a => a.move = .tick → ¬ (s.stmt ∈ advanced ∧ s.rb.ctl.pointCount ≤ s.rb.ctl.currentPoint)
  | .stmt _ => True

theorem timesMarked_iff_of_inv {s : Advance K} (h : s.Inv) (a : AdvanceAct K) :
    TimesMarked s a ↔ OutsideAdvance s a := by
  cases a with
  | stmt raw => exact Iff.rfl
  | stage a =>
    refine forall_congr' fun _ => ?_
    constructor
    · rintro hmarked ⟨hadvanced, hpast⟩
      have htimed : timed s.rb = some s.rb.ctl.currentPoint :=
        if_pos (h.armed (Or.inr (Or.inr hadvanced)))
      exact Nat.not_lt_of_le hpast (hmarked _ htimed).1
    · intro hoff i htimed
      rw [timed, Option.ite_none_right_eq_some] at htimed
      obtain ⟨hrun, heq⟩ := htimed
      cases heq
      have hmarked : s.rb.ctl.currentPoint < s.rb.ctl.pointCount := by
        by_cases hadvanced : s.stmt ∈ advanced
        · exact Nat.lt_of_not_le fun hpast => hoff ⟨hadvanced, hpast⟩
        · simp only [Ctl.running, Bool.and_eq_true, Bool.not_eq_true', decide_eq_true_eq] at hrun
          rcases h.atPoint hadvanced hrun.1.2 with hzero | hlt
          · exact (show s.rb.ctl.currentPoint = 0 from hzero) ▸ hrun.2
          · exact hlt
      exact ⟨hmarked, Nat.lt_of_lt_of_le hmarked h.count⟩

section
variable [Field K] [LinearOrder K] {env : Env K} {s : Advance K}

theorem inv_advanceStage {a : Stage K} (h : s.Inv) (hclear : a.move ≠ .key .clear) :
    (advanceStep env s (.stage a)).Inv := by
  have hcourse : (stage env s.rb a).ctl.course =
      s.rb.cycle.nextCourse (checkCoordinateRange s.rb.jog.cur) a.move := by
    show (stage env s.rb a).cycle.ctl.course = _
    rw [cycle_stage, Cycle.course_move]
  by_cases htick : a.move = .tick
  · have hsame : (stage env s.rb a).ctl.course = s.rb.ctl.course := by
      rw [hcourse, htick]
      rfl
    have hstep : advanceStep env s (.stage a) = ⟨stage env s.rb a, s.stmt⟩ := if_pos (Or.inl htick)
    rw [hstep]
    exact h.of_course hsame h.armed h.atPoint
  · by_cases htest : s.stmt = .testRunning
    · have hstep : advanceStep env s (.stage a) = ⟨stage env s.rb a, .testRunning⟩ := by
        rw [← htest]
        exact if_pos (Or.inr htest)
      have hpoint : s.rb.ctl.course.AtPoint := h.atPoint (by rw [htest]; decide)
      rw [hstep]
      apply Advance.Inv.of_disarmed .testRunning (by decide)
      · show (stage env s.rb a).ctl.course.count ≤ maxPoints
        rw [hcourse]
        exact Cycle.count_nextCourse_le h.count _ a.move
      · show (stage env s.rb a).ctl.course.AtPoint
        rw [hcourse]
        exact hpoint.move _ hclear
    · have hstep : advanceStep env s (.stage a) = s := if_neg (by simp [htick, htest])
      rw [hstep]
      exact h

theorem inv_stmt {raw : K} (h : s.Inv) : (advanceStep env s (.stmt raw)).Inv := by
  obtain ⟨t, stmt⟩ := s
  have hcount : t.ctl.pointCount ≤ maxPoints := h.count
  have harmed : stmt = .testDue ∨ stmt = .increment ∨ stmt ∈ advanced → t.ctl.running = true :=
    h.armed
  have hpoint : stmt ∉ advanced → t.ctl.course.AtPoint := h.atPoint
  cases stmt with
  | testRunning =>
    have hsame : t.ctl.course.AtPoint := hpoint (by decide)
    simp only [advanceStep, AdvanceStmt.exec]
    split
    · next hrun => exact h.of_course rfl (fun _ => hrun) fun _ => hsame
    · exact .of_disarmed .testRunning (by decide) hcount hsame
  | testDue =>
    have hsame : t.ctl.course.AtPoint := hpoint (by decide)
    have hrun : t.ctl.running = true := harmed (by decide)
    simp only [advanceStep, AdvanceStmt.exec]
    split
    · exact h.of_course rfl (fun _ => hrun) fun _ => hsame
    · exact h.of_course rfl (fun _ => hrun) fun _ => hsame
  | increment => exact .of_advanced .testLast (by decide) hcount (harmed (by decide))
  | testLast =>
    have hrun : t.ctl.running = true := harmed (by decide)
    simp only [advanceStep, AdvanceStmt.exec]
    split
    · exact .of_advanced .flameOff (by decide) hcount hrun
    · next hmore =>
      exact .of_disarmed .switchStop (by decide) hcount fun _ => Or.inr (Nat.lt_of_not_le hmore)
  | flameOff => exact .of_advanced .fanOff (by decide) hcount (harmed (by decide))
  | fanOff => exact .of_advanced .lightOff (by decide) hcount (harmed (by decide))
  | lightOff => exact .of_advanced .ledOff (by decide) hcount (harmed (by decide))
  | ledOff => exact .of_advanced .complete (by decide) hcount (harmed (by decide))
  | complete => exact .of_disarmed .finishStop (by decide) hcount fun hopen => Bool.noConfusion hopen
  | finishStop => exact .of_disarmed .finishCircle (by decide) hcount (hpoint (by decide))
  | finishCircle => exact .of_disarmed .finishLr (by decide) hcount (hpoint (by decide))
  | finishLr => exact .of_disarmed .finishUd (by decide) hcount (hpoint (by decide))
  | finishUd => exact .of_disarmed .prompt (by decide) hcount (hpoint (by decide))
  | prompt => exact .of_disarmed .home (by decide) hcount (hpoint (by decide))
  | home => exact .of_disarmed .testRunning (by decide) hcount (hpoint (by decide))
  | switchStop => exact .of_disarmed .switchCircle (by decide) hcount (hpoint (by decide))
  | switchCircle => exact .of_disarmed .switchLr (by decide) hcount (hpoint (by decide))
  | switchLr => exact .of_disarmed .switchUd (by decide) hcount (hpoint (by decide))
  | switchUd => exact .of_disarmed .back (by decide) hcount (hpoint (by decide))
  | back =>
    have hcourse : (startReturnDelay env 5 t.ctl.currentPoint t).ctl.course = t.ctl.course :=
      congrArg (fun c : Cycle => c.ctl.course) (cycle_startReturnDelay env 5 t.ctl.currentPoint t)
    refine h.of_course hcourse (fun hno => absurd hno ?_) fun _ => hpoint (by decide)
    exact (by decide : ¬ (AdvanceStmt.testRunning = .testDue ∨ AdvanceStmt.testRunning = .increment ∨
      AdvanceStmt.testRunning ∈ advanced))
  | modes =>
    have hcourse : (runMode env raw t).ctl.course = t.ctl.course :=
      congrArg (fun c : Cycle => c.ctl.course) (cycle_runMode env raw t)
    refine h.of_course hcourse (fun hno => absurd hno ?_) fun _ => hpoint (by decide)
    exact (by decide : ¬ (AdvanceStmt.testRunning = .testDue ∨ AdvanceStmt.testRunning = .increment ∨
      AdvanceStmt.testRunning ∈ advanced))

theorem inv_advanceStep {a : AdvanceAct K} (h : s.Inv) (hclear : a.NoClear) :
    (advanceStep env s a).Inv := by
  cases a with
  | stmt raw => exact inv_stmt h
  | stage a => exact inv_advanceStage h hclear

/-! ## Runs -/

/-- In a run without a clear every tick times a marked point, or none, exactly when none is taken
between the increment past the last point and the flag. The handler adds to that point alone, and
without a tick the statements are those of an iteration. -/
theorem timesMarked_iff (env : Env K) (as : List (AdvanceAct K)) (hclear : ∀ a ∈ as, a.NoClear) :
    (Runs.Along TimesMarked (advanceStep env) Advance.boot as ↔
      Runs.Along OutsideAdvance (advanceStep env) Advance.boot as) ∧
    (∀ s : Rb K, (tim3IrqHandler s).points =
      match timed s with
      | some i => Function.update s.points i
          { s.points i with pointTimer := u32 ((s.points i).pointTimer + 100) }
      | none => s.points) ∧
    ∀ (raw : K) (s : Rb K), ∃ n,
      Runs.exec (advanceStep env) ⟨s, .testRunning⟩ (List.replicate n (.stmt raw)) =
        ⟨runLogic env raw s, .testRunning⟩ := by
  refine ⟨?_, points_tim3IrqHandler, exec_runLogic env⟩
  exact Runs.along_congr_mem (fun _ a ha h => inv_advanceStep h (hclear a ha))
    (fun _ a _ h => timesMarked_iff_of_inv h a) inv_advanceBoot

end

/-- One point is marked, for two minutes, and treated until its time is over. -/
noncomputable def lastDueSteps : List (Step ℝ) :=
  [press 0xf3, press 0xfb] ++ List.replicate 5 (press 0xfe) ++ [press 0xfc] ++ ticks 60 ++ [idle] ++
    ticks 1200

/-- The next iteration has come to the main run logic. -/
noncomputable def lastDue : List (Stage ℝ) :=
  lastDueSteps.flatMap Step.stages ++ [.lcd 0 0, .ir 0 0, .returnDelay]

/-- A tick right after the increment. -/
noncomputable def tickAfterLast : List (AdvanceAct ℝ) :=
  lastDue.map .stage ++ [.stmt 0, .stmt 0, .stmt 0, .stage .tick]

set_option maxRecDepth 100000 in
theorem course_lastDue : (Runs.exec (stage firmware) boot lastDue).cycle.ctl.running = true ∧
    (Runs.exec (stage firmware) boot lastDue).cycle.pointDue = true ∧
    (Runs.exec (stage firmware) boot lastDue).cycle.ctl.currentPoint = 0 ∧
    (Runs.exec (stage firmware) boot lastDue).cycle.ctl.pointCount = 1 := by
  rw [cycle_exec]
  decide +kernel

theorem noClear_press {b : UInt8} (hb : lcdKey b ≠ .clear) {a : Stage ℝ}
    (ha : a ∈ (press b : Step ℝ).stages) : (AdvanceAct.stage a).NoClear := by
  simp only [press, Step.stages, List.mem_cons, List.not_mem_nil, or_false] at ha
  rcases ha with rfl | rfl | rfl | rfl | rfl | rfl
  · exact fun hkey => hb (Move.key.inj hkey)
  · exact (by decide : Move.key (irKey 0) ≠ .key .clear)
  all_goals exact fun hkey => Move.noConfusion hkey

theorem noClear_lastDue : ∀ a ∈ lastDue.map AdvanceAct.stage, a.NoClear := by
  have hsteps : ∀ st ∈ lastDueSteps, st = .tick ∨ ∃ b, st = press b ∧ lcdKey b ≠ .clear := by
    intro st hst
    simp only [lastDueSteps, ticks, idle, List.mem_append, List.mem_cons, List.not_mem_nil, or_false,
      List.mem_replicate] at hst
    rcases hst with ((((((rfl | rfl) | ⟨-, rfl⟩) | rfl) | ⟨-, rfl⟩) | rfl) | ⟨-, rfl⟩)
    · exact Or.inr ⟨0xf3, rfl, by decide⟩
    · exact Or.inr ⟨0xfb, rfl, by decide⟩
    · exact Or.inr ⟨0xfe, rfl, by decide⟩
    · exact Or.inr ⟨0xfc, rfl, by decide⟩
    · exact Or.inl rfl
    · exact Or.inr ⟨0, rfl, by decide⟩
    · exact Or.inl rfl
  intro a ha
  obtain ⟨b, hb, rfl⟩ := List.mem_map.1 ha
  rcases List.mem_append.1 hb with htreat | hnext
  · obtain ⟨st, hst, hmem⟩ := List.mem_flatMap.1 htreat
    rcases hsteps st hst with rfl | ⟨key, rfl, hkey⟩
    · rw [List.mem_singleton.1 hmem]
      exact fun hclear => Move.noConfusion hclear
    · exact noClear_press hkey hmem
  · -- the stages of `idle` up to the run logic
    exact noClear_press (b := 0) (by decide) (List.mem_append_left _ hnext)

theorem timesMarked_iff_lastDue :
    Runs.Along TimesMarked (advanceStep firmware) Advance.boot (lastDue.map .stage) ↔
      Runs.Along OutsideAdvance (advanceStep firmware) Advance.boot (lastDue.map .stage) :=
  (timesMarked_iff firmware _ noClear_lastDue).1

theorem not_timesMarked_of_last {env : Env ℝ} {t : Rb ℝ} (hdue : t.cycle.pointDue = true)
    (hlast : t.cycle.ctl.pointCount ≤ t.cycle.ctl.currentPoint + 1) :
    ¬ Runs.Along TimesMarked (advanceStep env) ⟨t, .testRunning⟩
      [.stmt 0, .stmt 0, .stmt 0, .stage .tick] := by
  have hboth : (t.ctl.running && decide (t.here.pointDuration ≤ t.here.pointTimer)) = true := hdue
  simp only [Bool.and_eq_true, decide_eq_true_eq] at hboth
  obtain ⟨hrun, hover⟩ := hboth
  have htest : advanceStep env ⟨t, .testRunning⟩ (.stmt 0) = ⟨t, .testDue⟩ :=
    congrArg (Advance.mk t) (if_pos hrun)
  have hnext : advanceStep env ⟨t, .testDue⟩ (.stmt 0) = ⟨t, .increment⟩ :=
    congrArg (Advance.mk t) (if_pos hover)
  intro hall
  simp only [Runs.along_cons, htest, hnext] at hall
  obtain ⟨-, -, -, htick, -⟩ := hall
  have hmarked := htick rfl (t.ctl.currentPoint + 1) (if_pos hrun)
  exact Nat.not_lt_of_le hlast hmarked.1

/-- It times the second cell while one point is marked. -/
theorem not_timesMarked_tickAfterLast :
    (∀ a ∈ tickAfterLast, a.NoClear) ∧
      ¬ Runs.Along TimesMarked (advanceStep firmware) Advance.boot tickAfterLast := by
  constructor
  · intro a ha
    rcases List.mem_append.1 ha with htreat | hend
    · exact noClear_lastDue a htreat
    · simp only [List.mem_cons, List.not_mem_nil, or_false] at hend
      rcases hend with rfl | rfl | rfl | rfl
      · trivial
      · trivial
      · trivial
      · exact fun hclear => Move.noConfusion hclear
  · obtain ⟨-, hdue, hcurrent, hcount⟩ := course_lastDue
    rw [tickAfterLast, Runs.along_append, Advance.boot, exec_stages]
    intro hall
    refine not_timesMarked_of_last hdue ?_ hall.2
    rw [hcurrent, hcount]

end RoboticArm
