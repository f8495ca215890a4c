import RoboticArm.Durations
import RoboticArm.Replay

/- The remaining time, reported when a treatment is resumed from a pause.

   The start key reports `point_duration - point_timer` of the current point where it
   resumes. The tick raises the timer while the arm runs, the run logic compares the two
   once in an iteration while the arm runs, and the keys change the duration at any time.

   1. `Cycle.Lasting`: what holds after every sequence of stages, in whatever order.
   2. `Held`: while the arm is stopped in an unfinished cycle, the timer is within the
      duration. Every move keeps this but two (`Unhurried`): a pause taken when ticks
      have carried the timer past the duration, and a time-minus key while the arm is
      stopped that takes the duration below the timer.
   3. `timeLeft_iff`: the remaining time is right wherever the arm can be resumed exactly
      when no such move is made, and so it is at the start keys that resume it.
   4. `shortened` is a run with one: a pause late in a point, and a minute less. -/
namespace RoboticArm

namespace Cycle

/-- The start key takes the branch that resumes from a pause. -/
def resumes (c : Cycle) : Prop :=
  0 < c.ctl.pointCount ∧ c.ctl.startFlag = false ∧
    (c.ctl.cycleComplete && c.ctl.firstImuFlag2) = false ∧
    ¬ (c.ctl.currentPoint = 0 ∧ c.timer 0 = 0)

/-- The timer of the current point is within its duration. -/
def WithinTime (c : Cycle) : Prop := c.timer c.ctl.currentPoint ≤ c.duration c.ctl.currentPoint

/-- Where the start key would resume, the remaining time does not underflow. -/
def TimeLeft (c : Cycle) : Prop := c.resumes → c.WithinTime

/-- While the arm is stopped in an unfinished cycle, the timer is within the duration. -/
def Held (c : Cycle) : Prop :=
  c.ctl.startFlag = false → (c.ctl.cycleComplete && c.ctl.firstImuFlag2) = false → c.WithinTime

/-- A pause is taken within the duration of the point, and a time-minus key pressed while
the arm is stopped leaves the timer within it. -/
def Unhurried (c : Cycle) : Move → Prop
  | .key .start =>
    c.ctl.startFlag = true → 0 < c.ctl.pointCount →
      (c.ctl.cycleComplete && c.ctl.firstImuFlag2) = false → c.WithinTime
  | .key .timeMinus =>
    c.ctl.startFlag = false → (c.ctl.cycleComplete && c.ctl.firstImuFlag2) = false →
      pointDurationMin * 60000 < c.ctl.pointDuration → c.ctl.currentPoint < c.ctl.pointCount →
      c.timer c.ctl.currentPoint + 60000 ≤ c.duration c.ctl.currentPoint
  | _ => True

instance decidableUnhurried (c : Cycle) (m : Move) : Decidable (c.Unhurried m) := by
  unfold Unhurried WithinTime
  cases m with
  | key k => cases k <;> dsimp only <;> infer_instance
  | _ => exact .isTrue trivial

/-! ## Whatever the order of the stages -/

structure Lasting (c : Cycle) : Prop where
  coherent : c.Coherent
  count_le : c.ctl.pointCount ≤ maxPoints
  ahead : ∀ i, c.ctl.currentPoint < i → i < c.ctl.pointCount → c.timer i = 0
  jogged : c.ctl.cycleComplete = true ∨ 0 < c.ctl.pointCount → c.ctl.firstImuFlag2 = true
  unfinished : c.ctl.cycleComplete = false → c.ctl.currentPoint < maxPoints

theorem lasting_boot : boot.Lasting where
  coherent := coherent_boot
  count_le := Nat.zero_le _
  ahead _ _ hi := absurd hi (Nat.not_lt_zero _)
  jogged h := by simp [boot, Ctl.boot] at h
  unfinished _ := by decide

variable {c : Cycle}

theorem firstImu_switchMode (m : Nat) (c : Cycle) :
    (c.switchMode m).ctl.firstImuFlag2 = c.ctl.firstImuFlag2 := by
  unfold switchMode
  dsimp only
  split_ifs <;> rfl

theorem firstImu_move (r v : Bool) (m : Move) (h : c.ctl.firstImuFlag2 = true) :
    (c.move r v m).ctl.firstImuFlag2 = true := by
  cases m with
  | key k =>
    cases k with
    | mark =>
      show (c.markKey r).ctl.firstImuFlag2 = true
      unfold markKey
      split_ifs
      · exact h
      · exact h
      · exact (eq_nextMode (fun d => d.ctl.firstImuFlag2) c fun m => firstImu_switchMode m c).trans h
      · exact h
    | start =>
      show c.startKey.ctl.firstImuFlag2 = true
      rw [startKey_eq]
      split_ifs <;> exact h
    | timeAdd => exact (eq_timeAdd (fun d => d.ctl.firstImuFlag2) c fun _ => rfl).trans h
    | timeMinus => exact (eq_timeMinus (fun d => d.ctl.firstImuFlag2) c fun _ => rfl).trans h
    | _ => exact h
  | returnDelay =>
    show c.returnDelay.ctl.firstImuFlag2 = true
    unfold returnDelay
    split
    · dsimp only
      rw [completeReturn_eq]
      dsimp only
      split_ifs <;> exact h
    · exact h
  | runLogic =>
    show c.runLogic.ctl.firstImuFlag2 = true
    rw [runLogic_eq]
    split_ifs <;> exact h
  | sensors => exact h
  | manual =>
    show (c.manual v).ctl.firstImuFlag2 = true
    unfold manual
    split
    · rfl
    · exact h
  | tick =>
    show c.tick.ctl.firstImuFlag2 = true
    rw [tick_eq]
    exact h

theorem Lasting.jogged_move (h : c.Lasting) (r v : Bool) (m : Move)
    (hnext : (c.nextCourse r m).complete = true ∨ 0 < (c.nextCourse r m).count) :
    (c.move r v m).ctl.firstImuFlag2 = true := by
  apply firstImu_move
  have hsame : c.ctl.course.complete = true ∨ 0 < c.ctl.course.count → c.ctl.firstImuFlag2 = true :=
    h.jogged
  cases courseMove_next r c m with
  | mark _ hmark _ =>
    simp only [marks, Ctl.canMark, Bool.and_eq_true] at hmark
    exact hmark.1.1.2
  | restart _ hre _ =>
    simp only [restarts, Bool.and_eq_true, decide_eq_true_eq] at hre
    exact hre.2.2
  | clear _ hn =>
    rw [hn] at hnext
    rcases hnext with hcomplete | hcount
    · exact h.jogged (Or.inl hcomplete)
    · exact absurd hcount (Nat.lt_irrefl 0)
  | finish _ hfin _ =>
    simp only [finishes, pointDue, Ctl.running, Bool.and_eq_true, decide_eq_true_eq] at hfin
    exact h.jogged (Or.inr hfin.1.1.2)
  | same hn | firstStart _ _ hn | toggle _ _ _ _ hn | arrive _ _ hn | switch _ _ hn =>
    rw [hn] at hnext
    exact hsame hnext

theorem Lasting.unfinished_next (h : c.Lasting) (r : Bool) (m : Move)
    (hnext : (c.nextCourse r m).complete = false) : (c.nextCourse r m).current < maxPoints := by
  have hsame : c.ctl.course.complete = false → c.ctl.course.current < maxPoints := h.unfinished
  cases courseMove_next r c m with
  | restart _ _ hn =>
    rw [hn]
    exact Nat.zero_lt_succ 4
  | finish _ _ hn =>
    rw [hn] at hnext
    exact absurd hnext.symm Bool.false_ne_true
  | switch _ hsw hn =>
    simp only [switchesPoint, Bool.and_eq_true, decide_eq_true_eq] at hsw
    rw [hn]
    exact hsw.2.trans_le h.count_le
  | same hn | mark _ _ hn | firstStart _ _ hn | toggle _ _ _ _ hn | clear _ hn | arrive _ _ hn =>
    rw [hn] at hnext ⊢
    exact hsame hnext

theorem Lasting.ahead_next (h : c.Lasting) (r : Bool) (m : Move) (i : Nat)
    (hi : (c.nextCourse r m).current < i) (hcount : i < (c.nextCourse r m).count) :
    c.nextTimer r m i = 0 := by
  have hsame : c.ctl.course.current < i → i < c.ctl.course.count → c.timer i = 0 := h.ahead i
  have hother : c.ctl.course.current < i → i ≠ c.ctl.currentPoint := fun hlt => Nat.ne_of_gt hlt
  cases m with
  | key k =>
    cases k with
    | mark =>
      simp only [nextCourse] at hi hcount
      simp only [nextTimer]
      split_ifs at hi hcount ⊢
      · rcases Nat.lt_succ_iff_lt_or_eq.1 hcount with hold | rfl
        · rw [Function.update_of_ne (Nat.ne_of_lt hold)]
          exact hsame hi hold
        · exact Function.update_self _ _ _
      · exact hsame hi hcount
    | start =>
      simp only [nextCourse, startCourse] at hi hcount
      simp only [nextTimer]
      split_ifs at hi hcount ⊢
      · exact if_pos hcount
      all_goals exact hsame hi hcount
    | clear => exact absurd hcount (Nat.not_lt_zero i)
    | _ => exact hsame hi hcount
  | returnDelay =>
    have hcur : (c.nextCourse r .returnDelay).current = c.ctl.course.current := by
      simp only [nextCourse]
      split_ifs <;> rfl
    have hcnt : (c.nextCourse r .returnDelay).count = c.ctl.course.count := by
      simp only [nextCourse]
      split_ifs <;> rfl
    rw [hcur] at hi
    rw [hcnt] at hcount
    simp only [nextTimer]
    split
    · rw [Function.update_of_ne (hother hi)]
      exact hsame hi hcount
    · exact hsame hi hcount
  | runLogic =>
    simp only [nextCourse, runCourse] at hi hcount
    simp only [nextTimer]
    split_ifs at hi hcount
    · exact hsame (Nat.lt_of_succ_lt hi) hcount
    · exact hsame (Nat.lt_of_succ_lt hi) hcount
    · exact hsame hi hcount
  | tick =>
    simp only [nextTimer]
    split
    · rw [Function.update_of_ne (hother hi)]
      exact hsame hi hcount
    · exact hsame hi hcount
  | _ => exact hsame hi hcount

theorem Lasting.move (h : c.Lasting) (r v : Bool) (m : Move) : (c.move r v m).Lasting := by
  have hcomplete : (c.move r v m).ctl.cycleComplete = (c.nextCourse r m).complete :=
    congrArg Course.complete (course_move r v c m)
  have hcurrent : (c.move r v m).ctl.currentPoint = (c.nextCourse r m).current :=
    congrArg Course.current (course_move r v c m)
  have hcount := count_move r v c m
  constructor
  · exact h.coherent.move r v m
  · rw [hcount]
    exact count_nextCourse_le h.count_le r m
  · rw [hcount, hcurrent, timer_move]
    exact h.ahead_next r m
  · rw [hcount, hcomplete]
    exact h.jogged_move r v m
  · rw [hcomplete, hcurrent]
    exact h.unfinished_next r m

/-! ## The timer against the duration -/

theorem withinTime_of_fresh (h : c.timer c.ctl.currentPoint = 0) : c.WithinTime := by
  rw [WithinTime, h]
  exact Nat.zero_le _

theorem withinTime_mapDuration (f : Nat → Nat) (c : Cycle) : (c.mapDuration f).WithinTime ↔
    c.timer c.ctl.currentPoint ≤ if c.ctl.currentPoint < c.ctl.pointCount then
      f (c.duration c.ctl.currentPoint) else c.duration c.ctl.currentPoint := Iff.rfl

theorem withinTime_markPoint (h : c.WithinTime) : c.markPoint.WithinTime := by
  show Function.update c.timer c.ctl.pointCount 0 c.ctl.currentPoint ≤
    Function.update c.duration c.ctl.pointCount c.ctl.pointDuration c.ctl.currentPoint
  by_cases hcur : c.ctl.currentPoint = c.ctl.pointCount
  · rw [hcur, Function.update_self]
    exact Nat.zero_le _
  · rw [Function.update_of_ne hcur, Function.update_of_ne hcur]
    exact h

theorem withinTime_timeAdd (h : c.WithinTime) (hl : c.Lasting) : c.timeAdd.WithinTime := by
  unfold Cycle.timeAdd
  split_ifs with hlt
  · rw [withinTime_mapDuration]
    split_ifs with hcur
    · have heq := (hl.coherent.add hlt).1
      have hlonger : c.timer c.ctl.currentPoint ≤ c.duration c.ctl.currentPoint := h
      rw [hl.coherent.points _ hcur] at hlonger ⊢
      rw [heq]
      exact hlonger.trans (Nat.le_add_right _ _)
    · exact h
  · exact h

/-- Where the time-minus key shortens the current point, the timer stays within the duration
exactly when the minute was there to take. -/
theorem withinTime_timeMinus (hl : c.Lasting) (hlt : pointDurationMin * 60000 < c.ctl.pointDuration)
    (hcur : c.ctl.currentPoint < c.ctl.pointCount) :
    c.timeMinus.WithinTime ↔ c.timer c.ctl.currentPoint + 60000 ≤ c.duration c.ctl.currentPoint := by
  obtain ⟨heq, hmin, -⟩ := hl.coherent.minus hlt
  unfold Cycle.timeMinus
  rw [if_pos hlt, withinTime_mapDuration, if_pos hcur, hl.coherent.points _ hcur, heq]
  omega

/-- A move that keeps the course, the timer of a stopped arm and the durations. -/
theorem Held.keep (h : c.Held) (r v : Bool) (m : Move) (hcourse : c.nextCourse r m = c.ctl.course)
    (ht : c.ctl.startFlag = false → c.nextTimer r m c.ctl.currentPoint = c.timer c.ctl.currentPoint)
    (hd : (c.nextDurations r m).point c.ctl.currentPoint = c.duration c.ctl.currentPoint) :
    (c.move r v m).Held := by
  have hmove := (course_move r v c m).trans hcourse
  have hstart : (c.move r v m).ctl.startFlag = c.ctl.startFlag := congrArg Course.start hmove
  have hcomplete : (c.move r v m).ctl.cycleComplete = c.ctl.cycleComplete :=
    congrArg Course.complete hmove
  have hcurrent : (c.move r v m).ctl.currentPoint = c.ctl.currentPoint := congrArg Course.current hmove
  have hduration : (c.move r v m).duration = (c.nextDurations r m).point :=
    congrArg Durations.point (durations_move r v c m)
  intro hs ho
  rw [hstart] at hs
  rw [hcomplete] at ho
  have hopen : (c.ctl.cycleComplete && c.ctl.firstImuFlag2) = false := by
    cases himu : c.ctl.firstImuFlag2
    · exact Bool.and_false _
    · rw [firstImu_move r v m himu] at ho
      exact ho
  rw [WithinTime, hcurrent, timer_move, hduration, ht hs, hd]
  exact h hs hopen

theorem Held.startKey (h : c.Held) (hok : c.Unhurried (.key .start)) : c.startKey.Held := by
  rw [startKey_eq]
  split_ifs with hre hfi hcount hs
  · intro _ _
    apply withinTime_of_fresh
    simp only [restarts, Bool.and_eq_true, decide_eq_true_eq] at hre
    exact if_pos hre.1.1
  · exact h
  · exact fun _ ho => hok hs hcount ho
  · exact fun hstart _ => absurd hstart (by simp [Cycle.resumeRun, Ctl.startTimers])
  · exact h

theorem flags_timeAdd (c : Cycle) : c.timeAdd.ctl.startFlag = c.ctl.startFlag ∧
    (c.timeAdd.ctl.cycleComplete && c.timeAdd.ctl.firstImuFlag2) =
      (c.ctl.cycleComplete && c.ctl.firstImuFlag2) :=
  ⟨eq_timeAdd (fun d => d.ctl.startFlag) c fun _ => rfl,
    eq_timeAdd (fun d => d.ctl.cycleComplete && d.ctl.firstImuFlag2) c fun _ => rfl⟩

theorem flags_timeMinus (c : Cycle) : c.timeMinus.ctl.startFlag = c.ctl.startFlag ∧
    (c.timeMinus.ctl.cycleComplete && c.timeMinus.ctl.firstImuFlag2) =
      (c.ctl.cycleComplete && c.ctl.firstImuFlag2) :=
  ⟨eq_timeMinus (fun d => d.ctl.startFlag) c fun _ => rfl,
    eq_timeMinus (fun d => d.ctl.cycleComplete && d.ctl.firstImuFlag2) c fun _ => rfl⟩

theorem Held.timeAdd (h : c.Held) (hl : c.Lasting) : c.timeAdd.Held := by
  obtain ⟨hstart, hflags⟩ := flags_timeAdd c
  intro hs ho
  rw [hstart] at hs
  rw [hflags] at ho
  exact withinTime_timeAdd (h hs ho) hl

theorem Held.timeMinus (h : c.Held) (hl : c.Lasting) (hok : c.Unhurried (.key .timeMinus)) :
    c.timeMinus.Held := by
  obtain ⟨hstart, hflags⟩ := flags_timeMinus c
  intro hs ho
  rw [hstart] at hs
  rw [hflags] at ho
  by_cases hlt : pointDurationMin * 60000 < c.ctl.pointDuration
  · by_cases hcur : c.ctl.currentPoint < c.ctl.pointCount
    · exact (withinTime_timeMinus hl hlt hcur).2 (hok hs ho hlt hcur)
    · unfold Cycle.timeMinus
      rw [if_pos hlt, withinTime_mapDuration, if_neg hcur]
      exact h hs ho
  · unfold Cycle.timeMinus
    rw [if_neg hlt]
    exact h hs ho

theorem Held.clear (hl : c.Lasting) : c.clear.Held := by
  intro _ ho
  have hunfinished : c.ctl.cycleComplete = false := by
    cases hc : c.ctl.cycleComplete
    · rfl
    · have himu : c.ctl.firstImuFlag2 = true := hl.jogged (Or.inl hc)
      have hdone : (c.ctl.cycleComplete && c.ctl.firstImuFlag2) = false := ho
      rw [hc, himu] at hdone
      exact hdone
  apply withinTime_of_fresh
  exact if_pos (hl.unfinished hunfinished)

theorem Held.runLogic (h : c.Held) (hl : c.Lasting) (r v : Bool) : (c.move r v .runLogic).Held := by
  have hcourse := course_move r v c .runLogic
  have htimer := timer_move r v c .runLogic
  have himu := hl.jogged_move r v .runLogic
  by_cases hfin : c.finishes = true
  · -- a finished cycle is not resumed
    have hdone : c.nextCourse r .runLogic =
        { c.ctl.course with start := false, current := c.ctl.currentPoint + 1, complete := true } :=
      if_pos hfin
    rw [hdone] at hcourse himu
    have hcomplete : (c.move r v .runLogic).ctl.cycleComplete = true := congrArg Course.complete hcourse
    intro _ ho
    rw [hcomplete, himu (Or.inl rfl)] at ho
    exact absurd ho (by decide)
  by_cases hsw : c.switchesPoint = true
  · have hnext : c.nextCourse r .runLogic =
        { c.ctl.course with start := false, current := c.ctl.currentPoint + 1 } :=
      (if_neg hfin).trans (if_pos hsw)
    have hcurrent : (c.move r v .runLogic).ctl.currentPoint = c.ctl.currentPoint + 1 :=
      congrArg Course.current (hcourse.trans hnext)
    simp only [switchesPoint, Bool.and_eq_true, decide_eq_true_eq] at hsw
    intro _ _
    apply withinTime_of_fresh
    rw [hcurrent, htimer]
    exact hl.ahead _ (Nat.lt_succ_self _) hsw.2
  · exact h.keep r v .runLogic ((if_neg hfin).trans (if_neg hsw)) (fun _ => rfl) rfl

/-- Every move that is not hurried keeps the timer within the duration. -/
theorem Held.move (h : c.Held) (hl : c.Lasting) (r v : Bool) {m : Move} (hok : c.Unhurried m) :
    (c.move r v m).Held := by
  cases m with
  | key k =>
    cases k with
    | mark =>
      show (c.markKey r).Held
      unfold Cycle.markKey
      split_ifs
      · exact fun hs ho => withinTime_markPoint (h hs ho)
      · exact h
      · let view (d : Cycle) := (d.ctl.course, d.ctl.firstImuFlag2, d.timer, d.durations)
        have hview : view c.nextMode = view c := by
          refine eq_nextMode view c fun m => ?_
          simp only [view, course_switchMode, firstImu_switchMode, timer_switchMode,
            durations_switchMode]
        simp only [view, Prod.mk.injEq, Ctl.course, Course.mk.injEq, durations,
          Durations.mk.injEq] at hview
        obtain ⟨⟨hs, hc, hcur, -, -⟩, himu, ht, -, hd⟩ := hview
        simp only [Held, WithinTime, hs, hc, hcur, himu, ht, hd]
        exact h
      · exact h
    | start => exact h.startKey hok
    | timeAdd => exact h.timeAdd hl
    | timeMinus => exact h.timeMinus hl hok
    | clear => exact Held.clear hl
    | _ => exact h
  | returnDelay =>
    by_cases harm : (c.ctl.returnDue && startsArm c.ctl.returnType) = true
    · -- the arm is set running
      have hstart : (c.move r v .returnDelay).ctl.startFlag = true := by
        have hcourse := course_move r v c .returnDelay
        simp only [nextCourse, if_pos harm] at hcourse
        exact congrArg Course.start hcourse
      exact fun hs _ => absurd (hstart.symm.trans hs) (by decide)
    · refine h.keep r v .returnDelay (if_neg harm) (fun _ => ?_) rfl
      have hno : ¬ (c.ctl.returnDue && c.ctl.returnType == 5) = true := by
        intro h5
        simp only [Bool.and_eq_true, beq_iff_eq] at h5
        exact harm (by simp [h5.1, h5.2, startsArm])
      simp only [nextTimer, if_neg hno]
  | runLogic => exact h.runLogic hl r v
  | tick =>
    refine h.keep r v .tick rfl (fun hs => ?_) rfl
    have hidle : ¬ c.ctl.running = true := by simp [Ctl.running, hs]
    simp only [nextTimer, if_neg hidle]
  | sensors => exact h
  | manual => exact h.keep r v .manual rfl (fun _ => rfl) rfl

theorem Held.timeLeft (h : c.Held) : c.TimeLeft := fun hr => h hr.2.1 hr.2.2.1

/-- A hurried move leads to a state in which the remaining time underflows. -/
theorem unhurried_of_timeLeft (hl : c.Lasting) (r v : Bool) {m : Move}
    (h : (c.move r v m).TimeLeft) : c.Unhurried m := by
  cases m with
  | key k =>
    cases k with
    | start =>
      intro hs hcount hopen
      by_cases hfresh : c.ctl.currentPoint = 0 ∧ c.timer 0 = 0
      · refine withinTime_of_fresh ?_
        rw [hfresh.1]
        exact hfresh.2
      · -- the pause leaves the timer as it is
        have hpause : c.startKey = c.pauseRun := by rw [Cycle.startKey, if_pos hcount, if_pos hs]
        have hleft : c.startKey.TimeLeft := h
        rw [hpause] at hleft
        exact hleft ⟨hcount, rfl, hopen, hfresh⟩
    | timeMinus =>
      intro hs hopen hlt hcur
      have hmin : 120000 ≤ c.duration c.ctl.currentPoint := by
        rw [hl.coherent.points _ hcur]
        exact hl.coherent.setting.1
      by_cases hfresh : c.timer c.ctl.currentPoint = 0
      · omega
      · obtain ⟨hstart, hflags⟩ := flags_timeMinus c
        have hsame : c.timeMinus.ctl.course = c.ctl.course :=
          eq_timeMinus (fun d => d.ctl.course) c fun _ => rfl
        have htimer : c.timeMinus.timer = c.timer := eq_timeMinus timer c fun _ => rfl
        have hcount : c.timeMinus.ctl.pointCount = c.ctl.pointCount := congrArg Course.count hsame
        have hcurrent : c.timeMinus.ctl.currentPoint = c.ctl.currentPoint :=
          congrArg Course.current hsame
        refine (withinTime_timeMinus hl hlt hcur).1 (h ⟨?_, hstart.trans hs, hflags.trans hopen, ?_⟩)
        · exact (Nat.zero_lt_of_lt hcur).trans_eq hcount.symm
        · rintro ⟨hzero, htime⟩
          have hfirst : c.ctl.currentPoint = 0 := hcurrent.symm.trans hzero
          apply hfresh
          rw [hfirst, ← htimer]
          exact htime
    | _ => trivial
  | _ => trivial

end Cycle

/-! ## Runs -/

section
variable {K : Type} [Field K] [LinearOrder K]

/-- The start key resumes a paused run in this state. -/
def Rb.resumes (s : Rb K) : Prop := s.cycle.resumes

/-- Where the run is resumed, the remaining time does not underflow. -/
def Rb.TimeLeft (s : Rb K) : Prop := s.resumes → s.here.pointTimer ≤ s.here.pointDuration

theorem caseStart_of_resumes (env : Env K) {s : Rb K} (h : s.resumes) :
    caseStart env s = resumeRun s := by
  obtain ⟨hcount, hstop, hopen, hfresh⟩ := h
  have hcount' : 0 < s.ctl.pointCount := hcount
  have hstop' : ¬ s.ctl.startFlag = true := Bool.not_eq_true _ ▸ hstop
  have hopen' : ¬ (s.ctl.cycleComplete && s.ctl.firstImuFlag2) = true := Bool.not_eq_true _ ▸ hopen
  have hfresh' : ¬ (s.ctl.currentPoint = 0 ∧ (s.points 0).pointTimer = 0) := hfresh
  rw [caseStart, if_pos hcount', if_neg hstop', if_neg hopen', if_neg hfresh']

/-- A start key that resumes the run finds the timer within the duration. -/
def ResumesInTime (env : Env K) (s : Rb K) (a : Stage K) : Prop :=
  a.move = .key .start → s.resumes →
    stage env s a = resumeRun s ∧ s.here.pointTimer ≤ s.here.pointDuration

theorem resumesInTime_of_timeLeft (env : Env K) {s : Rb K} (h : s.TimeLeft) (a : Stage K) :
    ResumesInTime env s a := by
  intro hkey hresumes
  refine ⟨?_, h hresumes⟩
  have honKey : ∀ (raw : K) (k : Key), Move.key k = .key .start → onKey env raw s k = resumeRun s := by
    intro raw k hk
    obtain rfl := Move.key.inj hk
    exact caseStart_of_resumes env hresumes
  cases a with
  | lcd b raw => exact honKey raw (lcdKey b) hkey
  | ir b raw => exact honKey raw (irKey b) hkey
  | _ => cases hkey

theorem lasting_exec (env : Env K) (as : List (Stage K)) :
    (Runs.exec (stage env) boot as).cycle.Lasting := by
  refine Runs.exec_inv (P := fun s : Rb K => s.cycle.Lasting) ?_ as Cycle.lasting_boot
  intro s a h
  rw [cycle_stage]
  exact h.move _ _ _

theorem timeLeft_of_unhurried {env : Env K} {as : List (Stage K)}
    (h : Runs.Along (fun s a => s.cycle.Unhurried a.move) (stage env) boot as) {pre : List (Stage K)}
    (hpre : pre <+: as) : (Runs.exec (stage env) boot pre).TimeLeft := by
  obtain ⟨post, rfl⟩ := hpre
  have hstage : ∀ (s : Rb K) (a : Stage K), s.cycle.Lasting ∧ s.cycle.Held →
      s.cycle.Unhurried a.move → (stage env s a).cycle.Lasting ∧ (stage env s a).cycle.Held := by
    rintro s a ⟨hl, hheld⟩ hok
    rw [cycle_stage]
    exact ⟨hl.move _ _ _, hheld.move hl _ _ hok⟩
  have hboot : (boot : Rb K).cycle.Lasting ∧ (boot : Rb K).cycle.Held :=
    ⟨Cycle.lasting_boot, fun _ _ => Nat.zero_le _⟩
  exact (Runs.exec_inv_along hstage hboot (Runs.along_append.1 h).1).2.timeLeft

/-- The remaining time is right in every state in which the run can be resumed exactly when
no pause is taken past the duration of its point and no time-minus key pressed while the
arm is stopped takes the duration below the timer. Where this is so, it is right whenever a
start key resumes the run. -/
theorem timeLeft_iff (env : Env K) (as : List (Stage K)) :
    ((∀ pre, pre <+: as → (Runs.exec (stage env) boot pre).TimeLeft) ↔
      Runs.Along (fun s a => s.cycle.Unhurried a.move) (stage env) boot as) ∧
    (Runs.Along (fun s a => s.cycle.Unhurried a.move) (stage env) boot as →
      Runs.Along (ResumesInTime env) (stage env) boot as) := by
  refine ⟨⟨?_, fun h pre hpre => timeLeft_of_unhurried h hpre⟩, ?_⟩
  · intro h
    apply Runs.along_of_split
    intro pre a post hsplit
    have hleft := h (pre ++ [a]) ⟨post, by rw [hsplit, List.append_assoc, List.singleton_append]⟩
    rw [Runs.exec_append, Runs.exec_cons, Runs.exec_nil] at hleft
    have hcycle : (stage env (Runs.exec (stage env) boot pre) a).cycle.TimeLeft := hleft
    rw [cycle_stage] at hcycle
    exact Cycle.unhurried_of_timeLeft (lasting_exec env pre) _ _ hcycle
  · intro h
    apply Runs.along_of_split
    intro pre a post hsplit
    exact resumesInTime_of_timeLeft env (timeLeft_of_unhurried h ⟨a :: post, hsplit.symm⟩) a

end

/-- One point is marked and started, and paused ten seconds later. -/
noncomputable def paused : List (Stage ℝ) :=
  (startOne ++ ticks 100 ++ [press 0xfc]).flatMap Step.stages

set_option maxRecDepth 100000 in
theorem timeLeft_iff_paused : let s := Runs.exec (stage firmware) boot paused
    stage firmware s (.lcd 0xfc 0) = resumeRun s ∧ s.here.pointTimer ≤ s.here.pointDuration := by
  obtain ⟨-, hresumed⟩ := timeLeft_iff firmware (paused ++ [.lcd 0xfc 0])
  have hunhurried : Runs.Along (fun s a => s.cycle.Unhurried a.move) (stage firmware) boot
      (paused ++ [.lcd 0xfc 0]) := by
    rw [along_iff firmware Cycle.Unhurried session_boot]
    decide +kernel
  have hcycle : (Runs.exec (stage firmware) boot paused).cycle =
      (Runs.exec Session.move (Session.boot : Session ℤ) (paused.map Stage.move)).cycle :=
    cycle_exec firmware paused
  have hresumes : (Runs.exec (stage firmware) boot paused).resumes := by
    rw [Rb.resumes, hcycle]
    unfold Cycle.resumes
    decide +kernel
  exact (Runs.along_append.1 (hresumed hunhurried)).2.1 rfl hresumes

/-- One point is marked for three minutes and started; after 130 s of it, the arm is paused
and a minute taken off. -/
noncomputable def shortened : List (Stage ℝ) :=
  ([press 0xf3, press 0xfb] ++ List.replicate 4 (press 0xfe) ++ [press 0xfc] ++ ticks 60 ++ [idle] ++
    ticks 1300 ++ [press 0xfc, press 0xfe]).flatMap Step.stages

set_option maxRecDepth 100000 in
theorem not_timeLeft_shortened :
    ¬ ∀ pre, pre <+: shortened → (Runs.exec (stage firmware) boot pre).TimeLeft := by
  intro h
  have hcycle : (Runs.exec (stage firmware) boot shortened).cycle =
      (Runs.exec Session.move (Session.boot : Session ℤ) (shortened.map Stage.move)).cycle :=
    cycle_exec firmware shortened
  have hleft : (Runs.exec (stage firmware) boot shortened).cycle.TimeLeft := h shortened List.prefix_rfl
  rw [hcycle] at hleft
  have hresumes : (Runs.exec Session.move (Session.boot : Session ℤ)
      (shortened.map Stage.move)).cycle.resumes := by
    unfold Cycle.resumes
    decide +kernel
  have hwithin := hleft hresumes
  unfold Cycle.WithinTime at hwithin
  revert hwithin
  decide +kernel

end RoboticArm
