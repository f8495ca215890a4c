import RoboticArm.Invariant

/- What each move does, said once.

   Each section takes one part of the state: the log, the course of the treatment
   (flags and counters), the pending return with its accumulator, the timers of the
   points, and the burner with the outputs. A function gives the part after a move
   from the state before it, and one lemma (`log_move`, `course_move`, `ret_move`,
   `timer_move`, `burner_move`) says that the move does just that. The results about
   calls, launches, pauses and progress start from these five. -/
namespace RoboticArm

/-! ## The branches of a move -/

/-- The mode the mark key changes to. -/
def Ctl.targetMode (c : Ctl) : Option Nat :=
  if c.modeHover then some 2 else if c.modeLr then some 3 else if c.modeUd then some 1
  else if c.modeCircle then some 0 else none

namespace Cycle

/-- A mark is made. -/
def marks (r : Bool) (c : Cycle) : Bool := c.ctl.canMark && r

/-- The mark key changes the mode of a running arm, which sends it back to its point. -/
def remodes (c : Cycle) : Bool :=
  !c.ctl.canMark && c.ctl.canSwitch && c.ctl.targetMode.isSome && c.ctl.startFlag &&
    decide (0 < c.ctl.pointCount)

/-- The start key restarts a finished cycle. -/
def restarts (c : Cycle) : Bool :=
  decide (0 < c.ctl.pointCount) && !c.ctl.startFlag && (c.ctl.cycleComplete && c.ctl.firstImuFlag2)

/-- The start key starts the first cycle. -/
def firstStarts (c : Cycle) : Bool :=
  decide (0 < c.ctl.pointCount) && !c.ctl.startFlag && !(c.ctl.cycleComplete && c.ctl.firstImuFlag2)
    && decide (c.ctl.currentPoint = 0 ∧ c.timer 0 = 0)

/-- The run logic goes on to another point. -/
def switchesPoint (c : Cycle) : Bool :=
  c.pointDue && decide (c.ctl.currentPoint + 1 < c.ctl.pointCount)

/-- The run logic ends the cycle. -/
def finishes (c : Cycle) : Bool := c.pointDue && decide (c.ctl.pointCount ≤ c.ctl.currentPoint + 1)

theorem nextMode_eq (c : Cycle) :
    c.nextMode = (c.ctl.targetMode.map fun m => c.switchMode m).getD c := by
  simp only [nextMode, Ctl.targetMode]
  split_ifs <;> rfl

theorem startKey_eq (c : Cycle) : c.startKey =
    if c.restarts then c.restart
    else if c.firstStarts then c.firstStart
    else if 0 < c.ctl.pointCount then if c.ctl.startFlag then c.pauseRun else c.resumeRun
    else c := by
  unfold startKey restarts firstStarts
  by_cases hm : 0 < c.ctl.pointCount
  · rw [if_pos hm, decide_eq_true hm]
    cases c.ctl.startFlag
    · cases c.ctl.cycleComplete && c.ctl.firstImuFlag2
      · by_cases hf : c.ctl.currentPoint = 0 ∧ c.timer 0 = 0
        · rw [decide_eq_true hf, if_pos hf]
          rfl
        · rw [decide_eq_false hf, if_neg hf, if_pos hm]
          rfl
      · rfl
    · rw [if_pos hm]
      rfl
  · rw [if_neg hm, decide_eq_false hm, if_neg hm]
    rfl

theorem runLogic_eq (c : Cycle) : c.runLogic =
    if c.finishes then
      { c with ctl := { c.ctl with currentPoint := c.ctl.currentPoint + 1 } }.finishCycle
    else if c.switchesPoint then
      { c with ctl := { c.ctl with currentPoint := c.ctl.currentPoint + 1 } }.switchPoint
    else c := by
  unfold runLogic finishes switchesPoint
  cases c.pointDue
  · rfl
  · dsimp only
    by_cases hle : c.ctl.pointCount ≤ c.ctl.currentPoint + 1
    · rw [if_pos rfl, if_pos hle, decide_eq_true hle]
      rfl
    · rw [if_pos rfl, if_neg hle, decide_eq_false hle, decide_eq_true (by omega)]
      rfl

end Cycle

/-! ## The pending return and the burner -/

/-- A pending return: whether there is one, whether its delay has passed, its type, and
the accumulator of its delay. -/
structure Return where
  inProgress : Bool
  flag : Bool
  type : Nat
  acc : Nat
  deriving DecidableEq

def Cycle.ret (c : Cycle) : Return :=
  ⟨c.ctl.returnInProgress, c.ctl.returnDelayFlag, c.ctl.returnType, c.accReturn⟩

namespace Return

/-- A call of `start_return_delay`, which leaves the accumulator as it is. -/
def call (type : Nat) (p : Return) : Return := ⟨true, false, type, p.acc⟩

def tick (p : Return) : Return :=
  if p.inProgress then
    if returnDelayMs ≤ p.acc + 100 then ⟨true, true, p.type, 0⟩ else { p with acc := p.acc + 100 }
  else { p with acc := 0 }

theorem tick_eq (p : Return) : p.tick = ⟨p.inProgress, p.tick.flag, p.type, p.tick.acc⟩ := by
  unfold tick
  split_ifs with hp
  · rw [hp]
  · rfl
  · rfl

end Return

/-- The burn counter with its enable flag, and the outputs. -/
structure Burner where
  flag : Bool
  acc : Nat
  gpio : Gpio
  deriving DecidableEq

def Gpio.off : Gpio := ⟨false, false, false⟩

namespace Burner

def ignite (b : Burner) : Burner := { b with flag := true, gpio := { b.gpio with flame := true } }

/-- This tick ends the burn. -/
def expires (b : Burner) : Bool := b.flag && decide (flameMs ≤ b.acc + 100)

def tick (b : Burner) : Burner :=
  if b.expires then ⟨false, 0, ⟨false, true, true⟩⟩
  else if b.flag then { b with acc := b.acc + 100 } else b

end Burner

namespace Cycle

def burner (c : Cycle) : Burner := ⟨c.ctl.flameFlag, c.accFlame, c.gpio⟩

/-! ## The shared parts of the moves -/

/-- The types whose completion sets the arm running. -/
def startsArm (type : Nat) : Bool := type == 3 || type == 4 || type == 5

theorem completeReturn_eq (c : Cycle) : c.completeReturn = { c with
    ctl :=
      if c.ctl.returnType = 1 then c.ctl.startTimers
      else if startsArm c.ctl.returnType then { c.ctl with startFlag := true }.startTimers
      else c.ctl
    timer :=
      if c.ctl.returnType == 5 then Function.update c.timer c.ctl.currentPoint 0 else c.timer
    gpio := if c.ctl.returnType == 2 then .off else c.gpio } := by
  simp only [completeReturn]
  split
  case h_6 _ hn1 hn2 hn3 hn4 hn5 =>
    have hno : startsArm c.ctl.returnType = false := by
      simpa [startsArm, and_assoc] using ⟨fun h => hn3 h, fun h => hn4 h, fun h => hn5 h⟩
    rw [if_neg fun h => hn1 h, hno, beq_false_of_ne hn2, beq_false_of_ne hn5]
    rfl
  all_goals
    next ht =>
      rw [ht]
      rfl

theorem tickFlame_eq (c : Cycle) : c.tickFlame = { c with
    ctl := { c.ctl with flameFlag := c.burner.tick.flag }
    accFlame := c.burner.tick.acc
    gpio := c.burner.tick.gpio } := by
  cases hf : c.ctl.flameFlag
  · have hidle : c.burner.tick = c.burner := by simp [Burner.tick, Burner.expires, burner, hf]
    rw [hidle, tickFlame, hf]
    show c = { c with ctl := { c.ctl with flameFlag := c.ctl.flameFlag } }
    rfl
  · by_cases hx : flameMs ≤ c.accFlame + 100
    · have hend : c.burner.tick = ⟨false, 0, ⟨false, true, true⟩⟩ := by
        simp [Burner.tick, Burner.expires, burner, hf, hx]
      rw [hend, tickFlame, if_pos hf, if_pos hx]
    · have hcount : c.burner.tick = { c.burner with acc := c.accFlame + 100 } := by
        simp [Burner.tick, Burner.expires, burner, hf, hx]
      rw [hcount, tickFlame, if_pos hf, if_neg hx]
      rfl

theorem tickReturn_eq (c : Cycle) : c.tickReturn = { c with
    ctl := { c.ctl with returnDelayFlag := c.ret.tick.flag }
    accReturn := c.ret.tick.acc } := by
  by_cases hp : c.ctl.returnInProgress = true
  · by_cases hx : returnDelayMs ≤ c.accReturn + 100
    · have hend : c.ret.tick = ⟨true, true, c.ctl.returnType, 0⟩ := by
        simp [Return.tick, ret, hp, hx]
      rw [hend, tickReturn, if_pos hp, if_pos hx]
    · have hcount : c.ret.tick = { c.ret with acc := c.accReturn + 100 } := by
        simp [Return.tick, ret, hp, hx]
      rw [hcount, tickReturn, if_pos hp, if_neg hx]
      rfl
  · have hidle : c.ret.tick = { c.ret with acc := 0 } := by simp [Return.tick, ret, hp]
    rw [hidle, tickReturn, if_neg hp]
    rfl

theorem tick_eq (c : Cycle) : c.tick = { c with
    ctl := { c.ctl with flameFlag := c.burner.tick.flag, returnDelayFlag := c.ret.tick.flag }
    accFlame := c.burner.tick.acc
    gpio := c.burner.tick.gpio
    accReturn := c.ret.tick.acc
    timer :=
      if c.ctl.running then
        Function.update c.timer c.ctl.currentPoint (u32 (c.timer c.ctl.currentPoint + 100))
      else c.timer
    log := .tick :: c.log } := by
  rw [tick, tickFlame_eq, tickReturn_eq]
  simp only [tickPoint]
  show (if c.ctl.running then _ else _) = _
  split <;> rfl

/-- What a mode change keeps, the mark key keeps with it. -/
theorem eq_nextMode {B : Type} (f : Cycle → B) (c : Cycle)
    (h : ∀ m, f (c.switchMode m) = f c) : f c.nextMode = f c := by
  rw [nextMode_eq]
  cases c.ctl.targetMode with
  | none => rfl
  | some m => exact h m

theorem eq_timeAdd {B : Type} (f : Cycle → B) (c : Cycle)
    (h : ∀ g, f (c.mapDuration g) = f c) : f c.timeAdd = f c := by
  unfold timeAdd
  split
  · exact h _
  · rfl

theorem eq_timeMinus {B : Type} (f : Cycle → B) (c : Cycle)
    (h : ∀ g, f (c.mapDuration g) = f c) : f c.timeMinus = f c := by
  unfold timeMinus
  split
  · exact h _
  · rfl

/-! ## Events -/

/-- The events of a mode change, newest first. -/
def switchEvents (c : Cycle) (m : Nat) : List Ev :=
  if c.ctl.startFlag && decide (0 < c.ctl.pointCount) then
    [.startReturnDelay 1 c.ctl.currentPoint, .switchMode m]
  else [.switchMode m]

def markEvents (r : Bool) (c : Cycle) : List Ev :=
  if c.ctl.canMark then if r then [.mark c.ctl.pointCount] else []
  else if c.ctl.canSwitch then (c.ctl.targetMode.map c.switchEvents).getD []
  else []

def startEvents (c : Cycle) : List Ev :=
  if c.restarts then [.startReturnDelay 3 0]
  else if c.firstStarts then [.startReturnDelay 4 0]
  else if 0 < c.ctl.pointCount then if c.ctl.startFlag then [.pause] else [.resume]
  else []

def runEvents (c : Cycle) : List Ev :=
  if c.finishes then [.cycleComplete]
  else if c.switchesPoint then [.startReturnDelay 5 (c.ctl.currentPoint + 1)]
  else []

/-- The events a move adds, newest first. -/
def events (r : Bool) (c : Cycle) : Move → List Ev
  | .key .mark => c.markEvents r
  | .key .start => c.startEvents
  | .key .clear => [.clearAll]
  | .returnDelay => if c.ctl.returnDue then [.returnDone c.ctl.returnType] else []
  | .runLogic => c.runEvents
  | .tick => [.tick]
  | _ => []

theorem log_switchMode (m : Nat) (c : Cycle) : (c.switchMode m).log = c.switchEvents m ++ c.log := by
  simp only [switchMode, switchEvents]
  rw [apply_ite Cycle.log, apply_ite Cycle.log, ite_self, apply_ite (· ++ c.log)]
  rfl

theorem log_markKey (r : Bool) (c : Cycle) : (c.markKey r).log = c.markEvents r ++ c.log := by
  simp only [markKey, markEvents]
  split_ifs
  · rfl
  · rfl
  · rw [nextMode_eq]
    cases c.ctl.targetMode with
    | none => rfl
    | some m => exact log_switchMode m c
  · rfl

theorem log_startKey (c : Cycle) : c.startKey.log = c.startEvents ++ c.log := by
  rw [startKey_eq]
  simp only [startEvents]
  split_ifs <;> rfl

theorem log_returnDelay (c : Cycle) : c.returnDelay.log =
    (if c.ctl.returnDue then [.returnDone c.ctl.returnType] else []) ++ c.log := by
  simp only [returnDelay]
  split
  · dsimp only
    simp only [completeReturn]
    split <;> rfl
  · rfl

theorem log_runLogic (c : Cycle) : c.runLogic.log = c.runEvents ++ c.log := by
  rw [runLogic_eq]
  simp only [runEvents]
  split_ifs <;> rfl

theorem log_tick (c : Cycle) : c.tick.log = .tick :: c.log := by
  rw [tick_eq]

theorem log_move (r v : Bool) (c : Cycle) (m : Move) :
    (c.move r v m).log = c.events r m ++ c.log := by
  cases m with
  | key k =>
    cases k with
    | mark => exact log_markKey r c
    | start => exact log_startKey c
    | timeAdd => exact eq_timeAdd Cycle.log c fun _ => rfl
    | timeMinus => exact eq_timeMinus Cycle.log c fun _ => rfl
    | _ => rfl
  | returnDelay => exact log_returnDelay c
  | runLogic => exact log_runLogic c
  | sensors => rfl
  | manual => exact (apply_ite Cycle.log _ _ _).trans (ite_self _)
  | tick => exact log_tick c

end Cycle

/-- The move that records an event. -/
def Ev.source : Ev → Move
  | .tick => .tick
  | .mark _ | .switchMode _ | .startReturnDelay 1 _ => .key .mark
  | .pause | .resume | .startReturnDelay 3 _ | .startReturnDelay 4 _ => .key .start
  | .clearAll => .key .clear
  | .returnDone _ => .returnDelay
  | .cycleComplete | .startReturnDelay _ _ => .runLogic

namespace Cycle

theorem source_of_mem_switchEvents {c : Cycle} {m : Nat} {e : Ev} (h : e ∈ c.switchEvents m) :
    e.source = .key .mark := by
  simp only [switchEvents] at h
  split at h
  · rcases List.mem_cons.1 h with rfl | h
    · rfl
    · rw [List.mem_singleton.1 h]
      rfl
  · rw [List.mem_singleton.1 h]
    rfl

/-- Every event is recorded by one move only. -/
theorem source_of_mem_events {r : Bool} {c : Cycle} {m : Move} {e : Ev} (h : e ∈ c.events r m) :
    e.source = m := by
  cases m with
  | key k =>
    cases k with
    | mark =>
      simp only [events, markEvents] at h
      split_ifs at h
      · rw [List.mem_singleton.1 h]
        rfl
      · exact absurd h List.not_mem_nil
      · cases ht : c.ctl.targetMode with
        | none =>
          rw [ht] at h
          exact absurd h List.not_mem_nil
        | some n =>
          rw [ht] at h
          exact source_of_mem_switchEvents h
      · exact absurd h List.not_mem_nil
    | start =>
      simp only [events, startEvents] at h
      split_ifs at h
      all_goals first
        | exact absurd h List.not_mem_nil
        | rw [List.mem_singleton.1 h]; rfl
    | clear =>
      rw [List.mem_singleton.1 h]
      rfl
    | _ => exact absurd h List.not_mem_nil
  | returnDelay =>
    simp only [events] at h
    split at h
    · rw [List.mem_singleton.1 h]
      rfl
    · exact absurd h List.not_mem_nil
  | runLogic =>
    simp only [events, runEvents] at h
    split_ifs at h
    all_goals first
      | exact absurd h List.not_mem_nil
      | rw [List.mem_singleton.1 h]; rfl
  | tick =>
    rw [List.mem_singleton.1 h]
    rfl
  | _ => exact absurd h List.not_mem_nil

end Cycle

/-! ## The course of a treatment -/

/-- How far a treatment is: whether it runs, whether it is done, its current point,
how many points it has, and whether marking is open. -/
structure Course where
  start : Bool
  complete : Bool
  current : Nat
  count : Nat
  marking : Bool
  deriving DecidableEq

def Ctl.course (c : Ctl) : Course :=
  ⟨c.startFlag, c.cycleComplete, c.currentPoint, c.pointCount, c.bijiFlag⟩

namespace Cycle

def startCourse (c : Cycle) : Course :=
  if c.restarts then { c.ctl.course with current := 0, complete := false, marking := false }
  else if c.firstStarts then { c.ctl.course with marking := false }
  else if 0 < c.ctl.pointCount then { c.ctl.course with start := !c.ctl.startFlag }
  else c.ctl.course

def runCourse (c : Cycle) : Course :=
  if c.finishes then
    { c.ctl.course with start := false, current := c.ctl.currentPoint + 1, complete := true }
  else if c.switchesPoint then
    { c.ctl.course with start := false, current := c.ctl.currentPoint + 1 }
  else c.ctl.course

def nextCourse (r : Bool) (c : Cycle) : Move → Course
  | .key .mark =>
    if c.marks r then { c.ctl.course with count := c.ctl.pointCount + 1 } else c.ctl.course
  | .key .start => c.startCourse
  | .key .clear => { c.ctl.course with start := false, count := 0, marking := true }
  | .returnDelay =>
    if c.ctl.returnDue && startsArm c.ctl.returnType then { c.ctl.course with start := true }
    else c.ctl.course
  | .runLogic => c.runCourse
  | _ => c.ctl.course

/-- What a move can do to the course, with the branch that does it. -/
inductive CourseMove (r : Bool) (c : Cycle) (m : Move) (n : Course) : Prop
  | same : n = c.ctl.course → CourseMove r c m n
  | mark : m = .key .mark → c.marks r = true →
      n = { c.ctl.course with count := c.ctl.pointCount + 1 } → CourseMove r c m n
  | restart : m = .key .start → c.restarts = true →
      n = { c.ctl.course with current := 0, complete := false, marking := false } → CourseMove r c m n
  | firstStart : m = .key .start → c.firstStarts = true →
      n = { c.ctl.course with marking := false } → CourseMove r c m n
  | toggle : m = .key .start → ¬ c.restarts = true → ¬ c.firstStarts = true → 0 < c.ctl.pointCount →
      n = { c.ctl.course with start := !c.ctl.startFlag } → CourseMove r c m n
  | clear : m = .key .clear →
      n = { c.ctl.course with start := false, count := 0, marking := true } → CourseMove r c m n
  | arrive : m = .returnDelay → (c.ctl.returnDue && startsArm c.ctl.returnType) = true →
      n = { c.ctl.course with start := true } → CourseMove r c m n
  | finish : m = .runLogic → c.finishes = true →
      n = { c.ctl.course with start := false, current := c.ctl.currentPoint + 1, complete := true } →
      CourseMove r c m n
  | switch : m = .runLogic → c.switchesPoint = true →
      n = { c.ctl.course with start := false, current := c.ctl.currentPoint + 1 } → CourseMove r c m n

theorem courseMove_next (r : Bool) (c : Cycle) (m : Move) : CourseMove r c m (c.nextCourse r m) := by
  cases m with
  | key k =>
    cases k with
    | mark =>
      by_cases hmark : c.marks r = true
      · exact .mark rfl hmark (if_pos hmark)
      · exact .same (if_neg hmark)
    | start =>
      simp only [nextCourse, startCourse]
      split_ifs with hre hfi hcount
      · exact .restart rfl hre rfl
      · exact .firstStart rfl hfi rfl
      · exact .toggle rfl hre hfi hcount rfl
      · exact .same rfl
    | clear => exact .clear rfl rfl
    | _ => exact .same rfl
  | returnDelay =>
    by_cases hdue : (c.ctl.returnDue && startsArm c.ctl.returnType) = true
    · exact .arrive rfl hdue (if_pos hdue)
    · exact .same (if_neg hdue)
  | runLogic =>
    simp only [nextCourse, runCourse]
    split_ifs with hfin hsw
    · exact .finish rfl hfin rfl
    · exact .switch rfl hsw rfl
    · exact .same rfl
  | _ => exact .same rfl

theorem count_nextCourse (r : Bool) (c : Cycle) {m : Move} (hmark : m ≠ .key .mark)
    (hclear : m ≠ .key .clear) : (c.nextCourse r m).count = c.ctl.pointCount := by
  cases courseMove_next r c m with
  | mark hm _ _ => exact absurd hm hmark
  | clear hm _ => exact absurd hm hclear
  | same hnext | restart _ _ hnext | firstStart _ _ hnext | toggle _ _ _ _ hnext | arrive _ _ hnext
  | finish _ _ hnext | switch _ _ hnext =>
    rw [hnext]
    rfl

theorem count_nextCourse_le {c : Cycle} (h : c.ctl.pointCount ≤ maxPoints) (r : Bool) (m : Move) :
    (c.nextCourse r m).count ≤ maxPoints := by
  cases courseMove_next r c m with
  | mark _ hmark hnext =>
    simp only [marks, Ctl.canMark, Bool.and_eq_true, decide_eq_true_eq] at hmark
    rw [hnext]
    exact hmark.1.1.1.2
  | clear _ hnext =>
    rw [hnext]
    exact Nat.zero_le maxPoints
  | same hnext | restart _ _ hnext | firstStart _ _ hnext | toggle _ _ _ _ hnext | arrive _ _ hnext
  | finish _ _ hnext | switch _ _ hnext =>
    rw [hnext]
    exact h

/-- A completed return that sets the arm running sends it to a marked point of an
unfinished cycle. -/
theorem Inv.marked_of_return {c : Cycle} (h : c.Inv)
    (hdue : (c.ctl.returnDue && startsArm c.ctl.returnType) = true) :
    c.ctl.currentPoint < c.ctl.pointCount := by
  simp only [Ctl.returnDue, startsArm, Bool.and_eq_true, Bool.or_eq_true, beq_iff_eq] at hdue
  obtain ⟨⟨hpend, _⟩, hlaunch | hswitch⟩ := hdue
  · have hl := h.launch hpend hlaunch
    rw [hl.current]
    exact hl.marked
  · exact (h.switch hpend hswitch).marked

theorem course_switchMode (m : Nat) (c : Cycle) : (c.switchMode m).ctl.course = c.ctl.course := by
  unfold switchMode
  dsimp only
  split_ifs <;> rfl

theorem course_markKey (r : Bool) (c : Cycle) :
    (c.markKey r).ctl.course = c.nextCourse r (.key .mark) := by
  unfold markKey nextCourse marks
  cases c.ctl.canMark
  case true => cases r <;> rfl
  case false =>
    show Ctl.course (ctl (if c.ctl.canSwitch then c.nextMode else c)) = c.ctl.course
    split
    · exact eq_nextMode (fun d => d.ctl.course) c fun m => course_switchMode m c
    · rfl

theorem course_startKey (c : Cycle) : c.startKey.ctl.course = c.startCourse := by
  rw [startKey_eq]
  simp only [startCourse]
  split_ifs with _ _ _ hs
  · rfl
  · rfl
  · rw [hs]
    rfl
  · rw [Bool.eq_false_of_not_eq_true hs]
    rfl
  · rfl

theorem course_completeReturn (c : Cycle) : c.completeReturn.ctl.course =
    if startsArm c.ctl.returnType then { c.ctl.course with start := true } else c.ctl.course := by
  rw [completeReturn_eq]
  dsimp only
  by_cases h1 : c.ctl.returnType = 1
  · rw [if_pos h1, h1]
    rfl
  · rw [if_neg h1]
    split <;> rfl

theorem course_returnDelay (c : Cycle) (r : Bool) :
    c.returnDelay.ctl.course = c.nextCourse r .returnDelay := by
  simp only [returnDelay, nextCourse]
  cases hd : c.ctl.returnDue
  · rfl
  · exact course_completeReturn { c.note (.returnDone c.ctl.returnType) with
      ctl := { c.ctl with returnDelayFlag := false, returnInProgress := false } }

theorem course_runLogic (c : Cycle) : c.runLogic.ctl.course = c.runCourse := by
  rw [runLogic_eq]
  simp only [runCourse]
  split_ifs <;> rfl

theorem course_tick (c : Cycle) : c.tick.ctl.course = c.ctl.course := by
  rw [tick_eq]
  rfl

theorem course_move (r v : Bool) (c : Cycle) (m : Move) :
    (c.move r v m).ctl.course = c.nextCourse r m := by
  cases m with
  | key k =>
    cases k with
    | mark => exact course_markKey r c
    | start => exact course_startKey c
    | timeAdd => exact eq_timeAdd (fun d => d.ctl.course) c fun _ => rfl
    | timeMinus => exact eq_timeMinus (fun d => d.ctl.course) c fun _ => rfl
    | _ => rfl
  | returnDelay => exact course_returnDelay c r
  | runLogic => exact course_runLogic c
  | sensors => rfl
  | manual =>
    show (c.manual v).ctl.course = c.ctl.course
    unfold manual
    split <;> rfl
  | tick => exact course_tick c

theorem mark_of_count_lt {r : Bool} {c : Cycle} {m : Move} {i : Nat}
    (hi : i < (c.nextCourse r m).count) (hold : ¬ i < c.ctl.pointCount) :
    i = c.ctl.pointCount ∧ c.events r m = [.mark c.ctl.pointCount] := by
  cases courseMove_next r c m with
  | mark hm hmark hnext =>
    subst hm
    rw [hnext] at hi
    refine ⟨Nat.le_antisymm (Nat.le_of_lt_succ hi) (Nat.le_of_not_lt hold), ?_⟩
    simp only [marks, Bool.and_eq_true] at hmark
    simp [events, markEvents, hmark]
  | clear _ hnext =>
    rw [hnext] at hi
    exact absurd hi (Nat.not_lt_zero i)
  | same hnext | restart _ _ hnext | firstStart _ _ hnext | toggle _ _ _ _ hnext | arrive _ _ hnext
  | finish _ _ hnext | switch _ _ hnext =>
    rw [hnext] at hi
    exact absurd hi hold

/-! ## The pending return -/

def nextReturn (c : Cycle) : Move → Return
  | .key .mark => if c.remodes then c.ret.call 1 else c.ret
  | .key .start =>
    if c.restarts then c.ret.call 3 else if c.firstStarts then c.ret.call 4 else c.ret
  | .key .clear => { c.ret with inProgress := false }
  | .returnDelay => if c.ctl.returnDue then ⟨false, false, 0, c.accReturn⟩ else c.ret
  | .runLogic => if c.switchesPoint then c.ret.call 5 else c.ret
  | .tick => c.ret.tick
  | _ => c.ret

theorem ret_switchMode (m : Nat) (c : Cycle) : (c.switchMode m).ret =
    if c.ctl.startFlag && decide (0 < c.ctl.pointCount) then c.ret.call 1 else c.ret := by
  let c₁ : Cycle := { c.note (.switchMode m) with ctl := c.ctl.stopTimers.setMode m }
  show ret (if c.ctl.startFlag && decide (0 < c.ctl.pointCount) then
      c₁.startReturnDelay 1 c.ctl.currentPoint
    else if c.ctl.startFlag then { c₁ with ctl := c₁.ctl.startTimers } else c₁) = _
  split
  · rfl
  · split <;> rfl

theorem ret_markKey (r : Bool) (c : Cycle) : (c.markKey r).ret = c.nextReturn (.key .mark) := by
  unfold markKey nextReturn remodes
  cases c.ctl.canMark
  case true => cases r <;> rfl
  case false =>
    cases c.ctl.canSwitch
    case false => rfl
    case true =>
      show c.nextMode.ret = _
      rw [nextMode_eq]
      cases c.ctl.targetMode with
      | none => rfl
      | some m => exact ret_switchMode m c

theorem ret_startKey (c : Cycle) : c.startKey.ret = c.nextReturn (.key .start) := by
  rw [startKey_eq]
  simp only [nextReturn]
  split
  · rfl
  · split
    · rfl
    · split_ifs <;> rfl

theorem ret_returnDelay (c : Cycle) : c.returnDelay.ret = c.nextReturn .returnDelay := by
  unfold returnDelay nextReturn
  split
  · dsimp only
    unfold completeReturn
    split <;> rfl
  · rfl

theorem finishes_of_not_switchesPoint {c : Cycle} (h : c.finishes = true) :
    c.switchesPoint = false := by
  simp only [finishes, switchesPoint, Bool.and_eq_true, decide_eq_true_eq] at *
  rw [decide_eq_false (by omega), Bool.and_false]

theorem ret_runLogic (c : Cycle) : c.runLogic.ret = c.nextReturn .runLogic := by
  rw [runLogic_eq]
  simp only [nextReturn]
  split
  · next hf =>
    rw [finishes_of_not_switchesPoint hf]
    rfl
  · split <;> rfl

theorem ret_tick (c : Cycle) : c.tick.ret = c.ret.tick := by
  rw [tick_eq]
  exact (Return.tick_eq c.ret).symm

theorem ret_move (r v : Bool) (c : Cycle) (m : Move) : (c.move r v m).ret = c.nextReturn m := by
  cases m with
  | key k =>
    cases k with
    | mark => exact ret_markKey r c
    | start => exact ret_startKey c
    | timeAdd => exact eq_timeAdd ret c fun _ => rfl
    | timeMinus => exact eq_timeMinus ret c fun _ => rfl
    | _ => rfl
  | returnDelay => exact ret_returnDelay c
  | runLogic => exact ret_runLogic c
  | sensors => rfl
  | manual => exact (apply_ite ret _ _ _).trans (ite_self _)
  | tick => exact ret_tick c

/-! ## The timers -/

def nextTimer (r : Bool) (c : Cycle) : Move → Nat → Nat
  | .key .mark => if c.marks r then Function.update c.timer c.ctl.pointCount 0 else c.timer
  | .key .start =>
    if c.restarts then fun i => if i < c.ctl.pointCount then 0 else c.timer i else c.timer
  | .key .clear => fun i => if i < maxPoints then 0 else c.timer i
  | .returnDelay =>
    if c.ctl.returnDue && c.ctl.returnType == 5 then Function.update c.timer c.ctl.currentPoint 0
    else c.timer
  | .tick =>
    if c.ctl.running then
      Function.update c.timer c.ctl.currentPoint (u32 (c.timer c.ctl.currentPoint + 100))
    else c.timer
  | _ => c.timer

theorem timer_switchMode (m : Nat) (c : Cycle) : (c.switchMode m).timer = c.timer := by
  unfold switchMode
  dsimp only
  split_ifs <;> rfl

theorem timer_markKey (r : Bool) (c : Cycle) :
    (c.markKey r).timer = c.nextTimer r (.key .mark) := by
  unfold markKey nextTimer marks
  cases c.ctl.canMark
  case true => cases r <;> rfl
  case false =>
    show timer (if c.ctl.canSwitch then c.nextMode else c) = c.timer
    split
    · exact eq_nextMode timer c fun m => timer_switchMode m c
    · rfl

theorem timer_startKey (c : Cycle) (r : Bool) : c.startKey.timer = c.nextTimer r (.key .start) := by
  rw [startKey_eq]
  simp only [nextTimer]
  split
  · rfl
  · split_ifs <;> rfl

theorem timer_completeReturn (c : Cycle) : c.completeReturn.timer =
    if c.ctl.returnType == 5 then Function.update c.timer c.ctl.currentPoint 0 else c.timer := by
  rw [completeReturn_eq]

theorem timer_returnDelay (c : Cycle) (r : Bool) :
    c.returnDelay.timer = c.nextTimer r .returnDelay := by
  simp only [returnDelay, nextTimer]
  cases c.ctl.returnDue
  · rfl
  · exact timer_completeReturn { c.note (.returnDone c.ctl.returnType) with
      ctl := { c.ctl with returnDelayFlag := false, returnInProgress := false } }

theorem timer_runLogic (c : Cycle) : c.runLogic.timer = c.timer := by
  unfold runLogic
  dsimp only
  split_ifs <;> rfl

theorem timer_tick (c : Cycle) (r : Bool) : c.tick.timer = c.nextTimer r .tick := by
  rw [tick_eq]
  rfl

theorem timer_move (r v : Bool) (c : Cycle) (m : Move) : (c.move r v m).timer = c.nextTimer r m := by
  cases m with
  | key k =>
    cases k with
    | mark => exact timer_markKey r c
    | start => exact timer_startKey c r
    | timeAdd => exact eq_timeAdd timer c fun _ => rfl
    | timeMinus => exact eq_timeMinus timer c fun _ => rfl
    | _ => rfl
  | returnDelay => exact timer_returnDelay c r
  | runLogic => exact timer_runLogic c
  | sensors => rfl
  | manual => exact (apply_ite timer _ _ _).trans (ite_self _)
  | tick => exact timer_tick c r

/-! ## The burner and the outputs -/

def nextBurner (c : Cycle) : Move → Burner
  | .key .start => if c.restarts || c.firstStarts then c.burner.ignite else c.burner
  | .key .clear => { c.burner with gpio := .off }
  | .returnDelay =>
    if c.ctl.returnDue && c.ctl.returnType == 2 then { c.burner with gpio := .off } else c.burner
  | .runLogic => if c.finishes then { c.burner with gpio := .off } else c.burner
  | .tick => c.burner.tick
  | _ => c.burner

theorem burner_switchMode (m : Nat) (c : Cycle) : (c.switchMode m).burner = c.burner := by
  unfold switchMode
  dsimp only
  split_ifs <;> rfl

theorem burner_markKey (r : Bool) (c : Cycle) : (c.markKey r).burner = c.burner := by
  simp only [markKey]
  split_ifs
  · rfl
  · rfl
  · exact eq_nextMode burner c fun m => burner_switchMode m c
  · rfl

theorem burner_startKey (c : Cycle) : c.startKey.burner = c.nextBurner (.key .start) := by
  rw [startKey_eq]
  simp only [nextBurner]
  cases c.restarts
  · cases c.firstStarts
    · show burner (if 0 < c.ctl.pointCount then _ else c) = c.burner
      split_ifs <;> rfl
    · rfl
  · rfl

theorem burner_completeReturn (c : Cycle) : c.completeReturn.burner =
    if c.ctl.returnType == 2 then { c.burner with gpio := .off } else c.burner := by
  have hflag : c.completeReturn.ctl.flameFlag = c.ctl.flameFlag := by
    rw [completeReturn_eq]
    dsimp only
    split_ifs <;> rfl
  rw [burner, hflag, completeReturn_eq, apply_ite (Burner.mk c.ctl.flameFlag c.accFlame)]
  rfl

theorem burner_returnDelay (c : Cycle) : c.returnDelay.burner = c.nextBurner .returnDelay := by
  simp only [returnDelay, nextBurner]
  cases c.ctl.returnDue
  · rfl
  · exact burner_completeReturn { c.note (.returnDone c.ctl.returnType) with
      ctl := { c.ctl with returnDelayFlag := false, returnInProgress := false } }

theorem burner_runLogic (c : Cycle) : c.runLogic.burner = c.nextBurner .runLogic := by
  rw [runLogic_eq]
  simp only [nextBurner]
  split
  · rfl
  · split <;> rfl

theorem burner_tick (c : Cycle) : c.tick.burner = c.burner.tick := by
  rw [tick_eq]
  rfl

theorem burner_move (r v : Bool) (c : Cycle) (m : Move) :
    (c.move r v m).burner = c.nextBurner m := by
  cases m with
  | key k =>
    cases k with
    | mark => exact burner_markKey r c
    | start => exact burner_startKey c
    | timeAdd => exact eq_timeAdd burner c fun _ => rfl
    | timeMinus => exact eq_timeMinus burner c fun _ => rfl
    | _ => rfl
  | returnDelay => exact burner_returnDelay c
  | runLogic => exact burner_runLogic c
  | sensors => rfl
  | manual => exact (apply_ite burner _ _ _).trans (ite_self _)
  | tick => exact burner_tick c

end Cycle

end RoboticArm
