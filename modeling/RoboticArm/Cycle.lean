import RoboticArm.Frame

/- The treatment cycle as a machine of its own.

   What the controller is for can be said without the arm: points are marked,
   a start key ignites the burner and sends the arm to the first point, each
   point is treated for its duration, and pauses, mode switches, return delays
   and the clear key come in between. `Cycle` keeps exactly what decides this:
   the flags, the timer and duration of every point, the two accumulators of the
   tick handler that gate it, the outputs and the log.

   1. `Cycle.move` is the machine: keys, the stages of an iteration and the tick.
   2. `cycle_stage`: the control program moves as this machine does. No sensor
      reading, no attitude and no answer of the joint search enters it, and the
      jog target only by two tests: whether it is inside the box, and whether it
      has moved.
   3. `jog_stage`: the jog target in turn depends on the flags only. -/
namespace RoboticArm

/-- The part of the state that decides the course of a treatment. -/
structure Cycle where
  ctl : Ctl
  timer : Nat → Nat
  duration : Nat → Nat
  accFlame : Nat
  accReturn : Nat
  gpio : Gpio
  log : List Ev

/-- What a step of the program is to the cycle. -/
inductive Move where
  | key (k : Key)
  | returnDelay
  | runLogic
  | sensors
  | manual
  | tick
  deriving DecidableEq, Repr

namespace Cycle

/-! ## The machine -/

def note (e : Ev) (c : Cycle) : Cycle := { c with log := e :: c.log }

/-- Change the duration to be set, and with it those of the marked points. -/
def mapDuration (f : Nat → Nat) (c : Cycle) : Cycle :=
  { c with
    ctl := { c.ctl with pointDuration := f c.ctl.pointDuration }
    duration := fun i => if i < c.ctl.pointCount then f (c.duration i) else c.duration i }

def timeAdd (c : Cycle) : Cycle :=
  if c.ctl.pointDuration < pointDurationMax * 60000 then c.mapDuration fun d => u32 (d + 60000) else c

def timeMinus (c : Cycle) : Cycle :=
  if pointDurationMin * 60000 < c.ctl.pointDuration then
    c.mapDuration fun d => u32 (d + 2 ^ 32 - 60000)
  else c

def startReturnDelay (type i : Nat) (c : Cycle) : Cycle :=
  { c.note (.startReturnDelay type i) with
    ctl := { c.ctl with returnType := type, returnInProgress := true, returnDelayFlag := false } }

def switchMode (m : Nat) (c : Cycle) : Cycle :=
  let c := { c.note (.switchMode m) with ctl := c.ctl.stopTimers.setMode m }
  if c.ctl.startFlag && decide (0 < c.ctl.pointCount) then c.startReturnDelay 1 c.ctl.currentPoint
  else if c.ctl.startFlag then { c with ctl := c.ctl.startTimers }
  else c

def nextMode (c : Cycle) : Cycle :=
  if c.ctl.modeHover then c.switchMode 2
  else if c.ctl.modeLr then c.switchMode 3
  else if c.ctl.modeUd then c.switchMode 1
  else if c.ctl.modeCircle then c.switchMode 0
  else c

def markPoint (c : Cycle) : Cycle :=
  { c.note (.mark c.ctl.pointCount) with
    timer := Function.update c.timer c.ctl.pointCount 0
    duration := Function.update c.duration c.ctl.pointCount c.ctl.pointDuration
    ctl := { c.ctl with pointCount := c.ctl.pointCount + 1 } }

def pauseRun (c : Cycle) : Cycle :=
  { c.note .pause with ctl := { c.ctl.stopTimers with startFlag := false } }

def ignite (c : Cycle) : Cycle :=
  { c with
    ctl := { c.ctl with bijiFlag := false, flameFlag := true }, gpio := { c.gpio with flame := true } }

def restart (c : Cycle) : Cycle :=
  let c := c.ignite
  let c := { c with
    ctl := { c.ctl with currentPoint := 0, cycleComplete := false }
    timer := fun i => if i < c.ctl.pointCount then 0 else c.timer i }
  c.startReturnDelay 3 0

def firstStart (c : Cycle) : Cycle := c.ignite.startReturnDelay 4 0

def resumeRun (c : Cycle) : Cycle :=
  { c.note .resume with ctl := { c.ctl with startFlag := true }.startTimers }

def startKey (c : Cycle) : Cycle :=
  if 0 < c.ctl.pointCount then
    if c.ctl.startFlag then c.pauseRun
    else if c.ctl.cycleComplete && c.ctl.firstImuFlag2 then c.restart
    else if c.ctl.currentPoint = 0 ∧ c.timer 0 = 0 then c.firstStart
    else c.resumeRun
  else c

def clear (c : Cycle) : Cycle :=
  { c.note .clearAll with
    ctl := { c.ctl.stopTimers with
      startFlag := false, bijiFlag := true, returnInProgress := false, pointCount := 0 }
    timer := fun i => if i < maxPoints then 0 else c.timer i
    duration := fun i => if i < maxPoints then c.ctl.pointDuration else c.duration i
    gpio := ⟨false, false, false⟩ }

def completeReturn (c : Cycle) : Cycle :=
  match c.ctl.returnType with
  | 1 => { c with ctl := c.ctl.startTimers }
  | 2 => { c with gpio := ⟨false, false, false⟩ }
  | 3 => { c with ctl := { c.ctl with startFlag := true }.startTimers }
  | 4 => { c with ctl := { c.ctl with startFlag := true }.startTimers }
  | 5 =>
    { c with
      timer := Function.update c.timer c.ctl.currentPoint 0
      ctl := { c.ctl with startFlag := true }.startTimers }
  | _ => c

def returnDelay (c : Cycle) : Cycle :=
  if c.ctl.returnDue then
    let c := c.note (.returnDone c.ctl.returnType)
    let c := { c with ctl := { c.ctl with returnDelayFlag := false, returnInProgress := false } }
    let c := c.completeReturn
    { c with ctl := { c.ctl with returnType := 0 } }
  else c

def finishCycle (c : Cycle) : Cycle :=
  { c.note .cycleComplete with
    gpio := ⟨false, false, false⟩
    ctl := { c.ctl.stopTimers with cycleComplete := true, startFlag := false } }

def switchPoint (c : Cycle) : Cycle :=
  { c with ctl := { c.ctl.stopTimers with startFlag := false } }.startReturnDelay 5 c.ctl.currentPoint

/-- The current point has had its time. -/
def pointDue (c : Cycle) : Bool :=
  c.ctl.running && decide (c.duration c.ctl.currentPoint ≤ c.timer c.ctl.currentPoint)

def runLogic (c : Cycle) : Cycle :=
  if c.pointDue then
    let c := { c with ctl := { c.ctl with currentPoint := c.ctl.currentPoint + 1 } }
    if c.ctl.pointCount ≤ c.ctl.currentPoint then c.finishCycle else c.switchPoint
  else c

def tickFlame (c : Cycle) : Cycle :=
  if c.ctl.flameFlag then
    if flameMs ≤ c.accFlame + 100 then
      { c with ctl := { c.ctl with flameFlag := false }, accFlame := 0, gpio := ⟨false, true, true⟩ }
    else { c with accFlame := c.accFlame + 100 }
  else c

def tickReturn (c : Cycle) : Cycle :=
  if c.ctl.returnInProgress then
    if returnDelayMs ≤ c.accReturn + 100 then
      { c with accReturn := 0, ctl := { c.ctl with returnDelayFlag := true } }
    else { c with accReturn := c.accReturn + 100 }
  else { c with accReturn := 0 }

def tickPoint (c : Cycle) : Cycle :=
  if c.ctl.running then
    { c with
      timer := Function.update c.timer c.ctl.currentPoint (u32 (c.timer c.ctl.currentPoint + 100)) }
  else c

def tick (c : Cycle) : Cycle := (c.note .tick).tickFlame.tickReturn.tickPoint

def markKey (inRange : Bool) (c : Cycle) : Cycle :=
  if c.ctl.canMark then if inRange then c.markPoint else c
  else if c.ctl.canSwitch then c.nextMode
  else c

def onKey (inRange : Bool) (c : Cycle) : Key → Cycle
  | .mark => c.markKey inRange
  | .start => c.startKey
  | .timeAdd => c.timeAdd
  | .timeMinus => c.timeMinus
  | .clear => c.clear
  | _ => c

def manual (moved : Bool) (c : Cycle) : Cycle :=
  if moved && !c.ctl.startFlag then { c with ctl := { c.ctl with firstImuFlag2 := true } } else c

/-- One move, with the two tests on the jog target. -/
def move (inRange moved : Bool) (c : Cycle) : Move → Cycle
  | .key k => c.onKey inRange k
  | .returnDelay => c.returnDelay
  | .runLogic => c.runLogic
  | .sensors => c
  | .manual => c.manual moved
  | .tick => c.tick

/-- Power-on. -/
def boot : Cycle where
  ctl := Ctl.boot
  timer := fun _ => 0
  duration := fun _ => 0
  accFlame := 0
  accReturn := 0
  gpio := Gpio.boot
  log := []

end Cycle

/-- The jog target after a move, given the flags before it. -/
def Jog.next {R : Type} [Ring R] [LinearOrder R] (c : Ctl) (j : Jog R) : Move → Jog R
  | .key .zUp => if c.running then j else j.move 0 0 5
  | .key .zDown => if c.running then j else j.move 0 0 (-5)
  | .key .xDec => j.move (-5) 0 0
  | .key .xInc => j.move 5 0 0
  | .key .yInc => j.move 0 5 0
  | .key .yDec => j.move 0 (-5) 0
  | .manual => if j.moved && !c.startFlag then { j with prev := j.cur } else j
  | _ => j

/-! ## The control program moves as the cycle does -/

/-- The cycle inside a state of the control program. -/
def Rb.cycle {K : Type} (s : Rb K) : Cycle where
  ctl := s.ctl
  timer := fun i => (s.points i).pointTimer
  duration := fun i => (s.points i).pointDuration
  accFlame := s.isr.accFlame
  accReturn := s.isr.accReturn
  gpio := s.gpio
  log := s.log

/-- What a stage is to the cycle. -/
def Stage.move {K : Type} : Stage K → Move
  | .lcd b _ => .key (lcdKey b)
  | .ir b _ => .key (irKey b)
  | .returnDelay => .returnDelay
  | .runLogic _ => .runLogic
  | .sensors _ _ => .sensors
  | .manual => .manual
  | .tick => .tick

section
variable {K : Type}

@[simp] theorem cycle_send (cs : List (Cmd K)) (s : Rb K) : (s.send cs).cycle = s.cycle := rfl

@[simp] theorem cycle_setYuyin (v : Nat) (s : Rb K) : (s.setYuyin v).cycle = s.cycle := rfl

@[simp] theorem cycle_pitchOn (b : Bool) (s : Rb K) : (pitchOn b s).cycle = s.cycle := rfl

theorem cycle_setPoint (i : Nat) (p : SimplePoint K) (s : Rb K) :
    (s.setPoint i p).cycle = { s.cycle with
      timer := Function.update s.cycle.timer i p.pointTimer
      duration := Function.update s.cycle.duration i p.pointDuration } := by
  simp only [Rb.cycle, Rb.setPoint, Cycle.mk.injEq, true_and, and_true]
  constructor <;>
  · funext j
    by_cases h : j = i
    · subst h; simp
    · simp [h]

theorem cycle_setPoint_timer {i : Nat} {p : SimplePoint K} {s : Rb K}
    (hd : p.pointDuration = (s.points i).pointDuration) :
    (s.setPoint i p).cycle =
      { s.cycle with timer := Function.update s.cycle.timer i p.pointTimer } := by
  have e : Function.update s.cycle.duration i (s.points i).pointDuration = s.cycle.duration :=
    Function.update_eq_self i s.cycle.duration
  rw [cycle_setPoint, hd, e]

theorem cycle_setPoint_same {i : Nat} {p : SimplePoint K} {s : Rb K}
    (ht : p.pointTimer = (s.points i).pointTimer)
    (hd : p.pointDuration = (s.points i).pointDuration) : (s.setPoint i p).cycle = s.cycle := by
  have e : Function.update s.cycle.timer i (s.points i).pointTimer = s.cycle.timer :=
    Function.update_eq_self i s.cycle.timer
  rw [cycle_setPoint_timer hd, ht, e]

theorem cycle_mapMarked (f : SimplePoint K → SimplePoint K) (ft fd : Nat → Nat)
    (ht : ∀ p, (f p).pointTimer = ft p.pointTimer)
    (hd : ∀ p, (f p).pointDuration = fd p.pointDuration) (s : Rb K) :
    (s.mapMarked f).cycle = { s.cycle with
      timer := fun i => if i < s.ctl.pointCount then ft (s.cycle.timer i) else s.cycle.timer i
      duration := fun i =>
        if i < s.ctl.pointCount then fd (s.cycle.duration i) else s.cycle.duration i } := by
  simp only [Rb.cycle, Rb.mapMarked, Cycle.mk.injEq, true_and, and_true]
  constructor
  · funext i
    split
    · exact ht _
    · rfl
  · funext i
    split
    · exact hd _
    · rfl

theorem cycle_pauseRun (s : Rb K) : (pauseRun s).cycle = s.cycle.pauseRun := rfl

theorem cycle_resumeRun (s : Rb K) : (resumeRun s).cycle = s.cycle.resumeRun := rfl

theorem cycle_tickFlame (s : Rb K) : (tickFlame s).cycle = s.cycle.tickFlame := by
  simp only [tickFlame, Cycle.tickFlame]
  split
  · next h =>
    rw [if_pos (show s.cycle.ctl.flameFlag = true from h)]
    split
    · next hx => rw [if_pos (show flameMs ≤ s.cycle.accFlame + 100 from hx)]; rfl
    · next hx => rw [if_neg (show ¬ flameMs ≤ s.cycle.accFlame + 100 from hx)]; rfl
  · next h => rw [if_neg (show ¬ s.cycle.ctl.flameFlag = true from h)]

theorem cycle_tickReturn (s : Rb K) : (tickReturn s).cycle = s.cycle.tickReturn := by
  simp only [tickReturn, Cycle.tickReturn]
  split
  · next h =>
    rw [if_pos (show s.cycle.ctl.returnInProgress = true from h)]
    split
    · next hx => rw [if_pos (show returnDelayMs ≤ s.cycle.accReturn + 100 from hx)]; rfl
    · next hx => rw [if_neg (show ¬ returnDelayMs ≤ s.cycle.accReturn + 100 from hx)]; rfl
  · next h => rw [if_neg (show ¬ s.cycle.ctl.returnInProgress = true from h)]; rfl

theorem cycle_tickPoint (s : Rb K) : (tickPoint s).cycle = s.cycle.tickPoint := by
  simp only [tickPoint, Cycle.tickPoint]
  split
  · next h =>
    rw [if_pos (show s.cycle.ctl.running = true from h)]
    exact cycle_setPoint_timer rfl
  · next h => rw [if_neg (show ¬ s.cycle.ctl.running = true from h)]

theorem cycle_tick100ms (s : Rb K) : (tick100ms s).cycle = s.cycle := by
  simp only [tick100ms]
  split <;> rfl

theorem cycle_tick (s : Rb K) : (tim3IrqHandler s).cycle = s.cycle.tick := by
  have hmid : ∀ t : Rb K,
      (tickModes { t with led := rgbRun t.led, voice := yunyinRun t.ctl t.voice }).cycle = t.cycle :=
    fun _ => rfl
  show (tickPoint (tickReturn (tickModes { tickFlame (tick100ms (s.note .tick)) with
    led := _, voice := _ }))).cycle = _
  rw [cycle_tickPoint, cycle_tickReturn, hmid, cycle_tickFlame, cycle_tick100ms]
  rfl

theorem cycle_mapDuration (f : Nat → Nat) (s : Rb K) :
    (({ s with ctl := { s.ctl with pointDuration := f s.ctl.pointDuration } } : Rb K).mapMarked
      fun p => { p with pointDuration := f p.pointDuration }).cycle = s.cycle.mapDuration f := by
  rw [cycle_mapMarked (fun p => { p with pointDuration := f p.pointDuration }) id f
    (fun _ => rfl) (fun _ => rfl)]
  simp only [id_eq, ite_self]
  rfl

theorem cycle_runTimeAdd (s : Rb K) : (runTimeAdd s).cycle = s.cycle.timeAdd := by
  simp only [runTimeAdd, Cycle.timeAdd]
  rw [apply_ite Rb.cycle, cycle_mapDuration fun d => u32 (d + 60000)]
  rfl

theorem cycle_runTimeMinus (s : Rb K) : (runTimeMinus s).cycle = s.cycle.timeMinus := by
  unfold runTimeMinus Cycle.timeMinus
  rw [apply_ite Rb.cycle, cycle_mapDuration fun d => u32 (d + 2 ^ 32 - 60000)]
  rfl

end

section
variable {K : Type} [Field K]

theorem cycle_caseClear (s : Rb K) : (caseClear s).cycle = s.cycle.clear := by
  simp only [caseClear, Cycle.clear, Rb.cycle, Cycle.mk.injEq]
  refine ⟨rfl, ?_, ?_, rfl, rfl, rfl, rfl⟩
  · funext i
    show (if i < maxPoints then _ else s.points i : SimplePoint K).pointTimer = _
    split <;> rfl
  · funext i
    show (if i < maxPoints then _ else s.points i : SimplePoint K).pointDuration = _
    split <;> rfl

theorem cycle_adjustZ (env : Env K) (dz : K) (prompt : Nat) (s : Rb K) :
    (adjustZ env dz prompt s).cycle = s.cycle := by
  let p : Pos K := { s.here.pos with z := s.here.pos.z + dz }
  let s₁ := s.setPoint s.ctl.currentPoint { s.here with pos := p }
  let s₂ := solveFor env p s₁
  have h₁ : s₁.cycle = s.cycle := cycle_setPoint_same rfl rfl
  have h₂ : (s₂.setPoint s.ctl.currentPoint { s₂.here with
      j := s₂.arm.global, jiuliBaseline := s₂.here.jiuliBaseline + dz }).cycle = s₂.cycle :=
    cycle_setPoint_same rfl rfl
  exact h₂.trans h₁

theorem cycle_completeReturn (s : Rb K) : (completeReturn s).cycle = s.cycle.completeReturn := by
  have hpos : (s.setPoint s.ctl.currentPoint { s.here with position := 0 }).cycle = s.cycle :=
    cycle_setPoint_same rfl rfl
  have htimer : (s.setPoint s.ctl.currentPoint { s.here with position := 0, pointTimer := 0 }).cycle =
      { s.cycle with timer := Function.update s.cycle.timer s.ctl.currentPoint 0 } :=
    cycle_setPoint_timer rfl
  unfold completeReturn Cycle.completeReturn
  show _ = match s.ctl.returnType with
    | 1 => { s.cycle with ctl := s.ctl.startTimers }
    | 2 => { s.cycle with gpio := ⟨false, false, false⟩ }
    | 3 => { s.cycle with ctl := { s.ctl with startFlag := true }.startTimers }
    | 4 => { s.cycle with ctl := { s.ctl with startFlag := true }.startTimers }
    | 5 => { s.cycle with
        timer := Function.update s.cycle.timer s.ctl.currentPoint 0
        ctl := { s.ctl with startFlag := true }.startTimers }
    | _ => s.cycle
  generalize s.ctl.returnType = t
  rcases t with _ | _ | _ | _ | _ | _ | t
  · rfl
  · calc _ = { (s.setPoint s.ctl.currentPoint { s.here with position := 0 }).cycle with
            ctl := s.ctl.startTimers } := rfl
      _ = _ := by rw [hpos]; rfl
  · rfl
  · rfl
  · rfl
  · calc _ = { (s.setPoint s.ctl.currentPoint
              { s.here with position := 0, pointTimer := 0 }).cycle with
            ctl := { s.ctl with startFlag := true }.startTimers } := rfl
      _ = _ := by rw [htimer]; rfl
  · rfl

theorem cycle_returnDelay (s : Rb K) : (returnDelay s).cycle = s.cycle.returnDelay := by
  let s₁ : Rb K := { s.note (.returnDone s.ctl.returnType) with
    ctl := { s.ctl with returnDelayFlag := false, returnInProgress := false } }
  have h : ({ completeReturn s₁ with
      ctl := { (completeReturn s₁).ctl with returnType := 0 } } : Rb K).cycle =
      { s₁.cycle.completeReturn with
        ctl := { s₁.cycle.completeReturn.ctl with returnType := 0 } } := by
    rw [← cycle_completeReturn]
    rfl
  simp only [returnDelay]
  rw [apply_ite Rb.cycle]
  show (if _ then Rb.cycle { completeReturn s₁ with
      ctl := { (completeReturn s₁).ctl with returnType := 0 } } else _) = _
  rw [h]
  rfl

theorem cycle_finishCycle (s : Rb K) : (finishCycle s).cycle = s.cycle.finishCycle := rfl

variable [LinearOrder K]

@[simp] theorem cycle_jogBy (dx dy dz : K) (s : Rb K) :
    (jogBy dx dy dz s).cycle = s.cycle := rfl

theorem cycle_moveToPoint (env : Env K) (i : Nat) (s : Rb K) :
    (moveToPoint env i s).cycle = s.cycle := by
  simp only [moveToPoint]
  split
  · rfl
  · simp only [cycle_send]
    split
    · exact cycle_setPoint_same rfl rfl
    · rfl

theorem cycle_startReturnDelay (env : Env K) (type i : Nat) (s : Rb K) :
    (startReturnDelay env type i s).cycle = s.cycle.startReturnDelay type i := by
  let s₁ : Rb K := { s.note (.startReturnDelay type i) with ctl := { s.ctl with returnType := type } }
  let s₂ := if i < s.ctl.pointCount then moveToPoint env i s₁ else s₁
  have h : s₂.cycle = s₁.cycle := by
    show Rb.cycle (if i < s.ctl.pointCount then moveToPoint env i s₁ else s₁) = _
    split
    · exact cycle_moveToPoint env i s₁
    · rfl
  calc (startReturnDelay env type i s).cycle
      = { s₂.cycle with
          ctl := { s₂.cycle.ctl with returnInProgress := true, returnDelayFlag := false } } := rfl
    _ = s.cycle.startReturnDelay type i := by rw [h]; rfl

theorem cycle_switchMode (env : Env K) (m : Nat) (s : Rb K) :
    (switchMode env m s).cycle = s.cycle.switchMode m := by
  let s₁ : Rb K := { s.note (.switchMode m) with ctl := s.ctl.stopTimers.setMode m }
  show Rb.cycle (if s₁.ctl.startFlag && decide (0 < s₁.ctl.pointCount) then
      startReturnDelay env 1 s₁.ctl.currentPoint s₁
    else if s₁.ctl.startFlag then { s₁ with ctl := s₁.ctl.startTimers } else s₁) = _
  rw [apply_ite Rb.cycle, apply_ite Rb.cycle, cycle_startReturnDelay]
  rfl

theorem cycle_nextMode (env : Env K) (s : Rb K) : (nextMode env s).cycle = s.cycle.nextMode := by
  simp only [nextMode]
  rw [apply_ite Rb.cycle, apply_ite Rb.cycle, apply_ite Rb.cycle, apply_ite Rb.cycle]
  simp only [cycle_setYuyin, cycle_switchMode]
  rfl

theorem cycle_markPoint (env : Env K) (raw : K) (s : Rb K) :
    (markPoint env raw s).cycle = s.cycle.markPoint := by
  let s₁ : Rb K :=
    { s.note (.mark s.ctl.pointCount) with
      led := { s.led with rgbLedMode := 7 }, tof := (filteredTof raw s.tof).2 }
  let p : SimplePoint K :=
    ⟨s.jog.cur, s.arm.global, 0, s.ctl.pointDuration, 0, (filteredTof raw s.tof).1⟩
  calc (markPoint env raw s).cycle
      = { (s₁.setPoint s.ctl.pointCount p).cycle with
          ctl := { s.ctl with pointCount := s.ctl.pointCount + 1 } } := rfl
    _ = s.cycle.markPoint := by rw [cycle_setPoint]; rfl

theorem cycle_caseMark (env : Env K) (raw : K) (s : Rb K) :
    (caseMark env raw s).cycle = s.cycle.markKey (checkCoordinateRange s.jog.cur) := by
  simp only [caseMark]
  rw [apply_ite Rb.cycle, apply_ite Rb.cycle, apply_ite Rb.cycle, cycle_markPoint, cycle_nextMode]
  rfl

theorem cycle_restart (env : Env K) (s : Rb K) : (restart env s).cycle = s.cycle.restart := by
  let s₁ : Rb K :=
    { ignite s with ctl := { (ignite s).ctl with currentPoint := 0, cycleComplete := false } }
  let s₂ : Rb K := s₁.mapMarked fun p => { p with pointTimer := 0, position := 0 }
  have h : s₂.cycle = { s₁.cycle with
      timer := fun i => if i < s.ctl.pointCount then 0 else s.cycle.timer i } := by
    have hmap := cycle_mapMarked (fun p => { p with pointTimer := 0, position := 0 })
      (fun _ => 0) id (fun _ => rfl) (fun _ => rfl) s₁
    simp only [id_eq, ite_self] at hmap
    exact hmap
  show (startReturnDelay env 3 0 { s₂ with motion := s₂.motion.resetUd }).cycle = _
  rw [cycle_startReturnDelay]
  show s₂.cycle.startReturnDelay 3 0 = _
  rw [h]
  rfl

theorem cycle_firstStart (env : Env K) (s : Rb K) :
    (firstStart env s).cycle = s.cycle.firstStart := by
  simp only [firstStart]
  rw [cycle_startReturnDelay]
  rfl

theorem cycle_caseStart (env : Env K) (s : Rb K) : (caseStart env s).cycle = s.cycle.startKey := by
  simp only [caseStart]
  rw [apply_ite Rb.cycle, apply_ite Rb.cycle, apply_ite Rb.cycle, apply_ite Rb.cycle,
    cycle_pauseRun, cycle_restart, cycle_firstStart, cycle_resumeRun]
  rfl

theorem cycle_onKey (env : Env K) (raw : K) (s : Rb K) (k : Key) :
    (onKey env raw s k).cycle = s.cycle.onKey (checkCoordinateRange s.jog.cur) k := by
  cases k with
  | zUp =>
    show (pitchOn true _).cycle = _
    rw [cycle_pitchOn, apply_ite Rb.cycle, apply_ite Rb.cycle, cycle_adjustZ, cycle_jogBy, ite_self,
      ite_self]
    rfl
  | zDown =>
    show (pitchOn true _).cycle = _
    rw [cycle_pitchOn, apply_ite Rb.cycle, apply_ite Rb.cycle, cycle_adjustZ, cycle_jogBy, ite_self,
      ite_self]
    rfl
  | mark => exact cycle_caseMark env raw s
  | start => exact cycle_caseStart env s
  | timeAdd => exact cycle_runTimeAdd s
  | timeMinus => exact cycle_runTimeMinus s
  | clear => exact cycle_caseClear s
  | _ => rfl

theorem cycle_runHover (env : Env K) (raw : K) (s : Rb K) : (runHover env raw s).cycle = s.cycle := by
  unfold runHover
  dsimp only
  split <;> rfl

theorem cycle_runLr (env : Env K) (raw : K) (s : Rb K) : (runLr env raw s).cycle = s.cycle := by
  unfold runLr
  split
  · rfl
  · have hpos : ∀ n, (s.setPoint s.ctl.currentPoint { s.here with position := n }).cycle = s.cycle :=
      fun _ => cycle_setPoint_same rfl rfl
    dsimp only
    split <;> exact hpos _

theorem cycle_runCircle (env : Env K) (raw : K) (s : Rb K) :
    (runCircle env raw s).cycle = s.cycle := by
  simp only [runCircle]
  split <;> rfl

theorem cycle_runUd (env : Env K) (raw : K) (s : Rb K) : (runUd env raw s).cycle = s.cycle := by
  simp only [runUd]
  split <;> rfl

theorem cycle_runMode (env : Env K) (raw : K) (s : Rb K) : (runMode env raw s).cycle = s.cycle := by
  simp only [runMode]
  rw [apply_ite Rb.cycle, apply_ite Rb.cycle, apply_ite Rb.cycle, apply_ite Rb.cycle,
    cycle_runHover, cycle_runLr, cycle_runCircle, cycle_runUd]
  simp only [ite_self]

theorem cycle_switchPoint (env : Env K) (s : Rb K) :
    (switchPoint env s).cycle = s.cycle.switchPoint := by
  simp only [switchPoint]
  rw [cycle_startReturnDelay]
  rfl

theorem cycle_runLogic (env : Env K) (raw : K) (s : Rb K) :
    (runLogic env raw s).cycle = s.cycle.runLogic := by
  have hdue : s.cycle.pointDue = pointDue s := rfl
  unfold runLogic Cycle.runLogic
  rw [hdue]
  unfold pointDue
  split
  · next hr =>
    rw [hr]
    split
    · next ht =>
      simp only [ht, decide_true, Bool.and_self, if_true]
      rw [apply_ite Rb.cycle, cycle_finishCycle, cycle_switchPoint]
      rfl
    · next ht => simp [ht, cycle_runMode]
  · next hr => simp [hr]

theorem cycle_sensors (raw : K) (pitch : Option K) (s : Rb K) :
    (sensors raw pitch s).cycle = s.cycle := by
  unfold sensors
  dsimp only
  split_ifs <;> rfl

theorem cycle_manual (env : Env K) (s : Rb K) :
    (manual env s).cycle = s.cycle.manual s.jog.moved := by
  have hguard : (s.jog.moved && !s.cycle.ctl.startFlag) = (s.jog.moved && !s.ctl.startFlag) := rfl
  unfold manual Cycle.manual
  rw [hguard]
  split
  · dsimp only
    split_ifs <;> rfl
  · rfl

/-- Every stage of the control program is a move of the cycle. -/
theorem cycle_stage (env : Env K) (s : Rb K) (a : Stage K) :
    (stage env s a).cycle =
      s.cycle.move (checkCoordinateRange s.jog.cur) s.jog.moved a.move := by
  cases a with
  | lcd b raw => exact cycle_onKey env raw s (lcdKey b)
  | ir b raw => exact cycle_onKey env raw s (irKey b)
  | returnDelay => exact cycle_returnDelay s
  | runLogic raw => exact cycle_runLogic env raw s
  | sensors raw pitch => exact cycle_sensors raw pitch s
  | manual => exact cycle_manual env s
  | tick => exact cycle_tick s

end

/-! ## The jog target

Only the jog keys and the manual stage write it. -/

section
variable {K : Type} [Field K] [LinearOrder K]

theorem jog_caseMark (env : Env K) (raw : K) (s : Rb K) : (caseMark env raw s).jog = s.jog := by
  simp only [caseMark]
  split_ifs
  · rfl
  · rfl
  · exact congrArg Scene.jog (scene_nextMode env s)
  · rfl

theorem jog_onKey (env : Env K) (raw : K) (s : Rb K) (k : Key) :
    (onKey env raw s k).jog = s.jog.next s.ctl (.key k) := by
  cases k with
  | zUp =>
    show Rb.jog (if s.ctl.running then _ else _) = if s.ctl.running then s.jog else _
    split
    · split <;> rfl
    · rfl
  | zDown =>
    show Rb.jog (if s.ctl.running then _ else _) = if s.ctl.running then s.jog else _
    split
    · split <;> rfl
    · rfl
  | mark => exact jog_caseMark env raw s
  | start => exact congrArg Scene.jog (scene_caseStart env s)
  | timeAdd => exact congrArg Ground.jog (ground_runTimeAdd s)
  | timeMinus => exact congrArg Ground.jog (ground_runTimeMinus s)
  | _ => rfl

theorem jog_runMode (env : Env K) (raw : K) (s : Rb K) : (runMode env raw s).jog = s.jog := by
  unfold runMode runHover runLr runCircle runUd
  dsimp only
  split_ifs <;> rfl

theorem jog_runLogic (env : Env K) (raw : K) (s : Rb K) : (runLogic env raw s).jog = s.jog := by
  unfold runLogic
  dsimp only
  split_ifs
  · rfl
  · exact congrArg Scene.jog (scene_startReturnDelay env 5 _ _)
  · exact jog_runMode env raw s
  · rfl

theorem jog_manual (env : Env K) (s : Rb K) : (manual env s).jog = s.jog.next s.ctl .manual := by
  simp only [manual]
  show _ = if s.jog.moved && !s.ctl.startFlag then { s.jog with prev := s.jog.cur } else s.jog
  dsimp only
  split_ifs <;> rfl

theorem jog_stage (env : Env K) (s : Rb K) (a : Stage K) :
    (stage env s a).jog = s.jog.next s.ctl a.move := by
  cases a with
  | lcd b raw => exact jog_onKey env raw s (lcdKey b)
  | ir b raw => exact jog_onKey env raw s (irKey b)
  | returnDelay => exact congrArg Ground.jog (ground_returnDelay s)
  | runLogic raw => exact jog_runLogic env raw s
  | sensors raw pitch =>
    show (sensors raw pitch s).jog = s.jog
    unfold sensors
    dsimp only
    split_ifs <;> rfl
  | manual => exact jog_manual env s
  | tick => exact congrArg Ground.jog (ground_tick s)

end

end RoboticArm
