import RoboticArm.Motion
import RoboticArm.Tick
import RoboticArm.Runs

/- The control loop `rb_test08` of `new.c`, as a machine.

   An iteration of `while (1)` is six stages: the LCD key switch, the infrared
   key switch, the return-delay completion, the main run logic, the sensors with
   the levelling of motor 6, and the manual control. `Stage` names them and the
   tick of `TIM3_IRQHandler`; `stage` is one of them, `Step` is a whole iteration
   (with any key bytes and any sensor readings) or a tick, and `run` is a
   sequence of steps from power-on.

   The two key switches are separate copies of the same case bodies in the
   source, statement for statement (up to debug prints and a variable that is
   never read), so each body is one function here and `lcdSwitch` and `irSwitch`
   list which byte reaches which.

   Correspondence (C ↔ Lean):
     `case 0xf1` / `0x47`, `0xf2` / `0x5d`   ↔ `caseZUp`, `caseZDown`
     `case 0xf3 .. 0xf6` / `0x18 ..`         ↔ `caseJog`
     `case 0xFB` / `0x15`                    ↔ `caseMark`
     `case 0xfc` / `0x45`                    ↔ `caseStart`
     `case 0xE1`                             ↔ `caseClear`
     `PID_five_motor`                        ↔ `pidFiveMotor` -/
namespace RoboticArm

variable {K : Type} [Field K] [LinearOrder K]

/-! ## Keys -/

/-- What a key byte asks for; `other` is every byte without a case. -/
inductive Key where
  | zUp
  | zDown
  | xDec
  | xInc
  | yInc
  | yDec
  | swing (up : Bool)
  | zero
  | rest
  | mark
  | start
  | timeAdd
  | timeMinus
  | clear
  | correct6 (delta : Int)
  | correct1 (delta : Int)
  | other
  deriving DecidableEq, Repr

/-- The cases of `switch (cmd)`. -/
def lcdKey (b : UInt8) : Key :=
  if b = 0xf1 then .zUp
  else if b = 0xf2 then .zDown
  else if b = 0xf4 then .xDec
  else if b = 0xf3 then .xInc
  else if b = 0xf5 then .yInc
  else if b = 0xf6 then .yDec
  else if b = 0xf7 then .swing false
  else if b = 0xf8 then .swing true
  else if b = 0xf9 then .zero
  else if b = 0xfa then .rest
  else if b = 0xfb then .mark
  else if b = 0xfc then .start
  else if b = 0xfd then .timeAdd
  else if b = 0xfe then .timeMinus
  else if b = 0xe1 then .clear
  else if b = 0xe2 then .correct6 10
  else if b = 0xe3 then .correct6 (-10)
  else if b = 0xe4 then .correct6 1
  else if b = 0xe5 then .correct6 (-1)
  else if b = 0xe6 then .correct1 10
  else if b = 0xe7 then .correct1 (-10)
  else if b = 0xe8 then .correct1 1
  else if b = 0xe9 then .correct1 (-1)
  else .other

/-- The cases of `switch (ir_command)`. -/
def irKey (b : UInt8) : Key :=
  if b = 0x1c then .yInc
  else if b = 0x55 then .yDec
  else if b = 0x59 then .xDec
  else if b = 0x18 then .xInc
  else if b = 0x47 then .zUp
  else if b = 0x5d then .zDown
  else if b = 0x44 then .swing false
  else if b = 0x5c then .swing true
  else if b = 0x15 then .mark
  else if b = 0x45 then .start
  else .other

/-! ## Key cases -/

def pitchOn (b : Bool) (s : Rb K) : Rb K := { s with level := { s.level with pitchOnFlag := b } }

/-- Move the jog target, clamp it, update the range alarm. -/
def jogBy (dx dy dz : K) (s : Rb K) : Rb K :=
  let s := { s with jog := s.jog.move dx dy dz }
  { s with led := updateRangeStatus s.jog.cur s.led }

def caseJog (dx dy : K) (s : Rb K) : Rb K := pitchOn true (jogBy dx dy 0 s)

/-- Shift the height of the point being run, solve for it and keep the joints. -/
def adjustZ (env : Env K) (dz : K) (prompt : Nat) (s : Rb K) : Rb K :=
  let i := s.ctl.currentPoint
  let p := { s.here.pos with z := s.here.pos.z + dz }
  let s := s.setPoint i { s.here with pos := p }
  let s := solveFor env p s
  let s := s.setPoint i { s.here with j := s.arm.global, jiuliBaseline := s.here.jiuliBaseline + dz }
  s.setYuyin prompt

def caseZUp (env : Env K) (s : Rb K) : Rb K :=
  pitchOn true <|
    if s.ctl.running then
      if s.here.pos.z + 5 < zMax then adjustZ env 5 6 s else s
    else jogBy 0 0 5 s

def caseZDown (env : Env K) (s : Rb K) : Rb K :=
  pitchOn true <|
    if s.ctl.running then
      if zMin < s.here.pos.z - 5 then adjustZ env (-5) 7 s else s
    else jogBy 0 0 (-5) s

def caseSwing (up : Bool) (s : Rb K) : Rb K :=
  let angle := if up then s.level.cebaiAngle + 10 else s.level.cebaiAngle - 10
  let s := { s with level := { s.level with cebaiAngle := angle } }
  pitchOn true (s.send [.controlMotor angle 4])

def caseZero (s : Rb K) : Rb K :=
  let s := pitchOn true (runZero s)
  { s with level := { s.level with firstImuFlag := true } }

def caseRest (s : Rb K) : Rb K := pitchOn false (runStart s)

/-- The body of the marking branch: the joint globals are stored before the
solver is called for the point. -/
def markPoint (env : Env K) (raw : K) (s : Rb K) : Rb K :=
  let s := s.note (.mark s.ctl.pointCount)
  let s := { s with led := { s.led with rgbLedMode := 7 } }
  let d := filteredTof raw s.tof
  let s := { s with tof := d.2 }
  let s := s.setPoint s.ctl.pointCount
    { pos := s.jog.cur
      j := s.arm.global
      pointTimer := 0
      pointDuration := s.ctl.pointDuration
      position := 0
      jiuliBaseline := d.1 }
  let s := { s with ctl := { s.ctl with pointCount := s.ctl.pointCount + 1 } }
  solveFor env s.jog.cur s

/-- The mode cycle hover, left-right, up-down, circle. -/
def nextMode (env : Env K) (s : Rb K) : Rb K :=
  if s.ctl.modeHover then (switchMode env 2 s).setYuyin 3
  else if s.ctl.modeLr then (switchMode env 3 s).setYuyin 2
  else if s.ctl.modeUd then (switchMode env 1 s).setYuyin 5
  else if s.ctl.modeCircle then (switchMode env 0 s).setYuyin 4
  else s

/-- Marking is open: stopped, a free cell, jogged once, and no cycle begun since the last clear. -/
def Ctl.canMark (c : Ctl) : Bool :=
  !c.startFlag && decide (c.pointCount < maxPoints) && c.firstImuFlag2 && c.bijiFlag

/-- The mark key changes the mode instead. -/
def Ctl.canSwitch (c : Ctl) : Bool := decide (c.pointCount ≠ 0) && c.firstImuFlag2 && !c.bijiFlag

def caseMark (env : Env K) (raw : K) (s : Rb K) : Rb K :=
  if s.ctl.canMark then
    if checkCoordinateRange s.jog.cur then markPoint env raw s else s
  else if s.ctl.canSwitch then nextMode env s
  else s

/-- The pause branch of the start key. -/
def pauseRun (s : Rb K) : Rb K :=
  let s := s.note .pause
  let s := { s with
    ctl := { s.ctl.stopTimers with startFlag := false }
    motion := { s.motion with circleMoveFlag := false, lrMoveFlag := false, udMoveFlag := false } }
  (s.setLed 1 1).setYuyin 8

/-- What both launching branches of the start key begin with. -/
def ignite (s : Rb K) : Rb K :=
  let s := { s with ctl := { s.ctl with bijiFlag := false } }
  let s := s.writeBit .flame true
  let s := { s with ctl := { s.ctl with flameFlag := true } }
  (s.setYuyin 1).setLed 3 3

def Motion.resetUd (m : Motion K) : Motion K :=
  { m with udTrajStep := 0, udInterpCount := 0, udCurrentT := 0 }

/-- Case 1 of the start key: restart after a finished cycle. -/
def restart (env : Env K) (s : Rb K) : Rb K :=
  let s := ignite s
  let s := { s with ctl := { s.ctl with currentPoint := 0, cycleComplete := false } }
  let s := s.mapMarked fun p => { p with pointTimer := 0, position := 0 }
  let s := { s with motion := s.motion.resetUd }
  startReturnDelay env 3 0 s

/-- Case 2: first start. -/
def firstStart (env : Env K) (s : Rb K) : Rb K := startReturnDelay env 4 0 (ignite s)

/-- Case 3: resume from a pause. -/
def resumeRun (s : Rb K) : Rb K :=
  let s := s.note .resume
  let s := s.setLed 3 3
  let s := { s with ctl := { s.ctl with startFlag := true }.startTimers }
  s.setYuyin 1

def caseStart (env : Env K) (s : Rb K) : Rb K :=
  if 0 < s.ctl.pointCount then
    if s.ctl.startFlag then pauseRun s
    else if s.ctl.cycleComplete && s.ctl.firstImuFlag2 then restart env s
    else if s.ctl.currentPoint = 0 ∧ (s.points 0).pointTimer = 0 then firstStart env s
    else resumeRun s
  else s

/-- The clear-all key. `current_point`, `cycle_complete`, the burn timer and the
return flag and type are left as they are. -/
def caseClear (s : Rb K) : Rb K :=
  let s := s.note .clearAll
  let s := { s with
    ctl := { s.ctl.stopTimers with
      startFlag := false, bijiFlag := true, returnInProgress := false, pointCount := 0 }
    motion := { s.motion with circleMoveFlag := false, lrMoveFlag := false, udMoveFlag := false } }
  let s := { s with
    points := fun i =>
      if i < maxPoints then
        { pos := ⟨0, 0, 0⟩, j := Joints.zero, pointTimer := 0,
          pointDuration := s.ctl.pointDuration, position := 0, jiuliBaseline := 0 }
      else s.points i }
  s.outputsOff.setLed 6 6

def caseCorrect6 (delta : Int) (s : Rb K) : Rb K :=
  let angle := s.level.correctAngle6 + delta
  { s with level := { s.level with correctAngle6 := angle } }.send [.controlMotor angle 6]

def caseCorrect1 (delta : Int) (s : Rb K) : Rb K :=
  let angle := s.level.correctAngle1 + delta
  { s with level := { s.level with correctAngle1 := angle } }.send [.controlMotor angle 1]

/-- One key, with the reading a mark would take. -/
def onKey (env : Env K) (raw : K) (s : Rb K) : Key → Rb K
  | .zUp => caseZUp env s
  | .zDown => caseZDown env s
  | .xDec => caseJog (-5) 0 s
  | .xInc => caseJog 5 0 s
  | .yInc => caseJog 0 5 s
  | .yDec => caseJog 0 (-5) s
  | .swing up => caseSwing up s
  | .zero => caseZero s
  | .rest => caseRest s
  | .mark => caseMark env raw s
  | .start => caseStart env s
  | .timeAdd => runTimeAdd s
  | .timeMinus => runTimeMinus s
  | .clear => caseClear s
  | .correct6 delta => caseCorrect6 delta s
  | .correct1 delta => caseCorrect1 delta s
  | .other => s

def lcdSwitch (env : Env K) (b : UInt8) (raw : K) (s : Rb K) : Rb K := onKey env raw s (lcdKey b)

def irSwitch (env : Env K) (b : UInt8) (raw : K) (s : Rb K) : Rb K := onKey env raw s (irKey b)

/-! ## Return-delay completion -/

/-- A return is due: in progress with its delay passed. -/
def Ctl.returnDue (c : Ctl) : Bool := c.returnInProgress && c.returnDelayFlag

/-- `switch (return_type)`. Types 3 and 4 (launches) and 5 (point switch) set the
arm running; type 1 (mode switch) restarts the mode timers only. -/
def completeReturn (s : Rb K) : Rb K :=
  match s.ctl.returnType with
  | 1 =>
    let s := s.setPoint s.ctl.currentPoint { s.here with position := 0 }
    { s with motion := s.motion.resetUd, ctl := s.ctl.startTimers }
  | 2 => s.outputsOff
  | 3 => { s with ctl := { s.ctl with startFlag := true }.startTimers }
  | 4 => { s with ctl := { s.ctl with startFlag := true }.startTimers }
  | 5 =>
    let s := s.setPoint s.ctl.currentPoint { s.here with position := 0, pointTimer := 0 }
    { s with motion := s.motion.resetUd, ctl := { s.ctl with startFlag := true }.startTimers }
  | _ => s

def returnDelay (s : Rb K) : Rb K :=
  if s.ctl.returnDue then
    let s := s.note (.returnDone s.ctl.returnType)
    let s := { s with ctl := { s.ctl with returnDelayFlag := false, returnInProgress := false } }
    let s := completeReturn s
    { s with ctl := { s.ctl with returnType := 0 } }
  else s

/-! ## Main run logic -/

/-- The current point has had its time. -/
def pointDue (s : Rb K) : Bool :=
  s.ctl.running && decide (s.here.pointDuration ≤ s.here.pointTimer)

/-- All points are done. -/
def finishCycle (s : Rb K) : Rb K :=
  let s := s.note .cycleComplete
  let s := s.outputsOff
  let s := { s with led := { s.led with rgbLedMode := 0 } }
  let s := { s with ctl := { s.ctl.stopTimers with cycleComplete := true, startFlag := false } }
  runStart (s.setYuyin 8)

/-- Go on to the next point. -/
def switchPoint (env : Env K) (s : Rb K) : Rb K :=
  let s := { s with ctl := { s.ctl.stopTimers with startFlag := false } }
  startReturnDelay env 5 s.ctl.currentPoint s

def runMode (env : Env K) (raw : K) (s : Rb K) : Rb K :=
  if s.ctl.modeHover then runHover env raw s
  else if s.ctl.modeLr && s.motion.lrMoveFlag then runLr env raw s
  else if s.ctl.modeCircle && s.motion.circleMoveFlag then runCircle env raw s
  else if s.ctl.modeUd && s.motion.udMoveFlag then runUd env raw s
  else s

def runLogic (env : Env K) (raw : K) (s : Rb K) : Rb K :=
  if s.ctl.running then
    if s.here.pointDuration ≤ s.here.pointTimer then
      let s := { s with ctl := { s.ctl with currentPoint := s.ctl.currentPoint + 1 } }
      if s.ctl.pointCount ≤ s.ctl.currentPoint then finishCycle s else switchPoint env s
    else runMode env raw s
  else s

/-! ## Sensors and levelling -/

/-- The gains `P`, `I` and `D`. -/
structure Gains (K : Type) where
  p : K
  i : K
  d : K

def gains : Gains K := ⟨1 / 2, 2 / 100, 0⟩

/-- `PID_five_motor`; `last_error` is shifted before `last_last_error` reads it. -/
def pidFiveMotor (g : Gains K) (angle : K) (l : Level K) : K × Level K :=
  let l := { l with error := angle }
  let step := g.p * (l.error - l.lastError) + g.i * l.error +
    g.d * (l.error - 2 * l.lastError + l.lastLastError)
  let l := { l with runAngle := l.runAngle + step }
  let l := { l with lastError := l.error }
  let l := { l with lastLastError := l.lastError }
  (l.runAngle, l)

/-- The distance reading, the attitude (if a packet has decoded), the reference
angle of motor 6 and, every 100 ms, its levelling. -/
def sensors (raw : K) (pitch : Option K) (s : Rb K) : Rb K :=
  let s := { s with tof := (filteredTof raw s.tof).2 }
  let s := { s with level := { s.level with pitchAngle := pitch.getD s.level.pitchAngle } }
  let s :=
    if s.level.firstImuFlag then
      { s with level := { s.level with firstAnglg := s.arm.global.j5 } }
    else s
  if s.level.timeDelay100ms && s.level.pitchOnFlag && s.ctl.firstImuFlag2 then
    let s := { s with level := { s.level with timeDelay100ms := false } }
    if 4000 < s.level.imuTime then
      let r := pidFiveMotor gains (s.level.pitchAngle - 13 / 2) s.level
      { s with level := r.2 }.send [.controlMotorNew (s.level.firstAnglg + r.1) 6 220 0]
    else
      let s := if s.level.imuTime < 100 then s.send [.controlMotor s.level.firstAnglg 6] else s
      { s with level := { s.level with imuTime := s.level.imuTime + 100 } }
  else s

/-! ## Manual control -/

def manual (env : Env K) (s : Rb K) : Rb K :=
  if s.jog.moved && !s.ctl.startFlag then
    let s :=
      if s.ctl.firstImuFlag2 then { s with level := { s.level with firstImuFlag := false } } else s
    let s := if s.led.rgbLedMode ≠ 5 then s.setLed 1 1 else s
    let s := { s with ctl := { s.ctl with firstImuFlag2 := true } }
    let s := { s with jog := { s.jog with prev := s.jog.cur } }
    let s := solveFor env s.jog.cur s
    let q := s.arm.global
    s.send
      [.controlMotor (90 - q.j1) 1, .canBldcPosControl q.j2 2, .canBldcPosControl q.j3 3,
       .controlMotor q.j4 5, .lcdSendTask s.jog.cur.x s.jog.cur.y s.jog.cur.z q]
  else s

/-! ## The machine -/

/-- The inputs of one iteration: the two key bytes, the raw distance reading at
each place that takes one, and the pitch of an attitude packet, if one came. -/
structure Input (K : Type) where
  lcd : UInt8
  ir : UInt8
  tofLcd : K
  tofIr : K
  tofRun : K
  tofSense : K
  pitch : Option K

inductive Stage (K : Type) where
  | lcd (b : UInt8) (raw : K)
  | ir (b : UInt8) (raw : K)
  | returnDelay
  | runLogic (raw : K)
  | sensors (raw : K) (pitch : Option K)
  | manual
  | tick

def stage (env : Env K) (s : Rb K) : Stage K → Rb K
  | .lcd b raw => lcdSwitch env b raw s
  | .ir b raw => irSwitch env b raw s
  | .returnDelay => returnDelay s
  | .runLogic raw => runLogic env raw s
  | .sensors raw pitch => sensors raw pitch s
  | .manual => manual env s
  | .tick => tim3IrqHandler s

/-- A whole iteration, or a tick. -/
inductive Step (K : Type) where
  | iteration (i : Input K)
  | tick

def Step.stages : Step K → List (Stage K)
  | .iteration i =>
    [.lcd i.lcd i.tofLcd, .ir i.ir i.tofIr, .returnDelay, .runLogic i.tofRun,
     .sensors i.tofSense i.pitch, .manual]
  | .tick => [.tick]

def step (env : Env K) (s : Rb K) (a : Step K) : Rb K := Runs.exec (stage env) s a.stages

/-- The state after a sequence of steps from power-on. -/
def run (env : Env K) (as : List (Step K)) : Rb K := Runs.exec (step env) boot as

/-- Every stage of the run is entered where `ok` allows it. -/
def Throughout (ok : Rb K → Stage K → Prop) (env : Env K) (as : List (Step K)) : Prop :=
  Runs.Along ok (stage env) boot (as.flatMap Step.stages)

end RoboticArm
