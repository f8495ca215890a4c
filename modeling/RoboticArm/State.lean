import RoboticArm.Arm
import Mathlib.Logic.Function.Basic

/- The data of `new.c`: its constants, the marked points, the globals and statics
   of the control program, and what the program does to the outside.

   The state is one record `Rb`, grouped as the source groups it: the flags that
   decide what runs (`Ctl`), the jog target and its last handled value (`Jog`),
   the statics of the tick handler (`Isr`), of the height compensation (`Comp`),
   of the distance filter in `tof.c` (`Tof`), of the motion functions (`Motion`),
   the levelling of motor 6 (`Level`), the indicator (`Led`), the voice prompts
   (`Voice`) and the three actuator outputs (`Gpio`).

   Three fields record what happened, newest first, and are read by no code:
   `log` holds ticks, marks, calls and mode changes (`Ev`), `cmds` the commands sent
   to motors, outputs and the display (`Cmd`), `solved` the targets of the successful
   calls of `robot_arm_5dof_method2` with the joints each gave.

   Flags the source only ever sets to 0 or 1 are `Bool`; `uint32_t` counters
   whose overflow can matter go through `u32`. The debug prints are left out. -/
namespace RoboticArm

/-! ## Constants -/

def maxPoints : Nat := 5
def pointDurationMin : Nat := 2
def pointDurationMax : Nat := 10
def lrMoveInterval : Nat := 1200
def circleInterval : Nat := 700
def circlePoints : Nat := 8
def udMoveInterval : Nat := 300
def udTrajectoryPoints : Nat := 8
def interpStepsModeUd : Nat := 3
def returnDelayMs : Nat := 6000
def flameMs : Nat := 252000

/-- Reduction to `uint32_t`. -/
def u32 (n : Nat) : Nat := n % 2 ^ 32

theorem u32_of_lt {n : Nat} (h : n < 2 ^ 32) : u32 n = n := Nat.mod_eq_of_lt h

theorem u32_le (n : Nat) : u32 n ≤ n := Nat.mod_le n (2 ^ 32)

theorem u32_sub {n k : Nat} (hk : k ≤ n) (hn : n < 2 ^ 32) : u32 (n + 2 ^ 32 - k) = n - k := by
  rw [show n + 2 ^ 32 - k = n - k + 2 ^ 32 by omega, u32, Nat.add_mod_right]
  exact Nat.mod_eq_of_lt (by omega)

/-- `type_names` of `start_return_delay`: none, mode switch, cycle end, restart, first start. -/
def typeNames : List String := ["无", "模式切换", "循环结束", "重新开始", "首次启动"]

/-- `mode_names` of `switch_mode`: hover, circle, left-right, up-down. -/
def modeNames : List String := ["悬停", "圆形", "左右", "上下"]

/-! ## What is recorded -/

/-- Control events, in the order the code reaches them. -/
inductive Ev where
  | tick
  | mark (idx : Nat)
  | startReturnDelay (type targetPointIdx : Nat)
  | switchMode (newMode : Nat)
  | returnDone (type : Nat)
  | pause
  | resume
  | clearAll
  | cycleComplete
  deriving DecidableEq, Repr

/-- The three switched outputs. -/
inductive Pin where
  | flame
  | fan
  | light
  deriving DecidableEq, Repr

/-- Commands that leave the controller. -/
inductive Cmd (K : Type) where
  | controlMotor (angle : K) (id : Nat)
  | controlMotorNew (angle : K) (id speed acceleration : Nat)
  | canBldcPosControl (angle : K) (motorId : Nat)
  | writeBit (pin : Pin) (level : Bool)
  | lcdSendTask (x y z : K) (j : Joints K)
  deriving DecidableEq, Repr

/-! ## State -/

/-- A point of the workspace. -/
structure Pos (K : Type) where
  x : K
  y : K
  z : K
  deriving DecidableEq, Repr

/-- `SimplePoint`. -/
structure SimplePoint (K : Type) where
  pos : Pos K
  j : Joints K
  pointTimer : Nat
  pointDuration : Nat
  position : Nat
  jiuliBaseline : K
  deriving DecidableEq, Repr

/-- The flags that decide what runs. `bijiFlag` and `firstImuFlag2` are locals of
`rb_test08`: marking is allowed, and the arm has been jogged once. -/
structure Ctl where
  startFlag : Bool
  cycleComplete : Bool
  currentPoint : Nat
  pointCount : Nat
  pointDuration : Nat
  returnDelayFlag : Bool
  returnInProgress : Bool
  returnType : Nat
  modeHover : Bool
  modeCircle : Bool
  modeLr : Bool
  modeUd : Bool
  timerRunningCircle : Bool
  timerRunningLr : Bool
  timerRunningUd : Bool
  bijiFlag : Bool
  firstImuFlag2 : Bool
  flameFlag : Bool
  deriving DecidableEq, Repr

/-- `X, Y, Z` and `prev_X, prev_Y, prev_Z` of `rb_test08`. -/
structure Jog (K : Type) where
  cur : Pos K
  prev : Pos K
  deriving DecidableEq, Repr

/-- The levels of the actuator outputs. -/
structure Gpio where
  flame : Bool
  fan : Bool
  light : Bool
  deriving DecidableEq, Repr

/-- The accumulators of `TIM3_IRQHandler`. -/
structure Isr where
  t10ms : Nat
  accCircle : Nat
  accLr : Nat
  accUd : Nat
  accFlame : Nat
  accReturn : Nat
  deriving DecidableEq, Repr

/-- The statics of `calculate_z_compensation`. -/
structure Comp (K : Type) where
  lastCompensatedJiuli : K
  isFirstCall : Bool
  deriving DecidableEq, Repr

/-- The statics of the distance filter. -/
structure Tof (K : Type) where
  tofBuffer : Nat → K
  bufferIndex : Nat
  lastValidValue : K
  initCount : Nat

/-- The period flags and the statics of the motion functions. -/
structure Motion (K : Type) where
  circleMoveFlag : Bool
  lrMoveFlag : Bool
  udMoveFlag : Bool
  angleIdx : Nat
  udTrajStep : Nat
  udInterpCount : Nat
  udCurrentT : K
  deriving DecidableEq, Repr

/-- The levelling of motor 6, the side swing of motor 4 and the manual
corrections of motors 6 and 1. -/
structure Level (K : Type) where
  timeDelay100ms : Bool
  pitchOnFlag : Bool
  firstImuFlag : Bool
  firstAnglg : K
  imuTime : Nat
  pitchAngle : K
  error : K
  lastError : K
  lastLastError : K
  runAngle : K
  cebaiAngle : K
  correctAngle6 : K
  correctAngle1 : K
  deriving DecidableEq, Repr

/-- The indicator: its mode, the backup mode, the range alarm, the statics of
`RGB_RUN` and `RGB_huxi`, and the colour last written. -/
structure Led where
  rgbLedMode : Nat
  rgbLedModeBackup : Nat
  outOfRangeFlag : Bool
  accLed : Nat
  lanJici : Nat
  jici : Nat
  color : Nat × Nat × Nat
  deriving DecidableEq, Repr

/-- The voice prompts: the requested one, the statics of `yunyin_run` and the
levels of the nine prompt lines (`true` is high). -/
structure Voice where
  yuyinFlag : Nat
  lastYuyinFlag : Nat
  accYuyin : Nat
  okFlag : Bool
  line : Nat → Bool

/-- The whole control program. -/
structure Rb (K : Type) where
  ctl : Ctl
  jog : Jog K
  points : Nat → SimplePoint K
  arm : Arm K
  tof : Tof K
  comp : Comp K
  motion : Motion K
  level : Level K
  led : Led
  voice : Voice
  isr : Isr
  gpio : Gpio
  log : List Ev
  cmds : List (Cmd K)
  solved : List (Pos K × Joints K)

/-- What the control program is linked with: the mathematical functions and the
search behind `robot_arm_5dof_method2`, a partial function of its own previous
state and the target. -/
structure Env (K : Type) where
  math : MathH K
  solve : Arm K → K → K → K → Option (Joints K)

/-! ## Power-on -/

def Ctl.boot : Ctl where
  startFlag := false
  cycleComplete := false
  currentPoint := 0
  pointCount := 0
  pointDuration := 420000
  returnDelayFlag := false
  returnInProgress := false
  returnType := 0
  modeHover := true
  modeCircle := false
  modeLr := false
  modeUd := false
  timerRunningCircle := false
  timerRunningLr := false
  timerRunningUd := false
  bijiFlag := true
  firstImuFlag2 := false
  flameFlag := false

def Isr.boot : Isr := ⟨0, 0, 0, 0, 0, 0⟩

/-- `GPIO_fan_flame_light` leaves every output low. -/
def Gpio.boot : Gpio := ⟨false, false, false⟩

/-- `rb_test08` starts with the white breathing mode. -/
def Led.boot : Led := ⟨6, 255, false, 0, 0, 1, (0, 0, 0)⟩

def Voice.boot : Voice := ⟨0, 255, 0, true, fun _ => true⟩

def Jog.boot {R : Type} [Ring R] : Jog R := ⟨⟨0, 30, 25⟩, ⟨0, 30, 25⟩⟩

section
variable {K : Type} [Field K]

def SimplePoint.boot : SimplePoint K := ⟨⟨0, 0, 0⟩, Joints.zero, 0, 0, 0, 0⟩

/-- The state in which `rb_test08` enters its loop. -/
def boot : Rb K where
  ctl := Ctl.boot
  jog := Jog.boot
  points := fun _ => SimplePoint.boot
  arm := Arm.boot
  tof := ⟨fun _ => 0, 0, 0, 0⟩
  comp := ⟨0, true⟩
  motion := ⟨false, false, false, 0, 0, 0, 0⟩
  level := ⟨false, true, true, 0, 0, 0, 0, 0, 0, 0, 0, 0, 0⟩
  led := Led.boot
  voice := Voice.boot
  isr := Isr.boot
  gpio := Gpio.boot
  log := []
  cmds := []
  solved := []

end

/-! ## Flag updates shared by several handlers -/

/-- `timer_running_circle = timer_running_lr = timer_running_ud = 0`. -/
def Ctl.stopTimers (c : Ctl) : Ctl :=
  { c with timerRunningCircle := false, timerRunningLr := false, timerRunningUd := false }

/-- `timer_running_m = mode_m` for the three moving modes. -/
def Ctl.startTimers (c : Ctl) : Ctl :=
  { c with
    timerRunningCircle := c.modeCircle, timerRunningLr := c.modeLr, timerRunningUd := c.modeUd }

/-- The mode flags for mode 0 hover, 1 circle, 2 left-right, 3 up-down. -/
def Ctl.setMode (m : Nat) (c : Ctl) : Ctl :=
  { c with
    modeHover := m == 0, modeCircle := m == 1, modeLr := m == 2, modeUd := m == 3 }

/-- `start_flag && !cycle_complete && point_count > 0`. -/
def Ctl.running (c : Ctl) : Bool := c.startFlag && !c.cycleComplete && decide (0 < c.pointCount)

section
variable {K : Type}

/-- Record a control event. -/
def Rb.note (e : Ev) (s : Rb K) : Rb K := { s with log := e :: s.log }

/-- Send commands, the first one first. -/
def Rb.send (cs : List (Cmd K)) (s : Rb K) : Rb K := { s with cmds := cs.reverse ++ s.cmds }

/-- Write one cell of `points`. -/
def Rb.setPoint (i : Nat) (p : SimplePoint K) (s : Rb K) : Rb K :=
  { s with points := Function.update s.points i p }

/-- Write every marked cell of `points`. -/
def Rb.mapMarked (f : SimplePoint K → SimplePoint K) (s : Rb K) : Rb K :=
  { s with points := fun i => if i < s.ctl.pointCount then f (s.points i) else s.points i }

/-- The point `points[current_point]`. -/
def Rb.here (s : Rb K) : SimplePoint K := s.points s.ctl.currentPoint

/-- `GPIO_WriteBit` on one of the outputs. -/
def Rb.writeBit (pin : Pin) (level : Bool) (s : Rb K) : Rb K :=
  { s with
    gpio := match pin with
      | .flame => { s.gpio with flame := level }
      | .fan => { s.gpio with fan := level }
      | .light => { s.gpio with light := level }
    cmds := .writeBit pin level :: s.cmds }

/-- `flame_off; fan_off; light_off;` -/
def Rb.outputsOff (s : Rb K) : Rb K :=
  ((s.writeBit .flame false).writeBit .fan false).writeBit .light false

def Rb.setLed (mode backup : Nat) (s : Rb K) : Rb K :=
  { s with led := { s.led with rgbLedMode := mode, rgbLedModeBackup := backup } }

def Rb.setYuyin (v : Nat) (s : Rb K) : Rb K :=
  { s with voice := { s.voice with yuyinFlag := v } }

end

end RoboticArm
