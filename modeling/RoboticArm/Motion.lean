import RoboticArm.State

/- The functions of `new.c` that move the arm, and the distance filter of `tof.c`
   they read.

   Each function takes the state to the state after its statements, in their
   order; where the source reads the distance sensor, the raw reading `raw` of
   `new_tof` is an argument.

   Correspondence (C ↔ Lean):
     `clamp_coordinates`                ↔ `clampCoordinates`
     `check_coordinate_range`, `update_range_status`
                                        ↔ `checkCoordinateRange`, `updateRangeStatus`
     `calculate_z_compensation`         ↔ `calculateZCompensation`
     `limit_filter`, `moving_average_filter`, `filtered_tof`
                                        ↔ `limitFilter`, `movingAverageFilter`, `filteredTof`
     `RUN_ZERO`, `RUN_START`            ↔ `runZero`, `runStart`
     `RUN_TIME_ADD`, `RUN_TIME_MINUS`   ↔ `runTimeAdd`, `runTimeMinus`
     `move_to_point`, `start_return_delay`, `switch_mode`
                                        ↔ `moveToPoint`, `startReturnDelay`, `switchMode`
     `run_hover`, `run_lr`, `run_circle`, `run_ud`
                                        ↔ `runHover`, `runLr`, `runCircle`, `runUd` -/
namespace RoboticArm

/-! ## The coordinate box -/

section
variable {R : Type} [Ring R]

def xMin : R := -25
def xMax : R := 25
def yMin : R := 10
def yMax : R := 41
def zMin : R := 10
def zMax : R := 50

variable [LinearOrder R]

/-- `if (v < lo) v = lo; if (v > hi) v = hi;` -/
def clampTo (lo hi v : R) : R :=
  let v := if v < lo then lo else v
  if hi < v then hi else v

omit [Ring R] in
theorem clampTo_mem {lo hi : R} (h : lo ≤ hi) (v : R) :
    lo ≤ clampTo lo hi v ∧ clampTo lo hi v ≤ hi := by
  simp only [clampTo]
  split_ifs with h1 h2 h2
  · exact ⟨h, le_rfl⟩
  · exact ⟨le_rfl, not_lt.1 h2⟩
  · exact ⟨h, le_rfl⟩
  · exact ⟨not_lt.1 h1, not_lt.1 h2⟩

def clampCoordinates (p : Pos R) : Pos R :=
  ⟨clampTo xMin xMax p.x, clampTo yMin yMax p.y, clampTo zMin zMax p.z⟩

def checkCoordinateRange (p : Pos R) : Bool :=
  !decide (p.x ≤ xMin ∨ xMax ≤ p.x ∨ p.y ≤ yMin ∨ yMax ≤ p.y ∨ p.z ≤ zMin ∨ zMax ≤ p.z)

/-- `X += dx; Y += dy; Z += dz;` and the clamp. -/
def Jog.move (dx dy dz : R) (j : Jog R) : Jog R :=
  { j with cur := clampCoordinates ⟨j.cur.x + dx, j.cur.y + dy, j.cur.z + dz⟩ }

/-- The jog target differs from the one last handled. -/
def Jog.moved (j : Jog R) : Bool :=
  decide (j.cur.x ≠ j.prev.x ∨ j.cur.y ≠ j.prev.y ∨ j.cur.z ≠ j.prev.z)

end

variable {K : Type} [Field K] [LinearOrder K]

def updateRangeStatus (p : Pos K) (l : Led) : Led :=
  let inRange := checkCoordinateRange p
  if !inRange && !l.outOfRangeFlag then
    { l with outOfRangeFlag := true, rgbLedModeBackup := l.rgbLedMode, rgbLedMode := 5 }
  else if inRange && l.outOfRangeFlag then
    { l with outOfRangeFlag := false, rgbLedMode := l.rgbLedModeBackup }
  else l

/-! ## The distance sensor -/

def filterWindow : Nat := 4
def maxAllowedChange : K := 10

def limitFilter (v : K) (t : Tof K) : K × Tof K :=
  if t.initCount < filterWindow then
    (v, { t with lastValidValue := v, initCount := t.initCount + 1 })
  else
    let diff := v - t.lastValidValue
    if maxAllowedChange < diff then (t.lastValidValue + maxAllowedChange, t)
    else if diff < -maxAllowedChange then (t.lastValidValue - maxAllowedChange, t)
    else (v, t)

def movingAverageFilter (v : K) (t : Tof K) : K × Tof K :=
  let buf := Function.update t.tofBuffer t.bufferIndex v
  ((buf 0 + buf 1 + buf 2 + buf 3) / 4,
    { t with tofBuffer := buf, bufferIndex := (t.bufferIndex + 1) % filterWindow })

def filteredTof (raw : K) (t : Tof K) : K × Tof K :=
  if raw ≤ 0 ∨ 50 < raw then (t.lastValidValue, t)
  else
    let limited := limitFilter raw t
    let filtered := movingAverageFilter limited.1 limited.2
    (filtered.1, { filtered.2 with lastValidValue := filtered.1 })

def calculateZCompensation (current baseline : K) (c : Comp K) : K × Comp K :=
  if baseline ≤ 10 ∨ 50 ≤ baseline ∨ 50 ≤ current ∨ current ≤ 0 then (0, c)
  else
    let c := if c.isFirstCall then ⟨baseline, false⟩ else c
    if |current - baseline| ≤ 2 then (0, c)
    else if |current - c.lastCompensatedJiuli| < 1 then (0, c)
    else
      let compensation := baseline - current
      let compensation := if 10 < compensation then 10 else compensation
      let compensation := if compensation < -10 then -10 else compensation
      (compensation, { c with lastCompensatedJiuli := current })

/-- A distance reading and the compensation it gives at the current point. -/
def readCompensation (raw : K) (s : Rb K) : K × Rb K :=
  let d := filteredTof raw s.tof
  let z := calculateZCompensation d.1 s.here.jiuliBaseline s.comp
  (z.1, { s with tof := d.2, comp := z.2 })

/-! ## Poses -/

/-- The joint globals a call for `p` leaves, if its search succeeds. -/
def solution (env : Env K) (p : Pos K) (s : Rb K) : Option (Joints K) :=
  (env.solve s.arm p.x p.y p.z).map (toDegrees env.math)

/-- `robot_arm_5dof_method2(X, Y, Z)`. -/
def solveFor (env : Env K) (p : Pos K) (s : Rb K) : Rb K :=
  { s with
    arm := robotArm5dofMethod2 env.math env.solve p.x p.y p.z s.arm
    solved := ((solution env p s).map (p, ·)).toList ++ s.solved }

omit [LinearOrder K] in
/-- The joint globals after a call; a search without a result leaves them. -/
theorem global_solveFor {env : Env K} {s : Rb K} (p : Pos K) :
    (solveFor env p s).arm.global = (solution env p s).getD s.arm.global := by
  simp only [solveFor, solution, robotArm5dofMethod2]
  cases env.solve s.arm p.x p.y p.z <;> rfl

/-- A fixed pose: the six motor commands, and the globals that record it. -/
def fixedPose (m2 m3 m5 m6 : K) (j : Joints K) (s : Rb K) : Rb K :=
  let s := s.send
    [.canBldcPosControl m2 2, .canBldcPosControl m3 3, .controlMotor 0 4, .controlMotor m5 5,
     .controlMotor m6 6, .controlMotor 0 1]
  { s with arm := { s.arm with global := j } }

def runZero (s : Rb K) : Rb K := fixedPose (-10) 95 45 60 ⟨0, -10, 95, 45, 60⟩ s

def runStart (s : Rb K) : Rb K := fixedPose (-98) 170 0 90 ⟨0, -98, 170, 0, 0⟩ s

/-! ## Durations -/

def runTimeAdd (s : Rb K) : Rb K :=
  if s.ctl.pointDuration < pointDurationMax * 60000 then
    { s with ctl := { s.ctl with pointDuration := u32 (s.ctl.pointDuration + 60000) } }.mapMarked
      fun p => { p with pointDuration := u32 (p.pointDuration + 60000) }
  else s

def runTimeMinus (s : Rb K) : Rb K :=
  if pointDurationMin * 60000 < s.ctl.pointDuration then
    { s with
      ctl := { s.ctl with pointDuration := u32 (s.ctl.pointDuration + 2 ^ 32 - 60000) } }.mapMarked
      fun p => { p with pointDuration := u32 (p.pointDuration + 2 ^ 32 - 60000) }
  else s

/-! ## Return moves -/

/-- The replay of a marked point; a point stored with five zero angles is solved first. -/
def moveToPoint (env : Env K) (i : Nat) (s : Rb K) : Rb K :=
  if s.ctl.pointCount ≤ i then s
  else
    let s :=
      if (s.points i).j = Joints.zero then
        let s := solveFor env (s.points i).pos s
        s.setPoint i { s.points i with j := s.arm.global }
      else s
    let q := (s.points i).j
    s.send
      [.controlMotor (90 - q.j1) 1, .canBldcPosControl q.j2 2, .canBldcPosControl q.j3 3,
       .controlMotor q.j4 5, .controlMotor q.j5 6]

def startReturnDelay (env : Env K) (type i : Nat) (s : Rb K) : Rb K :=
  let s := s.note (.startReturnDelay type i)
  let s := { s with ctl := { s.ctl with returnType := type } }
  let s := if i < s.ctl.pointCount then moveToPoint env i s else s
  { s with ctl := { s.ctl with returnInProgress := true, returnDelayFlag := false } }

def switchMode (env : Env K) (newMode : Nat) (s : Rb K) : Rb K :=
  let s := s.note (.switchMode newMode)
  let s := { s with ctl := s.ctl.stopTimers.setMode newMode }
  if s.ctl.startFlag && decide (0 < s.ctl.pointCount) then
    startReturnDelay env 1 s.ctl.currentPoint s
  else if s.ctl.startFlag then { s with ctl := s.ctl.startTimers }
  else s

/-! ## Mode motions -/

def runHover (env : Env K) (raw : K) (s : Rb K) : Rb K :=
  let p := s.here.pos
  let (zComp, s) := readCompensation raw s
  let temp := clampCoordinates { p with z := p.z + zComp }
  if 1 / 100 < |zComp| then
    let s := solveFor env temp s
    let q := s.arm.global
    s.send
      [.canBldcPosControl q.j2 2, .canBldcPosControl q.j3 3, .controlMotor q.j4 5,
       .controlMotor (90 - q.j1) 1]
  else s

/-- `lr_move_flag` and the other period flags stay set unless all three guards pass. -/
def moveBlocked (s : Rb K) : Bool :=
  !s.ctl.startFlag || s.ctl.cycleComplete || s.ctl.returnInProgress

/-- `run_lr` clamps `x` and `z`; `y` goes to the solver as marked. -/
def runLr (env : Env K) (raw : K) (s : Rb K) : Rb K :=
  if !s.motion.lrMoveFlag || moveBlocked s then s
  else
    let p := s.here.pos
    let (targetX, position) : K × Nat :=
      match s.here.position with
      | 0 => (p.x + 3, 1)
      | 1 => (p.x - 3, 2)
      | 2 => (p.x + 3, 1)
      | _ => (p.x, 0)
    let s := s.setPoint s.ctl.currentPoint { s.here with position := position }
    let (zComp, s) := readCompensation raw s
    let target := clampCoordinates ⟨targetX, p.y, p.z + zComp⟩
    let s := solveFor env { target with y := p.y } s
    let q := s.arm.global
    let s := s.send
      [.controlMotorNew (90 - q.j1) 1 2500 220, .canBldcPosControl q.j2 2,
       .canBldcPosControl q.j3 3]
    { s with motion := { s.motion with lrMoveFlag := false } }

def runCircle (env : Env K) (raw : K) (s : Rb K) : Rb K :=
  if !s.motion.circleMoveFlag || moveBlocked s then s
  else
    let p := s.here.pos
    let angleStep : K := 360 / circlePoints
    let currentAngle := s.motion.angleIdx * angleStep
    let rad := currentAngle * (31415926 / 10000000) / 180
    let targetX := p.x + 8 * env.math.cos rad
    let targetY := p.y + 8 * env.math.sin rad
    let (zComp, s) := readCompensation raw s
    let s := solveFor env (clampCoordinates ⟨targetX, targetY, p.z + zComp⟩) s
    let q := s.arm.global
    let s := s.send
      [.controlMotorNew (90 - q.j1) 1 150 0, .canBldcPosControl q.j2 2, .canBldcPosControl q.j3 3,
       .controlMotor s.level.cebaiAngle 4, .controlMotor q.j4 5]
    { s with
      motion := { s.motion with
        angleIdx := (s.motion.angleIdx + 1) % circlePoints, circleMoveFlag := false } }

/-- `0.5 * (1 - cosf(M_PI * t))`. -/
def smoothSCurve (m : MathH K) (t : K) : K := 1 / 2 * (1 - m.cos (m.pi * t))

/-- The trajectory counters one step on. -/
def udAdvance (m : Motion K) : Motion K :=
  let m := { m with udInterpCount := m.udInterpCount + 1 }
  if interpStepsModeUd ≤ m.udInterpCount then
    let m := { m with udInterpCount := 0, udTrajStep := m.udTrajStep + 1 }
    if udTrajectoryPoints ≤ m.udTrajStep then { m with udTrajStep := 0 } else m
  else m

def runUd (env : Env K) (raw : K) (s : Rb K) : Rb K :=
  if !s.motion.udMoveFlag || moveBlocked s then s
  else
    let p := s.here.pos
    let totalSteps : K := (udTrajectoryPoints * interpStepsModeUd : Nat)
    let currentTotalStep : K := (s.motion.udTrajStep * interpStepsModeUd + s.motion.udInterpCount : Nat)
    let s := { s with motion := { s.motion with udCurrentT := currentTotalStep / totalSteps } }
    let moveRatio := 2 * smoothSCurve env.math s.motion.udCurrentT - 1
    let targetZBase := p.z + 8 * moveRatio
    let (zComp, s) := readCompensation raw s
    let s := solveFor env (clampCoordinates { p with z := targetZBase + zComp }) s
    let q := s.arm.global
    let s := s.send
      [.controlMotorNew (90 - q.j1) 1 2000 200, .canBldcPosControl q.j2 2,
       .canBldcPosControl q.j3 3, .controlMotorNew q.j4 5 200 80]
    { s with motion := { udAdvance s.motion with udMoveFlag := false } }

end RoboticArm
