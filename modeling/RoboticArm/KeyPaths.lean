import RoboticArm.Loop

/- The two key switches of `rb_test08`, statement by statement, and that they agree.

   `switch (cmd)` and `switch (ir_command)` are separate copies of the same ten
   handlers. Here each copy is written out on its own, one assignment a line in
   the order of the source, so that a statement which drifted in one of them would
   show; the debug prints are left out.

   What is proved:
     1. `LcdKeys.switch_eq`, `IrKeys.switch_eq`: the merged handlers of the control
        loop are what each copy computes, for every byte.
     2. `keyPaths_agree`: corresponding keys lead from every state to the same
        state, commands included, alone and as the only key of an iteration; and
        a run with its keys given on the remote is the same run.

   Correspondence (C ↔ Lean):
     `case 0xf1 .. 0xfc` of `switch (cmd)`        ↔ `LcdKeys.caseF1 .. caseFC`
     `case 0x47 .. 0x45` of `switch (ir_command)` ↔ `IrKeys.case47 .. case45`
   The LCD keys without an infrared counterpart stay as `lcdSwitch` has them. -/
namespace RoboticArm

variable {K : Type} [Field K] [LinearOrder K]

/-! ## Statements -/

section
variable {K : Type}

/-- An assignment to a field of `points[i]`. -/
def Rb.editPoint (s : Rb K) (i : Nat) (f : SimplePoint K → SimplePoint K) : Rb K :=
  s.setPoint i (f (s.points i))

/-- `for (int i = 0; i < point_count; i++)`. -/
def Rb.forPoints (s : Rb K) (body : Nat → Rb K → Rb K) : Rb K :=
  (List.range s.ctl.pointCount).foldl (fun s i => body i s) s

end

/-! ## The LCD switch -/

namespace LcdKeys

def caseF1 (env : Env K) (s : Rb K) : Rb K :=
  let s :=
    if s.ctl.startFlag && !s.ctl.cycleComplete && decide (0 < s.ctl.pointCount) then
      let i := s.ctl.currentPoint
      if (s.points i).pos.z + 5 < zMax then
        let s := s.editPoint i fun p => { p with pos.z := p.pos.z + 5 }
        let s := solveFor env (s.points i).pos s
        let s := s.editPoint i fun p => { p with j.j1 := s.arm.global.j1 }
        let s := s.editPoint i fun p => { p with j.j2 := s.arm.global.j2 }
        let s := s.editPoint i fun p => { p with j.j3 := s.arm.global.j3 }
        let s := s.editPoint i fun p => { p with j.j4 := s.arm.global.j4 }
        let s := s.editPoint i fun p => { p with j.j5 := s.arm.global.j5 }
        let s := s.editPoint i fun p => { p with jiuliBaseline := p.jiuliBaseline + 5 }
        { s with voice.yuyinFlag := 6 }
      else s
    else
      let s := { s with jog.cur.z := s.jog.cur.z + 5 }
      let s := { s with jog.cur := clampCoordinates s.jog.cur }
      { s with led := updateRangeStatus s.jog.cur s.led }
  { s with level.pitchOnFlag := true }

def caseF2 (env : Env K) (s : Rb K) : Rb K :=
  let s :=
    if s.ctl.startFlag && !s.ctl.cycleComplete && decide (0 < s.ctl.pointCount) then
      let i := s.ctl.currentPoint
      if zMin < (s.points i).pos.z - 5 then
        let s := s.editPoint i fun p => { p with pos.z := p.pos.z - 5 }
        let s := solveFor env (s.points i).pos s
        let s := s.editPoint i fun p => { p with j.j1 := s.arm.global.j1 }
        let s := s.editPoint i fun p => { p with j.j2 := s.arm.global.j2 }
        let s := s.editPoint i fun p => { p with j.j3 := s.arm.global.j3 }
        let s := s.editPoint i fun p => { p with j.j4 := s.arm.global.j4 }
        let s := s.editPoint i fun p => { p with j.j5 := s.arm.global.j5 }
        let s := s.editPoint i fun p => { p with jiuliBaseline := p.jiuliBaseline - 5 }
        { s with voice.yuyinFlag := 7 }
      else s
    else
      -- `old_Z`, which nothing reads
      let _oldZ := s.jog.cur.z
      let s := { s with jog.cur.z := s.jog.cur.z - 5 }
      let s := { s with jog.cur := clampCoordinates s.jog.cur }
      { s with led := updateRangeStatus s.jog.cur s.led }
  { s with level.pitchOnFlag := true }

def caseF4 (s : Rb K) : Rb K :=
  let s := { s with jog.cur.x := s.jog.cur.x - 5 }
  let s := { s with jog.cur := clampCoordinates s.jog.cur }
  let s := { s with led := updateRangeStatus s.jog.cur s.led }
  { s with level.pitchOnFlag := true }

def caseF3 (s : Rb K) : Rb K :=
  let s := { s with jog.cur.x := s.jog.cur.x + 5 }
  let s := { s with jog.cur := clampCoordinates s.jog.cur }
  let s := { s with led := updateRangeStatus s.jog.cur s.led }
  { s with level.pitchOnFlag := true }

def caseF5 (s : Rb K) : Rb K :=
  let s := { s with jog.cur.y := s.jog.cur.y + 5 }
  let s := { s with jog.cur := clampCoordinates s.jog.cur }
  let s := { s with led := updateRangeStatus s.jog.cur s.led }
  { s with level.pitchOnFlag := true }

def caseF6 (s : Rb K) : Rb K :=
  let s := { s with jog.cur.y := s.jog.cur.y - 5 }
  let s := { s with jog.cur := clampCoordinates s.jog.cur }
  let s := { s with led := updateRangeStatus s.jog.cur s.led }
  { s with level.pitchOnFlag := true }

def caseF7 (s : Rb K) : Rb K :=
  let s := { s with level.cebaiAngle := s.level.cebaiAngle - 10 }
  let s := s.send [.controlMotor s.level.cebaiAngle 4]
  { s with level.pitchOnFlag := true }

def caseF8 (s : Rb K) : Rb K :=
  let s := { s with level.cebaiAngle := s.level.cebaiAngle + 10 }
  let s := s.send [.controlMotor s.level.cebaiAngle 4]
  { s with level.pitchOnFlag := true }

def caseFB (env : Env K) (raw : K) (s : Rb K) : Rb K :=
  if !s.ctl.startFlag && decide (s.ctl.pointCount < maxPoints) && s.ctl.firstImuFlag2 &&
      s.ctl.bijiFlag then
    if !checkCoordinateRange s.jog.cur then s
    else
      let i := s.ctl.pointCount
      let s := s.note (.mark i)
      let s := { s with led.rgbLedMode := 7 }
      let s := s.editPoint i fun p => { p with pos.x := s.jog.cur.x }
      let s := s.editPoint i fun p => { p with pos.y := s.jog.cur.y }
      let s := s.editPoint i fun p => { p with pos.z := s.jog.cur.z }
      let s := s.editPoint i fun p => { p with position := 0 }
      let s := s.editPoint i fun p => { p with pointTimer := 0 }
      let s := s.editPoint i fun p => { p with pointDuration := s.ctl.pointDuration }
      let d := filteredTof raw s.tof
      let s := { s with tof := d.2 }
      let s := s.editPoint i fun p => { p with jiuliBaseline := d.1 }
      let s := s.editPoint i fun p => { p with j.j1 := s.arm.global.j1 }
      let s := s.editPoint i fun p => { p with j.j2 := s.arm.global.j2 }
      let s := s.editPoint i fun p => { p with j.j3 := s.arm.global.j3 }
      let s := s.editPoint i fun p => { p with j.j4 := s.arm.global.j4 }
      let s := s.editPoint i fun p => { p with j.j5 := s.arm.global.j5 }
      let s := { s with ctl.pointCount := s.ctl.pointCount + 1 }
      solveFor env s.jog.cur s
  else if decide (s.ctl.pointCount ≠ 0) && s.ctl.firstImuFlag2 && s.ctl.bijiFlag == false then
    if s.ctl.modeHover then
      let s := switchMode env 2 s
      { s with voice.yuyinFlag := 3 }
    else if s.ctl.modeLr then
      let s := switchMode env 3 s
      { s with voice.yuyinFlag := 2 }
    else if s.ctl.modeUd then
      let s := switchMode env 1 s
      { s with voice.yuyinFlag := 5 }
    else if s.ctl.modeCircle then
      let s := switchMode env 0 s
      { s with voice.yuyinFlag := 4 }
    else s
  else s

def caseFC (env : Env K) (s : Rb K) : Rb K :=
  if 0 < s.ctl.pointCount then
    if s.ctl.startFlag then
      let s := s.note .pause
      let s := { s with ctl.startFlag := false }
      let s := { s with ctl.timerRunningCircle := false }
      let s := { s with ctl.timerRunningLr := false }
      let s := { s with ctl.timerRunningUd := false }
      let s := { s with motion.circleMoveFlag := false }
      let s := { s with motion.lrMoveFlag := false }
      let s := { s with motion.udMoveFlag := false }
      let s := { s with led.rgbLedMode := 1 }
      let s := { s with led.rgbLedModeBackup := 1 }
      { s with voice.yuyinFlag := 8 }
    else
      if s.ctl.cycleComplete && s.ctl.firstImuFlag2 then
        let s := { s with ctl.bijiFlag := false }
        let s := s.writeBit .flame true
        let s := { s with ctl.flameFlag := true }
        let s := { s with voice.yuyinFlag := 1 }
        let s := { s with led.rgbLedMode := 3 }
        let s := { s with led.rgbLedModeBackup := 3 }
        let s := { s with ctl.currentPoint := 0 }
        let s := { s with ctl.cycleComplete := false }
        let s := s.forPoints fun i s =>
          let s := s.editPoint i fun p => { p with pointTimer := 0 }
          s.editPoint i fun p => { p with position := 0 }
        let s := { s with motion.udTrajStep := 0 }
        let s := { s with motion.udInterpCount := 0 }
        let s := { s with motion.udCurrentT := 0 }
        startReturnDelay env 3 0 s
      else if s.ctl.currentPoint = 0 ∧ (s.points 0).pointTimer = 0 then
        let s := { s with ctl.bijiFlag := false }
        let s := s.writeBit .flame true
        let s := { s with ctl.flameFlag := true }
        let s := { s with voice.yuyinFlag := 1 }
        let s := { s with led.rgbLedMode := 3 }
        let s := { s with led.rgbLedModeBackup := 3 }
        startReturnDelay env 4 0 s
      else
        let s := s.note .resume
        let s := { s with led.rgbLedMode := 3 }
        let s := { s with led.rgbLedModeBackup := 3 }
        let s := { s with ctl.startFlag := true }
        let s := { s with ctl.timerRunningCircle := s.ctl.modeCircle }
        let s := { s with ctl.timerRunningLr := s.ctl.modeLr }
        let s := { s with ctl.timerRunningUd := s.ctl.modeUd }
        { s with voice.yuyinFlag := 1 }
  else s

/-- `switch (cmd)`. -/
def switch (env : Env K) (b : UInt8) (raw : K) (s : Rb K) : Rb K :=
  if b = 0xf1 then caseF1 env s
  else if b = 0xf2 then caseF2 env s
  else if b = 0xf4 then caseF4 s
  else if b = 0xf3 then caseF3 s
  else if b = 0xf5 then caseF5 s
  else if b = 0xf6 then caseF6 s
  else if b = 0xf7 then caseF7 s
  else if b = 0xf8 then caseF8 s
  else if b = 0xfb then caseFB env raw s
  else if b = 0xfc then caseFC env s
  else lcdSwitch env b raw s

end LcdKeys

/-! ## The infrared switch -/

namespace IrKeys

def case1C (s : Rb K) : Rb K :=
  let s := { s with jog.cur.y := s.jog.cur.y + 5 }
  let s := { s with jog.cur := clampCoordinates s.jog.cur }
  let s := { s with led := updateRangeStatus s.jog.cur s.led }
  { s with level.pitchOnFlag := true }

def case55 (s : Rb K) : Rb K :=
  let s := { s with jog.cur.y := s.jog.cur.y - 5 }
  let s := { s with jog.cur := clampCoordinates s.jog.cur }
  let s := { s with led := updateRangeStatus s.jog.cur s.led }
  { s with level.pitchOnFlag := true }

def case59 (s : Rb K) : Rb K :=
  let s := { s with jog.cur.x := s.jog.cur.x - 5 }
  let s := { s with jog.cur := clampCoordinates s.jog.cur }
  let s := { s with led := updateRangeStatus s.jog.cur s.led }
  { s with level.pitchOnFlag := true }

def case18 (s : Rb K) : Rb K :=
  let s := { s with jog.cur.x := s.jog.cur.x + 5 }
  let s := { s with jog.cur := clampCoordinates s.jog.cur }
  let s := { s with led := updateRangeStatus s.jog.cur s.led }
  { s with level.pitchOnFlag := true }

def case47 (env : Env K) (s : Rb K) : Rb K :=
  let s :=
    if s.ctl.startFlag && !s.ctl.cycleComplete && decide (0 < s.ctl.pointCount) then
      let i := s.ctl.currentPoint
      if (s.points i).pos.z + 5 < zMax then
        let s := s.editPoint i fun p => { p with pos.z := p.pos.z + 5 }
        let s := solveFor env (s.points i).pos s
        let s := s.editPoint i fun p => { p with j.j1 := s.arm.global.j1 }
        let s := s.editPoint i fun p => { p with j.j2 := s.arm.global.j2 }
        let s := s.editPoint i fun p => { p with j.j3 := s.arm.global.j3 }
        let s := s.editPoint i fun p => { p with j.j4 := s.arm.global.j4 }
        let s := s.editPoint i fun p => { p with j.j5 := s.arm.global.j5 }
        let s := s.editPoint i fun p => { p with jiuliBaseline := p.jiuliBaseline + 5 }
        { s with voice.yuyinFlag := 6 }
      else s
    else
      let s := { s with jog.cur.z := s.jog.cur.z + 5 }
      let s := { s with jog.cur := clampCoordinates s.jog.cur }
      { s with led := updateRangeStatus s.jog.cur s.led }
  { s with level.pitchOnFlag := true }

def case5D (env : Env K) (s : Rb K) : Rb K :=
  let s :=
    if s.ctl.startFlag && !s.ctl.cycleComplete && decide (0 < s.ctl.pointCount) then
      let i := s.ctl.currentPoint
      if zMin < (s.points i).pos.z - 5 then
        let s := s.editPoint i fun p => { p with pos.z := p.pos.z - 5 }
        let s := solveFor env (s.points i).pos s
        let s := s.editPoint i fun p => { p with j.j1 := s.arm.global.j1 }
        let s := s.editPoint i fun p => { p with j.j2 := s.arm.global.j2 }
        let s := s.editPoint i fun p => { p with j.j3 := s.arm.global.j3 }
        let s := s.editPoint i fun p => { p with j.j4 := s.arm.global.j4 }
        let s := s.editPoint i fun p => { p with j.j5 := s.arm.global.j5 }
        let s := s.editPoint i fun p => { p with jiuliBaseline := p.jiuliBaseline - 5 }
        { s with voice.yuyinFlag := 7 }
      else s
    else
      let s := { s with jog.cur.z := s.jog.cur.z - 5 }
      let s := { s with jog.cur := clampCoordinates s.jog.cur }
      { s with led := updateRangeStatus s.jog.cur s.led }
  { s with level.pitchOnFlag := true }

def case44 (s : Rb K) : Rb K :=
  let s := { s with level.cebaiAngle := s.level.cebaiAngle - 10 }
  let s := s.send [.controlMotor s.level.cebaiAngle 4]
  { s with level.pitchOnFlag := true }

def case5C (s : Rb K) : Rb K :=
  let s := { s with level.cebaiAngle := s.level.cebaiAngle + 10 }
  let s := s.send [.controlMotor s.level.cebaiAngle 4]
  { s with level.pitchOnFlag := true }

def case15 (env : Env K) (raw : K) (s : Rb K) : Rb K :=
  if !s.ctl.startFlag && decide (s.ctl.pointCount < maxPoints) && s.ctl.firstImuFlag2 &&
      s.ctl.bijiFlag then
    if !checkCoordinateRange s.jog.cur then s
    else
      let i := s.ctl.pointCount
      let s := s.note (.mark i)
      let s := { s with led.rgbLedMode := 7 }
      let s := s.editPoint i fun p => { p with pos.x := s.jog.cur.x }
      let s := s.editPoint i fun p => { p with pos.y := s.jog.cur.y }
      let s := s.editPoint i fun p => { p with pos.z := s.jog.cur.z }
      let s := s.editPoint i fun p => { p with position := 0 }
      let s := s.editPoint i fun p => { p with pointTimer := 0 }
      let s := s.editPoint i fun p => { p with pointDuration := s.ctl.pointDuration }
      let d := filteredTof raw s.tof
      let s := { s with tof := d.2 }
      let s := s.editPoint i fun p => { p with jiuliBaseline := d.1 }
      let s := s.editPoint i fun p => { p with j.j1 := s.arm.global.j1 }
      let s := s.editPoint i fun p => { p with j.j2 := s.arm.global.j2 }
      let s := s.editPoint i fun p => { p with j.j3 := s.arm.global.j3 }
      let s := s.editPoint i fun p => { p with j.j4 := s.arm.global.j4 }
      let s := s.editPoint i fun p => { p with j.j5 := s.arm.global.j5 }
      let s := { s with ctl.pointCount := s.ctl.pointCount + 1 }
      solveFor env s.jog.cur s
  else if decide (s.ctl.pointCount ≠ 0) && s.ctl.firstImuFlag2 && s.ctl.bijiFlag == false then
    if s.ctl.modeHover then
      let s := switchMode env 2 s
      { s with voice.yuyinFlag := 3 }
    else if s.ctl.modeLr then
      let s := switchMode env 3 s
      { s with voice.yuyinFlag := 2 }
    else if s.ctl.modeUd then
      let s := switchMode env 1 s
      { s with voice.yuyinFlag := 5 }
    else if s.ctl.modeCircle then
      let s := switchMode env 0 s
      { s with voice.yuyinFlag := 4 }
    else s
  else s

def case45 (env : Env K) (s : Rb K) : Rb K :=
  if 0 < s.ctl.pointCount then
    if s.ctl.startFlag then
      let s := s.note .pause
      let s := { s with ctl.startFlag := false }
      let s := { s with ctl.timerRunningCircle := false }
      let s := { s with ctl.timerRunningLr := false }
      let s := { s with ctl.timerRunningUd := false }
      let s := { s with motion.circleMoveFlag := false }
      let s := { s with motion.lrMoveFlag := false }
      let s := { s with motion.udMoveFlag := false }
      let s := { s with led.rgbLedMode := 1 }
      let s := { s with led.rgbLedModeBackup := 1 }
      { s with voice.yuyinFlag := 8 }
    else
      if s.ctl.cycleComplete && s.ctl.firstImuFlag2 then
        let s := { s with ctl.bijiFlag := false }
        let s := s.writeBit .flame true
        let s := { s with ctl.flameFlag := true }
        let s := { s with voice.yuyinFlag := 1 }
        let s := { s with led.rgbLedMode := 3 }
        let s := { s with led.rgbLedModeBackup := 3 }
        let s := { s with ctl.currentPoint := 0 }
        let s := { s with ctl.cycleComplete := false }
        let s := s.forPoints fun i s =>
          let s := s.editPoint i fun p => { p with pointTimer := 0 }
          s.editPoint i fun p => { p with position := 0 }
        let s := { s with motion.udTrajStep := 0 }
        let s := { s with motion.udInterpCount := 0 }
        let s := { s with motion.udCurrentT := 0 }
        startReturnDelay env 3 0 s
      else if s.ctl.currentPoint = 0 ∧ (s.points 0).pointTimer = 0 then
        let s := { s with ctl.bijiFlag := false }
        let s := s.writeBit .flame true
        let s := { s with ctl.flameFlag := true }
        let s := { s with voice.yuyinFlag := 1 }
        let s := { s with led.rgbLedMode := 3 }
        let s := { s with led.rgbLedModeBackup := 3 }
        startReturnDelay env 4 0 s
      else
        let s := s.note .resume
        let s := { s with led.rgbLedMode := 3 }
        let s := { s with led.rgbLedModeBackup := 3 }
        let s := { s with ctl.startFlag := true }
        let s := { s with ctl.timerRunningCircle := s.ctl.modeCircle }
        let s := { s with ctl.timerRunningLr := s.ctl.modeLr }
        let s := { s with ctl.timerRunningUd := s.ctl.modeUd }
        { s with voice.yuyinFlag := 1 }
  else s

/-- `switch (ir_command)`. -/
def switch (env : Env K) (b : UInt8) (raw : K) (s : Rb K) : Rb K :=
  if b = 0x1c then case1C s
  else if b = 0x55 then case55 s
  else if b = 0x59 then case59 s
  else if b = 0x18 then case18 s
  else if b = 0x47 then case47 env s
  else if b = 0x5d then case5D env s
  else if b = 0x44 then case44 s
  else if b = 0x5c then case5C s
  else if b = 0x15 then case15 env raw s
  else if b = 0x45 then case45 env s
  else s

end IrKeys

/-! ## What each copy computes -/

section
variable {K : Type}

theorem editPoint_editPoint (s : Rb K) (i : Nat) (f g : SimplePoint K → SimplePoint K) :
    (s.editPoint i f).editPoint i g = s.editPoint i fun p => g (f p) := by
  simp only [Rb.editPoint, Rb.setPoint, Function.update_self, Function.update_idem]

theorem foldl_editPoint (f : SimplePoint K → SimplePoint K) (n : Nat) (s : Rb K) :
    (List.range n).foldl (fun s i => s.editPoint i f) s =
      { s with points := fun i => if i < n then f (s.points i) else s.points i } := by
  induction n with
  | zero => rfl
  | succ n ih =>
    rw [List.range_succ, List.foldl_append, ih]
    simp only [List.foldl_cons, List.foldl_nil, Rb.editPoint, Rb.setPoint, lt_irrefl, if_false]
    congr 1
    funext i
    rcases lt_trichotomy i n with h | rfl | h
    · rw [Function.update_of_ne (by omega), if_pos h, if_pos (by omega)]
    · rw [Function.update_self, if_pos (by omega)]
    · rw [Function.update_of_ne (by omega), if_neg (by omega), if_neg (by omega)]

theorem forPoints_editPoint (f g : SimplePoint K → SimplePoint K) (s : Rb K) :
    (s.forPoints fun i s => (s.editPoint i f).editPoint i g) = s.mapMarked fun p => g (f p) := by
  simp only [Rb.forPoints, editPoint_editPoint]
  exact foldl_editPoint (fun p => g (f p)) s.ctl.pointCount s

end

namespace LcdKeys

theorem caseF1_eq (env : Env K) (s : Rb K) : caseF1 env s = caseZUp env s := by
  by_cases hrun : s.ctl.running
  · have hrun' :
        (s.ctl.startFlag && !s.ctl.cycleComplete && decide (0 < s.ctl.pointCount)) = true := hrun
    by_cases htop : s.here.pos.z + 5 < zMax
    · have htop' : (s.points s.ctl.currentPoint).pos.z + 5 < zMax := htop
      simp only [caseF1, caseZUp, if_pos hrun, if_pos hrun', if_pos htop, if_pos htop']
      simp only [adjustZ, Rb.editPoint, Rb.setPoint, solveFor, Rb.here, Rb.setYuyin,
        Function.update_self, Function.update_idem]
      rfl
    · have htop' : ¬((s.points s.ctl.currentPoint).pos.z + 5 < zMax) := htop
      simp only [caseF1, caseZUp, if_pos hrun, if_pos hrun', if_neg htop, if_neg htop', pitchOn]
  · have hrun' :
        ¬(s.ctl.startFlag && !s.ctl.cycleComplete && decide (0 < s.ctl.pointCount)) = true := hrun
    simp only [caseF1, caseZUp, if_neg hrun, if_neg hrun', jogBy, Jog.move, add_zero, pitchOn]

theorem caseF2_eq (env : Env K) (s : Rb K) : caseF2 env s = caseZDown env s := by
  by_cases hrun : s.ctl.running
  · have hrun' :
        (s.ctl.startFlag && !s.ctl.cycleComplete && decide (0 < s.ctl.pointCount)) = true := hrun
    by_cases hlow : zMin < s.here.pos.z - 5
    · have hlow' : zMin < (s.points s.ctl.currentPoint).pos.z - 5 := hlow
      simp only [caseF2, caseZDown, if_pos hrun, if_pos hrun', if_pos hlow, if_pos hlow']
      simp only [adjustZ, Rb.editPoint, Rb.setPoint, solveFor, Rb.here, Rb.setYuyin,
        Function.update_self, Function.update_idem, sub_eq_add_neg]
      rfl
    · have hlow' : ¬(zMin < (s.points s.ctl.currentPoint).pos.z - 5) := hlow
      simp only [caseF2, caseZDown, if_pos hrun, if_pos hrun', if_neg hlow, if_neg hlow', pitchOn]
  · have hrun' :
        ¬(s.ctl.startFlag && !s.ctl.cycleComplete && decide (0 < s.ctl.pointCount)) = true := hrun
    simp only [caseF2, caseZDown, if_neg hrun, if_neg hrun', jogBy, Jog.move, add_zero, pitchOn,
      sub_eq_add_neg]

theorem caseF4_eq (s : Rb K) : caseF4 s = caseJog (-5) 0 s := by
  simp only [caseF4, caseJog, jogBy, Jog.move, add_zero, pitchOn, sub_eq_add_neg]

theorem caseF3_eq (s : Rb K) : caseF3 s = caseJog 5 0 s := by
  simp only [caseF3, caseJog, jogBy, Jog.move, add_zero, pitchOn]

theorem caseF5_eq (s : Rb K) : caseF5 s = caseJog 0 5 s := by
  simp only [caseF5, caseJog, jogBy, Jog.move, add_zero, pitchOn]

theorem caseF6_eq (s : Rb K) : caseF6 s = caseJog 0 (-5) s := by
  simp only [caseF6, caseJog, jogBy, Jog.move, add_zero, pitchOn, sub_eq_add_neg]

omit [LinearOrder K] in
theorem caseF7_eq (s : Rb K) : caseF7 s = caseSwing false s := rfl

omit [LinearOrder K] in
theorem caseF8_eq (s : Rb K) : caseF8 s = caseSwing true s := rfl

theorem caseFB_eq (env : Env K) (raw : K) (s : Rb K) : caseFB env raw s = caseMark env raw s := by
  by_cases hmark : s.ctl.canMark
  · have hmark' : (!s.ctl.startFlag && decide (s.ctl.pointCount < maxPoints) &&
        s.ctl.firstImuFlag2 && s.ctl.bijiFlag) = true := hmark
    by_cases hin : checkCoordinateRange s.jog.cur
    · simp only [caseFB, caseMark, if_pos hmark, if_pos hmark', hin, Bool.not_true,
        Bool.false_eq_true, if_false, if_true]
      simp only [markPoint, Rb.note, Rb.editPoint, Rb.setPoint, Function.update_self,
        Function.update_idem]
    · simp only [caseFB, caseMark, if_pos hmark, if_pos hmark', hin, Bool.not_false, if_true,
        Bool.false_eq_true, if_false]
  · have hmark' : ¬(!s.ctl.startFlag && decide (s.ctl.pointCount < maxPoints) &&
        s.ctl.firstImuFlag2 && s.ctl.bijiFlag) = true := hmark
    have hclosed : (s.ctl.bijiFlag == false) = !s.ctl.bijiFlag := by
      cases s.ctl.bijiFlag <;> rfl
    simp only [caseFB, caseMark, if_neg hmark, if_neg hmark', hclosed]
    rfl

theorem caseFC_eq (env : Env K) (s : Rb K) : caseFC env s = caseStart env s := by
  by_cases hcount : 0 < s.ctl.pointCount
  · by_cases hstart : s.ctl.startFlag
    · simp only [caseFC, caseStart, if_pos hcount, if_pos hstart]
      rfl
    · by_cases hagain : s.ctl.cycleComplete && s.ctl.firstImuFlag2
      · simp only [caseFC, caseStart, if_pos hcount, if_neg hstart, if_pos hagain,
          forPoints_editPoint]
        rfl
      · by_cases hfirst : s.ctl.currentPoint = 0 ∧ (s.points 0).pointTimer = 0
        · simp only [caseFC, caseStart, if_pos hcount, if_neg hstart, if_neg hagain, if_pos hfirst]
          rfl
        · simp only [caseFC, caseStart, if_pos hcount, if_neg hstart, if_neg hagain, if_neg hfirst]
          rfl
  · simp only [caseFC, caseStart, if_neg hcount]

theorem switch_eq (env : Env K) (b : UInt8) (raw : K) (s : Rb K) :
    switch env b raw s = lcdSwitch env b raw s := by
  rcases eq_or_ne b 0xf1 with rfl | h1
  · exact caseF1_eq env s
  rcases eq_or_ne b 0xf2 with rfl | h2
  · exact caseF2_eq env s
  rcases eq_or_ne b 0xf4 with rfl | h4
  · exact caseF4_eq s
  rcases eq_or_ne b 0xf3 with rfl | h3
  · exact caseF3_eq s
  rcases eq_or_ne b 0xf5 with rfl | h5
  · exact caseF5_eq s
  rcases eq_or_ne b 0xf6 with rfl | h6
  · exact caseF6_eq s
  rcases eq_or_ne b 0xf7 with rfl | h7
  · exact caseF7_eq s
  rcases eq_or_ne b 0xf8 with rfl | h8
  · exact caseF8_eq s
  rcases eq_or_ne b 0xfb with rfl | hb
  · exact caseFB_eq env raw s
  rcases eq_or_ne b 0xfc with rfl | hc
  · exact caseFC_eq env s
  · simp only [switch, if_neg h1, if_neg h2, if_neg h3, if_neg h4, if_neg h5, if_neg h6, if_neg h7,
      if_neg h8, if_neg hb, if_neg hc]

end LcdKeys

namespace IrKeys

theorem case47_eq (env : Env K) (s : Rb K) : case47 env s = caseZUp env s :=
  LcdKeys.caseF1_eq env s

theorem case5D_eq (env : Env K) (s : Rb K) : case5D env s = caseZDown env s :=
  LcdKeys.caseF2_eq env s

theorem case15_eq (env : Env K) (raw : K) (s : Rb K) : case15 env raw s = caseMark env raw s :=
  LcdKeys.caseFB_eq env raw s

theorem case45_eq (env : Env K) (s : Rb K) : case45 env s = caseStart env s :=
  LcdKeys.caseFC_eq env s

theorem switch_eq (env : Env K) (b : UInt8) (raw : K) (s : Rb K) :
    switch env b raw s = irSwitch env b raw s := by
  rcases eq_or_ne b 0x1c with rfl | h1c
  · exact LcdKeys.caseF5_eq s
  rcases eq_or_ne b 0x55 with rfl | h55
  · exact LcdKeys.caseF6_eq s
  rcases eq_or_ne b 0x59 with rfl | h59
  · exact LcdKeys.caseF4_eq s
  rcases eq_or_ne b 0x18 with rfl | h18
  · exact LcdKeys.caseF3_eq s
  rcases eq_or_ne b 0x47 with rfl | h47
  · exact case47_eq env s
  rcases eq_or_ne b 0x5d with rfl | h5d
  · exact case5D_eq env s
  rcases eq_or_ne b 0x44 with rfl | h44
  · exact LcdKeys.caseF7_eq s
  rcases eq_or_ne b 0x5c with rfl | h5c
  · exact LcdKeys.caseF8_eq s
  rcases eq_or_ne b 0x15 with rfl | h15
  · exact case15_eq env raw s
  rcases eq_or_ne b 0x45 with rfl | h45
  · exact case45_eq env s
  · simp only [switch, irSwitch, irKey, if_neg h1c, if_neg h55, if_neg h59, if_neg h18, if_neg h47,
      if_neg h5d, if_neg h44, if_neg h5c, if_neg h15, if_neg h45, onKey]

end IrKeys

/-! ## Corresponding keys -/

/-- What has a key on both controls. -/
inductive PairedKey where
  | zUp
  | zDown
  | xInc
  | xDec
  | yInc
  | yDec
  | swingDown
  | swingUp
  | mark
  | start
  deriving DecidableEq, Repr

def PairedKey.lcd : PairedKey → UInt8
  | .zUp => 0xf1
  | .zDown => 0xf2
  | .xInc => 0xf3
  | .xDec => 0xf4
  | .yInc => 0xf5
  | .yDec => 0xf6
  | .swingDown => 0xf7
  | .swingUp => 0xf8
  | .mark => 0xfb
  | .start => 0xfc

def PairedKey.ir : PairedKey → UInt8
  | .zUp => 0x47
  | .zDown => 0x5d
  | .xInc => 0x18
  | .xDec => 0x59
  | .yInc => 0x1c
  | .yDec => 0x55
  | .swingDown => 0x44
  | .swingUp => 0x5c
  | .mark => 0x15
  | .start => 0x45

/-- An iteration that finds one LCD key and no other. -/
def Input.lcdOnly (k : PairedKey) (i : Input K) : Input K := { i with lcd := k.lcd, ir := 0 }

/-- The same key on the remote, with the reading a mark would take. -/
def Input.irOnly (k : PairedKey) (i : Input K) : Input K :=
  { i with lcd := 0, ir := k.ir, tofLcd := i.tofIr, tofIr := i.tofLcd }

theorem PairedKey.irKey_eq (k : PairedKey) : irKey k.ir = lcdKey k.lcd := by
  cases k <;> rfl

theorem lcdSwitch_zero (env : Env K) (raw : K) (s : Rb K) : lcdSwitch env 0 raw s = s := rfl

theorem irSwitch_zero (env : Env K) (raw : K) (s : Rb K) : irSwitch env 0 raw s = s := rfl

theorem irSwitch_paired (env : Env K) (k : PairedKey) (raw : K) (s : Rb K) :
    irSwitch env k.ir raw s = lcdSwitch env k.lcd raw s := by
  rw [irSwitch, lcdSwitch, k.irKey_eq]

theorem step_irOnly (env : Env K) (k : PairedKey) (i : Input K) (s : Rb K) :
    step env s (.iteration (i.irOnly k)) = step env s (.iteration (i.lcdOnly k)) := by
  have hswitches : irSwitch env k.ir i.tofLcd (lcdSwitch env 0 i.tofIr s) =
      irSwitch env 0 i.tofIr (lcdSwitch env k.lcd i.tofLcd s) := by
    rw [lcdSwitch_zero, irSwitch_zero, irSwitch_paired]
  simp only [step, Step.stages, Input.irOnly, Input.lcdOnly, Runs.exec_cons, stage, hswitches]

/-! ## Runs -/

/-- The key of an LCD byte, if the remote has it too. -/
def PairedKey.ofLcd (b : UInt8) : Option PairedKey :=
  [.zUp, .zDown, .xInc, .xDec, .yInc, .yDec, .swingDown, .swingUp, .mark, .start].find?
    fun k => k.lcd == b

theorem PairedKey.lcd_ofLcd {b : UInt8} {k : PairedKey} (h : PairedKey.ofLcd b = some k) :
    k.lcd = b := by
  have hfound := List.find?_some h
  exact eq_of_beq hfound

/-- The step with its LCD key, where it has one alone, given on the remote instead. -/
def Step.onRemote : Step K → Step K
  | .iteration i =>
    match PairedKey.ofLcd i.lcd with
    | some k => if i.ir = 0 then .iteration (i.irOnly k) else .iteration i
    | none => .iteration i
  | .tick => .tick

theorem step_onRemote (env : Env K) (a : Step K) (s : Rb K) :
    step env s a.onRemote = step env s a := by
  cases a with
  | tick => rfl
  | iteration i =>
    simp only [Step.onRemote]
    split
    · next k hk =>
      split
      · next hir =>
        have halone : i.lcdOnly k = i := by
          rw [Input.lcdOnly, PairedKey.lcd_ofLcd hk, ← hir]
        rw [step_irOnly, halone]
      · rfl
    · rfl

theorem run_onRemote (env : Env K) (as : List (Step K)) :
    run env (as.map Step.onRemote) = run env as := by
  refine (Runs.exec_sim (R := fun s t => s = t) Step.onRemote ?_ as rfl).symm
  rintro s t a rfl
  exact (step_onRemote env a s).symm

/-! ## Agreement -/

/-- The two copies of each handler agree in every state, and so does an iteration with
the key on the one control or on the other, and a run with any of its keys on the other. -/
theorem keyPaths_agree (env : Env K) (k : PairedKey) (s : Rb K) :
    (∀ raw, LcdKeys.switch env k.lcd raw s = IrKeys.switch env k.ir raw s) ∧
      (∀ i : Input K,
        step env s (.iteration { i with lcd := k.lcd, ir := 0 }) =
          step env s (.iteration
            { i with lcd := 0, ir := k.ir, tofLcd := i.tofIr, tofIr := i.tofLcd })) ∧
      ∀ as : List (Step K), run env (as.map Step.onRemote) = run env as := by
  refine ⟨?_, ?_, run_onRemote env⟩
  · intro raw
    rw [LcdKeys.switch_eq, IrKeys.switch_eq, irSwitch_paired]
  · intro i
    exact (step_irOnly env k i s).symm

end RoboticArm
