import RoboticArm.State

/- The 100 ms tick: `TIM3_IRQHandler` of `new.c` with the indicator and voice
   routines it calls.

   The handler is the composition of its blocks in their order: the 100 ms flag,
   the burn timer, `RGB_RUN`, `yunyin_run`, the three mode timers, the return
   delay and the timer of the current point. Colours are written in the order
   red, green, blue. -/
namespace RoboticArm

variable {K : Type}

/-! ## Indicator -/

/-- `RGB_huxi`: yellow breathing (`mode`) or white; colour bytes wrap as `uint8_t`. -/
def rgbHuxi (mode : Bool) (l : Led) : Led :=
  let jici := (l.jici + 1) % 256
  if jici ≤ 15 then
    { l with
      jici := jici
      color := if mode then (jici * 10, jici * 6, 0) else (jici * 10, jici * 10, jici * 10) }
  else
    let up := (150 + 256 - (jici - 15) * 10 % 256) % 256
    let mid := (90 + 256 - (jici - 15) * 6 % 256) % 256
    { l with
      jici := if 29 ≤ jici then 1 else jici
      color := if mode then (up, mid, 0) else (up, up, up) }

/-- The colour `RGB_RUN` writes in the bright half of a blink, if the mode has one. -/
def blinkColor : Nat → Option (Nat × Nat × Nat)
  | 0 => some (50, 50, 50)
  | 1 => some (0, 50, 0)
  | 3 => some (60, 40, 0)
  | 5 => some (60, 0, 0)
  | 7 => some (0, 0, 60)
  | _ => none

/-- `RGB_RUN`. Blue (mode 7) blinks three times and then falls back to the backup. -/
def rgbRun (l : Led) : Led :=
  if l.rgbLedMode = 4 then rgbHuxi true l
  else if l.rgbLedMode = 6 then rgbHuxi false l
  else
    let l : Led := { l with accLed := l.accLed + 100 }
    let l : Led :=
      if l.accLed = 500 then
        let lit : Led := { l with color := (blinkColor l.rgbLedMode).getD l.color }
        if l.rgbLedMode = 7 then
          if 3 ≤ l.lanJici + 1 then { lit with lanJici := 0, rgbLedMode := l.rgbLedModeBackup }
          else { lit with lanJici := l.lanJici + 1 }
        else lit
      else l
    if l.accLed = 1000 then { l with accLed := 0, color := (0, 0, 0) } else l

/-! ## Voice prompts -/

/-- The prompt for the current mode, after a start prompt. -/
def modePrompt (c : Ctl) (flag : Nat) : Nat :=
  if c.modeHover then 4 else if c.modeLr then 3 else if c.modeUd then 2
  else if c.modeCircle then 5 else flag

/-- `yunyin_run`. Line `i` is the prompt line of flag value `i`. -/
def yunyinRun (c : Ctl) (v : Voice) : Voice :=
  if v.lastYuyinFlag ≠ v.yuyinFlag ∧ v.okFlag = true then
    { v with
      lastYuyinFlag := v.yuyinFlag
      accYuyin := 0
      okFlag := false
      line := if v.yuyinFlag ≤ 8 then Function.update v.line v.yuyinFlag false else v.line
      yuyinFlag := if v.yuyinFlag = 6 ∨ v.yuyinFlag = 7 then 255 else v.yuyinFlag }
  else if v.accYuyin < 3000 then { v with accYuyin := v.accYuyin + 100 }
  else if v.accYuyin = 3000 then
    { v with
      accYuyin := v.accYuyin + 100
      okFlag := true
      yuyinFlag := if v.yuyinFlag = 1 then modePrompt c v.yuyinFlag else v.yuyinFlag
      line := fun _ => true }
  else v

/-! ## The handler -/

/-- `t_10ms`: every call passes 100 ms. -/
def tick100ms (s : Rb K) : Rb K :=
  if 100 ≤ s.isr.t10ms + 100 then
    { s with isr := { s.isr with t10ms := 0 }, level := { s.level with timeDelay100ms := true } }
  else { s with isr := { s.isr with t10ms := s.isr.t10ms + 100 } }

/-- The burn timer: after 252 s the flame is swapped for light and fan. -/
def tickFlame (s : Rb K) : Rb K :=
  if s.ctl.flameFlag then
    if flameMs ≤ s.isr.accFlame + 100 then
      let s := { s with
        ctl := { s.ctl with flameFlag := false }, isr := { s.isr with accFlame := 0 } }
      ((s.writeBit .light true).writeBit .fan true).writeBit .flame false
    else { s with isr := { s.isr with accFlame := s.isr.accFlame + 100 } }
  else s

/-- One mode timer: the accumulator after the tick, and whether the period has passed. -/
def modeTimer (running : Bool) (acc interval : Nat) : Nat × Bool :=
  if running then if interval ≤ acc + 100 then (0, true) else (acc + 100, false) else (0, false)

def tickModes (s : Rb K) : Rb K :=
  let circle := modeTimer s.ctl.timerRunningCircle s.isr.accCircle circleInterval
  let lr := modeTimer s.ctl.timerRunningLr s.isr.accLr lrMoveInterval
  let ud := modeTimer s.ctl.timerRunningUd s.isr.accUd udMoveInterval
  { s with
    isr := { s.isr with accCircle := circle.1, accLr := lr.1, accUd := ud.1 }
    motion := { s.motion with
      circleMoveFlag := s.motion.circleMoveFlag || circle.2
      lrMoveFlag := s.motion.lrMoveFlag || lr.2
      udMoveFlag := s.motion.udMoveFlag || ud.2 } }

/-- The return delay: the accumulator is cleared only by its own expiry or by a
tick that finds no return in progress. -/
def tickReturn (s : Rb K) : Rb K :=
  if s.ctl.returnInProgress then
    if returnDelayMs ≤ s.isr.accReturn + 100 then
      { s with
        isr := { s.isr with accReturn := 0 }, ctl := { s.ctl with returnDelayFlag := true } }
    else { s with isr := { s.isr with accReturn := s.isr.accReturn + 100 } }
  else { s with isr := { s.isr with accReturn := 0 } }

/-- The timer of the current point. -/
def tickPoint (s : Rb K) : Rb K :=
  if s.ctl.running then
    s.setPoint s.ctl.currentPoint { s.here with pointTimer := u32 (s.here.pointTimer + 100) }
  else s

def tim3IrqHandler (s : Rb K) : Rb K :=
  let s := s.note .tick
  let s := tick100ms s
  let s := tickFlame s
  let s := { s with led := rgbRun s.led }
  let s := { s with voice := yunyinRun s.ctl s.voice }
  let s := tickModes s
  let s := tickReturn s
  tickPoint s

end RoboticArm
