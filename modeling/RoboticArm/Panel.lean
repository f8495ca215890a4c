import RoboticArm.Effect

/- The panel: the indicator and the voice prompts.

   Most handlers move the arm or decide what runs, and leave the panel alone. What is left
   is little: a few of them paint the indicator, a few ask for a prompt.

   1. `panel_startReturnDelay`, `panel_runMode` and their like: what leaves the panel alone.
   2. `led_stage`: the indicator after a stage, from the cycle, the jog target and itself.
   3. `voice_stage`: no stage but the tick does more to the prompts than ask for one. -/
namespace RoboticArm

section
variable {K : Type}

/-- The indicator and the voice prompts. -/
def Rb.panel (s : Rb K) : Led × Voice := (s.led, s.voice)

@[simp] theorem panel_mapMarked (f : SimplePoint K → SimplePoint K) (c : Ctl) (s : Rb K) :
    (({ s with ctl := c } : Rb K).mapMarked f).panel = s.panel := rfl

theorem panel_runTimeAdd (s : Rb K) : (runTimeAdd s).panel = s.panel := by
  unfold runTimeAdd
  split
  · exact panel_mapMarked _ _ s
  · rfl

theorem panel_runTimeMinus (s : Rb K) : (runTimeMinus s).panel = s.panel := by
  unfold runTimeMinus
  split
  · exact panel_mapMarked _ _ s
  · rfl

/-- `RGB_LED_MODE` and its backup set together. -/
def Led.paint (mode backup : Nat) (l : Led) : Led :=
  { l with rgbLedMode := mode, rgbLedModeBackup := backup }

end

section
variable {K : Type} [Field K] [LinearOrder K] (env : Env K)

theorem panel_moveToPoint (i : Nat) (s : Rb K) : (moveToPoint env i s).panel = s.panel := by
  unfold moveToPoint
  dsimp only
  split_ifs <;> rfl

theorem panel_startReturnDelay (type i : Nat) (s : Rb K) :
    (startReturnDelay env type i s).panel = s.panel := by
  have hmove : ∀ t : Rb K, (moveToPoint env i t).panel = t.panel := panel_moveToPoint env i
  unfold startReturnDelay
  dsimp only
  split
  · exact hmove { s.note (.startReturnDelay type i) with ctl := { s.ctl with returnType := type } }
  · rfl

theorem panel_switchMode (m : Nat) (s : Rb K) : (switchMode env m s).panel = s.panel := by
  unfold switchMode
  dsimp only
  split_ifs
  · exact panel_startReturnDelay env 1 _ _
  · rfl
  · rfl

omit [LinearOrder K] in
theorem panel_completeReturn (s : Rb K) : (completeReturn s).panel = s.panel := by
  unfold completeReturn
  split <;> rfl

omit [LinearOrder K] in
theorem panel_returnDelay (s : Rb K) : (returnDelay s).panel = s.panel := by
  unfold returnDelay
  dsimp only
  split
  · exact panel_completeReturn { s.note (.returnDone s.ctl.returnType) with
      ctl := { s.ctl with returnDelayFlag := false, returnInProgress := false } }
  · rfl

theorem panel_runMode (raw : K) (s : Rb K) : (runMode env raw s).panel = s.panel := by
  have hhover : (runHover env raw s).panel = s.panel := by
    unfold runHover
    dsimp only
    split <;> rfl
  have hlr : (runLr env raw s).panel = s.panel := by
    unfold runLr
    dsimp only
    split <;> rfl
  have hcircle : (runCircle env raw s).panel = s.panel := by
    unfold runCircle
    dsimp only
    split <;> rfl
  have hud : (runUd env raw s).panel = s.panel := by
    unfold runUd
    dsimp only
    split <;> rfl
  unfold runMode
  split_ifs
  · exact hhover
  · exact hlr
  · exact hcircle
  · exact hud
  · rfl

theorem panel_sensors (raw : K) (pitch : Option K) (s : Rb K) :
    (sensors raw pitch s).panel = s.panel := by
  unfold sensors
  dsimp only
  split_ifs <;> rfl

/-! ## The indicator -/

/-- The indicator after a stage. -/
def nextLed (c : Cycle) (j : Jog K) (l : Led) : Move → Led
  | .key .zUp => if c.ctl.running then l else updateRangeStatus (j.move 0 0 5).cur l
  | .key .zDown => if c.ctl.running then l else updateRangeStatus (j.move 0 0 (-5)).cur l
  | .key .xDec => updateRangeStatus (j.move (-5) 0 0).cur l
  | .key .xInc => updateRangeStatus (j.move 5 0 0).cur l
  | .key .yInc => updateRangeStatus (j.move 0 5 0).cur l
  | .key .yDec => updateRangeStatus (j.move 0 (-5) 0).cur l
  | .key .mark =>
    if c.marks (checkCoordinateRange j.cur) then { l with rgbLedMode := 7 } else l
  | .key .start =>
    if 0 < c.ctl.pointCount then if c.ctl.startFlag then l.paint 1 1 else l.paint 3 3 else l
  | .key .clear => l.paint 6 6
  | .runLogic => if c.finishes then { l with rgbLedMode := 0 } else l
  | .manual => if j.moved && !c.ctl.startFlag then if l.rgbLedMode ≠ 5 then l.paint 1 1 else l else l
  | .tick => rgbRun l
  | _ => l

theorem panel_nextMode (s : Rb K) : (nextMode env s).led = s.led ∧
    ∃ w, (nextMode env s).voice = { s.voice with yuyinFlag := w } := by
  have hled : ∀ m, (switchMode env m s).led = s.led :=
    fun m => congrArg Prod.fst (panel_switchMode env m s)
  have hvoice : ∀ m, (switchMode env m s).voice = s.voice :=
    fun m => congrArg Prod.snd (panel_switchMode env m s)
  have hset : ∀ m v, ((switchMode env m s).setYuyin v).led = s.led ∧
      ∃ w, ((switchMode env m s).setYuyin v).voice = { s.voice with yuyinFlag := w } := by
    intro m v
    refine ⟨hled m, v, ?_⟩
    show ({ (switchMode env m s).voice with yuyinFlag := v } : Voice) = _
    rw [hvoice m]
  unfold nextMode
  split_ifs
  · exact hset 2 3
  · exact hset 3 2
  · exact hset 1 5
  · exact hset 0 4
  · exact ⟨rfl, s.voice.yuyinFlag, rfl⟩

theorem panel_caseMark (raw : K) (s : Rb K) :
    (caseMark env raw s).led = nextLed s.cycle s.jog s.led (.key .mark) ∧
      ∃ w, (caseMark env raw s).voice = { s.voice with yuyinFlag := w } := by
  unfold caseMark nextLed Cycle.marks
  by_cases hmark : s.ctl.canMark = true
  · have hcycle : s.cycle.ctl.canMark = true := hmark
    rw [if_pos hmark, hcycle, Bool.true_and]
    by_cases hrange : checkCoordinateRange s.jog.cur = true
    · rw [if_pos hrange, if_pos hrange]
      exact ⟨rfl, s.voice.yuyinFlag, rfl⟩
    · rw [if_neg hrange, if_neg hrange]
      exact ⟨rfl, s.voice.yuyinFlag, rfl⟩
  · have hcycle : s.cycle.ctl.canMark = false := Bool.eq_false_of_not_eq_true hmark
    rw [if_neg hmark, hcycle, Bool.false_and]
    by_cases hswitch : s.ctl.canSwitch = true
    · rw [if_pos hswitch]
      exact panel_nextMode env s
    · rw [if_neg hswitch]
      exact ⟨rfl, s.voice.yuyinFlag, rfl⟩

theorem panel_caseStart (s : Rb K) :
    (caseStart env s).led = nextLed s.cycle s.jog s.led (.key .start) ∧
      ∃ w, (caseStart env s).voice = { s.voice with yuyinFlag := w } := by
  have hreturn : ∀ type (t : Rb K), (startReturnDelay env type 0 t).panel = t.panel :=
    fun type t => panel_startReturnDelay env type 0 t
  have hlaunch : ∀ type (t : Rb K), t.panel = (s.led.paint 3 3, { s.voice with yuyinFlag := 1 }) →
      (startReturnDelay env type 0 t).led = s.led.paint 3 3 ∧
        ∃ w, (startReturnDelay env type 0 t).voice = { s.voice with yuyinFlag := w } := by
    intro type t ht
    have h := (hreturn type t).trans ht
    exact ⟨congrArg Prod.fst h, 1, congrArg Prod.snd h⟩
  unfold caseStart nextLed
  by_cases hcount : 0 < s.ctl.pointCount
  · have hcycle : 0 < s.cycle.ctl.pointCount := hcount
    rw [if_pos hcount, if_pos hcycle]
    by_cases hstart : s.ctl.startFlag = true
    · have hrun : s.cycle.ctl.startFlag = true := hstart
      rw [if_pos hstart, if_pos hrun]
      exact ⟨rfl, 8, rfl⟩
    · have hstop : ¬ s.cycle.ctl.startFlag = true := hstart
      rw [if_neg hstart, if_neg hstop]
      by_cases hagain : (s.ctl.cycleComplete && s.ctl.firstImuFlag2) = true
      · rw [if_pos hagain]
        exact hlaunch 3 _ rfl
      · rw [if_neg hagain]
        by_cases hfresh : s.ctl.currentPoint = 0 ∧ (s.points 0).pointTimer = 0
        · rw [if_pos hfresh]
          exact hlaunch 4 _ rfl
        · rw [if_neg hfresh]
          exact ⟨rfl, 1, rfl⟩
  · have hcycle : ¬ 0 < s.cycle.ctl.pointCount := hcount
    rw [if_neg hcount, if_neg hcycle]
    exact ⟨rfl, s.voice.yuyinFlag, rfl⟩

theorem panel_runLogic (raw : K) (s : Rb K) :
    (runLogic env raw s).led = nextLed s.cycle s.jog s.led .runLogic ∧
      ∃ w, (runLogic env raw s).voice = { s.voice with yuyinFlag := w } := by
  have hkept : ∀ t : Rb K, t.panel = s.panel → t.led = s.led ∧
      ∃ w, t.voice = { s.voice with yuyinFlag := w } :=
    fun t ht => ⟨congrArg Prod.fst ht, s.voice.yuyinFlag, congrArg Prod.snd ht⟩
  unfold runLogic nextLed Cycle.finishes Cycle.pointDue
  have hrunning : s.cycle.ctl.running = s.ctl.running := rfl
  by_cases hrun : s.ctl.running = true
  · rw [if_pos hrun, hrunning, hrun, Bool.true_and]
    by_cases hdue : s.here.pointDuration ≤ s.here.pointTimer
    · have hcycle : s.cycle.duration s.cycle.ctl.currentPoint ≤
          s.cycle.timer s.cycle.ctl.currentPoint := hdue
      rw [if_pos hdue, decide_eq_true hcycle, Bool.true_and]
      dsimp only
      by_cases hlast : s.ctl.pointCount ≤ s.ctl.currentPoint + 1
      · have hend : s.cycle.ctl.pointCount ≤ s.cycle.ctl.currentPoint + 1 := hlast
        rw [if_pos hlast, if_pos (decide_eq_true hend)]
        exact ⟨rfl, 8, rfl⟩
      · have hend : ¬ s.cycle.ctl.pointCount ≤ s.cycle.ctl.currentPoint + 1 := hlast
        rw [if_neg hlast, if_neg (by simpa using hend)]
        exact hkept _ (panel_startReturnDelay env 5 _ _)
    · have hcycle : ¬ s.cycle.duration s.cycle.ctl.currentPoint ≤
          s.cycle.timer s.cycle.ctl.currentPoint := hdue
      rw [if_neg hdue, decide_eq_false hcycle, Bool.false_and]
      exact hkept _ (panel_runMode env raw s)
  · rw [if_neg hrun, hrunning, Bool.eq_false_of_not_eq_true hrun, Bool.false_and]
    exact ⟨rfl, s.voice.yuyinFlag, rfl⟩

omit [LinearOrder K] in
theorem panel_adjustZ (dz : K) (prompt : Nat) (s : Rb K) : (adjustZ env dz prompt s).led = s.led ∧
    ∃ w, (adjustZ env dz prompt s).voice = { s.voice with yuyinFlag := w } :=
  ⟨rfl, prompt, rfl⟩

theorem panel_onKey (raw : K) (s : Rb K) (k : Key) :
    (onKey env raw s k).led = nextLed s.cycle s.jog s.led (.key k) ∧
      ∃ w, (onKey env raw s k).voice = { s.voice with yuyinFlag := w } := by
  have hrunning : s.cycle.ctl.running = s.ctl.running := rfl
  have hkept : ∀ t : Rb K, t.panel = s.panel → t.led = s.led ∧
      ∃ w, t.voice = { s.voice with yuyinFlag := w } :=
    fun t ht => ⟨congrArg Prod.fst ht, s.voice.yuyinFlag, congrArg Prod.snd ht⟩
  cases k with
  | zUp =>
    show (caseZUp env s).led = _ ∧ ∃ w, (caseZUp env s).voice = _
    unfold caseZUp nextLed
    dsimp only
    rw [hrunning]
    split_ifs
    · exact panel_adjustZ env 5 6 s
    · exact ⟨rfl, s.voice.yuyinFlag, rfl⟩
    · exact ⟨rfl, s.voice.yuyinFlag, rfl⟩
  | zDown =>
    show (caseZDown env s).led = _ ∧ ∃ w, (caseZDown env s).voice = _
    unfold caseZDown nextLed
    dsimp only
    rw [hrunning]
    split_ifs
    · exact panel_adjustZ env (-5) 7 s
    · exact ⟨rfl, s.voice.yuyinFlag, rfl⟩
    · exact ⟨rfl, s.voice.yuyinFlag, rfl⟩
  | mark => exact panel_caseMark env raw s
  | start => exact panel_caseStart env s
  | timeAdd => exact hkept _ (panel_runTimeAdd s)
  | timeMinus => exact hkept _ (panel_runTimeMinus s)
  | _ => exact ⟨rfl, s.voice.yuyinFlag, rfl⟩

theorem panel_manual (s : Rb K) : (manual env s).led = nextLed s.cycle s.jog s.led .manual ∧
    (manual env s).voice = s.voice := by
  unfold manual nextLed
  have hstart : s.cycle.ctl.startFlag = s.ctl.startFlag := rfl
  rw [hstart]
  dsimp only
  by_cases hmoved : (s.jog.moved && !s.ctl.startFlag) = true
  · rw [if_pos hmoved, if_pos hmoved]
    by_cases himu : s.ctl.firstImuFlag2 = true
    · rw [if_pos himu]
      split <;> exact ⟨rfl, rfl⟩
    · rw [if_neg himu]
      split <;> exact ⟨rfl, rfl⟩
  · rw [if_neg hmoved, if_neg hmoved]
    exact ⟨rfl, rfl⟩

omit [Field K] [LinearOrder K] in
/-- The tick runs the two routines of the panel, each on its own part. -/
theorem panel_tick (s : Rb K) : (tim3IrqHandler s).led = rgbRun s.led ∧
    ∃ c, (tim3IrqHandler s).voice = yunyinRun c s.voice := by
  have hpoint : ∀ t : Rb K, (tickPoint t).panel = t.panel := by
    intro t
    unfold tickPoint
    split <;> rfl
  have hreturn : ∀ t : Rb K, (tickReturn t).panel = t.panel := by
    intro t
    unfold tickReturn
    split_ifs <;> rfl
  have hflame : ∀ t : Rb K, (tickFlame t).panel = t.panel := by
    intro t
    unfold tickFlame
    split_ifs <;> rfl
  have h100 : ∀ t : Rb K, (tick100ms t).panel = t.panel := by
    intro t
    unfold tick100ms
    split <;> rfl
  have hrun : ∀ t : Rb K, t.panel = s.panel →
      (tickPoint (tickReturn (tickModes
        { t with led := rgbRun t.led, voice := yunyinRun t.ctl t.voice }))).panel =
      (rgbRun s.led, yunyinRun t.ctl s.voice) := by
    intro t ht
    have hled : t.led = s.led := congrArg Prod.fst ht
    have hvoice : t.voice = s.voice := congrArg Prod.snd ht
    rw [hpoint, hreturn, ← hled, ← hvoice]
    rfl
  have hpanel := hrun (tickFlame (tick100ms (s.note .tick))) ((hflame _).trans (h100 _))
  exact ⟨congrArg Prod.fst hpanel, _, congrArg Prod.snd hpanel⟩

theorem led_stage (s : Rb K) (a : Stage K) :
    (stage env s a).led = nextLed s.cycle s.jog s.led a.move := by
  cases a with
  | lcd b raw => exact (panel_onKey env raw s (lcdKey b)).1
  | ir b raw => exact (panel_onKey env raw s (irKey b)).1
  | returnDelay => exact congrArg Prod.fst (panel_returnDelay s)
  | runLogic raw => exact (panel_runLogic env raw s).1
  | sensors raw pitch => exact congrArg Prod.fst (panel_sensors raw pitch s)
  | manual => exact (panel_manual env s).1
  | tick => exact (panel_tick s).1

/-- A stage of the main loop asks for a prompt at most, and the tick runs `yunyin_run`. -/
theorem voice_stage (s : Rb K) (a : Stage K) :
    (a.move ≠ .tick ∧ ∃ w, (stage env s a).voice = { s.voice with yuyinFlag := w }) ∨
      (a.move = .tick ∧ ∃ c, (stage env s a).voice = yunyinRun c s.voice) := by
  have hsame : ∀ v : Voice, v = s.voice → ∃ w, v = { s.voice with yuyinFlag := w } :=
    fun v hv => ⟨s.voice.yuyinFlag, hv⟩
  cases a with
  | lcd b raw => exact .inl ⟨nofun, (panel_onKey env raw s (lcdKey b)).2⟩
  | ir b raw => exact .inl ⟨nofun, (panel_onKey env raw s (irKey b)).2⟩
  | returnDelay => exact .inl ⟨nofun, hsame _ (congrArg Prod.snd (panel_returnDelay s))⟩
  | runLogic raw => exact .inl ⟨nofun, (panel_runLogic env raw s).2⟩
  | sensors raw pitch => exact .inl ⟨nofun, hsame _ (congrArg Prod.snd (panel_sensors raw pitch s))⟩
  | manual => exact .inl ⟨nofun, hsame _ (panel_manual env s).2⟩
  | tick => exact .inr ⟨rfl, (panel_tick s).2⟩

end

end RoboticArm
