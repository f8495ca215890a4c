import RoboticArm.Panel
import RoboticArm.Replay

/- The limit warning: `out_of_range_flag` and the red indicator.

   Every jog of the target updates the flag, and the first one that leaves the box turns the
   indicator red. Keys and the end of a cycle paint it too. The manual control asks whether
   the indicator is red before it does; the start key, the clear key and the end of a cycle
   do not.

   1. `ledMove_stage`: what a stage can do to the indicator and the target, in one place.
   2. `FlagRight.stage`: the flag always says whether the target is outside the box.
   3. `Warned.stage`: the indicator stays red through every stage that does not paint it.
   4. `warned_step_iff`: after an iteration the warning is there exactly when nothing has
      painted the indicator with the target outside, where the target ends up.
   5. `warned_iff`: the same for whole runs. `startAtLimit` is a run with a start key. -/
namespace RoboticArm

section
variable {K : Type} [Field K] [LinearOrder K]

/-- The jog target is outside the box. -/
def Rb.outside (s : Rb K) : Prop := checkCoordinateRange s.jog.cur = false

/-- The flag says whether the target is outside, and while it does the indicator is red. -/
structure Warned (s : Rb K) : Prop where
  flag : s.led.outOfRangeFlag = !checkCoordinateRange s.jog.cur
  red : s.led.outOfRangeFlag = true → s.led.rgbLedMode = 5

/-- The stage paints the indicator whatever it shows: a start key with a point to treat, a
clear key, the end of a cycle. -/
def Repaints (s : Rb K) (a : Stage K) : Prop :=
  match a.move with
  | .key .start => 0 < s.ctl.pointCount
  | .key .clear => True
  | .runLogic => s.cycle.finishes = true
  | _ => False

/-- Where the step leaves the target outside, none of its stages has painted the indicator
with the target outside. -/
def KeepsRed (env : Env K) (s : Rb K) (b : Step K) : Prop :=
  (step env s b).outside →
    Runs.Along (fun t a => Repaints t a → ¬ t.outside) (stage env) s b.stages

/-! ## What a stage does -/

/-- What a stage can do to the indicator and the target, which are `l` and `p` after it. -/
inductive LedMove (s : Rb K) (a : Stage K) (l : Led) (p : Pos K) : Prop
  | jog : ¬ Repaints s a → l = updateRangeStatus p s.led → LedMove s a l p
  | same : ¬ Repaints s a → l = s.led → p = s.jog.cur → LedMove s a l p
  | mark : ¬ Repaints s a → checkCoordinateRange s.jog.cur = true →
      l = { s.led with rgbLedMode := 7 } → p = s.jog.cur → LedMove s a l p
  | manual : ¬ Repaints s a → s.led.rgbLedMode ≠ 5 → l = s.led.paint 1 1 → p = s.jog.cur →
      LedMove s a l p
  | tick : ¬ Repaints s a → a.move = .tick → l = rgbRun s.led → p = s.jog.cur → LedMove s a l p
  | repaint : Repaints s a → l.rgbLedMode ≠ 5 → l.outOfRangeFlag = s.led.outOfRangeFlag →
      p = s.jog.cur → LedMove s a l p

theorem LedMove.kept {s : Rb K} {a : Stage K} (h : ¬ Repaints s a) : LedMove s a s.led s.jog.cur :=
  .same h rfl rfl

theorem LedMove.painted {s : Rb K} {a : Stage K} (h : Repaints s a) {l : Led} (m : Nat) (hm : m ≠ 5)
    (hmode : l.rgbLedMode = m) (hflag : l.outOfRangeFlag = s.led.outOfRangeFlag) :
    LedMove s a l s.jog.cur := by
  refine .repaint h ?_ hflag rfl
  rw [hmode]
  exact hm

theorem ledMove_key {s : Rb K} {a : Stage K} {k : Key} (hmove : a.move = .key k) :
    LedMove s a (nextLed s.cycle s.jog s.led (.key k)) (s.jog.next s.ctl (.key k)).cur := by
  have hrunning : s.cycle.ctl.running = s.ctl.running := rfl
  have hjog : ∀ p, ¬ Repaints s a → LedMove s a (updateRangeStatus p s.led) p :=
    fun p hquiet => .jog hquiet rfl
  cases k with
  | zUp =>
    simp only [nextLed, Jog.next]
    rw [hrunning]
    split
    · exact .kept (by simp [Repaints, hmove])
    · exact hjog _ (by simp [Repaints, hmove])
  | zDown =>
    simp only [nextLed, Jog.next]
    rw [hrunning]
    split
    · exact .kept (by simp [Repaints, hmove])
    · exact hjog _ (by simp [Repaints, hmove])
  | xDec => exact hjog _ (by simp [Repaints, hmove])
  | xInc => exact hjog _ (by simp [Repaints, hmove])
  | yInc => exact hjog _ (by simp [Repaints, hmove])
  | yDec => exact hjog _ (by simp [Repaints, hmove])
  | mark =>
    simp only [nextLed, Jog.next]
    split
    · next hmark =>
      simp only [Cycle.marks, Bool.and_eq_true] at hmark
      exact .mark (by simp [Repaints, hmove]) hmark.2 rfl rfl
    · exact .kept (by simp [Repaints, hmove])
  | start =>
    have hcount : Repaints s a ↔ 0 < s.cycle.ctl.pointCount := by
      unfold Repaints
      rw [hmove]
      rfl
    simp only [nextLed, Jog.next]
    by_cases hpos : 0 < s.cycle.ctl.pointCount
    · rw [if_pos hpos]
      split
      · exact .painted (hcount.2 hpos) 1 (by decide) rfl rfl
      · exact .painted (hcount.2 hpos) 3 (by decide) rfl rfl
    · rw [if_neg hpos]
      exact .kept (mt hcount.1 hpos)
  | clear =>
    have hclear : Repaints s a := by simp [Repaints, hmove]
    exact .painted hclear 6 (by decide) rfl rfl
  | _ => exact .kept (by simp [Repaints, hmove])

theorem ledMove_stage (env : Env K) (s : Rb K) (a : Stage K) :
    LedMove s a (stage env s a).led (stage env s a).jog.cur := by
  rw [led_stage, jog_stage]
  cases hmove : a.move with
  | key k => exact ledMove_key hmove
  | runLogic =>
    have hfin : Repaints s a ↔ s.cycle.finishes = true := by simp [Repaints, hmove]
    simp only [nextLed, Jog.next]
    split
    · next hends => exact .painted (hfin.2 hends) 0 (by decide) rfl rfl
    · next hgoes => exact .kept (mt hfin.1 hgoes)
  | manual =>
    have hquiet : ¬ Repaints s a := by simp [Repaints, hmove]
    have hcur : (s.jog.next s.ctl .manual).cur = s.jog.cur := by
      simp only [Jog.next]
      split <;> rfl
    rw [hcur]
    simp only [nextLed]
    split_ifs with hmoved hmode
    · exact .manual hquiet hmode rfl rfl
    · exact .kept hquiet
    · exact .kept hquiet
  | tick =>
    have hquiet : ¬ Repaints s a := by simp [Repaints, hmove]
    exact .tick hquiet hmove rfl rfl
  | returnDelay => exact .kept (by simp [Repaints, hmove])
  | sensors => exact .kept (by simp [Repaints, hmove])

/-! ## The flag -/

theorem flag_updateRangeStatus (p : Pos K) (l : Led) :
    (updateRangeStatus p l).outOfRangeFlag = !checkCoordinateRange p := by
  unfold updateRangeStatus
  cases hin : checkCoordinateRange p <;> cases hflag : l.outOfRangeFlag <;> simp [hflag]

omit [Field K] [LinearOrder K] in
theorem flag_rgbRun (l : Led) : (rgbRun l).outOfRangeFlag = l.outOfRangeFlag := by
  unfold rgbRun rgbHuxi
  dsimp only
  split_ifs <;> rfl

/-- The flag says whether the target is outside. -/
def FlagRight (s : Rb K) : Prop := s.led.outOfRangeFlag = !checkCoordinateRange s.jog.cur

theorem FlagRight.stage {s : Rb K} (h : FlagRight s) (env : Env K) (a : Stage K) :
    FlagRight (stage env s a) := by
  unfold FlagRight at h ⊢
  cases ledMove_stage env s a with
  | jog _ hled => rw [hled, flag_updateRangeStatus]
  | same _ hled hcur => rw [hled, hcur, h]
  | mark _ _ hled hcur => rw [hled, hcur, h]
  | manual _ _ hled hcur =>
    rw [hled, hcur]
    exact h
  | tick _ _ hled hcur => rw [hled, hcur, flag_rgbRun, h]
  | repaint _ _ hflag hcur => rw [hflag, hcur, h]

theorem FlagRight.eq_true {s : Rb K} (h : FlagRight s) (hout : s.outside) :
    s.led.outOfRangeFlag = true := by
  rw [h, hout]
  rfl

theorem FlagRight.outside {s : Rb K} (h : FlagRight s) (hflag : s.led.outOfRangeFlag = true) :
    s.outside := by
  rw [h, Bool.not_eq_true'] at hflag
  exact hflag

/-! ## The indicator -/

theorem red_updateRangeStatus (p : Pos K) {l : Led} (h : l.outOfRangeFlag = true → l.rgbLedMode = 5)
    (hflag : (updateRangeStatus p l).outOfRangeFlag = true) :
    (updateRangeStatus p l).rgbLedMode = 5 := by
  unfold updateRangeStatus at hflag ⊢
  dsimp only at hflag ⊢
  split_ifs at hflag ⊢
  · rfl
  · exact h hflag

theorem red_rgbRun {l : Led} (h : l.rgbLedMode = 5) : (rgbRun l).rgbLedMode = 5 := by
  have h4 : l.rgbLedMode ≠ 4 := by omega
  have h6 : l.rgbLedMode ≠ 6 := by omega
  have h7 : l.rgbLedMode ≠ 7 := by omega
  unfold rgbRun
  rw [if_neg h4, if_neg h6]
  dsimp only
  rw [if_neg h7]
  split_ifs <;> exact h

/-- A stage that does not paint the indicator keeps the warning, and so does every stage
while the target is inside. -/
theorem Warned.stage {s : Rb K} (h : Warned s) (env : Env K) {a : Stage K}
    (hok : Repaints s a → ¬ s.outside) : Warned (stage env s a) := by
  have hright : FlagRight s := h.flag
  refine ⟨hright.stage env a, ?_⟩
  intro hup
  cases ledMove_stage env s a with
  | jog _ hled =>
    rw [hled] at hup ⊢
    exact red_updateRangeStatus _ h.red hup
  | same _ hled _ =>
    rw [hled] at hup ⊢
    exact h.red hup
  | mark _ hinside hled _ =>
    rw [hled] at hup
    exact absurd (hinside.symm.trans (hright.outside hup)) (by decide)
  | manual _ hmode hled _ =>
    -- an indicator that is not red has its flag down
    rw [hled] at hup
    exact absurd (h.red hup) hmode
  | tick _ _ hled _ =>
    rw [hled, flag_rgbRun] at hup
    rw [hled]
    exact red_rgbRun (h.red hup)
  | repaint hpaint _ hflag _ =>
    rw [hflag] at hup
    exact absurd (hright.outside hup) (hok hpaint)

/-- The flag is up and the indicator is not red. -/
def Masked (s : Rb K) : Prop := s.led.outOfRangeFlag = true ∧ s.led.rgbLedMode ≠ 5

theorem masked_of_repaints {s : Rb K} (hright : FlagRight s) (env : Env K) {a : Stage K}
    (hpaint : Repaints s a) (hout : s.outside) : Masked (stage env s a) := by
  cases ledMove_stage env s a with
  | repaint _ hmode hflag _ =>
    refine ⟨?_, hmode⟩
    rw [hflag]
    exact hright.eq_true hout
  | jog hquiet | same hquiet | mark hquiet | manual hquiet | tick hquiet => exact absurd hpaint hquiet

/-- No stage of the main loop turns it red again while the target stays outside. -/
theorem Masked.stage {s : Rb K} (h : Masked s) (hright : FlagRight s) (env : Env K) {a : Stage K}
    (hloop : a.move ≠ .tick) (hout : (stage env s a).outside) : Masked (stage env s a) := by
  obtain ⟨hup, hmode⟩ := h
  have hkept : (RoboticArm.stage env s a).led = s.led → Masked (RoboticArm.stage env s a) := by
    intro hled
    unfold Masked
    rw [hled]
    exact ⟨hup, hmode⟩
  cases ledMove_stage env s a with
  | jog _ hled =>
    have hsame : updateRangeStatus (RoboticArm.stage env s a).jog.cur s.led = s.led := by
      unfold updateRangeStatus
      rw [hout, hup]
      rfl
    exact hkept (hled.trans hsame)
  | same _ hled _ => exact hkept hled
  | mark _ hinside _ _ => exact absurd (hinside.symm.trans (hright.outside hup)) (by decide)
  | manual _ _ hled _ =>
    unfold Masked
    rw [hled]
    exact ⟨hup, (by decide : (1 : Nat) ≠ 5)⟩
  | tick _ htick => exact absurd htick hloop
  | repaint _ hnew hflag _ => exact ⟨hflag.trans hup, hnew⟩

/-! ## Iterations -/

/-- The stages of an iteration that follow its two keys. -/
def Input.rest (i : Input K) : List (Stage K) :=
  [.returnDelay, .runLogic i.tofRun, .sensors i.tofSense i.pitch, .manual]

omit [Field K] [LinearOrder K] in
theorem Input.rest_move {i : Input K} {a : Stage K} (ha : a ∈ i.rest) :
    (∀ k, a.move ≠ .key k) ∧ a.move ≠ .tick := by
  simp only [Input.rest, List.mem_cons, List.not_mem_nil, or_false] at ha
  rcases ha with rfl | rfl | rfl | rfl
  all_goals exact ⟨nofun, nofun⟩

theorem cur_stage_of_not_key (env : Env K) (s : Rb K) {a : Stage K} (hkey : ∀ k, a.move ≠ .key k) :
    (stage env s a).jog.cur = s.jog.cur := by
  rw [jog_stage]
  generalize a.move = m at hkey ⊢
  cases m with
  | key k => exact absurd rfl (hkey k)
  | manual =>
    simp only [Jog.next]
    split <;> rfl
  | _ => rfl

theorem outside_exec_iff (env : Env K) {s : Rb K} {as : List (Stage K)}
    (hkey : ∀ a ∈ as, ∀ k, a.move ≠ .key k) :
    (Runs.exec (stage env) s as).outside ↔ s.outside := by
  have hcur : (Runs.exec (stage env) s as).jog.cur = s.jog.cur :=
    Runs.exec_inv_mem (P := fun t : Rb K => t.jog.cur = s.jog.cur)
      (fun t a ha h => (cur_stage_of_not_key env t (hkey a ha)).trans h) rfl
  unfold Rb.outside
  rw [hcur]

theorem FlagRight.exec {s : Rb K} (h : FlagRight s) (env : Env K) (as : List (Stage K)) :
    FlagRight (Runs.exec (RoboticArm.stage env) s as) :=
  Runs.exec_inv (fun _ a ht => ht.stage env a) as h

theorem Masked.exec {s : Rb K} (h : Masked s) (hright : FlagRight s) (env : Env K)
    {as : List (Stage K)} (has : ∀ a ∈ as, (∀ k, a.move ≠ .key k) ∧ a.move ≠ .tick) :
    Masked (Runs.exec (RoboticArm.stage env) s as) := by
  have hkept : ∀ t : Rb K, ∀ a ∈ as, Masked t ∧ FlagRight t →
      Masked (RoboticArm.stage env t a) ∧ FlagRight (RoboticArm.stage env t a) := by
    rintro t a ha ⟨hmasked, hflag⟩
    have hout : (RoboticArm.stage env t a).outside := by
      unfold Rb.outside
      rw [cur_stage_of_not_key env t (has a ha).1]
      exact hflag.outside hmasked.1
    exact ⟨hmasked.stage hflag env (has a ha).2 hout, hflag.stage env a⟩
  have hend := Runs.exec_inv_mem (P := fun t : Rb K => Masked t ∧ FlagRight t) hkept ⟨h, hright⟩
  exact hend.1

theorem Warned.not_masked {s : Rb K} (h : Warned s) : ¬ Masked s := by
  rintro ⟨hup, hmode⟩
  exact hmode (h.red hup)

/-- An iteration that ends with the warning has not painted it over: a stage that does with
the target outside masks it, and what follows does not bring it back. -/
theorem keepsRed_of_warned (env : Env K) {s : Rb K} (hright : FlagRight s) (b : Step K)
    (h : Warned (step env s b)) : KeepsRed env s b := by
  intro hout
  cases b with
  | tick => exact ⟨fun hpaint => absurd hpaint id, trivial⟩
  | iteration i =>
    let s₁ := stage env s (.lcd i.lcd i.tofLcd)
    let s₂ := stage env s₁ (.ir i.ir i.tofIr)
    have hright₁ : FlagRight s₁ := hright.stage env _
    have hright₂ : FlagRight s₂ := hright₁.stage env _
    have hend : Warned (Runs.exec (stage env) s₂ i.rest) := h
    have hout₂ : s₂.outside := (outside_exec_iff env fun a ha => (Input.rest_move ha).1).1 hout
    have hkeys : ¬ Masked s₂ := by
      intro hmasked
      exact hend.not_masked (hmasked.exec hright₂ env fun _ ha => Input.rest_move ha)
    refine ⟨?_, ?_, ?_⟩
    · intro hpaint hfirst
      have hmasked : Masked s₁ := masked_of_repaints hright env hpaint hfirst
      exact hkeys (hmasked.stage hright₁ env nofun hout₂)
    · intro hpaint hfirst
      exact hkeys (masked_of_repaints hright₁ env hpaint hfirst)
    · show Runs.Along _ (stage env) s₂ i.rest
      apply Runs.along_of_split
      intro pre a post hsplit hpaint hhere
      have hrightpre : FlagRight (Runs.exec (stage env) s₂ pre) := hright₂.exec env pre
      have hmasked := masked_of_repaints hrightpre env hpaint hhere
      have hpost : ∀ c ∈ post, (∀ k, c.move ≠ .key k) ∧ c.move ≠ .tick := by
        intro c hc
        have hmem : c ∈ i.rest := by
          rw [hsplit]
          exact List.mem_append_right _ (List.mem_cons_of_mem a hc)
        exact Input.rest_move hmem
      have hlast := hmasked.exec (hrightpre.stage env a) env hpost
      rw [hsplit, Runs.exec_append, Runs.exec_cons] at hend
      exact hend.not_masked hlast

/-- From a state with the warning, a step ends with it exactly when it does not paint it
over, or ends with the target inside. -/
theorem warned_step_iff (env : Env K) {s : Rb K} (h : Warned s) (b : Step K) :
    Warned (step env s b) ↔ KeepsRed env s b := by
  have hright : FlagRight s := h.flag
  constructor
  · exact keepsRed_of_warned env hright b
  · intro hok
    have hend : FlagRight (step env s b) := hright.exec env b.stages
    refine ⟨hend, ?_⟩
    intro hup
    have hwarned : Warned (step env s b) :=
      Runs.exec_inv_along (fun _ _ ht hpaint => ht.stage env hpaint) h (hok (hend.outside hup))
    exact hwarned.red hup

/-! ## Runs -/

variable [IsStrictOrderedRing K]

theorem warned_boot : Warned (boot : Rb K) where
  flag := by
    have hin : checkCoordinateRange (boot : Rb K).jog.cur = true := by
      norm_num [boot, Jog.boot, checkCoordinateRange, xMin, xMax, yMin, yMax, zMin, zMax]
    rw [hin]
    rfl
  red h := absurd h Bool.false_ne_true

/-- Whether a run ends with the target outside, checked over the integers. -/
theorem outside_run_iff (env : Env K) (as : List (Step K)) : (run env as).outside ↔
    checkCoordinateRange (Runs.exec Session.move (Session.boot : Session ℤ) (moves as)).jog.cur =
      false := by
  have hsession : (run env as).session =
      (Runs.exec Session.move (Session.boot : Session ℤ) (moves as)).cast := by
    rw [run_eq_stages]
    exact session_exec env session_boot _
  show checkCoordinateRange (run env as).session.jog.cur = false ↔ _
  rw [hsession]
  exact Eq.congr_left (cast_checkCoordinateRange _)

/-- The warning is faithful in every state of a run exactly when no step paints it over: the
start key with a point to treat, the clear key and the end of a cycle are only handled with
the target inside, or in an iteration that ends with it inside. -/
theorem warned_iff (env : Env K) (as : List (Step K)) :
    (∀ pre, pre <+: as → Warned (run env pre)) ↔ Runs.Along (KeepsRed env) (step env) boot as := by
  have hall : (∀ pre, pre <+: as → Warned (run env pre)) ↔
      Runs.Along (fun s b => Warned (step env s b)) (step env) boot as :=
    Runs.along_after_iff warned_boot
  rw [hall]
  exact Runs.along_kept_iff (P := Warned) (fun _ b h => warned_step_iff env h b) warned_boot

end

/-- A point is marked and its cycle started with the target inside. -/
noncomputable def startInside : List (Step ℝ) := [press 0xf3, press 0xfb, press 0xfc]

theorem warned_iff_startInside : Runs.Along (KeepsRed firmware) (step firmware) boot startInside ∧
    ∀ pre, pre <+: startInside → Warned (run firmware pre) := by
  have hinside : ∀ as ∈ startInside.inits,
      ¬ checkCoordinateRange
        (Runs.exec Session.move (Session.boot : Session ℤ) (moves as)).jog.cur = false := by
    decide +kernel
  have hkeeps : Runs.Along (KeepsRed firmware) (step firmware) boot startInside := by
    apply Runs.along_of_split
    intro pre b post hsplit hout
    have hprefix : pre ++ [b] <+: startInside :=
      ⟨post, by rw [hsplit, List.append_assoc, List.singleton_append]⟩
    have hrun : run firmware (pre ++ [b]) = step firmware (run firmware pre) b :=
      Runs.exec_append (step firmware) boot pre [b]
    have hend : (run firmware (pre ++ [b])).outside := by
      rw [hrun]
      exact hout
    exact absurd ((outside_run_iff firmware _).1 hend) (hinside _ ((List.mem_inits _ _).2 hprefix))
  exact ⟨hkeeps, (warned_iff firmware startInside).2 hkeeps⟩

/-- A point is marked, the target jogged to the end of the box, and the arm started. -/
noncomputable def startAtLimit : List (Step ℝ) :=
  [press 0xf3, press 0xfb, press 0xf3, press 0xf3, press 0xf3, press 0xf3] ++ [press 0xfc]

/-- The start key paints the red indicator yellow. -/
theorem not_warned_startAtLimit : ¬ ∀ pre, pre <+: startAtLimit → Warned (run firmware pre) := by
  let jogs : List (Step ℝ) :=
    [press 0xf3, press 0xfb, press 0xf3, press 0xf3, press 0xf3, press 0xf3]
  let s : Rb ℝ := run firmware jogs
  have hrun : run firmware startAtLimit = step firmware s (press 0xfc) :=
    Runs.exec_append (step firmware) boot jogs [press 0xfc]
  have hbefore : s.outside := (outside_run_iff firmware jogs).2 (by decide +kernel)
  have hafter : (step firmware s (press 0xfc)).outside := by
    rw [← hrun]
    exact (outside_run_iff firmware startAtLimit).2 (by decide +kernel)
  have hcount : 0 < s.ctl.pointCount := by
    show 0 < (run firmware jogs).cycle.ctl.pointCount
    rw [cycle_run]
    decide +kernel
  intro h
  have hwarned : Warned s := h jogs (List.prefix_append jogs [press 0xfc])
  have hlast : Warned (step firmware s (press 0xfc)) := by
    rw [← hrun]
    exact h startAtLimit List.prefix_rfl
  have hkeeps := keepsRed_of_warned firmware hwarned.flag (press 0xfc) hlast
  exact (hkeeps hafter).1 hcount hbefore

end RoboticArm
