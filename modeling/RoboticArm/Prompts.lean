import RoboticArm.Panel

/- The voice prompts: `yunyin_run` of `new.c` between the writes of the main loop.

   A prompt is a pulse on one of nine lines, all high after `yuyin_gpio`. A tick that finds
   the routine free and a new value in `YUYIN_FLAG` lowers the line of that value; the
   accumulator then counts to 3000 in steps of 100, and the tick that finds it there raises
   all lines.

   1. `Voice.Inv`: a free routine has all lines high, a busy one has at most the line of the
      prompt it began with low, and an accumulator on its way to 3000.
   2. `Voice.Low.exec`: a line that has been low for `k` ticks, followed through any writes.
   3. `prompts_exclusive`: at most one line is low; a line goes low only at a tick that
      finds all of them high, and is raised 31 ticks later.
   4. `voice_exec`: the runs of the control program are such sequences of writes and ticks.

   Correspondence (C ↔ Lean):
     a write of the main loop to `YUYIN_FLAG`   ↔ `VoiceStep.write`
     a call of `yunyin_run` in the tick         ↔ `VoiceStep.tick`, with the mode flags -/
namespace RoboticArm

/-- What happens to the voice prompts. -/
inductive VoiceStep where
  | write (flag : Nat)
  | tick (c : Ctl)

def voiceStep (v : Voice) : VoiceStep → Voice
  | .write flag => { v with yuyinFlag := flag }
  | .tick c => yunyinRun c v

/-- The ticks of a sequence. -/
def tickCount : List VoiceStep → Nat
  | [] => 0
  | .write _ :: as => tickCount as
  | .tick _ :: as => tickCount as + 1

/-! ## The invariant -/

/-- Free with all lines high, or busy with at most the line of the last prompt low. -/
structure Voice.Inv (v : Voice) : Prop where
  steps : v.accYuyin % 100 = 0 ∧ v.accYuyin ≤ 3100
  free : v.okFlag = true → ∀ i, v.line i = true
  busy : v.okFlag = false → v.accYuyin ≤ 3000 ∧ ∀ i, v.line i = false → i = v.lastYuyinFlag

theorem Voice.inv_boot : Voice.boot.Inv where
  steps := by decide
  free _ _ := rfl
  busy h := absurd h (by decide)

variable {v : Voice}

/-! ## One tick -/

theorem yunyinRun_of_new (c : Ctl) (h : v.lastYuyinFlag ≠ v.yuyinFlag ∧ v.okFlag = true) :
    (yunyinRun c v).okFlag = false ∧ (yunyinRun c v).accYuyin = 0 ∧
      (yunyinRun c v).lastYuyinFlag = v.yuyinFlag ∧ (yunyinRun c v).line =
        if v.yuyinFlag ≤ 8 then Function.update v.line v.yuyinFlag false else v.line := by
  rw [yunyinRun, if_pos h]
  exact ⟨rfl, rfl, rfl, rfl⟩

theorem yunyinRun_of_counting (c : Ctl) (h : ¬ (v.lastYuyinFlag ≠ v.yuyinFlag ∧ v.okFlag = true))
    (hacc : v.accYuyin < 3000) : yunyinRun c v = { v with accYuyin := v.accYuyin + 100 } := by
  rw [yunyinRun, if_neg h, if_pos hacc]

theorem yunyinRun_of_done (c : Ctl) (h : ¬ (v.lastYuyinFlag ≠ v.yuyinFlag ∧ v.okFlag = true))
    (hacc : v.accYuyin = 3000) : (yunyinRun c v).okFlag = true ∧ (yunyinRun c v).accYuyin = 3100 ∧
      ∀ i, (yunyinRun c v).line i = true := by
  rw [yunyinRun, if_neg h, if_neg (by omega), if_pos hacc]
  refine ⟨rfl, ?_, fun _ => rfl⟩
  show v.accYuyin + 100 = 3100
  omega

theorem yunyinRun_of_idle (c : Ctl) (h : ¬ (v.lastYuyinFlag ≠ v.yuyinFlag ∧ v.okFlag = true))
    (hacc : 3000 < v.accYuyin) : yunyinRun c v = v := by
  rw [yunyinRun, if_neg h, if_neg (by omega), if_neg (by omega)]

theorem Voice.Inv.tick (h : v.Inv) (c : Ctl) : (yunyinRun c v).Inv := by
  obtain ⟨hmod, hle⟩ := h.steps
  by_cases hnew : v.lastYuyinFlag ≠ v.yuyinFlag ∧ v.okFlag = true
  · obtain ⟨hok, hacc, hlast, hline⟩ := yunyinRun_of_new c hnew
    refine ⟨?_, ?_, ?_⟩
    · rw [hacc]
      decide
    · intro hfree
      exact absurd (hok.symm.trans hfree) (by decide)
    · intro _
      refine ⟨by omega, ?_⟩
      intro i hi
      rw [hlast]
      by_contra hne
      have hkept : (yunyinRun c v).line i = v.line i := by
        rw [hline]
        split
        · exact Function.update_of_ne hne _ _
        · rfl
      exact absurd ((h.free hnew.2 i).symm.trans (hkept.symm.trans hi)) (by decide)
  rcases Nat.lt_trichotomy v.accYuyin 3000 with hlt | heq | hgt
  · rw [yunyinRun_of_counting c hnew hlt]
    refine ⟨?_, h.free, ?_⟩
    · show (v.accYuyin + 100) % 100 = 0 ∧ v.accYuyin + 100 ≤ 3100
      omega
    · intro hbusy
      refine ⟨?_, (h.busy hbusy).2⟩
      show v.accYuyin + 100 ≤ 3000
      omega
  · obtain ⟨hok, hacc, hline⟩ := yunyinRun_of_done c hnew heq
    refine ⟨?_, fun _ => hline, ?_⟩
    · rw [hacc]
      decide
    · intro hbusy
      exact absurd (hok.symm.trans hbusy) (by decide)
  · rw [yunyinRun_of_idle c hnew hgt]
    exact h

theorem Voice.Inv.step (h : v.Inv) (a : VoiceStep) : (voiceStep v a).Inv := by
  cases a with
  | write flag => exact ⟨h.steps, h.free, h.busy⟩
  | tick c => exact h.tick c

theorem voice_inv_exec (as : List VoiceStep) : (Runs.exec voiceStep Voice.boot as).Inv :=
  Runs.exec_inv (P := Voice.Inv) (fun _ a h => h.step a) as Voice.inv_boot

/-! ## A pulse -/

/-- Line `i` has been low for `k` ticks. -/
structure Voice.Low (i k : Nat) (v : Voice) : Prop where
  busy : v.okFlag = false
  acc : v.accYuyin = 100 * k
  line : v.line i = false

/-- A line goes low only at a tick that finds all lines high, and it is the line of the flag. -/
theorem Voice.Inv.goes_low (h : v.Inv) {a : VoiceStep} {i : Nat} (hhigh : v.line i = true)
    (hlow : (voiceStep v a).line i = false) :
    (∃ c, a = .tick c) ∧ (∀ j, v.line j = true) ∧ i = v.yuyinFlag ∧ (voiceStep v a).Low i 0 := by
  have hturned : (voiceStep v a).line i ≠ v.line i := by
    rw [hlow, hhigh]
    decide
  cases a with
  | write flag => exact absurd rfl hturned
  | tick c =>
    by_cases hnew : v.lastYuyinFlag ≠ v.yuyinFlag ∧ v.okFlag = true
    · obtain ⟨hok, hacc, -, hline⟩ := yunyinRun_of_new c hnew
      refine ⟨⟨c, rfl⟩, h.free hnew.2, ?_, hok, hacc, hlow⟩
      by_contra hne
      apply hturned
      show (yunyinRun c v).line i = v.line i
      rw [hline]
      split
      · exact Function.update_of_ne hne _ _
      · rfl
    · exfalso
      rcases Nat.lt_trichotomy v.accYuyin 3000 with hlt | heq | hgt
      · have hsame := congrArg (fun w : Voice => w.line i) (yunyinRun_of_counting c hnew hlt)
        exact hturned hsame
      · exact absurd (hlow.symm.trans ((yunyinRun_of_done c hnew heq).2.2 i)) (by decide)
      · have hsame := congrArg (fun w : Voice => w.line i) (yunyinRun_of_idle c hnew hgt)
        exact hturned hsame

theorem Voice.Low.not_new {i k : Nat} (h : v.Low i k) :
    ¬ (v.lastYuyinFlag ≠ v.yuyinFlag ∧ v.okFlag = true) := by
  rintro ⟨-, hfree⟩
  exact absurd (h.busy.symm.trans hfree) (by decide)

/-- A line that is low stays low for thirty ticks, through any writes. -/
theorem Voice.Low.exec {i k : Nat} (h : v.Low i k) (as : List VoiceStep)
    (hk : k + tickCount as ≤ 30) : (Runs.exec voiceStep v as).Low i (k + tickCount as) := by
  induction as generalizing v k with
  | nil => exact h
  | cons a as ih =>
    cases a with
    | write flag => exact ih (v := { v with yuyinFlag := flag }) ⟨h.busy, h.acc, h.line⟩ hk
    | tick c =>
      rw [tickCount] at hk
      have hacc := h.acc
      have hnext : (yunyinRun c v).Low i (k + 1) := by
        rw [yunyinRun_of_counting c h.not_new (by omega)]
        refine ⟨h.busy, ?_, h.line⟩
        show v.accYuyin + 100 = 100 * (k + 1)
        omega
      have hrest := ih hnext (by omega)
      have hcount : k + 1 + tickCount as = k + tickCount (.tick c :: as) := by
        rw [tickCount]
        omega
      rw [hcount] at hrest
      exact hrest

/-- A sequence with ticks, cut at the last of them. -/
theorem exists_lastTick {n : Nat} : ∀ {as : List VoiceStep}, tickCount as = n + 1 →
    ∃ pre c post, as = pre ++ .tick c :: post ∧ tickCount pre = n ∧ tickCount post = 0 := by
  intro as
  induction as generalizing n with
  | nil => exact nofun
  | cons a as ih =>
    intro h
    cases a with
    | write flag =>
      obtain ⟨pre, c, post, rfl, hpre, hpost⟩ := ih h
      exact ⟨.write flag :: pre, c, post, rfl, hpre, hpost⟩
    | tick c =>
      have hrest : tickCount as = n := Nat.succ.inj h
      cases n with
      | zero => exact ⟨[], c, as, rfl, rfl, hrest⟩
      | succ n =>
        obtain ⟨pre, c', post, rfl, hpre, hpost⟩ := ih hrest
        refine ⟨.tick c :: pre, c', post, rfl, ?_, hpost⟩
        rw [tickCount, hpre]

theorem line_writes : ∀ {as : List VoiceStep} (v : Voice), tickCount as = 0 →
    (Runs.exec voiceStep v as).line = v.line := by
  intro as
  induction as with
  | nil => exact fun _ _ => rfl
  | cons a as ih =>
    intro v h
    cases a with
    | write flag => exact ih { v with yuyinFlag := flag } h
    | tick c => exact absurd h (Nat.succ_ne_zero _)

theorem Voice.Low.raised {i : Nat} (h : v.Low i 0) {as : List VoiceStep} (has : tickCount as = 31) :
    (Runs.exec voiceStep v as).line i = true := by
  obtain ⟨pre, c, post, rfl, hpre, hpost⟩ := exists_lastTick has
  have hlow := h.exec pre (by omega)
  have hacc := hlow.acc
  rw [Runs.exec_append, Runs.exec_cons, line_writes _ hpost]
  exact (yunyinRun_of_done c hlow.not_new (by omega)).2.2 i

/-! ## Runs of the control program -/

variable {K : Type} [Field K] [LinearOrder K] (env : Env K)

theorem voice_stage_step (s : Rb K) (a : Stage K) :
    ∃ b, (stage env s a).voice = voiceStep s.voice b := by
  rcases voice_stage env s a with ⟨-, w, hw⟩ | ⟨-, c, hc⟩
  · exact ⟨.write w, hw⟩
  · exact ⟨.tick c, hc⟩

theorem voice_exec (as : List (Stage K)) :
    ∃ bs, (Runs.exec (stage env) boot as).voice = Runs.exec voiceStep Voice.boot bs := by
  refine Runs.exec_inv (P := fun s : Rb K => ∃ bs, s.voice = Runs.exec voiceStep Voice.boot bs) ?_ as
    ⟨[], rfl⟩
  rintro s a ⟨bs, hbs⟩
  obtain ⟨b, hb⟩ := voice_stage_step env s a
  refine ⟨bs ++ [b], ?_⟩
  rw [hb, hbs, Runs.exec_append]
  rfl

/-- After every sequence of writes and ticks: at most one prompt line is low, and if a line
goes low next, then at a tick that finds all lines high and reads its value in the flag, to
stay low for exactly 31 ticks. The prompts of every run of the control program go through such
a sequence. -/
theorem prompts_exclusive (as : List VoiceStep) :
    let v := Runs.exec voiceStep Voice.boot as
    (∀ i < 9, ∀ j < 9, v.line i = false → v.line j = false → i = j) ∧
    (∀ a, ∀ i < 9, v.line i = true → (voiceStep v a).line i = false →
      (∃ c, a = .tick c) ∧ (∀ j < 9, v.line j = true) ∧ i = v.yuyinFlag ∧
      ∀ bs, (tickCount bs < 31 → (Runs.exec voiceStep (voiceStep v a) bs).line i = false) ∧
        (tickCount bs = 31 → (Runs.exec voiceStep (voiceStep v a) bs).line i = true)) ∧
    ∀ stages, ∃ bs, (Runs.exec (stage env) boot stages).voice = Runs.exec voiceStep Voice.boot bs := by
  intro v
  have h : v.Inv := voice_inv_exec as
  refine ⟨?_, ?_, voice_exec env⟩
  · intro i _ j _ hi hj
    cases hok : v.okFlag
    · obtain ⟨-, hone⟩ := h.busy hok
      rw [hone i hi, hone j hj]
    · exact absurd ((h.free hok i).symm.trans hi) (by decide)
  · intro a i _ hhigh hlow
    obtain ⟨htick, hall, hflag, hstart⟩ := h.goes_low hhigh hlow
    refine ⟨htick, fun j _ => hall j, hflag, ?_⟩
    intro bs
    refine ⟨?_, hstart.raised⟩
    intro hbs
    exact (hstart.exec bs (by omega)).line

end RoboticArm
