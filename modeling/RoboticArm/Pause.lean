import RoboticArm.Effect
import RoboticArm.Replay

/- What a pause is worth.

   The start key pauses a running arm. `pause_persistent_iff`: the arm then stays
   stopped, through all keys but the start key and any number of ticks, if and only
   if no point switch was pending at the moment of the pause. A pending point switch
   is not cancelled by the pause, and its completion sets the arm running again.

   1. `Calm`: stopped, and no pending return would set the arm running. Every move
      but the start key keeps it.
   2. `Waiting`: stopped, with a point switch pending. Sixty ticks let its delay
      pass, and the next iteration sets the arm running.
   3. `resumeBeforeArrival` is such a pause: the arm is resumed while it goes on to
      the second point, and paused again before it has settled there. -/
namespace RoboticArm

section
variable {K : Type} [Field K] [LinearOrder K]

/-- The state in which the last start key of an iteration is handled, if it has one. -/
def lastStart (env : Env K) (s : Rb K) (i : Input K) : Option (Rb K) :=
  if irKey i.ir = .start then some (lcdSwitch env i.lcd i.tofLcd s)
  else if lcdKey i.lcd = .start then some s
  else none

end

/-- No start key is handled in the step. -/
def Step.noStart {K : Type} : Step K → Prop
  | .iteration i => lcdKey i.lcd ≠ .start ∧ irKey i.ir ≠ .start
  | .tick => True

theorem Step.noStart.move_ne {K : Type} {b : Step K} (hb : b.noStart) {a : Stage K}
    (ha : a ∈ b.stages) :
    a.move ≠ .key .start := by
  cases b with
  | tick =>
    rw [List.mem_singleton.1 ha]
    exact nofun
  | iteration i =>
    simp only [Step.stages, List.mem_cons, List.not_mem_nil, or_false] at ha
    rcases ha with rfl | rfl | rfl | rfl | rfl | rfl
    · exact fun h => hb.1 (Move.key.inj h)
    · exact fun h => hb.2 (Move.key.inj h)
    all_goals exact nofun

theorem noStart_ticks_idle {K : Type} [Zero K] {n : Nat} {b : Step K} (hb : b ∈ ticks n ++ [idle]) :
    b.noStart := by
  rcases List.mem_append.1 hb with hb | hb
  · rw [List.eq_of_mem_replicate hb]
    trivial
  · rw [List.mem_singleton.1 hb]
    show lcdKey 0 ≠ .start ∧ irKey 0 ≠ .start
    decide

/-- The stages of an iteration after its keys. -/
def serve {K : Type} (i : Input K) : List (Stage K) :=
  [.returnDelay, .runLogic i.tofRun, .sensors i.tofSense i.pitch, .manual]

theorem serve_move_ne {K : Type} {i : Input K} {a : Stage K} (ha : a ∈ serve i) (k : Key) :
    a.move ≠ .key k := by
  simp only [serve, List.mem_cons, List.not_mem_nil, or_false] at ha
  rcases ha with rfl | rfl | rfl | rfl <;> exact nofun

/-- A point switch is pending. -/
def Ctl.switching (c : Ctl) : Prop := c.returnInProgress = true ∧ c.returnType = 5

namespace Cycle

variable {c : Cycle}

theorem pointDue_eq_false_of_stopped (h : c.ctl.startFlag = false) : c.pointDue = false := by
  simp [pointDue, Ctl.running, h]

theorem startFlag_move (r v : Bool) (m : Move) :
    (c.move r v m).ctl.startFlag = (c.nextCourse r m).start := by
  rw [← course_move r v]
  rfl

theorem ret_tick_inProgress (p : Return) : p.tick.inProgress = p.inProgress := by
  simp only [Return.tick]
  split_ifs with hp hx
  · exact hp.symm
  · rfl
  · rfl

theorem ret_tick_type (p : Return) : p.tick.type = p.type := by
  simp only [Return.tick]
  split_ifs <;> rfl

/-! ## Calm -/

/-- Stopped, with no return pending that sets the arm running. -/
def Calm (c : Cycle) : Prop :=
  c.ctl.startFlag = false ∧ (c.ret.inProgress = true → startsArm c.ret.type = false)

theorem Calm.move (r v : Bool) (m : Move) (h : c.Calm) (hm : m ≠ .key .start) :
    (c.move r v m).Calm := by
  obtain ⟨hstop, hret⟩ := h
  have hnotDue := pointDue_eq_false_of_stopped hstop
  simp only [Calm]
  rw [startFlag_move, ret_move]
  cases m with
  | key k =>
    cases k with
    | mark =>
      have hno : c.remodes = false := by simp [remodes, hstop]
      simp only [nextCourse, nextReturn, hno]
      refine ⟨?_, hret⟩
      split <;> exact hstop
    | start => exact absurd rfl hm
    | clear => exact ⟨rfl, fun h => absurd h Bool.false_ne_true⟩
    | _ => exact ⟨hstop, hret⟩
  | returnDelay =>
    simp only [nextCourse, nextReturn]
    by_cases hd : c.ctl.returnDue = true
    · have hpend : c.ret.inProgress = true := by
        simp only [Ctl.returnDue, Bool.and_eq_true] at hd
        exact hd.1
      have htype : startsArm c.ctl.returnType = false := hret hpend
      rw [if_pos hd, htype, Bool.and_false]
      exact ⟨hstop, fun h => absurd h Bool.false_ne_true⟩
    · rw [if_neg hd, Bool.eq_false_of_not_eq_true hd, Bool.false_and]
      exact ⟨hstop, hret⟩
  | runLogic =>
    simp only [nextCourse, runCourse, nextReturn, finishes, switchesPoint, hnotDue, Bool.false_and]
    exact ⟨hstop, hret⟩
  | tick =>
    refine ⟨hstop, ?_⟩
    show c.ret.tick.inProgress = true → startsArm c.ret.tick.type = false
    rw [ret_tick_inProgress, ret_tick_type]
    exact hret
  | sensors => exact ⟨hstop, hret⟩
  | manual => exact ⟨hstop, hret⟩

theorem pause_move (r v : Bool) (hinv : c.Inv) (hrun : c.ctl.startFlag = true) :
    (c.move r v (.key .start)).ctl.startFlag = false ∧ (c.move r v (.key .start)).ret = c.ret := by
  have hr : c.restarts = false := by simp [restarts, hrun]
  have hf : c.firstStarts = false := by simp [firstStarts, hrun]
  rw [startFlag_move, ret_move]
  simp only [nextCourse, startCourse, nextReturn, hr, hf, Bool.false_eq_true, if_false,
    (hinv.running hrun).2, if_true, hrun, Bool.not_true, true_and]

/-- A pause with no point switch pending leaves the arm calm: a running arm is not
waiting for a launch either. -/
theorem calm_of_pause (r v : Bool) (hinv : c.Inv) (hrun : c.ctl.startFlag = true)
    (hno : ¬ c.ctl.switching) : (c.move r v (.key .start)).Calm := by
  obtain ⟨hstart, hret⟩ := pause_move r v hinv hrun
  refine ⟨hstart, ?_⟩
  intro hpend
  rw [hret] at hpend ⊢
  have hnotLaunch : ¬ (c.ctl.returnType = 3 ∨ c.ctl.returnType = 4) := fun ht =>
    absurd ((hinv.launch hpend ht).stopped.symm.trans hrun) (by simp)
  have hnotSwitch : c.ctl.returnType ≠ 5 := fun ht => hno ⟨hpend, ht⟩
  show startsArm c.ctl.returnType = false
  simpa [startsArm, and_assoc, not_or] using ⟨fun h => hnotLaunch (Or.inl h),
    fun h => hnotLaunch (Or.inr h), hnotSwitch⟩

/-! ## Waiting -/

/-- Stopped, with a point switch pending. -/
structure Waiting (c : Cycle) : Prop where
  inv : c.Inv
  stopped : c.ctl.startFlag = false
  pending : c.ret.inProgress = true
  switch : c.ret.type = 5

theorem waiting_of_pause (r v : Bool) (hinv : c.Inv) (hrun : c.ctl.startFlag = true)
    (hsw : c.ctl.switching) : (c.move r v (.key .start)).Waiting := by
  obtain ⟨hstart, hret⟩ := pause_move r v hinv hrun
  refine ⟨hinv.move r v _ nofun, hstart, ?_, ?_⟩
  · rw [hret]
    exact hsw.1
  · rw [hret]
    exact hsw.2

/-- Waiting outlasts every key but the start and the clear-all key, the ticks, and the
stages of an iteration in which no return is due. -/
theorem Waiting.move (r v : Bool) (m : Move) (h : c.Waiting) (hstart : m ≠ .key .start)
    (hclear : m ≠ .key .clear) (hdue : m = .returnDelay ∨ m = .runLogic → c.ctl.returnDue = false) :
    (c.move r v m).Waiting := by
  have hnotDue := pointDue_eq_false_of_stopped h.stopped
  have hinv : (c.move r v m).Inv := h.inv.move r v m fun hm => hdue (Or.inr hm)
  suffices hs : (c.nextCourse r m).start = false ∧ (c.nextReturn m).inProgress = true ∧
      (c.nextReturn m).type = 5 by
    refine ⟨hinv, ?_, ?_, ?_⟩
    · rw [startFlag_move]
      exact hs.1
    · rw [ret_move]
      exact hs.2.1
    · rw [ret_move]
      exact hs.2.2
  cases m with
  | key k =>
    cases k with
    | mark =>
      have hno : c.remodes = false := by simp [remodes, h.stopped]
      simp only [nextCourse, nextReturn, hno]
      refine ⟨?_, h.pending, h.switch⟩
      split <;> exact h.stopped
    | start => exact absurd rfl hstart
    | clear => exact absurd rfl hclear
    | _ => exact ⟨h.stopped, h.pending, h.switch⟩
  | returnDelay =>
    simp only [nextCourse, nextReturn, hdue (Or.inl rfl), Bool.false_and]
    exact ⟨h.stopped, h.pending, h.switch⟩
  | runLogic =>
    simp only [nextCourse, runCourse, nextReturn, finishes, switchesPoint, hnotDue, Bool.false_and]
    exact ⟨h.stopped, h.pending, h.switch⟩
  | tick =>
    refine ⟨h.stopped, ?_, ?_⟩
    · exact (ret_tick_inProgress c.ret).trans h.pending
    · exact (ret_tick_type c.ret).trans h.switch
  | sensors => exact ⟨h.stopped, h.pending, h.switch⟩
  | manual => exact ⟨h.stopped, h.pending, h.switch⟩

theorem Waiting.iterate_tick (h : c.Waiting) : ∀ n, (tick^[n] c).Waiting ∧
    ((tick^[n] c).ret.flag = true ∨ 100 * n ≤ (tick^[n] c).ret.acc)
  | 0 => ⟨h, Or.inr (Nat.zero_le _)⟩
  | n + 1 => by
    obtain ⟨hw, hcount⟩ := iterate_tick h n
    rw [Function.iterate_succ_apply']
    refine ⟨hw.move true true .tick nofun nofun (by simp), ?_⟩
    rw [ret_tick, Return.tick, if_pos hw.pending]
    split
    · exact Or.inl rfl
    · rcases hcount with hflag | hacc
      · exact Or.inl hflag
      · exact Or.inr (show 100 * (n + 1) ≤ (tick^[n] c).ret.acc + 100 by omega)

theorem Waiting.returnDue_iterate_tick {n : Nat} (h : c.Waiting) (hn : 60 ≤ n) :
    (tick^[n] c).ctl.returnDue = true := by
  obtain ⟨hw, hcount⟩ := h.iterate_tick n
  have hflag : (tick^[n] c).ctl.returnDelayFlag = true := by
    rcases hcount with hflag | hacc
    · exact hflag
    · have hlt : (tick^[n] c).ret.acc < returnDelayMs := hw.inv.acc_lt
      simp only [returnDelayMs] at hlt
      omega
  rw [Ctl.returnDue, hflag, Bool.and_true]
  exact hw.pending

theorem Inv.pointDue_eq_false (h : c.Inv) (hm : c.ctl.currentPoint < c.ctl.pointCount)
    (hz : c.timer c.ctl.currentPoint = 0) : c.pointDue = false := by
  have hlong : 120000 ≤ c.duration c.ctl.currentPoint := by
    rw [h.durations _ hm]
    exact h.duration_ok.1
  have hnot : ¬ c.duration c.ctl.currentPoint ≤ c.timer c.ctl.currentPoint := by omega
  rw [pointDue, decide_eq_false hnot, Bool.and_false]

/-- When the delay has passed, the completion sets the arm running, with its point's time
not yet up. -/
theorem Waiting.completes (h : c.Waiting) (hdue : c.ctl.returnDue = true) :
    c.returnDelay.ctl.startFlag = true ∧ c.returnDelay.pointDue = false := by
  have htype : c.ctl.returnType = 5 := h.switch
  have hcourse : c.returnDelay.ctl.course = { c.ctl.course with start := true } := by
    rw [course_returnDelay c true]
    simp only [nextCourse, hdue, htype]
    rfl
  have htimer : c.returnDelay.timer = Function.update c.timer c.ctl.currentPoint 0 := by
    rw [timer_returnDelay c true]
    simp only [nextTimer, hdue, htype]
    rfl
  have hcur : c.returnDelay.ctl.currentPoint = c.ctl.currentPoint := congrArg Course.current hcourse
  have hcount : c.returnDelay.ctl.pointCount = c.ctl.pointCount := congrArg Course.count hcourse
  refine ⟨congrArg Course.start hcourse, h.inv.returnDelay.pointDue_eq_false ?_ ?_⟩
  · rw [hcur, hcount]
    exact (h.inv.switch h.pending htype).marked
  · rw [htimer, hcur]
    exact Function.update_self ..

theorem startFlag_runLogic (h : c.pointDue = false) :
    c.runLogic.ctl.startFlag = c.ctl.startFlag := by
  have hcourse := course_runLogic c
  simp only [runCourse, finishes, switchesPoint, h, Bool.false_and, Bool.false_eq_true, if_false]
    at hcourse
  exact congrArg Course.start hcourse

end Cycle

/-! ## Runs -/

section
variable {K : Type} [Field K] [LinearOrder K] {env : Env K}

theorem running_serve {s : Rb K} (h : s.cycle.Waiting) (hdue : s.ctl.returnDue = true) (i : Input K) :
    (Runs.exec (stage env) s (serve i)).ctl.startFlag = true := by
  let s₁ := stage env s .returnDelay
  let s₂ := stage env s₁ (.runLogic i.tofRun)
  let s₃ := stage env s₂ (.sensors i.tofSense i.pitch)
  have h₁ : s₁.cycle = s.cycle.returnDelay := cycle_stage env s .returnDelay
  obtain ⟨hstart, hnotDue⟩ := h.completes hdue
  rw [← h₁] at hstart hnotDue
  calc (stage env s₃ .manual).cycle.ctl.startFlag = s₃.cycle.ctl.startFlag := by
        rw [cycle_stage]
        exact Cycle.startFlag_move true _ .manual
    _ = s₂.cycle.ctl.startFlag := by
        rw [show s₃.cycle = s₂.cycle from cycle_stage env s₂ (.sensors i.tofSense i.pitch)]
    _ = s₁.cycle.ctl.startFlag := by
        rw [show s₂.cycle = s₁.cycle.runLogic from cycle_stage env s₁ (.runLogic i.tofRun)]
        exact Cycle.startFlag_runLogic hnotDue
    _ = true := hstart

theorem waiting_serve {s : Rb K} (h : s.cycle.Waiting) (hdue : s.ctl.returnDue = false) (i : Input K) :
    (Runs.exec (stage env) s (serve i)).cycle.Waiting := by
  have hsame : ∀ (t : Rb K) (a : Stage K), a ∈ serve i →
      t.cycle.Waiting ∧ t.cycle.ctl.returnDue = false →
      (stage env t a).cycle.Waiting ∧ (stage env t a).cycle.ctl.returnDue = false := by
    rintro t a ha ⟨hw, hd⟩
    have hnotDue := Cycle.pointDue_eq_false_of_stopped hw.stopped
    have hret : t.cycle.nextReturn a.move = t.cycle.ret := by
      simp only [serve, List.mem_cons, List.not_mem_nil, or_false] at ha
      rcases ha with rfl | rfl | rfl | rfl
      · exact if_neg (by simp [hd])
      · exact if_neg (by simp [Cycle.switchesPoint, hnotDue])
      · rfl
      · rfl
    rw [cycle_stage]
    refine ⟨hw.move _ _ _ (serve_move_ne ha _) (serve_move_ne ha _) fun _ => hd, ?_⟩
    have hmove := Cycle.ret_move (checkCoordinateRange t.jog.cur) t.jog.moved t.cycle a.move
    rw [hret] at hmove
    exact (congrArg (fun p : Return => p.inProgress && p.flag) hmove).trans hd
  exact (Runs.exec_inv_mem hsame ⟨h, hdue⟩).1

theorem irKey_ne_clear (b : UInt8) : irKey b ≠ .clear := by
  have hall : ∀ n < 256, irKey (UInt8.ofNat n) ≠ .clear := by decide +kernel
  have hb := hall b.toNat b.toNat_lt
  rwa [UInt8.ofNat_toNat] at hb

/-- After the keys of an iteration whose last start key paused the arm, it is calm, or
waiting if a point switch was pending. -/
theorem keys_of_lastStart {s t : Rb K} {i : Input K} (hinv : s.cycle.Inv)
    (ht : lastStart env s i = some t) (hpause : t.ctl.startFlag = true) :
    let u := stage env (stage env s (.lcd i.lcd i.tofLcd)) (.ir i.ir i.tofIr)
    (¬ t.ctl.switching → u.cycle.Calm) ∧ (t.ctl.switching → u.cycle.Waiting) := by
  intro u
  simp only [lastStart] at ht
  split at ht
  · next hir =>
    cases ht
    have hinvLcd : (lcdSwitch env i.lcd i.tofLcd s).cycle.Inv :=
      inv_stage (a := .lcd i.lcd i.tofLcd) env hinv nofun
    have hu : u.cycle = _ := cycle_stage env (lcdSwitch env i.lcd i.tofLcd s) (.ir i.ir i.tofIr)
    rw [show (Stage.ir i.ir i.tofIr).move = .key .start from congrArg Move.key hir] at hu
    rw [hu]
    exact ⟨Cycle.calm_of_pause _ _ hinvLcd hpause, Cycle.waiting_of_pause _ _ hinvLcd hpause⟩
  · next hir =>
    split at ht
    · next hlcd =>
      cases ht
      have hv := cycle_stage env s (.lcd i.lcd i.tofLcd)
      rw [show (Stage.lcd i.lcd i.tofLcd).move = .key .start from congrArg Move.key hlcd] at hv
      have hu : u.cycle = _ := cycle_stage env (stage env s (.lcd i.lcd i.tofLcd)) (.ir i.ir i.tofIr)
      have hne : (Stage.ir i.ir i.tofIr).move ≠ .key .start := fun h => hir (Move.key.inj h)
      have hnc : (Stage.ir i.ir i.tofIr).move ≠ .key .clear :=
        fun h => irKey_ne_clear _ (Move.key.inj h)
      rw [hu, hv]
      constructor
      · intro hno
        exact (Cycle.calm_of_pause _ _ hinv hpause hno).move _ _ _ hne
      · intro hsw
        exact (Cycle.waiting_of_pause _ _ hinv hpause hsw).move _ _ _ hne hnc
          (fun h => by rcases h with h | h <;> exact absurd h nofun)
    · exact absurd ht nofun

theorem calm_step {s : Rb K} {b : Step K} (hb : b.noStart) (h : s.cycle.Calm) :
    (step env s b).cycle.Calm := by
  have hstep : ∀ t : Rb K, ∀ a ∈ b.stages, t.cycle.Calm → (stage env t a).cycle.Calm := by
    intro t a ha ht
    rw [cycle_stage]
    exact ht.move _ _ _ (hb.move_ne ha)
  exact Runs.exec_inv_mem (P := fun s : Rb K => s.cycle.Calm) hstep h

theorem cycle_ticks (n : Nat) (s : Rb K) :
    (Runs.exec (step env) s (ticks n)).cycle = Cycle.tick^[n] s.cycle := by
  induction n generalizing s with
  | zero => rfl
  | succ n ih =>
    calc (Runs.exec (step env) s (ticks (n + 1))).cycle
        = Cycle.tick^[n] (step env s .tick).cycle := ih (step env s .tick)
      _ = Cycle.tick^[n + 1] s.cycle := by
        rw [Function.iterate_succ_apply, ← cycle_tick s]
        rfl

/-- A waiting arm runs again after long enough and one iteration without keys. -/
theorem running_of_waiting {s : Rb K} {n : Nat} (h : s.cycle.Waiting) (hn : 60 ≤ n) :
    (Runs.exec (step env) s (ticks n ++ [idle])).ctl.startFlag = true := by
  let t := Runs.exec (step env) s (ticks n)
  let u := stage env (stage env t (.lcd 0 0)) (.ir 0 0)
  have hu : u.cycle = t.cycle := by
    rw [cycle_stage, cycle_stage]
    rfl
  have hw : u.cycle.Waiting := by
    rw [hu, cycle_ticks]
    exact (h.iterate_tick n).1
  have hdue : u.ctl.returnDue = true := by
    show u.cycle.ctl.returnDue = true
    rw [hu, cycle_ticks]
    exact h.returnDue_iterate_tick hn
  rw [Runs.exec_append]
  exact running_serve hw hdue ⟨0, 0, 0, 0, 0, 0, none⟩

/-- After a pause, the arm stays stopped through every continuation without a start key
if and only if no point switch was pending at the pause. -/
theorem pause_persistent_iff (env : Env K) (as : List (Step K)) (i : Input K) (t : Rb K)
    (ht : lastStart env (run env as) i = some t) (hpause : t.ctl.startFlag = true) :
    (∀ bs : List (Step K), (∀ b ∈ bs, b.noStart) →
      (run env (as ++ .iteration i :: bs)).ctl.startFlag = false) ↔ ¬ t.ctl.switching := by
  let s := run env as
  let u := stage env (stage env s (.lcd i.lcd i.tofLcd)) (.ir i.ir i.tofIr)
  let w := Runs.exec (stage env) u (serve i)
  have hrun : ∀ bs, run env (as ++ .iteration i :: bs) = Runs.exec (step env) w bs := by
    intro bs
    rw [run, Runs.exec_append]
    rfl
  obtain ⟨hcalm, hwait⟩ := keys_of_lastStart (inv_run env as) ht hpause
  constructor
  · intro hstays hsw
    cases hdue : u.ctl.returnDue with
    | true =>
      -- the delay has passed already: this iteration sets the arm running
      have hstop := hstays [] (fun _ hb => absurd hb List.not_mem_nil)
      rw [hrun] at hstop
      exact absurd (hstop.symm.trans (running_serve (hwait hsw) hdue i)) (by simp)
    | false =>
      have hw : w.cycle.Waiting := waiting_serve (hwait hsw) hdue i
      have hstop := hstays (ticks 60 ++ [idle]) fun _ hb => noStart_ticks_idle hb
      rw [hrun] at hstop
      exact absurd (hstop.symm.trans (running_of_waiting hw (Nat.le_refl 60))) (by simp)
  · intro hno bs hbs
    have hserve : ∀ (t : Rb K) (a : Stage K), a ∈ serve i → t.cycle.Calm →
        (stage env t a).cycle.Calm := by
      intro t a ha h
      rw [cycle_stage]
      exact h.move _ _ _ (serve_move_ne ha _)
    have hw : w.cycle.Calm :=
      Runs.exec_inv_mem (P := fun s : Rb K => s.cycle.Calm) hserve (hcalm hno)
    rw [hrun]
    exact (Runs.exec_inv_mem (P := fun s : Rb K => s.cycle.Calm)
      (fun t b hb h => calm_step (hbs b hb) h) hw).1

end

/-- A running arm with no return pending is paused for good. -/
theorem pause_persistent_startOne : (run firmware startOne).ctl.startFlag = true ∧
    ∀ bs : List (Step ℝ), (∀ b ∈ bs, b.noStart) →
      (run firmware (startOne ++ press 0xfc :: bs)).ctl.startFlag = false := by
  have hstate : (run firmware startOne).cycle.ctl.startFlag = true ∧
      (run firmware startOne).cycle.ctl.returnInProgress = false := by
    rw [cycle_run]
    decide +kernel
  obtain ⟨hrun, hidle⟩ := hstate
  have hlast : lastStart firmware (run firmware startOne) ⟨0xfc, 0, 0, 0, 0, 0, none⟩ =
      some (run firmware startOne) := rfl
  refine ⟨hrun, (pause_persistent_iff firmware startOne _ _ hlast hrun).2 ?_⟩
  intro hsw
  exact absurd (hidle.symm.trans hsw.1) (by simp)

/-- The arm is resumed while it goes on to the second point, and paused again. -/
noncomputable def resumeBeforeArrival : List (Step ℝ) := goOn ++ [press 0xfc]

set_option maxRecDepth 100000 in
/-- Paused then, it runs again 60 ticks later, with no key pressed. -/
theorem not_persistent_resumeBeforeArrival :
    (run firmware resumeBeforeArrival).ctl.startFlag = true ∧
    (run firmware (resumeBeforeArrival ++ [press 0xfc])).ctl.startFlag = false ∧
    (run firmware (resumeBeforeArrival ++ press 0xfc :: (ticks 60 ++ [idle]))).ctl.startFlag =
      true := by
  show (run firmware resumeBeforeArrival).cycle.ctl.startFlag = true ∧
    (run firmware (resumeBeforeArrival ++ [press 0xfc])).cycle.ctl.startFlag = false ∧
    (run firmware (resumeBeforeArrival ++ press 0xfc :: (ticks 60 ++ [idle]))).cycle.ctl.startFlag =
      true
  -- one evaluation for all three, the later two go on where the first ends
  rw [cycle_run, cycle_run_append, cycle_run_append]
  decide +kernel

end RoboticArm
