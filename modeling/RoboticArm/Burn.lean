import RoboticArm.Effect
import RoboticArm.Replay

/- The burn: how long the flame is on after a launch.

   A launch lights the flame and sets the enable flag of the burn counter; 2520 ticks
   later the tick handler swaps the flame for fan and light and clears both. No other
   handler resets the counter.

   1. `burnAge` reads the burn under way off the events: a launch begins one unless one
      is under way already, and the 2520th tick ends it. `Burner.Aged` ties flag and
      counter to it, and `Burns.move` keeps this.
   2. `flame_bounded`: the flame is on only while the counter runs, hence never for 2520
      ticks between two states in which it is on all along.
   3. `wholeBurns_iff`: every ignition gets a counter at zero, and with it a whole burn,
      exactly when no launch finds the flame out during a burn that has begun earlier.
      `relight` is a run with such a launch. -/
namespace RoboticArm

/-- The ticks of a whole burn. -/
def burnTicks : Nat := 2520

/-- The ticks among the stages of a run. -/
def ticksIn {K : Type} (as : List (Stage K)) : Nat := (as.map Stage.move).count .tick

/-- The ticks the burn under way has lasted, newest event first. -/
def burnAge : List Ev → Option Nat
  | [] => none
  | .startReturnDelay 3 _ :: older | .startReturnDelay 4 _ :: older => some ((burnAge older).getD 0)
  | .tick :: older => (burnAge older).bind fun n => if n + 1 < burnTicks then some (n + 1) else none
  | _ :: older => burnAge older

/-- The flag, the counter and the flame of a burn of the given age. -/
structure Burner.Aged (b : Burner) (age : Option Nat) : Prop where
  flag : b.flag = age.isSome
  acc : b.acc = 100 * age.getD 0
  young : age.getD 0 < burnTicks
  lit : b.gpio.flame = true → b.flag = true

namespace Burner

variable {b : Burner} {age : Option Nat}

theorem Aged.acc_lt (h : b.Aged age) : b.acc < flameMs := by
  have hyoung := h.young
  rw [h.acc, flameMs]
  simp only [burnTicks] at hyoung
  omega

theorem Aged.ignite (h : b.Aged age) : b.ignite.Aged (some (age.getD 0)) where
  flag := rfl
  acc := h.acc
  young := h.young
  lit _ := rfl

theorem Aged.off (h : b.Aged age) : ({ b with gpio := .off } : Burner).Aged age where
  flag := h.flag
  acc := h.acc
  young := h.young
  lit hf := absurd hf (by simp [Gpio.off])

theorem Aged.expires_iff (h : b.Aged age) : b.expires = true ↔ age = some (burnTicks - 1) := by
  have hyoung := h.young
  simp only [expires, h.flag, h.acc, flameMs, Bool.and_eq_true, decide_eq_true_eq]
  cases age with
  | none => simp
  | some n =>
    simp only [Option.getD_some, burnTicks] at hyoung ⊢
    simp
    omega

theorem Aged.tick (h : b.Aged age) :
    b.tick.Aged (age.bind fun n => if n + 1 < burnTicks then some (n + 1) else none) := by
  have hexpires := h.expires_iff
  simp only [Burner.tick]
  cases age with
  | none =>
    have hidle : b.flag = false := h.flag
    have hno : b.expires = false := by simpa using hexpires
    simpa [hno, hidle] using h
  | some n =>
    have hcounting : b.flag = true := h.flag
    have hacc : b.acc = 100 * n := h.acc
    by_cases hn : n + 1 < burnTicks
    · have hno : b.expires = false := by
        rw [Bool.eq_false_iff, Ne, hexpires]
        simp only [Option.some.injEq]
        omega
      simp only [hno, hcounting, if_true, Option.bind_some, if_pos hn, Bool.false_eq_true, if_false]
      refine ⟨rfl, ?_, hn, fun _ => rfl⟩
      show b.acc + 100 = 100 * (n + 1)
      omega
    · have hyes : b.expires = true := by
        rw [hexpires]
        have hyoung : n < burnTicks := h.young
        simp only [Option.some.injEq]
        omega
      simp only [hyes, if_true, Option.bind_some, if_neg hn]
      exact ⟨rfl, rfl, by simp [burnTicks], fun hlit => Bool.noConfusion hlit⟩

end Burner

namespace Cycle

variable {c : Cycle}

/-- The burn counter and the flame are what the events make them. -/
def Burns (c : Cycle) : Prop := c.burner.Aged (burnAge c.log)

theorem burns_boot : boot.Burns := ⟨rfl, rfl, by simp [burnAge, boot, burnTicks], nofun⟩

theorem burnAge_markEvents (r : Bool) (log : List Ev) :
    burnAge (c.markEvents r ++ log) = burnAge log := by
  simp only [markEvents]
  split_ifs
  · rfl
  · rfl
  · cases c.ctl.targetMode with
    | none => rfl
    | some m =>
      show burnAge (c.switchEvents m ++ log) = burnAge log
      simp only [switchEvents]
      split <;> rfl
  · rfl

theorem burnAge_startEvents (log : List Ev) : burnAge (c.startEvents ++ log) =
    if c.restarts || c.firstStarts then some ((burnAge log).getD 0) else burnAge log := by
  simp only [startEvents]
  by_cases hr : c.restarts = true
  · rw [if_pos hr, hr]
    rfl
  · by_cases hf : c.firstStarts = true
    · rw [if_neg hr, if_pos hf, hf, Bool.or_true]
      rfl
    · have hnone : ¬ (c.restarts || c.firstStarts) = true := by simp [hr, hf]
      rw [if_neg hr, if_neg hf, if_neg hnone]
      split_ifs <;> rfl

theorem burnAge_runEvents (log : List Ev) : burnAge (c.runEvents ++ log) = burnAge log := by
  simp only [runEvents]
  split_ifs <;> rfl

theorem burnAge_returnEvents (r : Bool) (log : List Ev) :
    burnAge (c.events r .returnDelay ++ log) = burnAge log := by
  show burnAge ((if c.ctl.returnDue then [.returnDone c.ctl.returnType] else []) ++ log) = _
  split <;> rfl

theorem Burns.move (r v : Bool) (m : Move) (h : c.Burns) : (c.move r v m).Burns := by
  simp only [Burns]
  rw [burner_move, log_move]
  cases m with
  | key k =>
    cases k with
    | mark =>
      show c.burner.Aged (burnAge (c.markEvents r ++ c.log))
      rw [burnAge_markEvents]
      exact h
    | start =>
      show (c.nextBurner (.key .start)).Aged (burnAge (c.startEvents ++ c.log))
      rw [burnAge_startEvents]
      simp only [nextBurner]
      split
      · exact h.ignite
      · exact h
    | clear => exact h.off
    | _ => exact h
  | returnDelay =>
    rw [burnAge_returnEvents]
    simp only [nextBurner]
    split
    · exact h.off
    · exact h
  | runLogic =>
    show (c.nextBurner .runLogic).Aged (burnAge (c.runEvents ++ c.log))
    rw [burnAge_runEvents]
    simp only [nextBurner]
    split
    · exact h.off
    · exact h
  | tick => exact h.tick
  | _ => exact h

theorem accFlame_move (r v : Bool) {m : Move} (hm : m ≠ .tick) :
    (c.move r v m).accFlame = c.accFlame := by
  have hacc : (c.move r v m).accFlame = (c.nextBurner m).acc := by
    rw [← burner_move r v]
    rfl
  rw [hacc]
  cases m with
  | key k =>
    cases k with
    | start =>
      simp only [nextBurner]
      split <;> rfl
    | _ => rfl
  | tick => exact absurd rfl hm
  | returnDelay =>
    simp only [nextBurner]
    split <;> rfl
  | runLogic =>
    simp only [nextBurner]
    split <;> rfl
  | _ => rfl

theorem accFlame_tick (h : c.Burns) (hlit : c.gpio.flame = true) (hstill : c.tick.gpio.flame = true) :
    c.tick.accFlame = c.accFlame + 100 := by
  have htick : c.tick.burner = c.burner.tick := burner_tick c
  have hflag : c.burner.flag = true := h.lit hlit
  simp only [Burner.tick] at htick
  split at htick
  · have hout : c.tick.gpio = ⟨false, true, true⟩ := congrArg Burner.gpio htick
    rw [hout] at hstill
    exact absurd hstill (by simp)
  · exact congrArg Burner.acc htick

end Cycle

/-! ## The bound -/

section
variable {K : Type} [Field K] [LinearOrder K] {env : Env K}

theorem burns_stages (env : Env K) (as : List (Stage K)) :
    (Runs.exec (stage env) boot as).cycle.Burns := by
  have hstep : ∀ (s : Rb K) (a : Stage K), s.cycle.Burns → (stage env s a).cycle.Burns := by
    intro s a h
    rw [cycle_stage]
    exact h.move _ _ _
  exact Runs.exec_inv (P := fun s : Rb K => s.cycle.Burns) hstep as Cycle.burns_boot

theorem burns_run (env : Env K) (as : List (Step K)) : (run env as).cycle.Burns := by
  rw [run_eq_stages]
  exact burns_stages env _

theorem accFlame_step {s : Rb K} {b : Step K} (h : s.cycle.Burns) (hlit : s.gpio.flame = true)
    (hstill : (step env s b).gpio.flame = true) :
    (step env s b).isr.accFlame = s.isr.accFlame + 100 * ticksIn b.stages := by
  cases b with
  | tick =>
    have hcycle : (step env s .tick).cycle = s.cycle.tick := cycle_tick s
    have hcount := Cycle.accFlame_tick h hlit (by rw [← hcycle]; exact hstill)
    rw [← hcycle] at hcount
    exact hcount
  | iteration i =>
    have hkeep : ∀ (t : Rb K) (a : Stage K), a ∈ (Step.iteration i).stages →
        t.cycle.accFlame = s.cycle.accFlame → (stage env t a).cycle.accFlame = s.cycle.accFlame := by
      intro t a ha ht
      have hm : a.move ≠ .tick := by
        simp only [Step.stages, List.mem_cons, List.not_mem_nil, or_false] at ha
        rcases ha with rfl | rfl | rfl | rfl | rfl | rfl <;> exact nofun
      rw [cycle_stage, Cycle.accFlame_move _ _ hm]
      exact ht
    exact Runs.exec_inv_mem (P := fun t : Rb K => t.cycle.accFlame = s.cycle.accFlame) hkeep rfl

/-- While the flame stays on, the counter counts every tick. -/
theorem accFlame_exec : ∀ {s : Rb K} (bs : List (Step K)),
    (∀ pre, (Runs.exec (step env) s pre).cycle.Burns) →
    (∀ pre, pre <+: bs → (Runs.exec (step env) s pre).gpio.flame = true) →
    (Runs.exec (step env) s bs).isr.accFlame = s.isr.accFlame + 100 * ticksIn (bs.flatMap Step.stages)
  | _, [], _, _ => rfl
  | s, b :: bs, h, hlit => by
    have hfirst : (step env s b).isr.accFlame = s.isr.accFlame + 100 * ticksIn b.stages :=
      accFlame_step (h []) (hlit [] List.nil_prefix) (hlit [b] (List.prefix_append [b] bs))
    have hrest : (Runs.exec (step env) (step env s b) bs).isr.accFlame = _ :=
      accFlame_exec bs (fun pre => h (b :: pre))
        fun pre hpre => hlit (b :: pre) (List.cons_prefix_cons.2 ⟨rfl, hpre⟩)
    have hsplit : ticksIn ((b :: bs).flatMap Step.stages) =
        ticksIn b.stages + ticksIn (bs.flatMap Step.stages) := by
      simp [ticksIn]
    rw [Runs.exec_cons, hrest, hfirst, hsplit]
    omega

/-- Between iterations and ticks the flame is on only with the burn flag set and the counter
below 252 s, and over steps all through which it is on there are fewer than 2520 ticks. -/
theorem flame_bounded (env : Env K) (as : List (Step K)) :
    ((run env as).gpio.flame = true →
      (run env as).ctl.flameFlag = true ∧ (run env as).isr.accFlame < flameMs) ∧
    ∀ bs, (∀ pre, pre <+: bs → (run env (as ++ pre)).gpio.flame = true) →
      ticksIn (bs.flatMap Step.stages) < burnTicks := by
  have hrun : ∀ pre, run env (as ++ pre) = Runs.exec (step env) (run env as) pre := fun pre =>
    Runs.exec_append (step env) boot as pre
  constructor
  · intro hlit
    exact ⟨(burns_run env as).lit hlit, (burns_run env as).acc_lt⟩
  · intro bs hlit
    have hcount := accFlame_exec bs (fun pre => hrun pre ▸ burns_run env (as ++ pre))
      fun pre hpre => hrun pre ▸ hlit pre hpre
    have hlt : (Runs.exec (step env) (run env as) bs).isr.accFlame < flameMs :=
      hrun bs ▸ (burns_run env (as ++ bs)).acc_lt
    rw [hcount] at hlt
    simp only [flameMs] at hlt
    simp only [burnTicks]
    omega

end

/-- One point started: the flame is on. -/
theorem flame_bounded_startOne :
    (run firmware startOne).gpio.flame = true ∧ (run firmware startOne).isr.accFlame < flameMs := by
  have hlit : (run firmware startOne).cycle.gpio.flame = true := by
    rw [cycle_run]
    decide +kernel
  obtain ⟨hburn, -⟩ := flame_bounded firmware startOne
  exact ⟨hlit, (hburn hlit).2⟩

/-! ## Whole burns -/

/-- The cycle is cleared or completed. -/
def Ends (c : Cycle) (m : Move) : Prop := m = .key .clear ∨ m = .runLogic ∧ c.finishes = true

/-- A launch finds the flame out and a burn under way that has lasted for a tick or more. -/
def Relights (c : Cycle) (m : Move) : Prop :=
  m = .key .start ∧ (c.restarts || c.firstStarts) = true ∧ c.gpio.flame = false ∧
    ∃ n, burnAge c.log = some (n + 1)

namespace Cycle

variable {c : Cycle} {n : Nat}

/-- Nothing asks for a return of type 2, whose completion would put the flame out. -/
theorem returnType_move (r v : Bool) (m : Move) (h : c.ctl.returnType ≠ 2) :
    (c.move r v m).ctl.returnType ≠ 2 := by
  have htype : (c.move r v m).ctl.returnType = (c.nextReturn m).type := by
    rw [← ret_move r v]
    rfl
  rw [htype]
  cases m with
  | key k =>
    cases k with
    | mark =>
      simp only [nextReturn]
      split
      · simp [Return.call]
      · exact h
    | start =>
      simp only [nextReturn]
      split
      · simp [Return.call]
      · split
        · simp [Return.call]
        · exact h
    | _ => exact h
  | returnDelay =>
    simp only [nextReturn]
    split
    · simp
    · exact h
  | runLogic =>
    simp only [nextReturn]
    split
    · simp [Return.call]
    · exact h
  | tick =>
    show c.ret.tick.type ≠ 2
    simp only [Return.tick]
    split_ifs <;> exact h
  | _ => exact h

/-- The flame is on in a burn that has lasted `n` ticks. -/
structure Lit (n : Nat) (c : Cycle) : Prop where
  burns : c.Burns
  noEnd : c.ctl.returnType ≠ 2
  age : burnAge c.log = some n
  flame : c.gpio.flame = true

theorem Lit.burning (h : Lit n c) : c.burner.Aged (some n) := h.age ▸ h.burns

theorem gpio_after (r v : Bool) (m : Move) : (c.move r v m).gpio = (c.nextBurner m).gpio := by
  rw [← burner_move r v]
  rfl

theorem Lit.expires_iff (h : Lit n c) : c.burner.expires = true ↔ n + 1 = burnTicks := by
  rw [h.burning.expires_iff, Option.some.injEq]
  simp only [burnTicks]
  omega

/-- No move but the tick ages a burn, and none but its last tick and an end of the cycle
puts the flame out. -/
theorem Lit.move (r v : Bool) {m : Move} (h : Lit n c) (hm : ¬ Ends c m)
    (hn : m = .tick → n + 1 < burnTicks) : Lit (n + if m = .tick then 1 else 0) (c.move r v m) := by
  have hlog := log_move r v c m
  have hgpio := gpio_after (c := c) r v m
  refine ⟨h.burns.move r v m, returnType_move r v m h.noEnd, ?_, ?_⟩
  · rw [hlog]
    cases m with
    | key k =>
      cases k with
      | mark => exact (burnAge_markEvents r c.log).trans h.age
      | start =>
        refine (burnAge_startEvents c.log).trans ?_
        rw [h.age, Option.getD_some, ite_self]
        rfl
      | _ => exact h.age
    | returnDelay => exact (burnAge_returnEvents r c.log).trans h.age
    | runLogic => exact (burnAge_runEvents c.log).trans h.age
    | tick =>
      show (burnAge c.log).bind _ = some (n + 1)
      rw [h.age, Option.bind_some, if_pos (hn rfl)]
    | _ => exact h.age
  · rw [hgpio]
    cases m with
    | key k =>
      cases k with
      | start =>
        simp only [nextBurner]
        split
        · rfl
        · exact h.flame
      | clear => exact absurd (Or.inl rfl) hm
      | _ => exact h.flame
    | returnDelay =>
      have htype : (c.ctl.returnType == 2) = false := beq_false_of_ne h.noEnd
      simp only [nextBurner, htype, Bool.and_false]
      exact h.flame
    | runLogic =>
      have hgoes : c.finishes = false := by
        by_contra hf
        exact hm (Or.inr ⟨rfl, Bool.eq_true_of_not_eq_false hf⟩)
      simp only [nextBurner, hgoes]
      exact h.flame
    | tick =>
      have hgoes : ¬ c.burner.expires = true := by
        have hlt := hn rfl
        rw [h.expires_iff]
        omega
      show c.burner.tick.gpio.flame = true
      simp only [Burner.tick]
      rw [if_neg hgoes]
      split <;> exact h.flame
    | _ => exact h.flame

/-- The last tick of a burn swaps the flame for fan and light. -/
theorem Lit.swap (r v : Bool) (h : Lit n c) (hn : n + 1 = burnTicks) :
    (c.move r v .tick).gpio = ⟨false, true, true⟩ := by
  rw [gpio_after]
  show c.burner.tick.gpio = _
  simp only [Burner.tick]
  rw [if_pos (h.expires_iff.2 hn)]

/-- A launch that is no relighting begins a burn with the counter at zero. -/
theorem lit_of_launch (r v : Bool) {m : Move} (hburns : c.Burns) (htype : c.ctl.returnType ≠ 2)
    (hm : m = .key .start) (hout : c.gpio.flame = false) (hlit : (c.move r v m).gpio.flame = true)
    (hok : ¬ Relights c m) : c.accFlame = 0 ∧ Lit 0 (c.move r v m) := by
  subst hm
  have hgpio := gpio_after (c := c) r v (.key .start)
  have hlaunch : (c.restarts || c.firstStarts) = true := by
    by_contra hno
    simp only [nextBurner, if_neg hno] at hgpio
    rw [hgpio] at hlit
    exact absurd (hout.symm.trans hlit) (by simp)
  have hage : (burnAge c.log).getD 0 = 0 := by
    cases h : burnAge c.log with
    | none => rfl
    | some n =>
      cases n with
      | zero => rfl
      | succ n => exact absurd ⟨rfl, hlaunch, hout, n, h⟩ hok
  refine ⟨?_, hburns.move r v _, returnType_move r v _ htype, ?_, hlit⟩
  · have hacc : c.accFlame = 100 * (burnAge c.log).getD 0 := hburns.acc
    omega
  · rw [log_move]
    refine (burnAge_startEvents c.log).trans ?_
    rw [if_pos hlaunch, hage]

end Cycle

section
variable {K : Type} [Field K] [LinearOrder K]

/-- From the ignition `t` on, the flame stays on until the 2520th tick, which swaps it for
fan and light, unless the cycle ends first. -/
structure WholeBurn (env : Env K) (t : Rb K) (after : List (Stage K)) : Prop where
  lit : ∀ bs, bs <+: after → Runs.Along (fun s a => ¬ Ends s.cycle a.move) (stage env) t bs →
    ticksIn bs < burnTicks → (Runs.exec (stage env) t bs).gpio.flame = true
  swapped : ∀ bs, bs ++ [.tick] <+: after →
    Runs.Along (fun s a => ¬ Ends s.cycle a.move) (stage env) t bs → ticksIn bs + 1 = burnTicks →
    (Runs.exec (stage env) t (bs ++ [.tick])).gpio = ⟨false, true, true⟩

/-- Every start key that turns the flame from off to on finds the counter at zero and
begins a whole burn. -/
def WholeBurns (env : Env K) (as : List (Step K)) : Prop :=
  ∀ pre a post, as.flatMap Step.stages = pre ++ a :: post → a.move = .key .start →
    (Runs.exec (stage env) boot pre).gpio.flame = false →
    (stage env (Runs.exec (stage env) boot pre) a).gpio.flame = true →
    (Runs.exec (stage env) boot pre).isr.accFlame = 0 ∧
      WholeBurn env (stage env (Runs.exec (stage env) boot pre) a) post

variable {env : Env K}

theorem returnType_stages (as : List (Stage K)) :
    (Runs.exec (stage env) boot as).ctl.returnType ≠ 2 := by
  have hstep : ∀ (s : Rb K) (a : Stage K), s.cycle.ctl.returnType ≠ 2 →
      (stage env s a).cycle.ctl.returnType ≠ 2 := by
    intro s a h
    rw [cycle_stage]
    exact Cycle.returnType_move _ _ _ h
  have hboot : (boot : Rb K).cycle.ctl.returnType ≠ 2 := by simp [Rb.cycle, boot, Ctl.boot]
  exact Runs.exec_inv (P := fun s : Rb K => s.cycle.ctl.returnType ≠ 2) hstep as hboot

theorem lit_exec : ∀ {s : Rb K} {n : Nat} (bs : List (Stage K)), Cycle.Lit n s.cycle →
    Runs.Along (fun s a => ¬ Ends s.cycle a.move) (stage env) s bs → n + ticksIn bs < burnTicks →
    Cycle.Lit (n + ticksIn bs) (Runs.exec (stage env) s bs).cycle
  | _, _, [], h, _, _ => h
  | s, n, a :: bs, h, hok, hn => by
    have hsplit : ticksIn (a :: bs) = (if a.move = .tick then 1 else 0) + ticksIn bs := by
      simp only [ticksIn, List.map_cons, List.count_cons, beq_iff_eq]
      omega
    rw [hsplit] at hn ⊢
    have hfirst : Cycle.Lit (n + if a.move = .tick then 1 else 0) (stage env s a).cycle := by
      rw [cycle_stage]
      refine h.move _ _ hok.1 ?_
      intro ht
      rw [if_pos ht] at hn
      omega
    rw [← Nat.add_assoc] at hn ⊢
    exact lit_exec bs hfirst hok.2 hn

theorem wholeBurn_of_lit {t : Rb K} (h : Cycle.Lit 0 t.cycle) (after : List (Stage K)) :
    WholeBurn env t after where
  lit bs _ hok hn := (lit_exec bs h hok (by omega)).flame
  swapped bs _ hok hn := by
    have hlast := lit_exec bs h hok (by omega)
    rw [Runs.exec_append]
    show (stage env (Runs.exec (stage env) t bs) .tick).cycle.gpio = _
    rw [cycle_stage]
    exact hlast.swap _ _ (by omega)

/-- Every ignition of a run gets a whole burn if and only if no launch of the run finds the
flame out during a burn begun for an earlier cycle. -/
theorem wholeBurns_iff (env : Env K) (as : List (Step K)) :
    WholeBurns env as ↔ Throughout (fun s a => ¬ Relights s.cycle a.move) env as := by
  constructor
  · intro h
    apply Runs.along_of_split
    rintro pre a post hsplit ⟨hstart, hlaunch, hout, n, hage⟩
    have hburns := burns_stages env pre
    have hlit : (stage env (Runs.exec (stage env) boot pre) a).cycle.gpio.flame = true := by
      rw [cycle_stage, Cycle.gpio_after, hstart]
      simp only [Cycle.nextBurner, hlaunch]
      rfl
    have hzero : (Runs.exec (stage env) boot pre).cycle.accFlame = 0 :=
      (h pre a post hsplit hstart hout hlit).1
    have hacc : (Runs.exec (stage env) boot pre).cycle.accFlame = 100 * (n + 1) := by
      rw [show (Runs.exec (stage env) boot pre).cycle.accFlame = _ from hburns.acc, hage]
      rfl
    omega
  · intro h pre a post hsplit hstart hout hlit
    rw [Throughout, hsplit, Runs.along_append] at h
    have hlaunched : (Runs.exec (stage env) boot pre).isr.accFlame = 0 ∧
        Cycle.Lit 0 (stage env (Runs.exec (stage env) boot pre) a).cycle := by
      have hlit' : (stage env (Runs.exec (stage env) boot pre) a).cycle.gpio.flame = true := hlit
      rw [cycle_stage] at hlit' ⊢
      exact Cycle.lit_of_launch _ _ (burns_stages env pre) (returnType_stages pre) hstart hout hlit'
        h.2.1
    exact ⟨hlaunched.1, wholeBurn_of_lit hlaunched.2 post⟩

end

/-- A cycle is launched, cleared after six seconds, and another one launched. -/
noncomputable def relight : List (Step ℝ) := startOne ++ [press 0xe1, press 0xfb] ++ [press 0xfc]

/-- The second ignition finds 6 s on the counter. -/
theorem not_wholeBurns_relight : ¬ WholeBurns firmware relight := by
  have hstages : relight.flatMap Step.stages =
      (startOne ++ [press 0xe1, press 0xfb]).flatMap Step.stages ++
        .lcd 0xfc 0 :: [.ir 0 0, .returnDelay, .runLogic 0, .sensors 0 none, .manual] := by
    rw [relight, List.flatMap_append]
    rfl
  have hbefore : (run firmware (startOne ++ [press 0xe1, press 0xfb])).cycle.gpio.flame = false ∧
      (run firmware (startOne ++ [press 0xe1, press 0xfb])).cycle.accFlame = 6000 := by
    rw [cycle_run]
    decide +kernel
  have hafter : (stage firmware (run firmware (startOne ++ [press 0xe1, press 0xfb]))
      (.lcd 0xfc 0)).cycle.gpio.flame = true := by
    have hsession := session_exec firmware session_boot
      ((startOne ++ [press 0xe1, press 0xfb]).flatMap Step.stages ++ [.lcd 0xfc 0])
    rw [Runs.exec_append, ← run_eq_stages] at hsession
    refine (congrArg (·.gpio.flame) (cycle_of_session hsession)).trans ?_
    decide +kernel
  intro h
  rw [run_eq_stages] at hbefore hafter
  have hzero := (h _ _ _ hstages rfl hbefore.1 hafter).1
  exact absurd (hbefore.2.symm.trans hzero) (by simp)

end RoboticArm
