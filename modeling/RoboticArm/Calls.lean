import RoboticArm.Effect
import RoboticArm.Replay

/- The calls of `start_return_delay` and `switch_mode` along a run.

   Each call is in the log with its arguments, and each executed completion branch
   as `returnDone`, so both questions here are about the log of a run.

   1. `namesInTables_iff`: every call names an entry of its table exactly in the
      runs that never go on from one point to the next. The call for a point switch
      has type 5, one past the end of `type_names`; every other one is inside.
   2. `settled_of_calls_rested`: every completion comes at least 60 ticks after the
      latest call if each call finds the accumulator `acc_return` at zero. A call
      does not clear it, so one made while it has counted is completed early
      (`switchModeTwice`). -/
namespace RoboticArm

/-! ## Name tables -/

/-- The names a call looks up are in their tables. -/
def Ev.InTable : Ev → Prop
  | .startReturnDelay type _ => type < typeNames.length
  | .switchMode newMode => newMode < modeNames.length
  | _ => True

instance : DecidablePred Ev.InTable
  | .startReturnDelay _ _ | .switchMode _ => inferInstanceAs (Decidable (_ < _))
  | .tick | .mark _ | .returnDone _ | .pause | .resume | .clearAll | .cycleComplete => .isTrue trivial

def NamesInTables (log : List Ev) : Prop := ∀ e ∈ log, e.InTable

/-- The run logic goes on to another point. -/
def GoesOn (c : Cycle) (m : Move) : Prop := m = .runLogic ∧ c.switchesPoint = true

instance (c : Cycle) (m : Move) : Decidable (GoesOn c m) := inferInstanceAs (Decidable (_ ∧ _))

namespace Cycle

variable {c : Cycle}

theorem targetMode_lt {m : Nat} (h : c.ctl.targetMode = some m) : m < modeNames.length := by
  simp only [Ctl.targetMode] at h
  have : modeNames.length = 4 := rfl
  split_ifs at h <;> cases h <;> omega

theorem switchEvents_inTable {m : Nat} (h : m < modeNames.length) :
    ∀ e ∈ c.switchEvents m, e.InTable := by
  have hreturn : (Ev.startReturnDelay 1 c.ctl.currentPoint).InTable :=
    show 1 < typeNames.length by decide
  have hmode : (Ev.switchMode m).InTable := h
  simp only [switchEvents]
  split
  · simpa using ⟨hreturn, hmode⟩
  · simpa using hmode

theorem markEvents_inTable (r : Bool) : ∀ e ∈ c.markEvents r, e.InTable := by
  simp only [markEvents]
  split_ifs
  · simp [Ev.InTable]
  · simp
  · cases ht : c.ctl.targetMode with
    | none => simp
    | some m => exact switchEvents_inTable (targetMode_lt ht)
  · simp

theorem startEvents_inTable : ∀ e ∈ c.startEvents, e.InTable := by
  simp only [startEvents]
  split_ifs <;> simp [Ev.InTable, typeNames]

theorem runEvents_inTable_iff : (∀ e ∈ c.runEvents, e.InTable) ↔ c.switchesPoint = false := by
  simp only [runEvents]
  split
  · next hf => simp [Ev.InTable, finishes_of_not_switchesPoint hf]
  · split
    · next hs => simp [Ev.InTable, typeNames, hs]
    · next hs => simpa using hs

theorem not_goesOn {m : Move} (h : m ≠ .runLogic) : ¬ GoesOn c m := fun hgoes => h hgoes.1

/-- A move's calls are inside the tables exactly when it does not go on to another point. -/
theorem events_inTable_iff (r : Bool) (m : Move) :
    (∀ e ∈ c.events r m, e.InTable) ↔ ¬ GoesOn c m := by
  cases m with
  | runLogic => simpa [GoesOn, events] using runEvents_inTable_iff
  | key k =>
    refine iff_of_true ?_ (not_goesOn (by simp))
    cases k with
    | mark => exact markEvents_inTable r
    | start => exact startEvents_inTable
    | clear => simp [events, Ev.InTable]
    | _ => exact fun _ he => absurd he List.not_mem_nil
  | returnDelay =>
    refine iff_of_true ?_ (not_goesOn (by simp))
    simp only [events]
    split <;> simp [Ev.InTable]
  | tick => exact iff_of_true (by simp [events, Ev.InTable]) (not_goesOn (by simp))
  | sensors => exact iff_of_true (by simp [events]) (not_goesOn (by simp))
  | manual => exact iff_of_true (by simp [events]) (not_goesOn (by simp))

end Cycle

section
variable {K : Type} [Field K] [LinearOrder K]

/-- Every call of a run looks its names up inside the tables if and only if the run
logic never goes on from one point to the next. -/
theorem namesInTables_iff (env : Env K) (as : List (Step K)) :
    NamesInTables (run env as).log ↔ Throughout (fun s a => ¬ GoesOn s.cycle a.move) env as := by
  have hstage : ∀ (s : Rb K) (a : Stage K),
      NamesInTables (stage env s a).log ↔ NamesInTables s.log ∧ ¬ GoesOn s.cycle a.move := by
    intro s a
    have hlog : (stage env s a).log =
        (s.cycle.events (checkCoordinateRange s.jog.cur) a.move) ++ s.log := by
      show (stage env s a).cycle.log = _
      rw [cycle_stage, Cycle.log_move]
      rfl
    rw [NamesInTables, hlog, List.forall_mem_append, Cycle.events_inTable_iff, and_comm]
    rfl
  rw [run_eq_stages, Runs.exec_iff_along (P := fun s : Rb K => NamesInTables s.log) hstage]
  exact and_iff_right fun e he => absurd he List.not_mem_nil

end

set_option maxRecDepth 100000 in
/-- Going on from the first of two points looks past the end of `type_names`. -/
theorem not_namesInTables_goOn : ¬ NamesInTables (run firmware goOn).log := by
  show ¬ NamesInTables (run firmware goOn).cycle.log
  rw [cycle_run]
  simp only [NamesInTables]
  decide +kernel

/-! ## Settling times -/

/-- The ticks since the latest call of `start_return_delay`, newest event first. -/
def ticksSinceCall : List Ev → Nat
  | [] => 0
  | .tick :: older => ticksSinceCall older + 1
  | .startReturnDelay _ _ :: _ => 0
  | _ :: older => ticksSinceCall older

/-- No completion branch was executed earlier than `RETURN_DELAY_MS` after the latest call. -/
def Settled : List Ev → Prop
  | [] => True
  | .returnDone _ :: older => returnDelayMs / 100 ≤ ticksSinceCall older ∧ Settled older
  | _ :: older => Settled older

instance decidableSettled : ∀ log, Decidable (Settled log)
  | [] => .isTrue trivial
  | .returnDone _ :: older => @instDecidableAnd _ _ _ (decidableSettled older)
  | .tick :: older | .mark _ :: older | .startReturnDelay _ _ :: older | .switchMode _ :: older
  | .pause :: older | .resume :: older | .clearAll :: older | .cycleComplete :: older =>
    decidableSettled older

/-- A move that calls `start_return_delay`. -/
def callsReturn (c : Cycle) : Move → Bool
  | .key .mark => c.remodes
  | .key .start => c.restarts || c.firstStarts
  | .runLogic => c.switchesPoint
  | _ => false

/-- If the move calls `start_return_delay`, the accumulator of the delay is at zero. -/
def Rested (c : Cycle) (m : Move) : Prop := callsReturn c m = true → c.accReturn = 0

instance (c : Cycle) (m : Move) : Decidable (Rested c m) := inferInstanceAs (Decidable (_ → _))

namespace Cycle

variable {c : Cycle}

/-- The accumulator is the time since the latest call, until the delay has passed. -/
def Timed (c : Cycle) : Prop :=
  c.ret.inProgress = true →
    if c.ret.flag then returnDelayMs / 100 ≤ ticksSinceCall c.log
    else c.ret.acc = 100 * ticksSinceCall c.log

theorem ticksSinceCall_markEvents (r : Bool) (log : List Ev) :
    ticksSinceCall (c.markEvents r ++ log) = if c.remodes then 0 else ticksSinceCall log := by
  unfold markEvents remodes
  by_cases hm : c.ctl.canMark = true
  · cases r <;> simp [hm, ticksSinceCall]
  · by_cases hs : c.ctl.canSwitch = true
    · cases c.ctl.targetMode with
      | none => simp [hm, hs]
      | some m =>
        by_cases hr : c.ctl.startFlag = true ∧ 0 < c.ctl.pointCount
        · simp [hm, hs, hr, switchEvents, ticksSinceCall]
        · simp [hm, hs, hr, switchEvents, ticksSinceCall]
    · simp [hm, hs]

theorem ticksSinceCall_startEvents (log : List Ev) :
    ticksSinceCall (c.startEvents ++ log) =
      if c.restarts || c.firstStarts then 0 else ticksSinceCall log := by
  simp only [startEvents]
  by_cases hr : c.restarts = true
  · simp [hr, ticksSinceCall]
  · by_cases hf : c.firstStarts = true
    · simp [hr, hf, ticksSinceCall]
    · simp only [hr, hf, Bool.false_eq_true, if_false, Bool.or_self]
      split_ifs <;> rfl

theorem ticksSinceCall_runEvents (log : List Ev) :
    ticksSinceCall (c.runEvents ++ log) = if c.switchesPoint then 0 else ticksSinceCall log := by
  simp only [runEvents]
  by_cases hf : c.finishes = true
  · simp [hf, finishes_of_not_switchesPoint hf, ticksSinceCall]
  · by_cases hs : c.switchesPoint = true
    · simp [hf, hs, ticksSinceCall]
    · simp [hf, hs]

theorem ticksSinceCall_move (r v : Bool) (m : Move) :
    ticksSinceCall (c.move r v m).log =
      if callsReturn c m then 0
      else if m = .tick then ticksSinceCall c.log + 1 else ticksSinceCall c.log := by
  rw [log_move]
  cases m with
  | key k =>
    cases k with
    | mark => exact ticksSinceCall_markEvents r c.log
    | start => exact ticksSinceCall_startEvents c.log
    | _ => rfl
  | returnDelay =>
    simp only [events, callsReturn]
    split <;> rfl
  | runLogic => exact ticksSinceCall_runEvents c.log
  | _ => rfl

/-- What a move does to the pending return: a call, a tick, or nothing unless it
completes or drops it. -/
theorem ret_cases (m : Move) :
    (callsReturn c m = true ∧ ∃ type, c.nextReturn m = c.ret.call type) ∨
    (m = .tick ∧ c.nextReturn m = c.ret.tick) ∨
    (callsReturn c m = false ∧ m ≠ .tick ∧
      ((c.nextReturn m).inProgress = false ∨ c.nextReturn m = c.ret)) := by
  cases m with
  | key k =>
    cases k with
    | mark =>
      by_cases hr : c.remodes = true
      · exact Or.inl ⟨hr, 1, if_pos hr⟩
      · exact Or.inr (Or.inr ⟨Bool.eq_false_of_not_eq_true hr, nofun, Or.inr (if_neg hr)⟩)
    | start =>
      by_cases hr : c.restarts = true
      · exact Or.inl ⟨by simp [callsReturn, hr], 3, if_pos hr⟩
      · by_cases hf : c.firstStarts = true
        · exact Or.inl ⟨by simp [callsReturn, hf], 4, (if_neg hr).trans (if_pos hf)⟩
        · exact Or.inr (Or.inr ⟨by simp [callsReturn, hr, hf], nofun,
            Or.inr ((if_neg hr).trans (if_neg hf))⟩)
    | clear => exact Or.inr (Or.inr ⟨rfl, nofun, Or.inl rfl⟩)
    | _ => exact Or.inr (Or.inr ⟨rfl, nofun, Or.inr rfl⟩)
  | returnDelay =>
    refine Or.inr (Or.inr ⟨rfl, nofun, ?_⟩)
    by_cases hd : c.ctl.returnDue = true
    · exact Or.inl (congrArg Return.inProgress (if_pos hd))
    · exact Or.inr (if_neg hd)
  | runLogic =>
    by_cases hs : c.switchesPoint = true
    · exact Or.inl ⟨hs, 5, if_pos hs⟩
    · exact Or.inr (Or.inr ⟨Bool.eq_false_of_not_eq_true hs, nofun, Or.inr (if_neg hs)⟩)
  | tick => exact Or.inr (Or.inl ⟨rfl, rfl⟩)
  | sensors => exact Or.inr (Or.inr ⟨rfl, nofun, Or.inr rfl⟩)
  | manual => exact Or.inr (Or.inr ⟨rfl, nofun, Or.inr rfl⟩)

theorem Timed.tick (h : c.Timed) (hp : c.ret.tick.inProgress = true) :
    if c.ret.tick.flag then returnDelayMs / 100 ≤ ticksSinceCall c.log + 1
    else c.ret.tick.acc = 100 * (ticksSinceCall c.log + 1) := by
  have hpend : c.ret.inProgress = true := by
    unfold Return.tick at hp
    split_ifs at hp with h1
    · exact h1
    · exact h1
    · exact hp
  have ht := h hpend
  unfold Return.tick
  rw [if_pos hpend]
  by_cases hx : returnDelayMs ≤ c.ret.acc + 100
  -- the delay passes with this tick: the accumulator has counted every tick since the call
  · rw [if_pos hx, if_pos rfl]
    simp only [returnDelayMs] at ht hx ⊢
    split at ht <;> omega
  · rw [if_neg hx]
    show if c.ret.flag then _ else c.ret.acc + 100 = _
    by_cases hf : c.ret.flag = true
    · rw [if_pos hf] at ht ⊢
      exact Nat.le_succ_of_le ht
    · rw [if_neg hf] at ht ⊢
      omega

theorem Timed.move (r v : Bool) (m : Move) (h : c.Timed) (hok : Rested c m) :
    (c.move r v m).Timed := by
  intro hp
  rw [ret_move, ticksSinceCall_move]
  rw [ret_move] at hp
  rcases ret_cases m with ⟨hcall, type, hret⟩ | ⟨rfl, hret⟩ | ⟨hcall, hm, hret⟩
  · have hzero : c.ret.acc = 0 := hok hcall
    rw [hret, hcall]
    simp [Return.call, hzero]
  · rw [hret] at hp ⊢
    exact h.tick hp
  · simp only [hcall, hm, Bool.false_eq_true, if_false]
    rcases hret with hnone | hsame
    · exact absurd (hnone.symm.trans hp) (by simp)
    · rw [hsame] at hp ⊢
      exact h hp

theorem settled_append {log : List Ev} :
    ∀ {es : List Ev}, (∀ t, .returnDone t ∉ es) → Settled log → Settled (es ++ log)
  | [], _, hlog => hlog
  | e :: es, h, hlog => by
    have hrest : Settled (es ++ log) :=
      settled_append (fun t ht => h t (List.mem_cons_of_mem e ht)) hlog
    cases e with
    | returnDone t => exact absurd List.mem_cons_self (h t)
    | _ => exact hrest

theorem settled_move (r v : Bool) (m : Move) (ht : c.Timed) (h : Settled c.log) :
    Settled (c.move r v m).log := by
  rw [log_move]
  by_cases hm : m = .returnDelay
  · subst hm
    simp only [events]
    split
    · next hdue =>
      obtain ⟨hpend, hflag⟩ : c.ctl.returnInProgress = true ∧ c.ctl.returnDelayFlag = true := by
        simpa [Ctl.returnDue] using hdue
      have htime := ht hpend
      rw [if_pos (show c.ret.flag = true from hflag)] at htime
      exact ⟨htime, h⟩
    · exact h
  · have hno : ∀ t, .returnDone t ∉ c.events r m := fun t he => hm (source_of_mem_events he).symm
    exact settled_append hno h

end Cycle

section
variable {K : Type} [Field K] [LinearOrder K]

/-- In every run whose calls of `start_return_delay` find the accumulator at zero, no
completion branch is executed earlier than the full delay after the latest call. -/
theorem settled_of_calls_rested (env : Env K) (as : List (Step K))
    (h : Throughout (fun s a => Rested s.cycle a.move) env as) : Settled (run env as).log := by
  have hrun : (run env as).cycle.Timed ∧ Settled (run env as).cycle.log := by
    refine run_inv_along (P := fun c => c.Timed ∧ Settled c.log) Rested ⟨nofun, trivial⟩ ?_ h
    intro r v c m _ ⟨htimed, hsettled⟩ hok _
    exact ⟨htimed.move r v m hok, Cycle.settled_move r v m htimed hsettled⟩
  exact hrun.2

end

theorem settled_startOne : .returnDone 4 ∈ (run firmware startOne).log ∧
    Settled (run firmware startOne).log := by
  refine ⟨?_, settled_of_calls_rested firmware startOne ?_⟩
  · show .returnDone 4 ∈ (run firmware startOne).cycle.log
    rw [cycle_run]
    decide +kernel
  · rw [throughout_iff firmware Rested]
    decide +kernel

/-- The mode of a running arm is changed twice, 3 s apart. -/
noncomputable def switchModeTwice : List (Step ℝ) :=
  startOne ++ [press 0xfb] ++ ticks 30 ++ [press 0xfb] ++ ticks 30 ++ [idle]

/-- The second return is completed 30 ticks after it was asked for. -/
theorem not_settled_switchModeTwice : ¬ Settled (run firmware switchModeTwice).log := by
  show ¬ Settled (run firmware switchModeTwice).cycle.log
  rw [cycle_run]
  decide +kernel

end RoboticArm
