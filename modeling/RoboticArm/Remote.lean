import RoboticArm.Mailbox
import RoboticArm.NecTrace
import Mathlib.Data.List.Induction

/- The remote control end to end: the line at the receiver, `ir_command`, and the
   `switch (ir_command)` of the main loop, with ticks, edges and statements in any order.

   `Remote` is the receiver with what it heard, the main loop with its slots, and the
   commands stored so far. An edge at which the callback stores a command is a store into
   the slot; the `ir_command = 0` of the main loop clears it for the receiver as well, so
   both sides hold the same byte (`Coupled`).

   What is proved:
     1. `dispatched_heard`: what the `switch` has dispatched is a sublist of the commands
        stored, which frames in the readings of the line carry, each with 33 falling edges
        of its own.
     2. `frame_dispatched_iff`: where the loop comes to the `switch` before the next frame
        can be complete, a complete frame is dispatched exactly if its last edge does not
        fall between the `switch` and the clear.

   Correspondence (C ↔ Lean):
     `EXTI15_10_IRQHandler`, `TIM1_UP_IRQHandler`   ↔ `.edge`, `.tick`
     the main loop, statement by statement          ↔ `.main` -/
namespace RoboticArm

structure Remote where
  heard : Heard
  mail : Mail
  keys : List UInt8

def Remote.boot : Remote := ⟨Heard.boot, Mail.boot, []⟩

inductive RemoteAct where
  | tick
  | edge (high : Bool)
  | main (again : Bool)
  | storeLcd (b : UInt8)
  deriving DecidableEq, Repr

/-- The command that an action stores. -/
def Remote.stores (s : Remote) : RemoteAct → Option UInt8
  | .edge high => irStored high s.heard.nec
  | _ => none

/-- What an action is to the receiver. -/
def Remote.necEvent (s : Remote) : RemoteAct → Option NecEvent
  | .tick => some .tick
  | .edge high => some (.edge high)
  | .main _ => if s.mail.pc = .clearIr then some .clear else none
  | .storeLcd _ => none

/-- What an action is to the main loop and its slots. -/
def Remote.mailAct (s : Remote) : RemoteAct → Option MailAct
  | .tick => none
  | .edge high => (irStored high s.heard.nec).map .storeIr
  | .main again => some (.main again)
  | .storeLcd b => some (.storeLcd b)

def remoteStep (s : Remote) (a : RemoteAct) : Remote where
  heard := (s.necEvent a).elim s.heard (heardStep s.heard)
  mail := (s.mailAct a).elim s.mail (mailStep s.mail)
  keys := s.keys ++ (s.stores a).toList

/-! ## The line -/

/-- The readings contain frames that carry these commands, one behind the other. -/
inductive Frames : List UInt32 → List UInt8 → Prop where
  | nil : Frames [] []
  | noise {falls : List UInt32} {keys : List UInt8} (d : UInt32) (before : Frames falls keys) :
      Frames (falls ++ [d]) keys
  | frame {falls : List UInt32} {keys : List UInt8} (a c : UInt8) (leader : UInt32)
      (data : List UInt32) (before : Frames falls keys) (hleader : LeaderTicks leader)
      (hlength : data.length = 32) (hdata : ∀ k < 32, DataTicks (necBits a c k) (data.getD k 0)) :
      Frames (falls ++ leader :: data) (keys ++ [c])

theorem Frames.noises {falls : List UInt32} {keys : List UInt8} (h : Frames falls keys)
    (rest : List UInt32) : Frames (falls ++ rest) keys := by
  induction rest using List.reverseRecOn with
  | nil =>
    rw [List.append_nil]
    exact h
  | append_singleton rest d ih =>
    rw [← List.append_assoc]
    exact ih.noise d

/-- The commands stored so far are those of frames heard, and what is stored of the next
frame was heard behind them. -/
structure Tracked (s : Heard) (keys : List UInt8) : Prop where
  attentive : Attentive s
  frames : ∃ before rest, s.falls = before ++ rest ∧ Frames before keys ∧ Spaced rest.length s.nec

theorem tracked_boot : Tracked Heard.boot [] where
  attentive := attentive_boot
  frames := ⟨[], [], rfl, .nil, fun hdata => absurd (show (0 : UInt8) = 1 from hdata) (by decide)⟩

theorem Tracked.safe {s : Heard} {keys : List UInt8} (h : Tracked s keys) : s.nec.Safe :=
  h.attentive.safe

theorem Tracked.quiet {s : Heard} {keys : List UInt8} (h : Tracked s keys) (e : NecEvent) :
    Tracked (heardStep s e) keys := by
  obtain ⟨before, rest, hfalls, hframes, hspaced⟩ := h.frames
  have hnext := spaced_step h.safe hspaced e
  refine ⟨attentive_step h.attentive e, before, ?_⟩
  by_cases hfall : e = .edge false
  · rw [if_pos hfall] at hnext
    refine ⟨rest ++ [UInt32.ofNat s.ticks], ?_, hframes, ?_⟩
    · rw [heardStep, if_pos hfall, hfalls, List.append_assoc]
    · rw [List.length_append]
      exact hnext
  · rw [if_neg hfall] at hnext
    refine ⟨rest, ?_, hframes, hnext⟩
    rw [heardStep, if_neg hfall]
    exact hfalls

/-- An edge that stores a command ends a frame of its own. -/
theorem Tracked.stored {s : Heard} {keys : List UInt8} (h : Tracked s keys) {high : Bool} {c : UInt8}
    (hc : irStored high s.nec = some c) : Tracked (heardStep s (.edge high)) (keys ++ [c]) := by
  obtain ⟨before, rest, hfalls, hframes, hspaced⟩ := h.frames
  obtain ⟨rfl, -, b, -, -, -, hidle⟩ := stored_last h.safe hc
  obtain ⟨a, hbacked⟩ := stored_step h.attentive hc
  obtain ⟨before', leader, data, hsplit, hleader, hlength, hdata⟩ := hbacked.frame
  refine ⟨attentive_step h.attentive _, before' ++ leader :: data, [], ?_, ?_, ?_⟩
  · rw [hsplit, List.append_nil]
  · apply Frames.frame a c leader data _ hleader hlength hdata
    have hheard : before ++ (rest ++ [UInt32.ofNat s.ticks]) = before' ++ leader :: data := by
      rw [← hsplit, ← List.append_assoc, ← hfalls]
      rfl
    have hlong : 32 ≤ rest.length := hspaced.of_stored h.safe hc
    have hlengths := congrArg List.length hheard
    simp only [List.length_append, List.length_cons, List.length_nil, hlength] at hlengths
    have hprefix : before <+: before' :=
      List.prefix_of_prefix_length_le ⟨_, hheard⟩ ⟨_, rfl⟩ (by omega)
    obtain ⟨between, rfl⟩ := hprefix
    exact hframes.noises between
  · intro hdata'
    have hstate : (heardStep s (.edge false)).nec.state = 0 := hidle
    rw [hstate] at hdata'
    exact absurd hdata' (by decide)

theorem tracked_step (s : Remote) (a : RemoteAct) (h : Tracked s.heard s.keys) :
    Tracked (remoteStep s a).heard (remoteStep s a).keys := by
  have hsame : s.keys ++ (none : Option UInt8).toList = s.keys := List.append_nil s.keys
  cases a with
  | tick =>
    show Tracked (heardStep s.heard .tick) (s.keys ++ (none : Option UInt8).toList)
    rw [hsame]
    exact h.quiet .tick
  | storeLcd b =>
    show Tracked s.heard (s.keys ++ (none : Option UInt8).toList)
    rw [hsame]
    exact h
  | main again =>
    show Tracked ((s.necEvent (.main again)).elim s.heard (heardStep s.heard))
      (s.keys ++ (none : Option UInt8).toList)
    rw [hsame, Remote.necEvent]
    split
    · exact h.quiet .clear
    · exact h
  | edge high =>
    show Tracked (heardStep s.heard (.edge high)) (s.keys ++ (irStored high s.heard.nec).toList)
    cases hc : irStored high s.heard.nec with
    | none =>
      rw [hsame]
      exact h.quiet (.edge high)
    | some c => exact h.stored hc

/-! ## The slot -/

/-- The key an action of the main loop's machine stores in `ir_command`. -/
def MailAct.irKey : MailAct → Option UInt8
  | .storeIr b => some b
  | _ => none

theorem irKey_mailAct (s : Remote) (a : RemoteAct) :
    (s.mailAct a).bind MailAct.irKey = s.stores a := by
  cases a with
  | tick => rfl
  | main again => rfl
  | storeLcd b => rfl
  | edge high =>
    show ((irStored high s.heard.nec).map MailAct.storeIr).bind MailAct.irKey =
      irStored high s.heard.nec
    cases irStored high s.heard.nec <;> rfl

theorem logged_irAct (s : Mail) (a : MailAct) (keys : List UInt8) :
    OneSlot.logged keys (irAct s a) = keys ++ a.irKey.toList := by
  cases a with
  | storeLcd b => exact (List.append_nil keys).symm
  | storeIr b => rfl
  | main again =>
    simp only [irAct]
    split_ifs <;> exact (List.append_nil keys).symm

/-- The commands that `switch (ir_command)` has dispatched, oldest first. -/
def Mail.dispatched (s : Mail) : List UInt8 := s.irDone.reverse.map Prod.snd

theorem mailStep_irDone (s : Mail) (a : MailAct) :
    (irAct s a = .read ∧ (mailStep s a).irDone = s.irCommand.content.toList ++ s.irDone) ∨
      irAct s a ≠ .read ∧ (mailStep s a).irDone = s.irDone := by
  have hother : (OneSlot.Act.other : OneSlot.Act UInt8) ≠ .read := by
    intro h
    cases h
  cases a with
  | storeLcd b => exact Or.inr ⟨hother, rfl⟩
  | storeIr b =>
    refine Or.inr ⟨?_, rfl⟩
    intro h
    cases h
  | main again =>
    obtain ⟨pc, lcd, ir, cmd, lcdDone, irDone⟩ := s
    cases pc with
    | switchIr => exact Or.inl ⟨rfl, rfl⟩
    | clearIr =>
      refine Or.inr ⟨?_, rfl⟩
      intro h
      cases h
    | test =>
      refine Or.inr ⟨hother, ?_⟩
      simp only [mailStep, mainStep]
      split <;> rfl
    | lcdBody => cases again <;> exact Or.inr ⟨hother, rfl⟩
    | irBody => cases again <;> exact Or.inr ⟨hother, rfl⟩
    | rest => cases again <;> exact Or.inr ⟨hother, rfl⟩
    | prompt => exact Or.inr ⟨hother, rfl⟩
    | copy => exact Or.inr ⟨hother, rfl⟩
    | clearLcd => exact Or.inr ⟨hother, rfl⟩
    | switchLcd => exact Or.inr ⟨hother, rfl⟩

theorem seen_irAct (s : Mail) (a : MailAct) :
    OneSlot.seen s.irCommand s.dispatched (irAct s a) = (mailStep s a).dispatched := by
  rcases mailStep_irDone s a with ⟨hread, hdone⟩ | ⟨hother, hdone⟩
  · unfold Mail.dispatched
    rw [hread, hdone, List.reverse_append, List.map_append, OneSlot.seen]
    cases s.irCommand.content <;> rfl
  · unfold Mail.dispatched
    rw [hdone]
    cases hact : irAct s a with
    | read => exact absurd hact hother
    | store v => rfl
    | clear => rfl
    | other => rfl

theorem faithful_mailStep {s : Mail} {keys : List UInt8} (hplaced : Placed s)
    (h : OneSlot.Faithful s.irCommand keys s.dispatched) (a : MailAct) :
    OneSlot.Faithful (mailStep s a).irCommand (keys ++ a.irKey.toList) (mailStep s a).dispatched := by
  have hnext := OneSlot.faithful_step h (disciplined_ir hplaced a)
  rw [logged_irAct, seen_irAct, ← mailStep_irCommand] at hnext
  exact hnext

/-- The slot holds the byte of the receiver. -/
def Coupled (s : Remote) : Prop := slotByte s.mail.irCommand = s.heard.nec.irCommand

theorem coupled_step (s : Remote) (a : RemoteAct) (h : Coupled s) : Coupled (remoteStep s a) := by
  cases a with
  | tick => exact h
  | storeLcd b => exact h
  | edge high =>
    have hcommand := callback_command high s.heard.nec
    show slotByte (((irStored high s.heard.nec).map .storeIr).elim s.mail (mailStep s.mail)).irCommand =
      (irExtiCallback high s.heard.nec).irCommand
    rw [hcommand]
    cases irStored high s.heard.nec with
    | none => exact h
    | some c => rfl
  | main again =>
    show slotByte (mailStep s.mail (.main again)).irCommand =
      ((s.necEvent (.main again)).elim s.heard (heardStep s.heard)).nec.irCommand
    rw [mailStep_irCommand, irAct, Remote.necEvent]
    by_cases hclear : s.mail.pc = .clearIr
    · rw [if_pos hclear, if_pos hclear, if_neg (by rw [hclear]; decide)]
      rfl
    · rw [if_neg hclear, if_neg hclear]
      split
      · exact h
      · exact h

/-- What every run keeps. -/
structure Remote.Sound (s : Remote) : Prop where
  tracked : Tracked s.heard s.keys
  mail : s.mail.Sound
  dispatches : Dispatches s.mail
  faithful : OneSlot.Faithful s.mail.irCommand s.keys s.mail.dispatched
  coupled : Coupled s

theorem sound_remoteBoot : Remote.boot.Sound where
  tracked := tracked_boot
  mail := sound_boot
  dispatches := dispatches_boot
  faithful := OneSlot.faithful_empty
  coupled := rfl

theorem mail_remoteStep {P : Mail → Prop} {s : Remote} {a : RemoteAct}
    (hstep : ∀ b, s.mailAct a = some b → P (mailStep s.mail b)) (h : P s.mail) :
    P (remoteStep s a).mail := by
  rw [remoteStep]
  cases hact : s.mailAct a with
  | none => exact h
  | some b => exact hstep b hact

theorem sound_remoteStep (s : Remote) (a : RemoteAct) (h : s.Sound) : (remoteStep s a).Sound := by
  refine ⟨tracked_step s a h.tracked, ?_, ?_, ?_, coupled_step s a h.coupled⟩
  · exact mail_remoteStep (fun b _ => sound_step s.mail b h.mail) h.mail
  · exact mail_remoteStep (fun b _ => dispatches_step s.mail b h.dispatches) h.dispatches
  · have hkeys := irKey_mailAct s a
    rw [remoteStep, ← hkeys]
    cases s.mailAct a with
    | none =>
      have hsame : s.keys ++ (none : Option UInt8).toList = s.keys := List.append_nil s.keys
      exact hsame.symm ▸ h.faithful
    | some b => exact faithful_mailStep h.mail.placed h.faithful b

theorem sound_remoteRun (as : List RemoteAct) : (Runs.exec remoteStep Remote.boot as).Sound :=
  Runs.exec_inv sound_remoteStep as sound_remoteBoot

/-- Whatever comes between: the slot holds the command of the receiver, and the `switch`
dispatches, in order and each at most once, commands of well-formed frames in the readings of
the line, no two of which share an edge. -/
theorem dispatched_heard (as : List RemoteAct) :
    let s := Runs.exec remoteStep Remote.boot as
    slotByte s.mail.irCommand = s.heard.nec.irCommand ∧ Frames s.heard.falls s.keys ∧
      s.mail.dispatched.Sublist s.keys := by
  intro s
  have hsound : s.Sound := sound_remoteRun as
  obtain ⟨before, rest, hfalls, hframes, -⟩ := hsound.tracked.frames
  refine ⟨hsound.coupled, ?_, hsound.faithful.sublist⟩
  rw [hfalls]
  exact hframes.noises rest

/-! ## One frame -/

/-- The command that an event stores. -/
def necStored (s : Nec) : NecEvent → Option UInt8
  | .edge high => irStored high s
  | _ => none

/-- The commands that a run of the receiver stores. -/
def heardKeys : Nec → List NecEvent → List UInt8
  | _, [] => []
  | s, e :: es => (necStored s e).toList ++ heardKeys (necStep s e) es

theorem heardKeys_append (s : Nec) (es fs : List NecEvent) :
    heardKeys s (es ++ fs) = heardKeys s es ++ heardKeys (Runs.exec necStep s es) fs := by
  induction es generalizing s with
  | nil => rfl
  | cons e es ih => rw [List.cons_append, heardKeys, heardKeys, ih, List.append_assoc, Runs.exec_cons]

theorem heardKeys_ticks (n : Nat) (s : Nec) : heardKeys s (List.replicate n .tick) = [] := by
  induction n generalizing s with
  | zero => rfl
  | succ n ih =>
    rw [List.replicate_succ, heardKeys, ih]
    rfl

/-- Fewer than 33 falling edges after a command store none. -/
theorem heardKeys_few {n : Nat} {s : Nec} {es : List NecEvent} (hsafe : s.Safe) (h : Spaced n s)
    (hfew : n + es.count (.edge false) < 33) : heardKeys s es = [] := by
  induction es generalizing n s with
  | nil => rfl
  | cons e es ih =>
    have hnone : necStored s e = none := by
      cases e with
      | tick => rfl
      | clear => rfl
      | edge high =>
        cases hc : irStored high s with
        | none => exact hc
        | some c =>
          obtain ⟨rfl, -⟩ := stored_last hsafe hc
          have hmany := h.of_stored hsafe hc
          rw [List.count_cons_self] at hfew
          omega
    rw [heardKeys, hnone]
    apply ih (safe_step s e hsafe) (spaced_step hsafe h e)
    by_cases hfall : e = .edge false
    · rw [hfall, List.count_cons_self] at hfew
      rw [if_pos hfall]
      omega
    · rw [List.count_cons_of_ne hfall] at hfew
      rw [if_neg hfall]
      exact hfew

/-- The part of a pulse before its falling edge. -/
def rise (low high : Nat) : List NecEvent :=
  List.replicate low .tick ++ .edge true :: List.replicate high .tick

theorem pulse_eq (low high : Nat) : pulse low high = rise low high ++ [.edge false] := by
  rw [pulse, rise, List.append_assoc, List.cons_append]

theorem exec_rise (low high : Nat) (s : Nec) :
    Runs.exec necStep s (rise low high) = { s with time125us := UInt32.ofNat high } := by
  rw [rise, Runs.exec_append, exec_ticks, Runs.exec_cons, exec_ticks]
  simp only [necStep, irExtiCallback, if_true, UInt32.zero_add]

theorem count_rise (low high : Nat) : (rise low high).count (.edge false) = 0 := by
  rw [rise, List.count_append, List.count_cons_of_ne (by decide), List.count_replicate,
    List.count_replicate]
  rfl

theorem count_pulse (low high : Nat) : (pulse low high).count (.edge false) = 1 := by
  rw [pulse_eq, List.count_append, count_rise, List.count_singleton_self]

section
variable {f : Nat → Bool} (fr : NecFrame f)

theorem NecFrame.pulses_succ (n : Nat) :
    fr.pulses (n + 1) = fr.pulses n ++ pulse (fr.low n) (fr.high n) := by
  rw [NecFrame.pulses, List.range_succ, List.flatMap_append, List.flatMap_cons, List.flatMap_nil,
    List.append_nil, ← NecFrame.pulses]

theorem NecFrame.count_pulses (n : Nat) : (fr.pulses n).count (.edge false) = n := by
  induction n with
  | zero => rfl
  | succ n ih => rw [fr.pulses_succ, List.count_append, ih, count_pulse]

/-- A frame without its last edge. -/
def NecFrame.body : List NecEvent :=
  List.replicate fr.gap .tick ++
    .edge false :: (pulse fr.leaderLow fr.leaderHigh ++ (fr.pulses 31 ++ rise (fr.low 31) (fr.high 31)))

theorem NecFrame.events_eq : fr.events = fr.body ++ [.edge false] := by
  rw [NecFrame.events, NecFrame.body, fr.pulses_succ 31, pulse_eq (fr.low 31)]
  simp only [List.append_assoc, List.cons_append]

end

theorem irStored_data {s : Nec} (hdata : s.state = 1) {b : Bool} {high : Nat}
    (hhigh : DataTime b high) :
    irStored false { s with time125us := UInt32.ofNat high } =
      let u := { s with time125us := UInt32.ofNat high }.storeBit (bitByte b)
      if u.bitCount = 32 then u.accepted else none := by
  have hwindow := dataTime_window hhigh
  simp only [irStored, Bool.false_eq_true, if_false, if_pos hdata]
  cases b with
  | false =>
    have hzero : 3 ≤ UInt32.ofNat high ∧ UInt32.ofNat high ≤ 7 := hwindow
    rw [if_pos hzero]
    rfl
  | true =>
    obtain ⟨hnot, hone⟩ := hwindow
    rw [if_neg hnot, if_pos hone]
    rfl

/-- A gap that the counter shows as more than 40 ticks ends no frame. -/
theorem irStored_afterGap {s : Nec} (h : s.Safe) (hgap : 40 < s.time125us) :
    irStored false s = none := by
  cases hc : irStored false s with
  | none => rfl
  | some c =>
    obtain ⟨-, -, b, hb, -⟩ := stored_last h hc
    have hshort : s.time125us ≤ 17 := by
      cases b with
      | false =>
        have hb' : 3 ≤ s.time125us ∧ s.time125us ≤ 7 := hb
        exact UInt32.le_trans hb'.2 (by decide)
      | true =>
        have hb' : 11 ≤ s.time125us ∧ s.time125us ≤ 17 := hb
        exact hb'.2
    have hlt := UInt32.lt_of_lt_of_le hgap hshort
    exact absurd hlt (by decide)

theorem accepted_pass {s : Nec} {o : UInt8 × UInt8 × UInt8} {a c : UInt8}
    (h : s.Receiving o (necBits a c) 32) : s.accepted = some c := by
  have hfirst := (check_iff h 0 (by omega)).2 fun i hi => necBits_pair a c hi (Or.inl rfl)
  have hsecond := (check_iff h 16 (by omega)).2 fun i hi => necBits_pair a c hi (Or.inr rfl)
  have hc : gather s.bits 16 8 = c := by
    apply byte_ext
    intro i hi
    rw [gather_bits h (by omega) hi]
    exact (necBits_command a c hi).1
  rw [accepted_eq, if_pos ⟨hfirst, hsecond⟩, hc]

/-- A complete frame stores its command at its last edge, and nothing before. -/
theorem frame_stored {s : Nec} (hsafe : s.Safe) {a c : UInt8} (fr : NecFrame (necBits a c))
    (hgap : 40 < s.time125us + UInt32.ofNat fr.gap) :
    heardKeys s fr.body = [] ∧ irStored false (Runs.exec necStep s fr.body) = some c := by
  have hwait : Nec.Safe { s with time125us := s.time125us + UInt32.ofNat fr.gap } :=
    ⟨hsafe.state, hsafe.room, hsafe.writes⟩
  obtain ⟨hidle, -⟩ := falling_afterGap hwait hgap
  have hopened := receiving_leader hidle (necBits a c) fr.leaderLow fr.leader
  have hdata := receiving_pulses fr hopened (Nat.le_refl 31)
  have hlast := receiving_storeBit hdata (by omega) (UInt32.ofNat (fr.high 31))
  constructor
  · have hfirst := irStored_afterGap hwait hgap
    have hspaced : Spaced 0 (irExtiCallback false
        { s with time125us := s.time125us + UInt32.ofNat fr.gap }) := by
      intro hbusy
      rw [hidle] at hbusy
      exact absurd hbusy (by decide)
    rw [NecFrame.body, heardKeys_append, heardKeys_ticks, exec_ticks, heardKeys, necStored, hfirst]
    apply heardKeys_few (safe_step _ (.edge false) hwait) hspaced
    rw [List.count_append, List.count_append, count_pulse, fr.count_pulses, count_rise]
    decide
  · rw [NecFrame.body, Runs.exec_append, exec_ticks, Runs.exec_cons, Runs.exec_append,
      Runs.exec_append, exec_rise]
    have hfull : (Nec.storeBit (bitByte (necBits a c 31))
        { Runs.exec necStep _ (fr.pulses 31) with
          time125us := UInt32.ofNat (fr.high 31) }).bitCount = 32 := UInt8.toNat_inj.1 hlast.count
    simp only [necStep]
    rw [irStored_data hdata.state (fr.data 31 (by omega))]
    simp only [if_pos hfull]
    exact accepted_pass hlast

/-! ## A frame between the statements of the main loop -/

/-- The same receiver, but for the command it holds. -/
def SameButCommand (s t : Nec) : Prop := ∃ k, t = { s with irCommand := k }

theorem sameButCommand_refl (s : Nec) : SameButCommand s s := ⟨s.irCommand, rfl⟩

section
variable (k : UInt8) (s : Nec)

theorem acceptFrame_same : SameButCommand s.acceptFrame { s with irCommand := k }.acceptFrame := by
  rw [acceptFrame_eq, acceptFrame_eq]
  split
  · exact ⟨_, rfl⟩
  · exact ⟨k, rfl⟩

theorem lastBit_same :
    SameButCommand (if s.bitCount = 32 then { s.acceptFrame with state := 0 } else s)
      (if s.bitCount = 32 then { { s with irCommand := k }.acceptFrame with state := 0 }
        else { s with irCommand := k }) := by
  by_cases hfull : s.bitCount = 32
  · rw [if_pos hfull, if_pos hfull]
    obtain ⟨k', hk'⟩ := acceptFrame_same k s
    rw [hk']
    exact ⟨k', rfl⟩
  · rw [if_neg hfull, if_neg hfull]
    exact ⟨k, rfl⟩

theorem callback_same (high : Bool) :
    irStored high { s with irCommand := k } = irStored high s ∧
      SameButCommand (irExtiCallback high s) (irExtiCallback high { s with irCommand := k }) := by
  cases high with
  | true => exact ⟨rfl, k, rfl⟩
  | false =>
    simp only [irStored, irExtiCallback, Bool.false_eq_true, if_false]
    by_cases hdata : s.state = 1
    · have hout : ¬s.state = 0 := by
        rw [hdata]
        decide
      simp only [if_pos hdata, if_neg hout]
      by_cases hzero : 3 ≤ s.time125us ∧ s.time125us ≤ 7
      · simp only [if_pos hzero]
        exact ⟨rfl, lastBit_same k (s.storeBit 0)⟩
      · by_cases hone : 11 ≤ s.time125us ∧ s.time125us ≤ 17
        · simp only [if_neg hzero, if_pos hone]
          exact ⟨rfl, lastBit_same k (s.storeBit 1)⟩
        · simp only [if_neg hzero, if_neg hone]
          exact ⟨rfl, lastBit_same k { s with state := 0 }⟩
    · simp only [if_neg hdata]
      refine ⟨trivial, ?_⟩
      split_ifs <;> exact ⟨k, rfl⟩

end

theorem sameButCommand_step {s t : Nec} (h : SameButCommand s t) (e : NecEvent) :
    necStored t e = necStored s e ∧ SameButCommand (necStep s e) (necStep t e) := by
  obtain ⟨k, rfl⟩ := h
  cases e with
  | tick => exact ⟨rfl, k, rfl⟩
  | clear => exact ⟨rfl, 0, rfl⟩
  | edge high => exact callback_same k s high

/-- What an action puts on the line. -/
def RemoteAct.onLine : RemoteAct → Option NecEvent
  | .tick => some .tick
  | .edge high => some (.edge high)
  | _ => none

/-- The line during a run. -/
def lineEvents (as : List RemoteAct) : List NecEvent := as.filterMap RemoteAct.onLine

/-- What an action does to a receiver that sees the line alone. -/
def alone (t : Nec) (a : RemoteAct) : Nec := a.onLine.elim t (necStep t)

theorem alone_step {s : Remote} {t : Nec} (h : SameButCommand t s.heard.nec) (a : RemoteAct) :
    s.stores a = a.onLine.bind (necStored t) ∧
      SameButCommand (alone t a) (remoteStep s a).heard.nec := by
  cases a with
  | tick => exact ⟨rfl, (sameButCommand_step h .tick).2⟩
  | edge high => exact sameButCommand_step h (.edge high)
  | storeLcd b => exact ⟨rfl, h⟩
  | main again =>
    refine ⟨rfl, ?_⟩
    show SameButCommand t ((s.necEvent (.main again)).elim s.heard (heardStep s.heard)).nec
    rw [Remote.necEvent]
    obtain ⟨k, hk⟩ := h
    split
    · exact ⟨0, by rw [Option.elim_some, heardStep, hk]; rfl⟩
    · exact ⟨k, hk⟩

/-- What the receiver does in a run is what it does with the line alone. -/
theorem exec_line {s : Remote} {t : Nec} (h : SameButCommand t s.heard.nec) (as : List RemoteAct) :
    SameButCommand (Runs.exec necStep t (lineEvents as)) (Runs.exec remoteStep s as).heard.nec ∧
      (heardKeys t (lineEvents as) = [] →
        Runs.Along (fun s a => s.stores a = none) remoteStep s as) := by
  induction as generalizing s t with
  | nil => exact ⟨h, fun _ => trivial⟩
  | cons a as ih =>
    obtain ⟨hstores, hnext⟩ := alone_step h a
    obtain ⟨hsame, hquiet⟩ := ih hnext
    cases hline : a.onLine with
    | none =>
      have hevents : lineEvents (a :: as) = lineEvents as := List.filterMap_cons_none hline
      rw [alone, hline] at hsame hquiet
      rw [hline] at hstores
      rw [hevents]
      exact ⟨hsame, fun hnone => ⟨hstores, hquiet hnone⟩⟩
    | some e =>
      have hevents : lineEvents (a :: as) = e :: lineEvents as := List.filterMap_cons_some hline
      rw [alone, hline] at hsame hquiet
      rw [hline] at hstores
      rw [hevents]
      refine ⟨hsame, ?_⟩
      intro hnone
      obtain ⟨hfirst, hrest⟩ := List.append_eq_nil_iff.1 hnone
      exact ⟨hstores.trans (Option.toList_eq_nil_iff.1 hfirst), hquiet hrest⟩

/-! ## From the frame to the dispatch -/

theorem irKey_of_irAct {s : Mail} {a : MailAct} {v : UInt8} (h : irAct s a = .store v) :
    a.irKey = some v := by
  cases a with
  | storeIr b =>
    obtain rfl := OneSlot.Act.store.inj h
    rfl
  | storeLcd b => exact nomatch h
  | main again =>
    simp only [irAct] at h
    split_ifs at h

/-- A numbered key is in the slot and not under work, or has been dispatched. -/
def Waiting (x : Nat × UInt8) (s : Mail) : Prop :=
  s.irCommand.content = some x ∧ s.irCommand.reading = false ∨ x ∈ s.irDone

theorem waiting_mailStep {s : Mail} {x : Nat × UInt8} (hplaced : Placed s) {a : MailAct}
    (hquiet : a.irKey = none) (h : Waiting x s) : Waiting x (mailStep s a) := by
  rcases h with ⟨hcontent, hidle⟩ | hdone
  · have hreader := disciplined_ir hplaced a
    cases hact : irAct s a with
    | store v =>
      rw [irKey_of_irAct hact] at hquiet
      exact absurd hquiet (Option.some_ne_none v)
    | read =>
      right
      rcases mailStep_irDone s a with ⟨-, hnext⟩ | ⟨hother, -⟩
      · rw [hnext, hcontent]
        exact List.mem_cons_self
      · exact absurd hact hother
    | clear =>
      rw [hact] at hreader
      exact absurd (hidle.symm.trans hreader) Bool.false_ne_true
    | other =>
      left
      rw [mailStep_irCommand, hact]
      exact ⟨hcontent, hidle⟩
  · right
    rcases mailStep_irDone s a with ⟨-, hnext⟩ | ⟨-, hnext⟩
    · rw [hnext]
      exact List.mem_append_right _ hdone
    · rw [hnext]
      exact hdone

theorem missed_mailStep {s : Mail} {n : Nat} (hplaced : Placed s) (a : MailAct)
    (h : OneSlot.Missed n s.irCommand) : OneSlot.Missed n (mailStep s a).irCommand := by
  rw [mailStep_irCommand]
  exact OneSlot.missed_step (disciplined_ir hplaced a) h

theorem waiting_quiet {x : Nat × UInt8} {s : Remote} {a : RemoteAct} (h : s.Sound ∧ Waiting x s.mail)
    (hquiet : s.stores a = none) : (remoteStep s a).Sound ∧ Waiting x (remoteStep s a).mail := by
  refine ⟨sound_remoteStep s a h.1, mail_remoteStep ?_ h.2⟩
  intro b hact
  have hkey := irKey_mailAct s a
  rw [hact, hquiet] at hkey
  exact waiting_mailStep h.1.mail.placed hkey h.2

theorem missed_remoteStep {n : Nat} (s : Remote) (a : RemoteAct)
    (h : s.Sound ∧ OneSlot.Missed n s.mail.irCommand) :
    (remoteStep s a).Sound ∧ OneSlot.Missed n (remoteStep s a).mail.irCommand := by
  refine ⟨sound_remoteStep s a h.1, ?_⟩
  exact mail_remoteStep (P := fun m => OneSlot.Missed n m.irCommand)
    (fun b _ => missed_mailStep h.1.mail.placed b h.2) h.2

theorem keys_quiet {s : Remote} {as : List RemoteAct}
    (h : Runs.Along (fun s a => s.stores a = none) remoteStep s as) :
    (Runs.exec remoteStep s as).keys = s.keys := by
  refine Runs.exec_inv_along (P := fun t => t.keys = s.keys) ?_ rfl h
  intro t a ht hquiet
  rw [remoteStep, hquiet]
  exact (List.append_nil t.keys).trans ht

theorem mail_edge {t : Remote} {c : UInt8} (hc : irStored false t.heard.nec = some c) :
    (remoteStep t (.edge false)).mail = mailStep t.mail (.storeIr c) := by
  rw [remoteStep, Remote.mailAct, hc]
  rfl

/-- A command stored while the `switch` is being handled is never dispatched. -/
theorem not_dispatched_of_window {t : Remote} {c : UInt8} (ht : t.Sound)
    (hc : irStored false t.heard.nec = some c)
    (hwindow : t.mail.pc = .irBody ∨ t.mail.pc = .clearIr) (as : List RemoteAct) :
    (t.mail.irCommand.stored, c) ∉
      (Runs.exec remoteStep (remoteStep t (.edge false)) as).mail.irDone := by
  have hreading : t.mail.irCommand.reading = true := by
    rw [ht.mail.placed.ir, decide_eq_true hwindow]
  have hmissed : OneSlot.Missed t.mail.irCommand.stored (remoteStep t (.edge false)).mail.irCommand := by
    rw [mail_edge hc]
    exact OneSlot.missed_store ht.mail.ir hreading c
  intro hdone
  obtain ⟨hu, hmissed'⟩ :=
    Runs.exec_inv missed_remoteStep as ⟨sound_remoteStep t (.edge false) ht, hmissed⟩
  apply hmissed'.untaken
  rw [hu.dispatches.ir]
  exact List.mem_map_of_mem hdone

/-- Any other waits, since no further command comes before 33 falling edges. -/
theorem waiting_of_stored {t : Remote} {c : UInt8} (ht : t.Sound)
    (hc : irStored false t.heard.nec = some c)
    (hout : ¬ (t.mail.pc = .irBody ∨ t.mail.pc = .clearIr)) {cs : List RemoteAct}
    (hsoon : (lineEvents cs).count (.edge false) < 33) :
    let u := Runs.exec remoteStep (remoteStep t (.edge false)) cs
    u.Sound ∧ Waiting (t.mail.irCommand.stored, c) u.mail := by
  have hreading : t.mail.irCommand.reading = false := by
    rw [ht.mail.placed.ir, decide_eq_false hout]
  have hafter : (remoteStep t (.edge false)).Sound := sound_remoteStep t _ ht
  have hwaiting : Waiting (t.mail.irCommand.stored, c) (remoteStep t (.edge false)).mail := by
    left
    rw [mail_edge hc]
    exact ⟨rfl, hreading⟩
  have hidle : Spaced 0 (remoteStep t (.edge false)).heard.nec := by
    obtain ⟨-, -, b, -, -, -, hstate⟩ := stored_last ht.tracked.safe hc
    intro hbusy
    have hstate' : (remoteStep t (.edge false)).heard.nec.state = 0 := hstate
    rw [hstate'] at hbusy
    exact absurd hbusy (by decide)
  have hfew := heardKeys_few hafter.tracked.safe hidle (by rw [Nat.zero_add]; exact hsoon)
  have hquiet := (exec_line (sameButCommand_refl (remoteStep t (.edge false)).heard.nec) cs).2 hfew
  exact Runs.exec_inv_along (fun _ _ => waiting_quiet) ⟨hafter, hwaiting⟩ hquiet

/-- The `switch` dispatches the key that waits. -/
theorem dispatched_of_waiting {u : Remote} {k : Nat × UInt8} (h : u.Sound) (hwaiting : Waiting k u.mail)
    (hswitch : u.mail.pc = .switchIr) (again : Bool) :
    k ∈ (remoteStep u (.main again)).mail.irDone := by
  obtain ⟨hu, hwaiting'⟩ := waiting_quiet (a := .main again) ⟨h, hwaiting⟩ rfl
  have hpc : (remoteStep u (.main again)).mail.pc = .irBody := by
    show (mainStep again u.mail).pc = .irBody
    rw [mainStep, hswitch]
  rcases hwaiting' with ⟨-, hreading⟩ | hdone
  · rw [hu.mail.placed.ir, hpc] at hreading
    exact absurd hreading (by decide)
  · exact hdone

/-- A complete frame, between any statements of the main loop: when the loop has come to the
`switch` before the next frame can be complete, the command has been dispatched exactly if its
last edge did not fall between the `switch` and the clear. -/
theorem frame_dispatched_iff (as bs cs : List RemoteAct) (again : Bool) (a c : UInt8)
    (fr : NecFrame (necBits a c)) :
    let s := Runs.exec remoteStep Remote.boot as
    let t := Runs.exec remoteStep s bs
    let u := Runs.exec remoteStep (remoteStep t (.edge false)) cs
    40 < s.heard.nec.time125us + UInt32.ofNat fr.gap →
    lineEvents bs ++ [.edge false] = fr.events →
    (lineEvents cs).count (.edge false) < 33 →
    u.mail.pc = .switchIr →
    slotByte u.mail.irCommand = u.heard.nec.irCommand ∧
      ((s.keys.length, c) ∈ (remoteStep u (.main again)).mail.irDone ↔
        t.mail.pc ≠ .irBody ∧ t.mail.pc ≠ .clearIr) := by
  intro s t u hgap hframe hsoon hswitch
  have hs : s.Sound := sound_remoteRun as
  have ht : t.Sound := Runs.exec_inv sound_remoteStep bs hs
  have hbody : lineEvents bs = fr.body := List.append_cancel_right (hframe.trans fr.events_eq)
  obtain ⟨hnone, hlast⟩ := frame_stored hs.tracked.safe fr hgap
  obtain ⟨hsame, hquiet⟩ := exec_line (sameButCommand_refl s.heard.nec) bs
  rw [hbody] at hsame hquiet
  have hc : irStored false t.heard.nec = some c :=
    (sameButCommand_step hsame (.edge false)).1.trans hlast
  have hkeys : t.keys = s.keys := keys_quiet (hquiet hnone)
  have hnumber : t.mail.irCommand.stored = s.keys.length := by
    rw [← hkeys]
    exact ht.faithful.length.symm
  have hcoupled := (Runs.exec_inv sound_remoteStep cs (sound_remoteStep t (.edge false) ht)).coupled
  refine ⟨hcoupled, ?_⟩
  rw [← not_or, ← hnumber]
  constructor
  · intro hdone hwindow
    apply not_dispatched_of_window ht hc hwindow (cs ++ [.main again])
    rw [Runs.exec_append]
    exact hdone
  · intro hout
    obtain ⟨hu, hwaiting⟩ := waiting_of_stored ht hc hout hsoon
    exact dispatched_of_waiting hu hwaiting hswitch again

/-- The start key of the remote up to its last edge, and the main loop at its first statement
meanwhile. -/
def startMeanwhile : List RemoteAct :=
  let line := almostStart.map fun e => if e = .tick then RemoteAct.tick else .edge (e = .edge true)
  line.take 200 ++ .main false :: line.drop 200

/-- It is the first key dispatched. -/
theorem frame_dispatched_startKey :
    let t := Runs.exec remoteStep Remote.boot startMeanwhile
    let u := Runs.exec remoteStep (remoteStep t (.edge false)) [.main false, .main false, .main false]
    (0, 0x45) ∈ (remoteStep u (.main false)).mail.irDone :=
  (frame_dispatched_iff [] startMeanwhile [.main false, .main false, .main false] false 0 0x45
    (NecFrame.plain 50 (necBits 0 0x45)) (by decide +kernel) (by decide +kernel) (by decide +kernel)
    (by decide +kernel)).2.2 (by decide +kernel)

end RoboticArm
