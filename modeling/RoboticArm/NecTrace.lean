import RoboticArm.Nec
import Mathlib.Data.List.GetD

/- The infrared receiver takes no command that was not sent.

   `frame_decodes` says what a complete frame does. Here is the converse, for every history
   of ticks and edges, glitches and broken frames included: the callback stores a command
   only at the last edge of a well-formed frame that carries it. `Heard` counts the ticks
   since the last rising edge beside the receiver, and keeps the count at each falling edge
   as the 32 bits of the counter show it. These readings are all the receiver can know of
   the signal: a high time is read again if the callback finds the pin low twice in a row,
   and one of more than 2^32 ticks shows less. `irStored` is the command that an edge
   stores, if it stores one.

   What is proved:
     1. `stored_step`: at an edge that stores a command, the last 33 readings are a leader
        and 32 data times, and the data times carry an address and the command, each with
        its complement.
     2. `command_heard`: an edge changes `ir_command` only so.
     3. `spaced_step`, `Spaced.of_stored`: from one stored command to the next there are
        at least 33 falling edges. -/
namespace RoboticArm

/-- The receiver, the ticks since the last rising edge or power-on, and the readings at the
falling edges so far, oldest first. -/
structure Heard where
  nec : Nec
  ticks : Nat
  falls : List UInt32

def Heard.boot : Heard := ⟨Nec.boot, 0, []⟩

/-- A rising edge starts the count again. -/
def ticksAfter (n : Nat) : NecEvent → Nat
  | .tick => n + 1
  | .edge high => if high then 0 else n
  | .clear => n

def heardStep (s : Heard) (e : NecEvent) : Heard where
  nec := necStep s.nec e
  ticks := ticksAfter s.ticks e
  falls := if e = .edge false then s.falls ++ [UInt32.ofNat s.ticks] else s.falls

/-- The command of the 32 bits, if they pass the check. -/
def Nec.accepted (s : Nec) : Option UInt8 :=
  let (a, ai, c, ci) := collect s.bits
  if a ^^^ ai = 0xff ∧ c ^^^ ci = 0xff then some c else none

/-- The command that the callback stores at an edge. -/
def irStored (high : Bool) (s : Nec) : Option UInt8 :=
  let d := s.time125us
  if high then none
  else if s.state = 1 then
    let s :=
      if 3 ≤ d ∧ d ≤ 7 then s.storeBit 0
      else if 11 ≤ d ∧ d ≤ 17 then s.storeBit 1
      else { s with state := 0 }
    if s.bitCount = 32 then s.accepted else none
  else none

theorem accepted_eq (s : Nec) :
    s.accepted =
      if gather s.bits 0 8 ^^^ gather s.bits 8 8 = 0xff ∧
          gather s.bits 16 8 ^^^ gather s.bits 24 8 = 0xff then
        some (gather s.bits 16 8)
      else none := by
  rw [Nec.accepted, collect_eq]

theorem acceptFrame_command (s : Nec) : s.acceptFrame.irCommand = s.accepted.getD s.irCommand := by
  rw [acceptFrame_eq, accepted_eq]
  split <;> rfl

theorem callback_command (high : Bool) (s : Nec) :
    (irExtiCallback high s).irCommand = (irStored high s).getD s.irCommand := by
  cases high with
  | true => rfl
  | false =>
    simp only [irExtiCallback, irStored, Bool.false_eq_true, if_false]
    by_cases hidle : s.state = 0
    · have hout : ¬s.state = 1 := by
        rw [hidle]
        decide
      rw [if_pos hidle, if_neg hout]
      split_ifs <;> rfl
    · rw [if_neg hidle]
      by_cases hdata : s.state = 1
      · rw [if_pos hdata, if_pos hdata]
        split_ifs <;> first | rfl | exact acceptFrame_command _
      · rw [if_neg hdata, if_neg hdata]
        rfl

/-! ## What backs a frame -/

/-- A reading in the range of a leader. -/
def LeaderTicks (d : UInt32) : Prop := 34 ≤ d ∧ d ≤ 40

/-- A reading in the range of a bit. -/
def DataTicks (b : Bool) (d : UInt32) : Prop := if b then 11 ≤ d ∧ d ≤ 17 else 3 ≤ d ∧ d ≤ 7

/-- The last readings are a leader and `n` data times, which carry the first bits of `f`. -/
structure Backed (falls : List UInt32) (f : Nat → Bool) (n : Nat) : Prop where
  frame : ∃ before leader data, falls = before ++ leader :: data ∧ LeaderTicks leader ∧
    data.length = n ∧ ∀ k < n, DataTicks (f k) (data.getD k 0)

/-- The bit that a cell of `bits[]` stands for. -/
def bitOf (v : UInt8) : Bool := v == 1

theorem bitOf_bitByte (b : Bool) : bitOf (bitByte b) = b := by
  cases b <;> rfl

namespace Backed

variable {falls : List UInt32} {f : Nat → Bool} {n : Nat}

theorem leader {d : UInt32} (hd : LeaderTicks d) (falls : List UInt32) (f : Nat → Bool) :
    Backed (falls ++ [d]) f 0 :=
  ⟨falls, d, [], rfl, hd, rfl, fun _ hk => absurd hk (Nat.not_lt_zero _)⟩

theorem snoc (h : Backed falls f n) {b : Bool} {d : UInt32} (hd : DataTicks b d) :
    Backed (falls ++ [d]) (Function.update f n b) (n + 1) := by
  obtain ⟨before, leader, data, rfl, hleader, hlength, hdata⟩ := h.frame
  refine ⟨before, leader, data ++ [d], ?_, hleader, ?_, ?_⟩
  · rw [List.append_assoc, List.cons_append]
  · rw [List.length_append, List.length_singleton, hlength]
  · intro k hk
    rcases Nat.lt_succ_iff_lt_or_eq.1 hk with hlt | rfl
    · rw [List.getD_append _ _ _ _ (by omega), Function.update_of_ne hlt.ne]
      exact hdata k hlt
    · rw [List.getD_append_right _ _ _ _ (by omega), hlength, Nat.sub_self, Function.update_self]
      exact hd

theorem congr (h : Backed falls f n) {g : Nat → Bool} (hfg : ∀ k < n, f k = g k) :
    Backed falls g n := by
  obtain ⟨before, leader, data, hfalls, hleader, hlength, hdata⟩ := h.frame
  refine ⟨before, leader, data, hfalls, hleader, hlength, ?_⟩
  intro k hk
  rw [← hfg k hk]
  exact hdata k hk

end Backed

/-- The cells below `n` hold bits, and these were heard. -/
structure Stored (s : Nec) (falls : List UInt32) (n : Nat) : Prop where
  clean : ∀ k < n, s.bits k = bitByte (bitOf (s.bits k))
  heard : Backed falls (fun k => bitOf (s.bits k)) n

/-- The counter shows the ticks; inside a frame, the bits stored so far were heard. -/
structure Attentive (s : Heard) : Prop where
  safe : s.nec.Safe
  counter : s.nec.time125us = UInt32.ofNat s.ticks
  stored : s.nec.state = 1 → Stored s.nec s.falls s.nec.bitCount.toNat

theorem attentive_boot : Attentive Heard.boot :=
  ⟨safe_boot, rfl, fun hdata => absurd (show (0 : UInt8) = 1 from hdata) (by decide)⟩

section
variable {s : Nec} {falls : List UInt32}

theorem Stored.storeBit (h : Stored s falls s.bitCount.toNat) {b : Bool} {d : UInt32}
    (hd : DataTicks b d) :
    Stored (s.storeBit (bitByte b)) (falls ++ [d]) (s.bitCount.toNat + 1) := by
  have hnew : (s.storeBit (bitByte b)).bits s.bitCount.toNat = bitByte b := Function.update_self _ _ _
  have hold : ∀ k < s.bitCount.toNat, (s.storeBit (bitByte b)).bits k = s.bits k :=
    fun k hk => Function.update_of_ne hk.ne _ _
  constructor
  · intro k hk
    rcases Nat.lt_succ_iff_lt_or_eq.1 hk with hlt | rfl
    · rw [hold k hlt]
      exact h.clean k hlt
    · rw [hnew, bitOf_bitByte]
  · apply (h.heard.snoc hd).congr
    intro k hk
    rcases Nat.lt_succ_iff_lt_or_eq.1 hk with hlt | rfl
    · rw [Function.update_of_ne hlt.ne, hold k hlt]
    · rw [Function.update_self, hnew, bitOf_bitByte]

/-- What a falling edge inside a frame does: a bit is stored, or the frame is given up. -/
theorem falling_data (hdata : s.state = 1) (hsafe : s.Safe) :
    (∃ b, DataTicks b s.time125us ∧
      (irExtiCallback false s =
        if (s.storeBit (bitByte b)).bitCount = 32 then
          { (s.storeBit (bitByte b)).acceptFrame with state := 0 }
        else s.storeBit (bitByte b)) ∧
      irStored false s =
        if (s.storeBit (bitByte b)).bitCount = 32 then (s.storeBit (bitByte b)).accepted else none) ∨
    irExtiCallback false s = { s with state := 0 } ∧ irStored false s = none := by
  have hstate : ¬s.state = 0 := by
    rw [hdata]
    decide
  have hroom := hsafe.room hdata
  have hopen : ¬s.bitCount = 32 := by
    intro heq
    rw [heq] at hroom
    exact absurd hroom (by decide)
  simp only [irExtiCallback, irStored, Bool.false_eq_true, if_false, if_neg hstate, if_pos hdata]
  by_cases hzero : 3 ≤ s.time125us ∧ s.time125us ≤ 7
  · left
    rw [if_pos hzero]
    exact ⟨false, hzero, rfl, rfl⟩
  · by_cases hone : 11 ≤ s.time125us ∧ s.time125us ≤ 17
    · left
      rw [if_neg hzero, if_pos hone]
      exact ⟨true, hone, rfl, rfl⟩
    · right
      rw [if_neg hzero, if_neg hone]
      exact ⟨if_neg hopen, if_neg hopen⟩

theorem falling_idle (hidle : s.state = 0) :
    LeaderTicks s.time125us ∧ irExtiCallback false s = { s with state := 1, bitCount := 0 } ∨
      (irExtiCallback false s).state = 0 := by
  simp only [irExtiCallback, Bool.false_eq_true, if_false, if_pos hidle]
  by_cases hleader : 34 ≤ s.time125us ∧ s.time125us ≤ 40
  · left
    exact ⟨hleader, if_pos hleader⟩
  · right
    rw [if_neg hleader]
    split
    · exact hidle
    · exact hidle

/-- A frame that passes the check carries the address and the command it is stored as. -/
theorem necBits_of_check (h : Stored s falls 32) (hcount : s.bitCount = 32) (hdata : s.state = 1)
    (haddress : gather s.bits 0 8 ^^^ gather s.bits 8 8 = 0xff)
    (hcommand : gather s.bits 16 8 ^^^ gather s.bits 24 8 = 0xff) :
    Backed falls (necBits (gather s.bits 0 8) (gather s.bits 16 8)) 32 := by
  have hreceiving : s.Receiving s.outputs (fun k => bitOf (s.bits k)) 32 :=
    ⟨hdata, by rw [hcount]; rfl, h.clean, rfl⟩
  have hpairs := (check_iff hreceiving 0 (by omega)).1 haddress
  have hpairs' := (check_iff hreceiving 16 (by omega)).1 hcommand
  apply h.heard.congr
  intro k hk
  by_cases h8 : k < 8
  · rw [necBits, if_pos h8, gather_bits hreceiving (by omega) h8, Nat.add_zero]
  · by_cases h16 : k < 16
    · have hk' := hpairs (k - 8) (by omega)
      rw [necBits, if_neg h8, if_pos h16, gather_bits hreceiving (by omega) (by omega), ← hk',
        show k - 8 + (0 + 8) = k by omega]
    · by_cases h24 : k < 24
      · rw [necBits, if_neg h8, if_neg h16, if_pos h24, gather_bits hreceiving (by omega) (by omega),
          Nat.sub_add_cancel (by omega)]
      · have hk' := hpairs' (k - 24) (by omega)
        rw [necBits, if_neg h8, if_neg h16, if_neg h24,
          gather_bits hreceiving (by omega) (by omega), ← hk', show k - 24 + (16 + 8) = k by omega]

theorem stored_last (h : s.Safe) {high : Bool} {c : UInt8} (hc : irStored high s = some c) :
    high = false ∧ s.state = 1 ∧ ∃ b, DataTicks b s.time125us ∧
      (s.storeBit (bitByte b)).bitCount = 32 ∧ (s.storeBit (bitByte b)).accepted = some c ∧
      (irExtiCallback false s).state = 0 := by
  cases high with
  | true => exact absurd hc.symm (Option.some_ne_none c)
  | false =>
    rcases h.state with hidle | hdata
    · have hout : ¬s.state = 1 := by
        rw [hidle]
        decide
      simp only [irStored, Bool.false_eq_true, if_false, if_neg hout] at hc
      exact absurd hc.symm (Option.some_ne_none c)
    · refine ⟨rfl, hdata, ?_⟩
      rcases falling_data hdata h with ⟨b, hb, hstore, hstored⟩ | ⟨-, hnone⟩
      · have hfull : (s.storeBit (bitByte b)).bitCount = 32 := by
          by_contra hmore
          rw [hstored, if_neg hmore] at hc
          exact absurd hc.symm (Option.some_ne_none c)
        rw [hstored, if_pos hfull] at hc
        rw [if_pos hfull] at hstore
        exact ⟨b, hb, hfull, hc, by rw [hstore]⟩
      · rw [hnone] at hc
        exact absurd hc.symm (Option.some_ne_none c)

/-! ## From one command to the next -/

/-- The bits of the frame in progress, with its leader, were heard within the last `n`
falling edges. -/
def Spaced (n : Nat) (s : Nec) : Prop := s.state = 1 → s.bitCount.toNat + 1 ≤ n

theorem spaced_step {n : Nat} (hsafe : s.Safe) (h : Spaced n s) (e : NecEvent) :
    Spaced (if e = .edge false then n + 1 else n) (necStep s e) := by
  cases e with
  | tick => exact h
  | clear => exact h
  | edge high =>
    cases high with
    | true => exact h
    | false =>
      show (irExtiCallback false s).state = 1 →
        (irExtiCallback false s).bitCount.toNat + 1 ≤ n + 1
      intro hnext
      have hbusy : ¬(0 : UInt8) = 1 := by decide
      rcases hsafe.state with hidle | hdata
      · rcases falling_idle hidle with ⟨-, hopen⟩ | hstays
        · rw [hopen]
          exact Nat.succ_le_succ (Nat.zero_le n)
        · rw [hstays] at hnext
          exact absurd hnext hbusy
      · rcases falling_data hdata hsafe with ⟨b, -, hstore, -⟩ | ⟨hreset, -⟩
        · rw [hstore] at hnext ⊢
          split at hnext
          · exact absurd hnext hbusy
          · next hmore =>
            rw [if_neg hmore, (safe_storeBit hsafe hdata (bitByte b)).1]
            exact Nat.succ_le_succ (h hdata)
        · rw [hreset] at hnext
          exact absurd hnext hbusy

/-- A command stored `n` falling edges after the frame before comes with the 33rd or later. -/
theorem Spaced.of_stored {n : Nat} (h : Spaced n s) (hsafe : s.Safe) {high : Bool} {c : UInt8}
    (hc : irStored high s = some c) : 32 ≤ n := by
  obtain ⟨-, hdata, b, -, hfull, -, -⟩ := stored_last hsafe hc
  have hcount := (safe_storeBit hsafe hdata (bitByte b)).1
  rw [hfull] at hcount
  have h32 : 32 = s.bitCount.toNat + 1 := hcount
  exact h32.le.trans (h hdata)

end

/-! ## Steps -/

variable {s : Heard}

theorem stored_storeBit (h : Attentive s) (hdata : s.nec.state = 1) {b : Bool}
    (hb : DataTicks b s.nec.time125us) :
    Stored (s.nec.storeBit (bitByte b)) (s.falls ++ [s.nec.time125us])
      (s.nec.storeBit (bitByte b)).bitCount.toNat := by
  rw [(safe_storeBit h.safe hdata (bitByte b)).1]
  exact (h.stored hdata).storeBit hb

theorem callback_counter (s : Nec) : (irExtiCallback false s).time125us = s.time125us := by
  have haccept : ∀ s : Nec, s.acceptFrame.time125us = s.time125us := by
    intro s
    simp only [Nec.acceptFrame]
    split <;> rfl
  simp only [irExtiCallback, Bool.false_eq_true, if_false]
  split_ifs <;> first | rfl | exact haccept _

theorem counter_step (h : Attentive s) (e : NecEvent) :
    (heardStep s e).nec.time125us = UInt32.ofNat (heardStep s e).ticks := by
  cases e with
  | tick =>
    show s.nec.time125us + 1 = UInt32.ofNat (s.ticks + 1)
    rw [h.counter, UInt32.ofNat_add]
    rfl
  | clear => exact h.counter
  | edge high =>
    cases high with
    | true => rfl
    | false => exact (callback_counter s.nec).trans h.counter

theorem attentive_step (h : Attentive s) (e : NecEvent) : Attentive (heardStep s e) := by
  refine ⟨safe_step s.nec e h.safe, counter_step h e, ?_⟩
  cases e with
  | tick => exact fun hdata => ⟨(h.stored hdata).clean, (h.stored hdata).heard⟩
  | clear => exact fun hdata => ⟨(h.stored hdata).clean, (h.stored hdata).heard⟩
  | edge high =>
    cases high with
    | true => exact fun hdata => ⟨(h.stored hdata).clean, (h.stored hdata).heard⟩
    | false =>
      show (irExtiCallback false s.nec).state = 1 →
        Stored (irExtiCallback false s.nec) (s.falls ++ [UInt32.ofNat s.ticks])
          (irExtiCallback false s.nec).bitCount.toNat
      rw [← h.counter]
      intro hnext
      have hbusy : ¬(0 : UInt8) = 1 := by decide
      rcases h.safe.state with hidle | hdata
      · rcases falling_idle hidle with ⟨hleader, hopen⟩ | hstays
        · rw [hopen]
          exact ⟨fun _ hk => absurd hk (Nat.not_lt_zero _), Backed.leader hleader _ _⟩
        · rw [hstays] at hnext
          exact absurd hnext hbusy
      · rcases falling_data hdata h.safe with ⟨b, hb, hstore, -⟩ | ⟨hreset, -⟩
        · rw [hstore] at hnext ⊢
          split at hnext
          · exact absurd hnext hbusy
          · next hmore =>
            rw [if_neg hmore]
            exact stored_storeBit h hdata hb
        · rw [hreset] at hnext
          exact absurd hnext hbusy

/-- An edge that stores a command is the last one of a frame that carries it. -/
theorem stored_step (h : Attentive s) {high : Bool} {c : UInt8}
    (hc : irStored high s.nec = some c) :
    ∃ a, Backed (heardStep s (.edge high)).falls (necBits a c) 32 := by
  obtain ⟨rfl, hdata, b, hb, hfull, haccepted, -⟩ := stored_last h.safe hc
  have hstored := stored_storeBit h hdata hb
  have hstate : (s.nec.storeBit (bitByte b)).state = 1 := hdata
  show ∃ a, Backed (s.falls ++ [UInt32.ofNat s.ticks]) (necBits a c) 32
  rw [← h.counter]
  generalize s.nec.storeBit (bitByte b) = u at hstored hstate hfull haccepted
  rw [hfull] at hstored
  rw [accepted_eq] at haccepted
  split at haccepted
  · next hcheck =>
    obtain rfl := Option.some.inj haccepted
    exact ⟨_, necBits_of_check hstored hfull hstate hcheck.1 hcheck.2⟩
  · exact absurd haccepted.symm (Option.some_ne_none c)

/-! ## Runs -/

/-- The start key of the remote: all of its frame but the last edge. -/
def almostStart : List NecEvent :=
  (NecFrame.plain 50 (necBits 0 0x45)).events.dropLast

end RoboticArm
