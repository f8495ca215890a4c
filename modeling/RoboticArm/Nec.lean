import RoboticArm.Runs
import Mathlib.Data.Nat.Basic
import Mathlib.Logic.Function.Basic
import Mathlib.Tactic.IntervalCases

/- The infrared receiver: `IR_EXTI_Callback` of `ir.c`, called by
   `EXTI15_10_IRQHandler` on every edge of the pin, and the counter `time_125us`
   that `TIM1_UP_IRQHandler` drives.

   The callback times the high phases: a rising edge clears the counter, a falling
   edge reads it and acts on `state`, which is 0 between frames and 1 inside one.
   `necStep` is one tick, one edge with the level the callback reads, or the
   `ir_command = 0` of the main loop. The field `writes` records the indices at
   which `bits[]` was written and is read by no code.

   Correspondence (C ↔ Lean):
     `time_125us`, `state`, `bits`, `bitCount`          ↔ the fields of `Nec`
     `ir_address`, `ir_command`, `ir_frame_ready`, ..   ↔ the fields of `Nec`
     the `for` loop over `bits[]`                       ↔ `collect`
     `IR_EXTI_Callback`                                 ↔ `irExtiCallback` -/
namespace RoboticArm

structure Nec where
  time125us : UInt32
  state : UInt8
  bits : Nat → UInt8
  bitCount : UInt8
  irAddress : UInt8
  irAddressInv : UInt8
  irCommand : UInt8
  irCommandInv : UInt8
  irFrameReady : UInt8
  writes : List Nat

def Nec.boot : Nec := ⟨0, 0, fun _ => 0, 0, 0, 0, 0, 0, 0, []⟩

/-- `bits[bitCount++] = v`. -/
def Nec.storeBit (v : UInt8) (s : Nec) : Nec :=
  { s with
    bits := Function.update s.bits s.bitCount.toNat v
    bitCount := s.bitCount + 1
    writes := s.bitCount.toNat :: s.writes }

/-- `a |= bit << i`. -/
def orBit (a bit : UInt8) (i : Nat) : UInt8 := a ||| (bit <<< UInt8.ofNat i)

/-- The four bytes `a`, `ai`, `c`, `ci` of a frame. -/
def collect (bits : Nat → UInt8) : UInt8 × UInt8 × UInt8 × UInt8 :=
  (List.range 8).foldl
    (fun (a, ai, c, ci) i =>
      (orBit a (bits i) i, orBit ai (bits (i + 8)) i, orBit c (bits (i + 16)) i,
        orBit ci (bits (i + 24)) i))
    (0, 0, 0, 0)

/-- What 32 bits are checked and stored as. -/
def Nec.acceptFrame (s : Nec) : Nec :=
  let (a, ai, c, ci) := collect s.bits
  if a ^^^ ai = 0xff ∧ c ^^^ ci = 0xff then
    { s with
      irAddress := a, irAddressInv := ai, irCommand := c, irCommandInv := ci, irFrameReady := 1 }
  else s

def irExtiCallback (high : Bool) (s : Nec) : Nec :=
  let d := s.time125us
  if high then { s with time125us := 0 }
  else if s.state = 0 then
    if 34 ≤ d ∧ d ≤ 40 then { s with state := 1, bitCount := 0 }
    else if 16 ≤ d ∧ d ≤ 20 then { s with irFrameReady := 2 }
    else s
  else if s.state = 1 then
    let s :=
      if 3 ≤ d ∧ d ≤ 7 then s.storeBit 0
      else if 11 ≤ d ∧ d ≤ 17 then s.storeBit 1
      else { s with state := 0 }
    if s.bitCount = 32 then { s.acceptFrame with state := 0 } else s
  else s

inductive NecEvent where
  | tick
  | edge (high : Bool)
  | clear
  deriving DecidableEq, Repr

def necStep (s : Nec) : NecEvent → Nec
  | .tick => { s with time125us := s.time125us + 1 }
  | .edge high => irExtiCallback high s
  | .clear => { s with irCommand := 0 }

/-! ## The index into `bits[]` -/

/-- Inside a frame there is room for one more bit, and no write was ever out of range. -/
structure Nec.Safe (s : Nec) : Prop where
  state : s.state = 0 ∨ s.state = 1
  room : s.state = 1 → s.bitCount.toNat < 32
  writes : ∀ i ∈ s.writes, i < 32

theorem safe_boot : Nec.boot.Safe where
  state := Or.inl rfl
  room := nofun
  writes := nofun

theorem acceptFrame_writes (s : Nec) : s.acceptFrame.writes = s.writes := by
  simp only [Nec.acceptFrame]
  split <;> rfl

theorem toNat_succ_bitCount {n : UInt8} (h : n.toNat < 32) : (n + 1).toNat = n.toNat + 1 := by
  rw [UInt8.toNat_add]
  exact Nat.mod_eq_of_lt (by simp only [UInt8.toNat_one]; omega)

/-- A bit stored inside a frame: the count goes up, and reaches 32 at most. -/
theorem safe_storeBit {s : Nec} (h : s.Safe) (hstate : s.state = 1) (v : UInt8) :
    (s.storeBit v).bitCount.toNat = s.bitCount.toNat + 1 ∧ (s.storeBit v).bitCount.toNat ≤ 32 ∧
      ∀ i ∈ (s.storeBit v).writes, i < 32 := by
  have hroom := h.room hstate
  have hcount : (s.storeBit v).bitCount.toNat = s.bitCount.toNat + 1 := toNat_succ_bitCount hroom
  refine ⟨hcount, by omega, ?_⟩
  intro i hi
  rcases List.mem_cons.1 hi with rfl | hi
  · exact hroom
  · exact h.writes i hi

theorem safe_endBit {s : Nec} (hstate : s.state = 0 ∨ s.state = 1) (hcount : s.bitCount.toNat ≤ 32)
    (hwrites : ∀ i ∈ s.writes, i < 32) :
    (if s.bitCount = 32 then { s.acceptFrame with state := 0 } else s).Safe := by
  by_cases hfull : s.bitCount = 32
  · rw [if_pos hfull]
    refine ⟨Or.inl rfl, ?_, ?_⟩
    · intro hone
      have hzero : (0 : UInt8) = 1 := hone
      exact absurd hzero (by decide)
    · intro i hi
      rw [acceptFrame_writes] at hi
      exact hwrites i hi
  · rw [if_neg hfull]
    refine ⟨hstate, ?_, hwrites⟩
    intro _
    have hne : s.bitCount.toNat ≠ 32 := fun heq => hfull (UInt8.toNat_inj.1 heq)
    omega

theorem safe_step (s : Nec) (e : NecEvent) (h : s.Safe) : (necStep s e).Safe := by
  cases e with
  | tick => exact ⟨h.state, h.room, h.writes⟩
  | clear => exact ⟨h.state, h.room, h.writes⟩
  | edge high =>
    cases high with
    | true => exact ⟨h.state, h.room, h.writes⟩
    | false =>
      simp only [necStep, irExtiCallback, Bool.false_eq_true, if_false]
      rcases h.state with hidle | hdata
      · rw [if_pos hidle]
        split
        · refine ⟨Or.inr rfl, ?_, h.writes⟩
          intro _
          exact Nat.zero_lt_succ 31
        · split
          · exact ⟨h.state, h.room, h.writes⟩
          · exact h
      · rw [if_neg (by rw [hdata]; decide), if_pos hdata]
        split
        · obtain ⟨-, hcount, hwrites⟩ := safe_storeBit h hdata 0
          exact safe_endBit (Or.inr hdata) hcount hwrites
        · split
          · obtain ⟨-, hcount, hwrites⟩ := safe_storeBit h hdata 1
            exact safe_endBit (Or.inr hdata) hcount hwrites
          · have hroom := h.room hdata
            exact safe_endBit (Or.inl rfl) (by dsimp only; omega) h.writes

theorem safe_run (es : List NecEvent) : (Runs.exec necStep Nec.boot es).Safe :=
  Runs.exec_inv safe_step es safe_boot

/-! ## Ticks and pulses -/

theorem exec_ticks (n : Nat) (s : Nec) :
    Runs.exec necStep s (List.replicate n .tick) =
      { s with time125us := s.time125us + UInt32.ofNat n } := by
  induction n generalizing s with
  | zero =>
    have hzero : s.time125us + UInt32.ofNat 0 = s.time125us := UInt32.add_zero _
    rw [hzero]
    rfl
  | succ n ih =>
    have hsucc : s.time125us + 1 + UInt32.ofNat n = s.time125us + UInt32.ofNat (n + 1) := by
      rw [UInt32.ofNat_add, UInt32.add_assoc, UInt32.add_comm 1]
      rfl
    rw [List.replicate_succ, Runs.exec_cons, ih]
    simp only [necStep, hsucc]

/-- A low phase and the high phase after it. -/
def pulse (low high : Nat) : List NecEvent :=
  List.replicate low .tick ++ .edge true :: (List.replicate high .tick ++ [.edge false])

/-- Only the high phase is timed. -/
theorem exec_pulse (low high : Nat) (s : Nec) :
    Runs.exec necStep s (pulse low high) =
      irExtiCallback false { s with time125us := UInt32.ofNat high } := by
  rw [pulse, Runs.exec_append, exec_ticks, Runs.exec_cons, Runs.exec_append, exec_ticks]
  simp only [necStep, irExtiCallback, if_true, UInt32.zero_add, Runs.exec_cons, Runs.exec_nil]

/-! ## Bytes out of bits -/

/-- The value `bits[]` holds for a bit. -/
def bitByte (b : Bool) : UInt8 := if b then 1 else 0

/-- One of the four accumulators of `collect`, from the bits at `start` on. -/
def gather (bits : Nat → UInt8) (start n : Nat) : UInt8 :=
  (List.range n).foldl (fun a i => orBit a (bits (i + start)) i) 0

theorem collect_eq (bits : Nat → UInt8) :
    collect bits = (gather bits 0 8, gather bits 8 8, gather bits 16 8, gather bits 24 8) := rfl

theorem getLsbD_shifted (b : Bool) :
    ∀ i < 8, ∀ j < 8, (bitByte b <<< UInt8.ofNat i).toBitVec.getLsbD j = (b && decide (i = j)) := by
  cases b <;> decide

theorem getLsbD_gather {bits : Nat → UInt8} {f : Nat → Bool} {start : Nat}
    (hbits : ∀ i < 8, bits (i + start) = bitByte (f i)) :
    ∀ n ≤ 8, ∀ j < 8, (gather bits start n).toBitVec.getLsbD j = (decide (j < n) && f j) := by
  intro n
  induction n with
  | zero =>
    intro _ j _
    simp [gather]
  | succ n ih =>
    intro hn j hj
    have hbefore := ih (by omega) j hj
    have hbit := getLsbD_shifted (f n) n (by omega) j hj
    rw [gather, List.range_succ, List.foldl_append, List.foldl_cons, List.foldl_nil, ← gather, orBit,
      hbits n (by omega), UInt8.toBitVec_or, BitVec.getLsbD_or, hbefore, hbit]
    by_cases hlt : j < n
    · simp [hlt, show j < n + 1 by omega, show ¬n = j by omega]
    · by_cases heq : n = j
      · subst heq
        simp
      · simp [hlt, heq, show ¬j < n + 1 by omega]

theorem byte_ext {x y : UInt8} (h : ∀ i < 8, x.toBitVec.getLsbD i = y.toBitVec.getLsbD i) : x = y := by
  apply UInt8.toBitVec_inj.1
  apply BitVec.eq_of_getLsbD_eq
  intro i hi
  exact h i hi

/-- The check of a byte against its complement looks at every bit. -/
theorem complement_check (x y : UInt8) :
    x ^^^ y = 0xff ↔ ∀ i < 8, y.toBitVec.getLsbD i = !x.toBitVec.getLsbD i := by
  have hones : ∀ i < 8, (0xff : UInt8).toBitVec.getLsbD i = true := by decide
  constructor
  · intro h i hi
    have hi' := congrArg (fun z : UInt8 => z.toBitVec.getLsbD i) h
    simp only [UInt8.toBitVec_xor, BitVec.getLsbD_xor, hones i hi] at hi'
    revert hi'
    cases x.toBitVec.getLsbD i <;> cases y.toBitVec.getLsbD i <;> decide
  · intro h
    apply byte_ext
    intro i hi
    rw [UInt8.toBitVec_xor, BitVec.getLsbD_xor, h i hi, hones i hi]
    cases x.toBitVec.getLsbD i <;> rfl

/-! ## Frames -/

/-- The 32 bits of a frame: `a`, `~a`, `c`, `~c`, each with its lowest bit first. -/
def necBits (a c : UInt8) (k : Nat) : Bool :=
  if k < 8 then a.toBitVec.getLsbD k
  else if k < 16 then !a.toBitVec.getLsbD (k - 8)
  else if k < 24 then c.toBitVec.getLsbD (k - 16)
  else !c.toBitVec.getLsbD (k - 24)

/-- The same bits with one of them inverted. -/
def flipAt (k : Nat) (f : Nat → Bool) : Nat → Bool := Function.update f k (!f k)

/-- A high time, in ticks, that carries the bit. -/
def DataTime (b : Bool) (n : Nat) : Prop := if b then 11 ≤ n ∧ n ≤ 17 else 3 ≤ n ∧ n ≤ 7

/-- A complete frame on the wire, in ticks: the gap before its first falling edge, the
leader, and 32 pulses that carry the bits `f`. Low times are free. -/
structure NecFrame (f : Nat → Bool) where
  gap : Nat
  leaderLow : Nat
  leaderHigh : Nat
  low : Nat → Nat
  high : Nat → Nat
  leader : 34 ≤ leaderHigh ∧ leaderHigh ≤ 40
  data : ∀ k < 32, DataTime (f k) (high k)

/-- The pulses of the first `n` bits. -/
def NecFrame.pulses {f : Nat → Bool} (fr : NecFrame f) (n : Nat) : List NecEvent :=
  (List.range n).flatMap fun k => pulse (fr.low k) (fr.high k)

def NecFrame.events {f : Nat → Bool} (fr : NecFrame f) : List NecEvent :=
  List.replicate fr.gap .tick ++ .edge false :: (pulse fr.leaderLow fr.leaderHigh ++ fr.pulses 32)

/-- What a frame can change for the main loop. -/
def Nec.outputs (s : Nec) : UInt8 × UInt8 × UInt8 := (s.irAddress, s.irCommand, s.irFrameReady)

/-- Inside a frame with `n` bits of `f` in, and the outputs as `o`. -/
structure Nec.Receiving (s : Nec) (o : UInt8 × UInt8 × UInt8) (f : Nat → Bool) (n : Nat) : Prop where
  state : s.state = 1
  count : s.bitCount.toNat = n
  bits : ∀ i < n, s.bits i = bitByte (f i)
  outputs : s.outputs = o

/-- A gap that the counter shows as more than 40 ticks ends whatever was going on. -/
theorem falling_afterGap {s : Nec} (h : s.Safe) (hgap : 40 < s.time125us) :
    (irExtiCallback false s).state = 0 ∧ (irExtiCallback false s).outputs = s.outputs := by
  have hlong : ∀ k : UInt32, k ≤ 40 → ¬s.time125us ≤ k := by
    intro k hk hle
    exact absurd (UInt32.lt_of_lt_of_le hgap (UInt32.le_trans hle hk)) (UInt32.lt_irrefl _)
  have h40 := hlong 40 (by decide)
  have h20 := hlong 20 (by decide)
  have h17 := hlong 17 (by decide)
  have h7 := hlong 7 (by decide)
  simp only [irExtiCallback, Bool.false_eq_true, if_false, h40, h20, h17, h7, and_false]
  rcases h.state with hidle | hdata
  · rw [if_pos hidle]
    exact ⟨hidle, rfl⟩
  · have hroom := h.room hdata
    have hopen : ¬s.bitCount = 32 := by
      intro heq
      rw [heq] at hroom
      exact absurd hroom (by decide)
    rw [if_neg (by rw [hdata]; decide), if_pos hdata, if_neg hopen]
    exact ⟨rfl, rfl⟩

theorem receiving_leader {s : Nec} (hidle : s.state = 0) (f : Nat → Bool) (low : Nat) {high : Nat}
    (hhigh : 34 ≤ high ∧ high ≤ 40) :
    (Runs.exec necStep s (pulse low high)).Receiving s.outputs f 0 := by
  have hleader : 34 ≤ UInt32.ofNat high ∧ UInt32.ofNat high ≤ 40 := by
    obtain ⟨hlo, hhi⟩ := hhigh
    interval_cases high <;> decide
  rw [exec_pulse]
  simp only [irExtiCallback, Bool.false_eq_true, if_false]
  rw [if_pos hidle, if_pos hleader]
  exact ⟨rfl, rfl, nofun, rfl⟩

theorem dataTime_window {b : Bool} {n : Nat} (h : DataTime b n) :
    if b then ¬(3 ≤ UInt32.ofNat n ∧ UInt32.ofNat n ≤ 7) ∧ 11 ≤ UInt32.ofNat n ∧ UInt32.ofNat n ≤ 17
    else 3 ≤ UInt32.ofNat n ∧ UInt32.ofNat n ≤ 7 := by
  cases b with
  | false =>
    obtain ⟨hlo, hhi⟩ : 3 ≤ n ∧ n ≤ 7 := h
    interval_cases n <;> decide
  | true =>
    obtain ⟨hlo, hhi⟩ : 11 ≤ n ∧ n ≤ 17 := h
    interval_cases n <;> decide

/-- A data pulse stores its bit, and the 32nd ends the frame. -/
theorem exec_dataPulse {s : Nec} (hdata : s.state = 1) {b : Bool} {low high : Nat}
    (hhigh : DataTime b high) :
    Runs.exec necStep s (pulse low high) =
      let u := { s with time125us := UInt32.ofNat high }.storeBit (bitByte b)
      if u.bitCount = 32 then { u.acceptFrame with state := 0 } else u := by
  have hwindow := dataTime_window hhigh
  have hstate : ¬s.state = 0 := by
    rw [hdata]
    decide
  rw [exec_pulse]
  simp only [irExtiCallback, Bool.false_eq_true, if_false, if_neg hstate, if_pos hdata]
  cases b with
  | false =>
    have hzero : 3 ≤ UInt32.ofNat high ∧ UInt32.ofNat high ≤ 7 := hwindow
    rw [if_pos hzero]
    rfl
  | true =>
    obtain ⟨hnot, hone⟩ := hwindow
    rw [if_neg hnot, if_pos hone]
    rfl

theorem receiving_storeBit {s : Nec} {o : UInt8 × UInt8 × UInt8} {f : Nat → Bool} {n : Nat}
    (h : s.Receiving o f n) (hn : n < 32) (d : UInt32) :
    ({ s with time125us := d }.storeBit (bitByte (f n))).Receiving o f (n + 1) where
  state := h.state
  count := by
    have hcount := h.count
    have hsucc : (s.bitCount + 1).toNat = s.bitCount.toNat + 1 := toNat_succ_bitCount (by omega)
    rw [← h.count]
    exact hsucc
  bits := by
    intro i hi
    simp only [Nec.storeBit]
    by_cases heq : i = n
    · rw [h.count, heq, Function.update_self]
    · rw [h.count, Function.update_of_ne heq]
      exact h.bits i (by omega)
  outputs := h.outputs

theorem receiving_pulses {s : Nec} {o : UInt8 × UInt8 × UInt8} {f : Nat → Bool} (fr : NecFrame f)
    (h : s.Receiving o f 0) {n : Nat} (hn : n ≤ 31) :
    (Runs.exec necStep s (fr.pulses n)).Receiving o f n := by
  induction n with
  | zero => exact h
  | succ n ih =>
    have hbefore := ih (by omega)
    have hstored := receiving_storeBit hbefore (by omega) (UInt32.ofNat (fr.high n))
    have hopen : ¬(Nec.storeBit (bitByte (f n))
        { Runs.exec necStep s (fr.pulses n) with
          time125us := UInt32.ofNat (fr.high n) }).bitCount = 32 := by
      intro hfull
      have hcount := hstored.count
      rw [hfull] at hcount
      have h32 : 32 = n + 1 := hcount
      omega
    rw [NecFrame.pulses, List.range_succ, List.flatMap_append, List.flatMap_cons, List.flatMap_nil,
      List.append_nil, Runs.exec_append, ← NecFrame.pulses,
      exec_dataPulse hbefore.state (fr.data n (by omega))]
    simp only [if_neg hopen]
    exact hstored

/-- After a complete frame, its 32 bits have been checked once. -/
theorem exec_frame {s : Nec} (h : s.Safe) {f : Nat → Bool} (fr : NecFrame f)
    (hgap : 40 < s.time125us + UInt32.ofNat fr.gap) :
    ∃ u : Nec, u.Receiving s.outputs f 32 ∧
      Runs.exec necStep s fr.events = { u.acceptFrame with state := 0 } := by
  have hwait : Nec.Safe { s with time125us := s.time125us + UInt32.ofNat fr.gap } :=
    ⟨h.state, h.room, h.writes⟩
  obtain ⟨hidle, hkept⟩ := falling_afterGap hwait hgap
  have hopened := receiving_leader hidle f fr.leaderLow fr.leader
  have hdata := receiving_pulses fr hopened (Nat.le_refl 31)
  have hstored := receiving_storeBit hdata (by omega) (UInt32.ofNat (fr.high 31))
  have hfull : (Nec.storeBit (bitByte (f 31))
      { Runs.exec necStep _ (fr.pulses 31) with
        time125us := UInt32.ofNat (fr.high 31) }).bitCount = 32 := UInt8.toNat_inj.1 hstored.count
  rw [hkept] at hstored
  refine ⟨_, hstored, ?_⟩
  rw [NecFrame.events, Runs.exec_append, exec_ticks, Runs.exec_cons, Runs.exec_append,
    NecFrame.pulses, List.range_succ, List.flatMap_append, List.flatMap_cons, List.flatMap_nil,
    List.append_nil, Runs.exec_append, ← NecFrame.pulses]
  simp only [necStep]
  rw [exec_dataPulse hdata.state (fr.data 31 (by omega))]
  simp only [if_pos hfull]

/-! ## The complement check -/

theorem acceptFrame_eq (s : Nec) :
    s.acceptFrame =
      if gather s.bits 0 8 ^^^ gather s.bits 8 8 = 0xff ∧
          gather s.bits 16 8 ^^^ gather s.bits 24 8 = 0xff then
        { s with
          irAddress := gather s.bits 0 8, irAddressInv := gather s.bits 8 8
          irCommand := gather s.bits 16 8, irCommandInv := gather s.bits 24 8, irFrameReady := 1 }
      else s := by
  rw [Nec.acceptFrame, collect_eq]

section
variable {s : Nec} {o : UInt8 × UInt8 × UInt8} {f : Nat → Bool} {a c : UInt8}

theorem gather_bits (h : s.Receiving o f 32) {start : Nat} (hstart : start ≤ 24) {j : Nat}
    (hj : j < 8) : (gather s.bits start 8).toBitVec.getLsbD j = f (j + start) := by
  have hbits : ∀ i < 8, s.bits (i + start) = bitByte (f (i + start)) := by
    intro i hi
    exact h.bits (i + start) (by omega)
  have hbit := getLsbD_gather (f := fun i => f (i + start)) hbits 8 (Nat.le_refl 8) j hj
  rw [hbit, decide_eq_true hj, Bool.true_and]

theorem check_iff (h : s.Receiving o f 32) (start : Nat) (hstart : start ≤ 16) :
    gather s.bits start 8 ^^^ gather s.bits (start + 8) 8 = 0xff ↔
      ∀ i < 8, f (i + (start + 8)) = !f (i + start) := by
  rw [complement_check]
  constructor
  · intro hall i hi
    have hi' := hall i hi
    rw [gather_bits h (by omega) hi, gather_bits h (by omega) hi] at hi'
    exact hi'
  · intro hall i hi
    rw [gather_bits h (by omega) hi, gather_bits h (by omega) hi]
    exact hall i hi

theorem necBits_address (a c : UInt8) {i : Nat} (hi : i < 8) :
    necBits a c i = a.toBitVec.getLsbD i ∧ necBits a c (i + 8) = !a.toBitVec.getLsbD i := by
  rw [necBits, necBits, if_pos hi, if_neg (by omega), if_pos (by omega), Nat.add_sub_cancel]
  exact ⟨rfl, rfl⟩

theorem necBits_command (a c : UInt8) {i : Nat} (hi : i < 8) :
    necBits a c (i + 16) = c.toBitVec.getLsbD i ∧
      necBits a c (i + 24) = !c.toBitVec.getLsbD i := by
  rw [necBits, necBits, if_neg (by omega), if_neg (by omega), if_pos (by omega),
    if_neg (by omega), if_neg (by omega), if_neg (by omega), Nat.add_sub_cancel,
    Nat.add_sub_cancel]
  exact ⟨rfl, rfl⟩

theorem necBits_pair (a c : UInt8) {i start : Nat} (hi : i < 8) (hstart : start = 0 ∨ start = 16) :
    necBits a c (i + (start + 8)) = !necBits a c (i + start) := by
  rcases hstart with rfl | rfl
  · obtain ⟨hbit, hinv⟩ := necBits_address a c hi
    have hfirst : necBits a c (i + 8) = !necBits a c i := by rw [hbit, hinv]
    exact hfirst
  · obtain ⟨hbit, hinv⟩ := necBits_command a c hi
    rw [hbit]
    exact hinv

theorem flipAt_pair {k i start : Nat} (hpair : f (i + (start + 8)) = !f (i + start))
    (hk : k = i + start ∨ k = i + (start + 8)) :
    flipAt k f (i + (start + 8)) ≠ !flipAt k f (i + start) := by
  rcases hk with rfl | rfl
  · rw [flipAt, Function.update_self, Function.update_of_ne (by omega), hpair, Bool.not_not]
    cases f (i + start) <;> decide
  · rw [flipAt, Function.update_self, Function.update_of_ne (by omega), hpair, Bool.not_not]
    cases f (i + start) <;> decide

theorem acceptFrame_pass (h : s.Receiving o (necBits a c) 32) :
    s.acceptFrame.outputs = (a, c, 1) := by
  have hfirst := (check_iff h 0 (by omega)).2 fun i hi => necBits_pair a c hi (Or.inl rfl)
  have hsecond := (check_iff h 16 (by omega)).2 fun i hi => necBits_pair a c hi (Or.inr rfl)
  have ha : gather s.bits 0 8 = a := by
    apply byte_ext
    intro i hi
    rw [gather_bits h (by omega) hi]
    exact (necBits_address a c hi).1
  have hc : gather s.bits 16 8 = c := by
    apply byte_ext
    intro i hi
    rw [gather_bits h (by omega) hi]
    exact (necBits_command a c hi).1
  rw [acceptFrame_eq, if_pos ⟨hfirst, hsecond⟩, Nec.outputs, ha, hc]

theorem acceptFrame_fail {k : Nat} (hk : k < 32)
    (h : s.Receiving o (flipAt k (necBits a c)) 32) : s.acceptFrame.outputs = o := by
  have hbroken : ∀ start, start = 0 ∨ start = 16 → start ≤ k → k < start + 16 →
      ¬gather s.bits start 8 ^^^ gather s.bits (start + 8) 8 = 0xff := by
    intro start hstart hlo hhi hpass
    have hall := (check_iff h start (by omega)).1 hpass
    by_cases hfirst : k < start + 8
    · have hi : k - start < 8 := by omega
      exact flipAt_pair (necBits_pair a c hi hstart) (Or.inl (by omega)) (hall (k - start) hi)
    · have hi : k - (start + 8) < 8 := by omega
      exact flipAt_pair (necBits_pair a c hi hstart) (Or.inr (by omega))
        (hall (k - (start + 8)) hi)
  have hrejected : ¬(gather s.bits 0 8 ^^^ gather s.bits 8 8 = 0xff ∧
      gather s.bits 16 8 ^^^ gather s.bits 24 8 = 0xff) := by
    rintro ⟨hfirst, hsecond⟩
    by_cases hlow : k < 16
    · exact hbroken 0 (Or.inl rfl) (by omega) (by omega) hfirst
    · exact hbroken 16 (Or.inr rfl) (by omega) (by omega) hsecond
  rw [acceptFrame_eq, if_neg hrejected]
  exact h.outputs

end

/-! ## Decoding -/

/-- From any state the receiver can be in: a complete frame whose gap the counter shows
as more than 40 ticks is decoded, one with a bit inverted changes no output, and no
write to `bits[]` was ever out of range. -/
theorem frame_decodes (es : List NecEvent) (a c : UInt8) :
    let s := Runs.exec necStep Nec.boot es
    (∀ fr : NecFrame (necBits a c), 40 < s.time125us + UInt32.ofNat fr.gap →
      let t := Runs.exec necStep s fr.events
      t.irAddress = a ∧ t.irCommand = c ∧ t.irFrameReady = 1 ∧ t.state = 0) ∧
    (∀ k < 32, ∀ fr : NecFrame (flipAt k (necBits a c)),
      40 < s.time125us + UInt32.ofNat fr.gap →
      let t := Runs.exec necStep s fr.events
      t.irAddress = s.irAddress ∧ t.irCommand = s.irCommand ∧ t.irFrameReady = s.irFrameReady) ∧
    ∀ i ∈ s.writes, i < 32 := by
  intro s
  have hsafe : s.Safe := safe_run es
  refine ⟨?_, ?_, hsafe.writes⟩
  · intro fr hgap
    obtain ⟨u, hu, hend⟩ := exec_frame hsafe fr hgap
    have hout := acceptFrame_pass hu
    simp only [Nec.outputs, Prod.mk.injEq] at hout
    obtain ⟨haddress, hcommand, hready⟩ := hout
    simp only [hend]
    exact ⟨haddress, hcommand, hready, trivial⟩
  · intro k hk fr hgap
    obtain ⟨u, hu, hend⟩ := exec_frame hsafe fr hgap
    have hout := acceptFrame_fail hk hu
    simp only [Nec.outputs, Prod.mk.injEq] at hout
    simp only [hend]
    exact hout

/-- A frame with every time in the middle of its range. -/
def NecFrame.plain (gap : Nat) (f : Nat → Bool) : NecFrame f where
  gap := gap
  leaderLow := 72
  leaderHigh := 36
  low := fun _ => 4
  high := fun k => if f k then 13 else 5
  leader := by decide
  data := by
    intro k _
    cases f k with
    | false => exact ⟨Nat.le_add_right 3 2, Nat.le_add_right 5 2⟩
    | true => exact ⟨Nat.le_add_right 11 2, Nat.le_add_right 13 4⟩

/-- A frame that broke off after its leader and two bits. -/
def truncated : List NecEvent := .edge false :: (pulse 72 36 ++ pulse 4 5 ++ pulse 4 13)

/-- The start key of the remote, after a frame that broke off. -/
theorem frame_decodes_truncated :
    let s := Runs.exec necStep Nec.boot truncated
    s.state = 1 ∧
      (Runs.exec necStep s (NecFrame.plain 50 (necBits 0 0x45)).events).irCommand = 0x45 := by
  obtain ⟨hdecodes, -, -⟩ := frame_decodes truncated 0 0x45
  obtain ⟨-, hcommand, -, -⟩ := hdecodes (NecFrame.plain 50 (necBits 0 0x45)) (by decide +kernel)
  exact ⟨by decide +kernel, hcommand⟩

/-- The counter is 32 bits wide: after a gap of that many ticks and 35 more it reads 35,
which opens a frame, and the real leader then closes it. -/
theorem not_decodes_afterOverflow :
    ¬∀ (es : List NecEvent) (a c : UInt8) (fr : NecFrame (necBits a c)), 40 < fr.gap →
      let t := Runs.exec necStep (Runs.exec necStep Nec.boot es) fr.events
      t.irAddress = a ∧ t.irCommand = c ∧ t.irFrameReady = 1 ∧ t.state = 0 := by
  intro hall
  have hgap : 40 < (NecFrame.plain (2 ^ 32 + 35) (necBits 0 0x45)).gap :=
    Nat.lt_add_right 35 (by decide)
  obtain ⟨-, hcommand, -, -⟩ := hall [] 0 0x45 (NecFrame.plain (2 ^ 32 + 35) (necBits 0 0x45)) hgap
  rw [NecFrame.events, Runs.exec_append, exec_ticks] at hcommand
  revert hcommand
  decide +kernel

end RoboticArm
