import RoboticArm.UartQueue

/- Reception on USART1: the channel that fills two buffers in turn, and its two handlers.

   The channel stores every byte that arrives in the buffer at `MADDR` and counts `CNTR`
   down from 128; at zero it sets its flag and takes nothing more. `USART1_IRQHandler`
   runs when the line has gone quiet and hands over what the counter says has arrived,
   `DMA1_Channel5_IRQHandler` runs when the buffer is full and hands over all of it. Both
   switch to the other buffer. The main loop takes bytes out of the ring. Each handler is
   one step, and the state keeps what has arrived and what has been taken out.

   What is proved:
     1. `stream_intact_iff`: whatever the order of bytes, quiet lines, handlers and pops,
        what was taken out, what the ring holds and what the buffer holds is what arrived,
        each byte once and in order, in every state exactly when every step is `Conserves`;
     2. `delivered_all`: a run with the handlers in the order of their numbers and room in
        the ring delivers every byte once the line is quiet and the ring is drained.

   Correspondence (C ↔ Lean):
     `USART_DMA_CTRL`               ↔ `UsartDma.useBuffer`, `UsartDma.rxBuffer`
     `MADDR`, `CNTR`, `TC5`, `IDLE` ↔ `UsartDma.maddr`, `cntr`, `tc`, `idle`
     `DMA_Cmd` .. `DMA_Cmd`         ↔ `UsartDma.rearm`
     `USART1_IRQHandler`            ↔ `UsartDma.usart1IrqHandler`
     `DMA1_Channel5_IRQHandler`     ↔ `UsartDma.dma1Channel5IrqHandler` -/
namespace RoboticArm

/-- `RX_BUFFER_LEN` as the counter of the channel holds it. -/
def rxBufferCount : UInt16 := 128

structure UsartDma where
  /-- `DMA_USE_BUFFER`, which of the two. -/
  useBuffer : Bool
  rxBuffer : Bool → Nat → UInt8
  maddr : Bool
  cntr : UInt16
  tc : Bool
  idle : Bool
  ring : RingBuffer
  arrived : List UInt8
  taken : List UInt8

/-- After `DMA_INIT`. -/
def UsartDma.boot : UsartDma :=
  ⟨false, fun _ _ => 0, false, rxBufferCount, false, false, RingBuffer.boot, [], []⟩

namespace UsartDma

/-- The channel takes a byte that arrives, unless its count is used up. -/
def takeByte (b : UInt8) (s : UsartDma) : UsartDma :=
  let s := { s with arrived := s.arrived ++ [b] }
  -- the count is used up: the byte is lost
  if s.cntr = 0 then s
  else
    { s with
      rxBuffer := Function.update s.rxBuffer s.maddr
        (Function.update (s.rxBuffer s.maddr) (rxBufferCount - s.cntr).toNat b)
      cntr := s.cntr - 1
      tc := s.tc || s.cntr == 1 }

/-- The channel set up anew, on the other buffer. -/
def rearm (s : UsartDma) : UsartDma :=
  let oldbuffer := s.useBuffer
  { s with useBuffer := !oldbuffer, cntr := rxBufferCount, maddr := !oldbuffer }

def usart1IrqHandler (s : UsartDma) : UsartDma :=
  if s.idle then
    let rxlen := rxBufferCount - s.cntr
    let oldbuffer := s.useBuffer
    -- reading the data register has ended the quiet state
    let s := { s.rearm with idle := false }
    { s with ring := s.ring.pushHuge (s.rxBuffer oldbuffer) rxlen }
  else s

def dma1Channel5IrqHandler (s : UsartDma) : UsartDma :=
  let rxlen := rxBufferCount
  let oldbuffer := s.useBuffer
  let s := s.rearm
  { s with ring := s.ring.pushHuge (s.rxBuffer oldbuffer) rxlen, tc := false }

/-- One round of the loop of the main program that empties the ring. -/
def popOne (s : UsartDma) : UsartDma :=
  if 0 < s.ring.remainCount then
    { s with ring := s.ring.pop.2, taken := s.taken ++ [s.ring.pop.1] }
  else s

end UsartDma

inductive DmaAct where
  | byte (b : UInt8)
  | quiet
  | usart1
  | dma1
  | pop
  deriving DecidableEq, Repr

/-- The interrupt of the channel is taken while its flag is set, that of USART1 at any time. -/
def dmaStep (s : UsartDma) : DmaAct → UsartDma
  | .byte b => s.takeByte b
  | .quiet => { s with idle := true }
  | .usart1 => s.usart1IrqHandler
  | .dma1 => if s.tc then s.dma1Channel5IrqHandler else s
  | .pop => s.popOne

namespace UsartDma

/-- The number of bytes in the buffer that is being filled. -/
def filled (s : UsartDma) : Nat := 128 - s.cntr.toNat

/-- The bytes in the buffer that is being filled. -/
def inFlight (s : UsartDma) : List UInt8 := (List.range s.filled).map (s.rxBuffer s.maddr)

/-- The number of bytes the ring has room for. -/
def room (s : UsartDma) : Nat := 1024 - s.ring.remainCount.toNat

/-- Every byte that arrived is in one place, once, and they are in order. -/
def Intact (s : UsartDma) : Prop := s.taken ++ s.ring.contents ++ s.inFlight = s.arrived

/-- The ring is a queue, the counter is within the buffer, and the channel fills the buffer in
use. -/
structure Sound (s : UsartDma) : Prop where
  ring : ∃ q, s.ring.Represents q
  cntr : s.cntr.toNat ≤ 128
  maddr : s.maddr = s.useBuffer

end UsartDma

/-- The steps that lose no byte and double none. A byte finds the channel counting; what has
arrived before the line went quiet fits into the ring; a full buffer is handed over as it is,
by the room in the ring if not by the counter. -/
def Conserves (s : UsartDma) : DmaAct → Prop
  | .byte _ => s.cntr ≠ 0
  | .quiet => True
  | .usart1 => s.idle = true → s.filled ≤ s.room
  | .dma1 => s.tc = true → min 128 s.room = s.filled
  | .pop => True

/-! ## The buffer that is being filled -/

namespace UsartDma

variable {s : UsartDma}

theorem toNat_rxlen (h : s.cntr.toNat ≤ 128) : (rxBufferCount - s.cntr).toNat = s.filled :=
  UInt16.toNat_sub_of_le _ _ (UInt16.le_iff_toNat_le.2 h)

theorem takeByte_of_zero (h : s.cntr = 0) (b : UInt8) :
    s.takeByte b = { s with arrived := s.arrived ++ [b] } :=
  if_pos h

theorem takeByte_of_ne (h : s.cntr ≠ 0) (b : UInt8) :
    s.takeByte b =
      { s with
        arrived := s.arrived ++ [b]
        rxBuffer := Function.update s.rxBuffer s.maddr
          (Function.update (s.rxBuffer s.maddr) (rxBufferCount - s.cntr).toNat b)
        cntr := s.cntr - 1
        tc := s.tc || s.cntr == 1 } :=
  if_neg h

theorem toNat_cntr_takeByte (h : s.cntr ≠ 0) (b : UInt8) :
    (s.takeByte b).cntr.toNat + 1 = s.cntr.toNat := by
  have hpos : s.cntr.toNat ≠ 0 := fun hzero => h (UInt16.toNat_inj.1 hzero)
  have hone : (1 : UInt16) ≤ s.cntr :=
    UInt16.le_iff_toNat_le.2 (Nat.one_le_iff_ne_zero.2 hpos)
  rw [takeByte_of_ne h]
  show (s.cntr - 1).toNat + 1 = s.cntr.toNat
  rw [UInt16.toNat_sub_of_le _ _ hone]
  exact Nat.sub_add_cancel (Nat.one_le_iff_ne_zero.2 hpos)

theorem inFlight_takeByte (hle : s.cntr.toNat ≤ 128) (h : s.cntr ≠ 0) (b : UInt8) :
    (s.takeByte b).inFlight = s.inFlight ++ [b] := by
  have hcount := toNat_cntr_takeByte h b
  have hfilled : (s.takeByte b).filled = s.filled + 1 := by
    rw [filled, filled]
    omega
  rw [inFlight, hfilled, List.range_succ, List.map_append, List.map_singleton, inFlight]
  rw [takeByte_of_ne h]
  dsimp only
  rw [Function.update_self, toNat_rxlen hle, Function.update_self]
  congr 1
  apply List.map_congr_left
  intro i hi
  exact Function.update_of_ne (List.mem_range.1 hi).ne _ _

theorem inFlight_of_start (h : s.cntr = rxBufferCount) : s.inFlight = [] := by
  have hnone : s.filled = 0 := by
    rw [filled, h]
    rfl
  rw [inFlight, hnone, List.range_zero, List.map_nil]

/-! ## What each step keeps -/

theorem Sound.takeByte (h : s.Sound) (b : UInt8) : (s.takeByte b).Sound := by
  by_cases hzero : s.cntr = 0
  · rw [takeByte_of_zero hzero]
    exact ⟨h.ring, h.cntr, h.maddr⟩
  · have hcount := toNat_cntr_takeByte hzero b
    have hle := h.cntr
    refine ⟨?_, by omega, ?_⟩
    · rw [takeByte_of_ne hzero]
      exact h.ring
    · rw [takeByte_of_ne hzero]
      exact h.maddr

theorem Sound.handOver (h : s.Sound) (data : Nat → UInt8) (len : UInt16) (tc idle : Bool) :
    ({ s.rearm with ring := s.ring.pushHuge data len, tc := tc, idle := idle } : UsartDma).Sound := by
  obtain ⟨q, hq⟩ := h.ring
  exact ⟨⟨_, represents_push hq data len⟩, Nat.le_refl 128, rfl⟩

theorem Sound.popOne (h : s.Sound) : s.popOne.Sound := by
  obtain ⟨q, hq⟩ := h.ring
  unfold UsartDma.popOne
  split
  · next hpos => exact ⟨⟨_, (represents_pop hq hpos).1⟩, h.cntr, h.maddr⟩
  · exact h

theorem contents_handOver (h : s.Sound) (data : Nat → UInt8) (len : UInt16) :
    (s.ring.pushHuge data len).contents =
      s.ring.contents ++ (List.range (min len.toNat s.room)).map data := by
  obtain ⟨q, hq⟩ := h.ring
  exact contents_push hq data len

end UsartDma

open UsartDma

variable {s : UsartDma}

theorem sound_dmaBoot : UsartDma.boot.Sound := ⟨⟨_, represents_boot⟩, by decide, rfl⟩

theorem sound_dmaStep (h : s.Sound) (a : DmaAct) : (dmaStep s a).Sound := by
  cases a with
  | byte b => exact h.takeByte b
  | quiet => exact ⟨h.ring, h.cntr, h.maddr⟩
  | usart1 =>
    simp only [dmaStep, usart1IrqHandler]
    split
    · exact h.handOver _ _ s.tc false
    · exact h
  | dma1 =>
    simp only [dmaStep]
    split
    · exact h.handOver _ _ false s.idle
    · exact h
  | pop => exact h.popOne

/-- Bytes from the buffer that is being filled are handed over: nothing is lost and nothing
doubled exactly when the ring takes as many as there are. -/
theorem intact_handOver (hsound : s.Sound) (h : s.Intact) (len : UInt16) (tc idle : Bool) :
    ({ s.rearm with ring := s.ring.pushHuge (s.rxBuffer s.useBuffer) len, tc := tc, idle := idle } :
        UsartDma).Intact ↔ min len.toNat s.room = s.filled := by
  have hempty : ({ s.rearm with
      ring := s.ring.pushHuge (s.rxBuffer s.useBuffer) len, tc := tc, idle := idle } :
        UsartDma).inFlight = [] := inFlight_of_start rfl
  have hold : s.taken ++ s.ring.contents ++ s.inFlight = s.arrived := h
  unfold Intact
  rw [hempty]
  show s.taken ++ (s.ring.pushHuge (s.rxBuffer s.useBuffer) len).contents ++ [] = s.arrived ↔ _
  rw [contents_handOver hsound, List.append_nil, ← List.append_assoc, ← hold, inFlight,
    hsound.maddr, List.append_cancel_left_eq]
  constructor
  · intro heq
    have hlen := congrArg List.length heq
    simpa using hlen
  · intro heq
    rw [heq]

/-- A step keeps every byte in its place exactly when it is one of those that do. -/
theorem intact_step (hsound : s.Sound) (h : s.Intact) (a : DmaAct) :
    (dmaStep s a).Intact ↔ Conserves s a := by
  have hold : s.taken ++ s.ring.contents ++ s.inFlight = s.arrived := h
  cases a with
  | byte b =>
    show (s.takeByte b).Intact ↔ s.cntr ≠ 0
    by_cases hzero : s.cntr = 0
    · apply iff_of_false _ (not_not.2 hzero)
      rw [takeByte_of_zero hzero]
      intro hnew
      have hlost : s.taken ++ s.ring.contents ++ s.inFlight = s.arrived ++ [b] := hnew
      have hlen := congrArg List.length (hold.symm.trans hlost)
      simp at hlen
    · apply iff_of_true _ hzero
      unfold Intact
      rw [inFlight_takeByte hsound.cntr hzero, takeByte_of_ne hzero]
      dsimp only
      rw [← List.append_assoc, hold]
  | quiet => exact iff_of_true h trivial
  | usart1 =>
    have hfilled : min s.filled s.room = s.filled ↔ s.filled ≤ s.room := min_eq_left_iff
    simp only [dmaStep, usart1IrqHandler, Conserves]
    split
    · next hidle =>
      refine (intact_handOver hsound h _ s.tc false).trans ?_
      rw [toNat_rxlen hsound.cntr, hfilled]
      exact ⟨fun hroom _ => hroom, fun hroom => hroom hidle⟩
    · next hidle => exact iff_of_true h fun hyes => absurd hyes hidle
  | dma1 =>
    simp only [dmaStep, Conserves]
    split
    · next htc =>
      refine (intact_handOver hsound h rxBufferCount false s.idle).trans ?_
      exact ⟨fun hroom _ => hroom, fun hroom => hroom htc⟩
    · next htc => exact iff_of_true h fun hyes => absurd hyes htc
  | pop =>
    apply iff_of_true _ trivial
    simp only [dmaStep, popOne]
    split
    · next hpos =>
      obtain ⟨q, hq⟩ := hsound.ring
      show s.taken ++ [s.ring.pop.1] ++ s.ring.pop.2.contents ++ s.inFlight = s.arrived
      rw [← hold, contents_pop hq.sendPos hpos]
      simp only [List.append_assoc, List.cons_append, List.nil_append]
    · exact h

/-! ## Runs -/

theorem sound_dmaRun (as : List DmaAct) : (Runs.exec dmaStep UsartDma.boot as).Sound :=
  Runs.exec_inv (P := Sound) (fun _ a h => sound_dmaStep h a) as sound_dmaBoot

theorem intact_boot : UsartDma.boot.Intact := rfl

/-- In every state of a run each byte that arrived is in one place, in order, exactly when
every step of the run is one that keeps it so. -/
theorem stream_intact_iff (as : List DmaAct) :
    (∀ pre, pre <+: as → (Runs.exec dmaStep UsartDma.boot pre).Intact) ↔
      Runs.Along Conserves dmaStep UsartDma.boot as := by
  apply Runs.prefix_iff_along (P := fun s => Sound s ∧ Intact s)
  · exact fun s h => h.2
  · rintro s a ⟨hsound, h⟩ ha
    exact ⟨sound_dmaStep hsound a, (intact_step hsound h a).2 ha⟩
  · rintro s a ⟨hsound, h⟩ hnext
    exact (intact_step hsound h a).1 hnext
  · exact ⟨sound_dmaBoot, intact_boot⟩

/-- The handlers as the interrupt controller orders them, with room in the ring: a full
buffer is handed over before the next byte and before a quiet line is looked at. -/
def Served (s : UsartDma) : DmaAct → Prop
  | .byte _ => s.cntr ≠ 0
  | .quiet => True
  | .usart1 => s.idle = true → s.tc = false ∧ s.filled ≤ s.room
  | .dma1 => s.tc = true → 128 ≤ s.room
  | .pop => True

instance decidableServed (s : UsartDma) : ∀ a, Decidable (Served s a)
  | .byte _ => inferInstanceAs (Decidable (s.cntr ≠ 0))
  | .quiet => .isTrue trivial
  | .usart1 => inferInstanceAs (Decidable (s.idle = true → s.tc = false ∧ s.filled ≤ s.room))
  | .dma1 => inferInstanceAs (Decidable (s.tc = true → 128 ≤ s.room))
  | .pop => .isTrue trivial

/-- The channel says that it is done when its count is used up. -/
def Flagged (s : UsartDma) : Prop := s.tc = true ↔ s.cntr = 0

theorem flagged_step (h : Flagged s) {a : DmaAct} (ha : Served s a) : Flagged (dmaStep s a) := by
  cases a with
  | byte b =>
    have hne : s.cntr ≠ 0 := ha
    have hnot : s.tc = false := Bool.eq_false_iff.2 fun htc => hne (h.1 htc)
    have hlast : s.cntr = 1 ↔ s.cntr - 1 = 0 := by
      constructor
      · intro heq
        rw [heq]
        rfl
      · intro heq
        rw [← UInt16.sub_add_cancel s.cntr 1, heq]
        rfl
    simp only [dmaStep, takeByte_of_ne hne, Flagged, hnot, Bool.false_or, beq_iff_eq]
    exact hlast
  | quiet => exact h
  | usart1 =>
    simp only [dmaStep, usart1IrqHandler]
    split
    · next hidle =>
      have hnot : s.tc = false := (ha hidle).1
      show s.tc = true ↔ rxBufferCount = 0
      rw [hnot]
      decide
    · exact h
  | dma1 =>
    simp only [dmaStep]
    split
    · show false = true ↔ rxBufferCount = 0
      decide
    · exact h
  | pop =>
    simp only [dmaStep, popOne]
    split
    · exact h
    · exact h

theorem conserves_of_served (h : Flagged s) {a : DmaAct} (ha : Served s a) : Conserves s a := by
  cases a with
  | byte b => exact ha
  | quiet => trivial
  | usart1 => exact fun hidle => (ha hidle).2
  | dma1 =>
    intro htc
    have hfilled : s.filled = 128 := by
      rw [filled, h.1 htc]
      rfl
    rw [hfilled]
    exact Nat.min_eq_left (ha htc)
  | pop => trivial

theorem intact_of_served {as : List DmaAct} (h : Runs.Along Served dmaStep UsartDma.boot as) :
    (Runs.exec dmaStep UsartDma.boot as).Intact ∧ Flagged (Runs.exec dmaStep UsartDma.boot as) := by
  have hrun : ∀ s a, s.Sound ∧ s.Intact ∧ Flagged s → Served s a →
      (dmaStep s a).Sound ∧ (dmaStep s a).Intact ∧ Flagged (dmaStep s a) := by
    rintro s a ⟨hsound, hintact, hflagged⟩ ha
    have hkept := conserves_of_served hflagged ha
    exact ⟨sound_dmaStep hsound a, (intact_step hsound hintact a).2 hkept, flagged_step hflagged ha⟩
  have hboot : Flagged UsartDma.boot := by
    unfold Flagged
    decide
  exact (Runs.exec_inv_along hrun ⟨sound_dmaBoot, intact_boot, hboot⟩ h).2

/-! ## Delivery -/

/-- The line goes quiet, both handlers run, and the ring is emptied. -/
def settle : List DmaAct := [.dma1, .quiet, .usart1] ++ List.replicate 1024 .pop

theorem remainCount_popOne (s : UsartDma) :
    s.popOne.ring.remainCount.toNat = s.ring.remainCount.toNat - 1 := by
  unfold popOne
  split
  · next hpos => exact toNat_pop_remainCount hpos
  · next hpos =>
    have hzero : s.ring.remainCount.toNat = 0 :=
      Nat.le_zero.1 (UInt16.le_iff_toNat_le.1 (UInt16.not_lt.1 hpos))
    show s.ring.remainCount.toNat = s.ring.remainCount.toNat - 1
    omega

theorem popOne_keeps (s : UsartDma) :
    s.popOne.cntr = s.cntr ∧ s.popOne.arrived = s.arrived := by
  unfold popOne
  split
  · exact ⟨rfl, rfl⟩
  · exact ⟨rfl, rfl⟩

/-- Pops take out one byte each, as long as there is one, and leave the channel alone. -/
theorem exec_pops : ∀ (n : Nat) {s : UsartDma}, s.Sound →
    let t := Runs.exec dmaStep s (List.replicate n .pop)
    t.ring.remainCount.toNat = s.ring.remainCount.toNat - n ∧ t.cntr = s.cntr ∧
      t.arrived = s.arrived
  | 0, _, _ => ⟨rfl, rfl, rfl⟩
  | n + 1, s, h => by
    obtain ⟨hcount, hcntr, harrived⟩ := exec_pops n h.popOne
    obtain ⟨hcntr', harrived'⟩ := popOne_keeps s
    have hone := remainCount_popOne s
    refine ⟨?_, hcntr.trans hcntr', harrived.trans harrived'⟩
    show (Runs.exec dmaStep s.popOne (List.replicate n .pop)).ring.remainCount.toNat = _
    rw [hcount, hone]
    omega

theorem contents_of_zero {r : RingBuffer} (h : r.remainCount.toNat = 0) : r.contents = [] := by
  rw [RingBuffer.contents, h, Cyclic.window_zero]

/-- Once the line is quiet, the handlers have run and the ring is empty, the main program has
every byte that arrived, once and in order. -/
theorem delivered_all (as : List DmaAct)
    (h : Runs.Along Served dmaStep UsartDma.boot (as ++ settle)) :
    (Runs.exec dmaStep UsartDma.boot (as ++ settle)).taken =
      (Runs.exec dmaStep UsartDma.boot as).arrived := by
  let s := Runs.exec dmaStep UsartDma.boot as
  let t := Runs.exec dmaStep s [.dma1, .quiet, .usart1]
  have hsplit : Runs.exec dmaStep UsartDma.boot (as ++ settle) =
      Runs.exec dmaStep t (List.replicate 1024 .pop) := by
    rw [settle, Runs.exec_append, Runs.exec_append]
  have hsound : t.Sound := by
    have hrun := sound_dmaRun (as ++ [.dma1, .quiet, .usart1])
    rwa [Runs.exec_append] at hrun
  have hstart : t.cntr = rxBufferCount := rfl
  have harrived : t.arrived = s.arrived := by
    show (if s.tc then s.dma1Channel5IrqHandler else s).arrived = s.arrived
    split
    · rfl
    · rfl
  obtain ⟨hcount, hcntr, hkeeps⟩ := exec_pops 1024 hsound
  obtain ⟨q, hq⟩ := hsound.ring
  have hempty : (Runs.exec dmaStep t (List.replicate 1024 .pop)).ring.contents = [] := by
    apply contents_of_zero
    rw [hcount]
    exact Nat.sub_eq_zero_of_le hq.count_le
  have hintact := (intact_of_served h).1
  rw [hsplit, Intact, hempty, inFlight_of_start (hcntr.trans hstart), List.append_nil,
    List.append_nil, hkeeps, harrived] at hintact
  rw [hsplit]
  exact hintact

theorem along_pops (s : UsartDma) (n : Nat) : Runs.Along Served dmaStep s (List.replicate n .pop) := by
  induction n generalizing s with
  | zero => trivial
  | succ n ih => exact ⟨trivial, ih s.popOne⟩

/-- A full buffer, handed over before the next byte, and two bytes more. -/
def longPacket : List DmaAct :=
  ((List.range 128).map fun i => .byte (UInt8.ofNat i)) ++ [.dma1, .byte 128, .byte 129]

theorem delivered_all_longPacket :
    (Runs.exec dmaStep UsartDma.boot (longPacket ++ settle)).taken =
      (List.range 130).map UInt8.ofNat := by
  have hserved : Runs.Along Served dmaStep UsartDma.boot (longPacket ++ settle) := by
    rw [settle, ← List.append_assoc]
    exact Runs.along_append.2 ⟨by decide +kernel, along_pops _ 1024⟩
  have harrived : (Runs.exec dmaStep UsartDma.boot longPacket).arrived =
      (List.range 130).map UInt8.ofNat := by
    decide +kernel
  exact (delivered_all longPacket hserved).trans harrived

end RoboticArm
