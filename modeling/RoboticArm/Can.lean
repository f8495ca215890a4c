import RoboticArm.Bytes
import Mathlib.Logic.Function.Basic

/- Sending a message on the CAN bus.

   `CAN_Transmit` packs a message into the registers of a free transmit mailbox and asks
   for its transmission; `CAN_Send_Msg` then polls the status of that mailbox. `Can` holds
   the mailboxes, the frames whose transmission was asked for, and the moment: each look at
   the status register `TSTATR`, and each turn of the polling loop, is one moment later. What
   the register says at each moment is a parameter `tstatr`, so that nothing is assumed of
   the bus. What an uninitialised variable holds is a parameter too (`junk`).

   `Mailbox.frame` is what the controller sends from the registers of a mailbox. An extended
   identifier has 29 bits: it is kept above bit 3 of a 32-bit register, which drops the rest.

   1. `frame_fill`: the frame of a filled mailbox has the low 29 bits of the identifier and
      the bytes of the message.
   2. `requested_of_sent`: a send that succeeds asks for exactly one transmission, of that
      frame; `requested_canSendMsg`: no send asks for more.

   Correspondence (C ↔ Lean):
     `CAN_TxMailBox_TypeDef`, `CanTxMsg`    ↔ `Mailbox`, `CanTxMsg`
     `CAN_Transmit`                         ↔ `canTransmit`, with `freeMailbox` and `fill`
     `CAN_TransmitStatus`                   ↔ `canTransmitStatus`
     `CAN_Send_Msg`, its `while`            ↔ `canSendMsg`, `waitLoop` -/
namespace RoboticArm

open Bytes

/-! ## Registers -/

structure Mailbox where
  txmir : UInt32
  txmdtr : UInt32
  txmdlr : UInt32
  txmdhr : UInt32
  deriving DecidableEq, Repr

structure CanFrame where
  extended : Bool
  remote : Bool
  id : UInt32
  data : List UInt8
  deriving DecidableEq, Repr

/-- The controller sends as many of the eight data bytes as `TXMDTR` says. -/
def Mailbox.frame (b : Mailbox) : CanFrame where
  extended := decide (b.txmir &&& 4 ≠ 0)
  remote := decide (b.txmir &&& 2 ≠ 0)
  id := if b.txmir &&& 4 ≠ 0 then b.txmir >>> 3 else b.txmir >>> 21
  data := (bytes32 b.txmdlr ++ bytes32 b.txmdhr).take (b.txmdtr &&& 0xf).toNat

structure CanTxMsg where
  stdId : UInt32
  extId : UInt32
  ide : UInt8
  rtr : UInt8
  dlc : UInt8
  data : Nat → UInt8

/-- The mailboxes, the frames asked for, newest first, and the moment. -/
structure Can where
  mailbox : UInt8 → Mailbox
  requested : List CanFrame
  moment : Nat

/-! ## The driver -/

def txStatusFailed : UInt8 := 0
def txStatusOk : UInt8 := 1
def txStatusPending : UInt8 := 2
def txStatusNoMailBox : UInt8 := 4

/-- The first mailbox that is empty when its bit is looked at, and the moment after. -/
def freeMailbox (tstatr : Nat → UInt32) (n : Nat) : UInt8 × Nat :=
  if tstatr n &&& 0x04000000 = 0x04000000 then (0, n + 1)
  else if tstatr (n + 1) &&& 0x08000000 = 0x08000000 then (1, n + 2)
  else if tstatr (n + 2) &&& 0x10000000 = 0x10000000 then (2, n + 3)
  else (txStatusNoMailBox, n + 3)

/-- The registers of a mailbox with the message, its transmission asked for. -/
def fill (m : CanTxMsg) (b : Mailbox) : Mailbox where
  txmir :=
    let kept := b.txmir &&& 1
    let txmir :=
      if m.ide = 0 then kept ||| (m.stdId <<< 21 ||| m.rtr.toUInt32)
      else kept ||| (m.extId <<< 3 ||| m.ide.toUInt32 ||| m.rtr.toUInt32)
    txmir ||| 1
  txmdtr := (b.txmdtr &&& 0xfffffff0) ||| (m.dlc &&& 0xf).toUInt32
  txmdlr := word32 (m.data 3) (m.data 2) (m.data 1) (m.data 0)
  txmdhr := word32 (m.data 7) (m.data 6) (m.data 5) (m.data 4)

def canTransmit (tstatr : Nat → UInt32) (m : CanTxMsg) (c : Can) : UInt8 × Can :=
  let r := freeMailbox tstatr c.moment
  if r.1 ≠ txStatusNoMailBox then
    let b := fill m (c.mailbox r.1)
    (r.1, ⟨Function.update c.mailbox r.1 b, b.frame :: c.requested, r.2⟩)
  else (r.1, { c with moment := r.2 })

/-- The status of a mailbox, from the register. -/
def canTransmitStatus (t : UInt32) (transmitMailbox : UInt8) : UInt8 :=
  let state : UInt32 :=
    if transmitMailbox = 0 then t &&& 0x04000003
    else if transmitMailbox = 1 then t &&& 0x08000300
    else if transmitMailbox = 2 then t &&& 0x10030000
    else txStatusFailed.toUInt32
  if state = 0 then txStatusPending
  else if state = 0x04000001 then txStatusFailed
  else if state = 0x08000100 then txStatusFailed
  else if state = 0x10010000 then txStatusFailed
  else if state = 0x04000003 then txStatusOk
  else if state = 0x08000300 then txStatusOk
  else if state = 0x10030000 then txStatusOk
  else txStatusFailed

/-- The turns left when the status is that of success, or 0, and the moment after. -/
def waitLoop (tstatr : Nat → UInt32) (mbox : UInt8) : Nat → Nat → Nat × Nat
  | 0, n => (0, n + 1)
  | left + 1, n =>
    if canTransmitStatus (tstatr n) mbox ≠ txStatusOk then waitLoop tstatr mbox left (n + 1)
    else (left + 1, n + 1)

/-- `for (i = 0; i < n; i++) dst[at + i] = src[from + i];` -/
def copyBytes (dst src : Nat → UInt8) (dstAt srcAt : Nat) : Nat → Nat → UInt8
  | 0 => dst
  | n + 1 => Function.update (copyBytes dst src dstAt srcAt n) (dstAt + n) (src (srcAt + n))

def canSendMsg (tstatr : Nat → UInt32) (junk : CanTxMsg) (msg : Nat → UInt8) (len isstd : UInt8)
    (id : UInt32) (c : Can) : UInt8 × Can :=
  let m :=
    if isstd = 1 then { junk with stdId := id, ide := 0 } else { junk with extId := id, ide := 4 }
  let m := { m with rtr := 0, dlc := len }
  let m := { m with data := copyBytes m.data msg 0 0 len.toNat }
  let r := canTransmit tstatr m c
  let w := waitLoop tstatr r.1 0xfff r.2.moment
  (if w.1 = 0 then 1 else 0, { r.2 with moment := w.2 })

/-! ## The registers of an extended data frame -/

/-- `TXMIR` with an extended identifier, from what it held. -/
def extRegister (kept id : UInt32) : UInt32 :=
  (kept &&& 1) ||| (id <<< (3 : UInt32) ||| (4 : UInt32) ||| (0 : UInt32)) ||| (1 : UInt32)

theorem getLsbD_extRegister (kept id : UInt32) {i : Nat} (hi : i < 32) :
    (extRegister kept id).toBitVec.getLsbD i =
      (decide (i = 0) || decide (i = 2) || (decide (3 ≤ i) && id.toBitVec.getLsbD (i - 3))) := by
  have hfour : ∀ i < 32, (4 : UInt32).toBitVec.getLsbD i = decide (i = 2) := by decide
  have hone : ∀ i < 32, (1 : UInt32).toBitVec.getLsbD i = decide (i = 0) := by decide
  have hshift : (id <<< (3 : UInt32)).toBitVec.getLsbD i =
      (decide (3 ≤ i) && id.toBitVec.getLsbD (i - 3)) := by
    rw [show (id <<< (3 : UInt32)).toBitVec = id.toBitVec <<< 3 from rfl, BitVec.getLsbD_shiftLeft]
    by_cases h3 : 3 ≤ i
    · simp [h3, hi, Nat.not_lt.2 h3]
    · simp [h3, Nat.lt_of_not_le h3]
  simp only [extRegister, UInt32.toBitVec_or, UInt32.toBitVec_and, BitVec.getLsbD_or,
    BitVec.getLsbD_and, hfour i hi, hone i hi, hshift]
  by_cases h0 : i = 0
  · simp [h0]
  · simp [h0, Bool.or_comm]

theorem extRegister_and_four (kept id : UInt32) : extRegister kept id &&& 4 ≠ 0 := by
  intro h
  have hbit := getLsbD_extRegister kept id (show 2 < 32 by decide)
  have hzero : (extRegister kept id &&& 4).toBitVec.getLsbD 2 = false := by
    rw [h]
    rfl
  have hfour : (4 : UInt32).toBitVec.getLsbD 2 = true := by decide
  rw [UInt32.toBitVec_and, BitVec.getLsbD_and, hbit, hfour] at hzero
  exact Bool.noConfusion hzero

theorem extRegister_and_two (kept id : UInt32) : extRegister kept id &&& 2 = 0 := by
  have h2 : ∀ i < 32, (2 : UInt32).toBitVec.getLsbD i = decide (i = 1) := by decide
  apply UInt32.toBitVec_inj.1
  apply BitVec.eq_of_getLsbD_eq
  intro i hi
  rw [UInt32.toBitVec_and, BitVec.getLsbD_and, getLsbD_extRegister kept id hi, h2 i hi]
  by_cases h : i = 1
  · subst h
    rfl
  · simp [h]

theorem extRegister_shiftRight (kept id : UInt32) : extRegister kept id >>> 3 = id &&& 0x1fffffff := by
  have hmask : ∀ i < 32, (0x1fffffff : UInt32).toBitVec.getLsbD i = decide (i < 29) := by decide
  apply UInt32.toBitVec_inj.1
  apply BitVec.eq_of_getLsbD_eq
  intro i hi
  rw [UInt32.toBitVec_and, BitVec.getLsbD_and, hmask i hi, UInt32.toBitVec_shiftRight]
  have hshift : ((extRegister kept id).toBitVec >>> ((3 : UInt32).toBitVec % 32)).getLsbD i =
      (extRegister kept id).toBitVec.getLsbD (3 + i) := BitVec.getLsbD_ushiftRight _ 3 i
  rw [hshift]
  by_cases h : i < 29
  · rw [getLsbD_extRegister kept id (by omega)]
    simp [h, show 3 + i ≠ 2 by omega]
  · rw [BitVec.getLsbD_of_ge _ _ (by omega)]
    simp [h]

theorem dlc_register (kept : UInt32) {dlc : UInt8} (h : dlc.toNat ≤ 8) :
    ((kept &&& 0xfffffff0 ||| (dlc &&& 0xf).toUInt32) &&& 0xf).toNat = dlc.toNat := by
  have hmask : ∀ n : Nat, n ≤ 8 → n &&& 15 &&& 15 = n := by decide
  have hclear : kept.toNat &&& 0xfffffff0 &&& 0xf = 0 := by
    rw [Nat.and_assoc]
    exact Nat.and_zero kept.toNat
  simp only [UInt32.toNat_and, UInt32.toNat_or, UInt8.toNat_toUInt32, UInt8.toNat_and,
    UInt32.reduceToNat, UInt8.reduceToNat]
  rw [Nat.and_or_distrib_right, hclear, Nat.zero_or]
  exact hmask dlc.toNat h

/-- An extended data message as the controller sends it. -/
def extendedFrame (id : UInt32) (data : List UInt8) : CanFrame :=
  ⟨true, false, id &&& 0x1fffffff, data⟩

theorem frame_fill {m : CanTxMsg} (b : Mailbox) (hide : m.ide = 4) (hrtr : m.rtr = 0)
    (hdlc : m.dlc.toNat ≤ 8) :
    (fill m b).frame = extendedFrame m.extId ((List.range m.dlc.toNat).map m.data) := by
  have hregister : (fill m b).txmir = extRegister b.txmir m.extId := by
    simp only [fill, hide, hrtr]
    rfl
  have hlen : ((fill m b).txmdtr &&& 0xf).toNat = m.dlc.toNat := dlc_register b.txmdtr hdlc
  have hbytes : bytes32 (fill m b).txmdlr ++ bytes32 (fill m b).txmdhr = (List.range 8).map m.data := by
    simp only [fill, bytes32_word32]
    rfl
  have hdata : ((List.range 8).map m.data).take m.dlc.toNat = (List.range m.dlc.toNat).map m.data := by
    rw [← List.map_take, List.take_range, Nat.min_eq_left hdlc]
  have hfour : extRegister b.txmir m.extId &&& 4 ≠ 0 := extRegister_and_four b.txmir m.extId
  simp only [Mailbox.frame, extendedFrame, hregister, hlen, hbytes, hdata, extRegister_and_two,
    if_pos hfour, decide_eq_true hfour, extRegister_shiftRight]
  rfl

/-! ## Sending -/

theorem copyBytes_eq (dst src : Nat → UInt8) (dstAt srcAt n k : Nat) :
    copyBytes dst src dstAt srcAt n k =
      if dstAt ≤ k ∧ k < dstAt + n then src (srcAt + (k - dstAt)) else dst k := by
  induction n with
  | zero => simp [copyBytes, show ¬ (dstAt ≤ k ∧ k < dstAt) by omega]
  | succ n ih =>
    by_cases hk : k = dstAt + n
    · subst hk
      simp [copyBytes]
    · rw [copyBytes, Function.update_of_ne hk, ih]
      have hiff : (dstAt ≤ k ∧ k < dstAt + n) ↔ dstAt ≤ k ∧ k < dstAt + (n + 1) := by omega
      simp only [hiff]

variable (tstatr : Nat → UInt32)

/-- A message that found no mailbox stays pending. -/
theorem canTransmitStatus_noMailBox (t : UInt32) :
    canTransmitStatus t txStatusNoMailBox = txStatusPending := rfl

theorem waitLoop_noMailBox (left : Nat) : ∀ n, (waitLoop tstatr txStatusNoMailBox left n).1 = 0 := by
  induction left with
  | zero => exact fun _ => rfl
  | succ left ih =>
    intro n
    have hpending : canTransmitStatus (tstatr n) txStatusNoMailBox ≠ txStatusOk := by
      rw [canTransmitStatus_noMailBox]
      decide
    rw [waitLoop, if_pos hpending]
    exact ih (n + 1)

variable (junk : CanTxMsg) (msg : Nat → UInt8) (len : UInt8) (id : UInt32) (c : Can)

/-- The message of `CAN_Send_Msg` with an extended identifier. -/
def extendedMsg : CanTxMsg :=
  { junk with
    extId := id, ide := 4, rtr := 0, dlc := len
    data := copyBytes junk.data msg 0 0 len.toNat }

/-- The frame of a send. -/
def sentFrame : CanFrame := extendedFrame id ((List.range len.toNat).map msg)

theorem frame_extendedMsg (b : Mailbox) (hlen : len.toNat ≤ 8) :
    (fill (extendedMsg junk msg len id) b).frame = sentFrame msg len id := by
  have hdata : (List.range len.toNat).map (extendedMsg junk msg len id).data =
      (List.range len.toNat).map msg := by
    apply List.map_congr_left
    intro k hk
    rw [List.mem_range] at hk
    simp only [extendedMsg, copyBytes_eq]
    rw [if_pos (by omega)]
    congr 1
    omega
  rw [frame_fill b rfl rfl hlen, sentFrame, ← hdata]
  rfl

theorem canSendMsg_extended : canSendMsg tstatr junk msg len 0 id c =
    let r := canTransmit tstatr (extendedMsg junk msg len id) c
    let w := waitLoop tstatr r.1 0xfff r.2.moment
    (if w.1 = 0 then 1 else 0, { r.2 with moment := w.2 }) := by
  have hext : (0 : UInt8) ≠ 1 := by decide
  simp only [canSendMsg, if_neg hext]
  rfl

theorem requested_canSendMsg (hlen : len.toNat ≤ 8) :
    (canSendMsg tstatr junk msg len 0 id c).2.requested =
      if (freeMailbox tstatr c.moment).1 ≠ txStatusNoMailBox then sentFrame msg len id :: c.requested
      else c.requested := by
  rw [canSendMsg_extended]
  simp only [canTransmit]
  split
  · exact congrArg (· :: c.requested) (frame_extendedMsg junk msg len id _ hlen)
  · rfl

/-- A send that succeeds had a mailbox. -/
theorem freeMailbox_of_sent (hsent : (canSendMsg tstatr junk msg len 0 id c).1 = 0) :
    (freeMailbox tstatr c.moment).1 ≠ txStatusNoMailBox := by
  intro hnone
  rw [canSendMsg_extended] at hsent
  simp only [canTransmit, hnone, ne_eq, not_true_eq_false, if_false, waitLoop_noMailBox,
    if_true] at hsent
  exact absurd hsent (by decide)

theorem requested_of_sent (hlen : len.toNat ≤ 8)
    (hsent : (canSendMsg tstatr junk msg len 0 id c).1 = 0) :
    (canSendMsg tstatr junk msg len 0 id c).2.requested = sentFrame msg len id :: c.requested := by
  rw [requested_canSendMsg tstatr junk msg len id c hlen]
  exact if_pos (freeMailbox_of_sent tstatr junk msg len id c hsent)

end RoboticArm
