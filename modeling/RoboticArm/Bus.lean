import RoboticArm.Limits
import RoboticArm.Runs
import RoboticArm.State
import Mathlib.Data.Rat.Floor

/- The motors' bus: what the nodes can read of the commands of the control program.

   A stepper command is two extended frames, a servo command one standard frame, and sending
   can fail at each of them: no mailbox is free, or the frame is in one and the polling loop
   gives up. `Bus` is the CAN driver with the frames it has asked for, each with what
   `CAN_Send_Msg` returned for it. On the wire are those for which it returned 0, and of the
   others any, in the order they were asked for (`Carried`). The order is an assumption: with
   `CAN_TXFP` disabled the controller takes waiting mailboxes by identifier, which is the same
   where no frame is asked for while another waits. `Nodes` is the other end: a stepper keeps
   the first frame for its address until the second comes, a servo takes every frame.

   `bus_reads`: for every sequence of commands, whatever the status register shows and whatever
   is lost of what was not reported, the nodes read commands that were given, each whole and in
   order, and they read every stepper command that `CAN_Send_Position_Mode` reported as sent.
   No two commands are ever put together.

   Correspondence (C ↔ Lean):
     `CAN_Send_Msg` with what it asked for  ↔ `Bus.send`
     `CAN_Send_Position_Mode`               ↔ `Bus.positionMode`
     `float_to_bytes`                       ↔ `floatToBytes`
     `CAN_BLDC_POS_CONTROL`                 ↔ `Bus.canBldcPosControl`, with `bldcRad`
     `CAN_MOTOR_MODE_SET`                   ↔ `Bus.canMotorModeSet` -/
namespace RoboticArm

open Bytes

/-! ## Standard frames -/

/-- A standard data message as the controller sends it. -/
def standardFrame (id : UInt32) (data : List UInt8) : CanFrame := ⟨false, false, id &&& 0x7ff, data⟩

/-- `TXMIR` with a standard identifier, from what it held. -/
def stdRegister (kept id : UInt32) : UInt32 :=
  (kept &&& 1) ||| (id <<< (21 : UInt32) ||| (0 : UInt32)) ||| (1 : UInt32)

theorem getLsbD_stdRegister (kept id : UInt32) {i : Nat} (hi : i < 32) :
    (stdRegister kept id).toBitVec.getLsbD i =
      (decide (i = 0) || (decide (21 ≤ i) && id.toBitVec.getLsbD (i - 21))) := by
  have hone : ∀ i < 32, (1 : UInt32).toBitVec.getLsbD i = decide (i = 0) := by decide
  have hshift : (id <<< (21 : UInt32)).toBitVec.getLsbD i =
      (decide (21 ≤ i) && id.toBitVec.getLsbD (i - 21)) := by
    rw [show (id <<< (21 : UInt32)).toBitVec = id.toBitVec <<< 21 from rfl, BitVec.getLsbD_shiftLeft]
    by_cases h21 : 21 ≤ i
    · simp [h21, hi, Nat.not_lt.2 h21]
    · simp [h21, Nat.lt_of_not_le h21]
  simp only [stdRegister, UInt32.toBitVec_or, UInt32.toBitVec_and, BitVec.getLsbD_or,
    BitVec.getLsbD_and, hone i hi, hshift]
  by_cases h0 : i = 0
  · simp [h0]
  · simp [h0]

/-- Bits 1 and 2, the kinds of frame, are clear. -/
theorem stdRegister_and (kept id : UInt32) {bit : UInt32} (hbit : bit = 2 ∨ bit = 4) :
    stdRegister kept id &&& bit = 0 := by
  have hmask : ∀ i < 32, bit.toBitVec.getLsbD i = true → i = 1 ∨ i = 2 := by
    rcases hbit with rfl | rfl
    · decide
    · decide
  apply UInt32.toBitVec_inj.1
  apply BitVec.eq_of_getLsbD_eq
  intro i hi
  rw [UInt32.toBitVec_and, BitVec.getLsbD_and, getLsbD_stdRegister kept id hi]
  cases hb : bit.toBitVec.getLsbD i with
  | false => simp
  | true =>
    rcases hmask i hi hb with rfl | rfl
    · simp
    · simp

theorem stdRegister_shiftRight (kept id : UInt32) : stdRegister kept id >>> 21 = id &&& 0x7ff := by
  have hmask : ∀ i < 32, (0x7ff : UInt32).toBitVec.getLsbD i = decide (i < 11) := by decide
  apply UInt32.toBitVec_inj.1
  apply BitVec.eq_of_getLsbD_eq
  intro i hi
  rw [UInt32.toBitVec_and, BitVec.getLsbD_and, hmask i hi, UInt32.toBitVec_shiftRight]
  have hshift : ((stdRegister kept id).toBitVec >>> ((21 : UInt32).toBitVec % 32)).getLsbD i =
      (stdRegister kept id).toBitVec.getLsbD (21 + i) := BitVec.getLsbD_ushiftRight _ 21 i
  rw [hshift]
  by_cases h : i < 11
  · rw [getLsbD_stdRegister kept id (by omega)]
    simp [h]
  · rw [BitVec.getLsbD_of_ge _ _ (by omega)]
    simp [h]

theorem frame_fill_standard {m : CanTxMsg} (b : Mailbox) (hide : m.ide = 0) (hrtr : m.rtr = 0)
    (hdlc : m.dlc.toNat ≤ 8) :
    (fill m b).frame = standardFrame m.stdId ((List.range m.dlc.toNat).map m.data) := by
  have hregister : (fill m b).txmir = stdRegister b.txmir m.stdId := by
    simp only [fill, hide, hrtr]
    rfl
  have hlen : ((fill m b).txmdtr &&& 0xf).toNat = m.dlc.toNat := dlc_register b.txmdtr hdlc
  have hbytes : bytes32 (fill m b).txmdlr ++ bytes32 (fill m b).txmdhr = (List.range 8).map m.data := by
    simp only [fill, bytes32_word32]
    rfl
  have hdata : ((List.range 8).map m.data).take m.dlc.toNat = (List.range m.dlc.toNat).map m.data := by
    rw [← List.map_take, List.take_range, Nat.min_eq_left hdlc]
  have hfour : ¬ stdRegister b.txmir m.stdId &&& 4 ≠ 0 :=
    not_not.2 (stdRegister_and b.txmir m.stdId (Or.inr rfl))
  have htwo : ¬ stdRegister b.txmir m.stdId &&& 2 ≠ 0 :=
    not_not.2 (stdRegister_and b.txmir m.stdId (Or.inl rfl))
  simp only [Mailbox.frame, standardFrame, hregister, hlen, hbytes, hdata, if_neg hfour,
    decide_eq_false hfour, decide_eq_false htwo, stdRegister_shiftRight]

/-! ## A send -/

/-- The frame of a send. -/
def frameOf (isstd : UInt8) (id : UInt32) (data : List UInt8) : CanFrame :=
  if isstd = 1 then standardFrame id data else extendedFrame id data

/-- The CAN driver, the frames it has asked for with whether `CAN_Send_Msg` returned 0, oldest
first, and the commands for which `CAN_Send_Position_Mode` returned 0. -/
structure Bus where
  can : Can
  sends : List (CanFrame × Bool)
  reported : List PositionMode

def Bus.boot : Bus := ⟨⟨fun _ => ⟨0, 0, 0, 0⟩, [], 0⟩, [], []⟩

section
variable (tstatr : Nat → UInt32)

def Bus.send (junk : CanTxMsg) (msg : Nat → UInt8) (len isstd : UInt8) (id : UInt32) (s : Bus) :
    UInt8 × Bus :=
  let r := canSendMsg tstatr junk msg len isstd id s.can
  let asked := r.2.requested.take (r.2.requested.length - s.can.requested.length)
  (r.1, { s with can := r.2, sends := s.sends ++ asked.map fun f => (f, decide (r.1 = 0)) })

theorem fst_send (junk : CanTxMsg) (msg : Nat → UInt8) (len isstd : UInt8) (id : UInt32) (s : Bus) :
    (s.send tstatr junk msg len isstd id).1 = (canSendMsg tstatr junk msg len isstd id s.can).1 := by
  simp only [Bus.send]

theorem can_send (junk : CanTxMsg) (msg : Nat → UInt8) (len isstd : UInt8) (id : UInt32) (s : Bus) :
    (s.send tstatr junk msg len isstd id).2.can =
      (canSendMsg tstatr junk msg len isstd id s.can).2 := by
  simp only [Bus.send]

theorem reported_send (junk : CanTxMsg) (msg : Nat → UInt8) (len isstd : UInt8) (id : UInt32)
    (s : Bus) :
    (s.send tstatr junk msg len isstd id).2.reported = s.reported := by
  simp only [Bus.send]

/-- The message of `CAN_Send_Msg`. -/
def message (junk : CanTxMsg) (msg : Nat → UInt8) (len isstd : UInt8) (id : UInt32) : CanTxMsg :=
  let m :=
    if isstd = 1 then { junk with stdId := id, ide := 0 } else { junk with extId := id, ide := 4 }
  let m := { m with rtr := 0, dlc := len }
  { m with data := copyBytes m.data msg 0 0 len.toNat }

theorem frame_message (junk : CanTxMsg) (msg : Nat → UInt8) {len isstd : UInt8} (id : UInt32)
    (b : Mailbox) (hlen : len.toNat ≤ 8) : (fill (message junk msg len isstd id) b).frame =
      frameOf isstd id ((List.range len.toNat).map msg) := by
  have hdata : (List.range len.toNat).map (message junk msg len isstd id).data =
      (List.range len.toNat).map msg := by
    apply List.map_congr_left
    intro k hk
    rw [List.mem_range] at hk
    simp only [message, copyBytes_eq]
    rw [if_pos (by omega)]
    congr 1
    omega
  rw [frameOf, ← hdata]
  by_cases hstd : isstd = 1
  · rw [if_pos hstd]
    have hide : (message junk msg len isstd id).ide = 0 := by
      simp only [message]
      rw [if_pos hstd]
    have hid : (message junk msg len isstd id).stdId = id := by
      simp only [message]
      rw [if_pos hstd]
    have hframe := frame_fill_standard b hide rfl (m := message junk msg len isstd id) hlen
    rw [hid] at hframe
    exact hframe
  · rw [if_neg hstd]
    have hide : (message junk msg len isstd id).ide = 4 := by
      simp only [message]
      rw [if_neg hstd]
    have hid : (message junk msg len isstd id).extId = id := by
      simp only [message]
      rw [if_neg hstd]
    have hframe := frame_fill b hide rfl (m := message junk msg len isstd id) hlen
    rw [hid] at hframe
    exact hframe

/-- What a send with the result `r` does to the driver: its frame is asked for, or it finds no
mailbox and fails. -/
structure SendSpec (s : Bus) (f : CanFrame) (r : UInt8 × Bus) : Prop where
  sent : r.1 = 0 → r.2.sends = s.sends ++ [(f, true)] ∧ r.2.reported = s.reported
  failed : r.1 ≠ 0 → (r.2.sends = s.sends ∨ r.2.sends = s.sends ++ [(f, false)]) ∧
    r.2.reported = s.reported

theorem send_spec (junk : CanTxMsg) (msg : Nat → UInt8) {len : UInt8} (isstd : UInt8) (id : UInt32)
    (s : Bus) (hlen : len.toNat ≤ 8) :
    SendSpec s (frameOf isstd id ((List.range len.toNat).map msg))
      (s.send tstatr junk msg len isstd id) := by
  have hsend : canSendMsg tstatr junk msg len isstd id s.can =
      let r := canTransmit tstatr (message junk msg len isstd id) s.can
      let w := waitLoop tstatr r.1 0xfff r.2.moment
      (if w.1 = 0 then 1 else 0, { r.2 with moment := w.2 }) := rfl
  have hreported := reported_send tstatr junk msg len isstd id s
  have hcases : ((s.send tstatr junk msg len isstd id).1 ≠ 0 ∧
      (s.send tstatr junk msg len isstd id).2.sends = s.sends) ∨
      (s.send tstatr junk msg len isstd id).2.sends =
        s.sends ++ [(frameOf isstd id ((List.range len.toNat).map msg),
          decide ((s.send tstatr junk msg len isstd id).1 = 0))] := by
    simp only [Bus.send, hsend, canTransmit]
    by_cases hfree : (freeMailbox tstatr s.can.moment).1 = txStatusNoMailBox
    · left
      rw [if_neg (not_not.2 hfree), hfree]
      simp only [waitLoop_noMailBox, if_true, Nat.sub_self, List.take_zero, List.map_nil,
        List.append_nil]
      exact ⟨by decide, trivial⟩
    · right
      rw [if_pos hfree]
      simp only [List.length_cons, Nat.add_sub_cancel_left, List.take_succ_cons, List.take_zero,
        List.map_cons, List.map_nil, frame_message junk msg id _ hlen]
  constructor
  · intro hok
    rcases hcases with ⟨hfail, -⟩ | hsent
    · exact absurd hok hfail
    · rw [hsent, decide_eq_true hok]
      exact ⟨rfl, hreported⟩
  · intro hfail
    rcases hcases with ⟨-, hnone⟩ | hsent
    · exact ⟨Or.inl hnone, hreported⟩
    · rw [hsent, decide_eq_false hfail]
      exact ⟨Or.inr rfl, hreported⟩

end

/-! ## The commands -/

/-- A call that sends: a command of the control program, or the set-up of the servos. -/
inductive Order (K : Type) where
  | cmd (c : Cmd K)
  | canMotorModeSet

/-- A call, with what its uninitialised locals hold. -/
structure BusCall (K : Type) where
  order : Order K
  frameData : Nat → UInt8
  stack : Nat → CanTxMsg

def floatToBytes (bits : UInt32) : List UInt8 :=
  [((bits >>> 24) &&& 0xff).toUInt8, ((bits >>> 16) &&& 0xff).toUInt8,
   ((bits >>> 8) &&& 0xff).toUInt8, (bits &&& 0xff).toUInt8]

/-- `tx_buffer` of `CAN_BLDC_POS_CONTROL`, the low byte first. -/
def bldcData (bits : UInt32) (i : Nat) : UInt8 :=
  let ieeeTx := floatToBytes bits
  [ieeeTx.getD 3 0, ieeeTx.getD 2 0, ieeeTx.getD 1 0, ieeeTx.getD 0 0, 0, 0, 0, 0].getD i 0

/-- `tx_buffer` for the position mode. -/
def modeData (i : Nat) : UInt8 := [3, 0, 0, 0, 3, 0, 0, 0].getD i 0

/-- `tx_buffer` for the closed loop. -/
def loopData (i : Nat) : UInt8 := [8, 0, 0, 0, 0, 0, 0, 0].getD i 0

/-- `(u32)node<<5 | command`. -/
def nodeId (node command : UInt32) : UInt32 := node <<< 5 ||| command

/-- `rad`. -/
def bldcRad {K : Type} [Field K] (angle : K) (motorId : UInt8) : K :=
  let angle := if motorId = 2 then angle + 98 else if motorId = 3 then -(170 - angle) else angle
  angle * 8 / 360 * (31415926 / 10000000) * 2

section
variable (tstatr : Nat → UInt32)

namespace Bus

def positionMode (junk : Junk) (a : PositionMode) (s : Bus) : UInt8 × Bus :=
  let r := s.send tstatr junk.first (a.firstData junk.frameData) 8 0 a.address
  if r.1 ≠ 0 then (1, r.2)
  else
    let frameData := a.secondData (a.firstData junk.frameData)
    let r := r.2.send tstatr junk.second frameData 5 0 (a.address + 1)
    if r.1 ≠ 0 then (1, r.2) else (0, r.2)

/-- The end of `Control_Motor` and `Control_Motor_new`. -/
def sendCommand (junk : Junk) (s : Bus) : Option PositionMode → Bus
  | none => s
  | some a =>
    let r := s.positionMode tstatr junk a
    { r.2 with reported := if r.1 = 0 then r.2.reported ++ [a] else r.2.reported }

/-- `CAN_BLDC_POS_CONTROL`, from the bits of `rad`. What the send returns is not looked at. -/
def canBldcPosControl (junk : CanTxMsg) (bits : UInt32) (motorId : UInt8) (s : Bus) : Bus :=
  if motorId = 2 then (s.send tstatr junk (bldcData bits) 8 1 (nodeId 2 0x0c)).2
  else if motorId = 3 then (s.send tstatr junk (bldcData bits) 8 1 (nodeId 3 0x0c)).2
  else s

def canMotorModeSet (stack : Nat → CanTxMsg) (s : Bus) : Bus :=
  let s := (s.send tstatr (stack 0) modeData 8 1 (nodeId 2 0x0b)).2
  let s := (s.send tstatr (stack 1) modeData 8 1 (nodeId 3 0x0b)).2
  let s := (s.send tstatr (stack 2) loopData 8 1 (nodeId 3 0x07)).2
  (s.send tstatr (stack 3) loopData 8 1 (nodeId 2 0x07)).2

theorem positionMode_of_failed {junk : Junk} {a : PositionMode} {s : Bus} {r : UInt8 × Bus}
    (hr : s.send tstatr junk.first (a.firstData junk.frameData) 8 0 a.address = r) (hfail : r.1 ≠ 0) :
    s.positionMode tstatr junk a = (1, r.2) := by
  simp only [positionMode, hr]
  exact if_pos hfail

theorem positionMode_of_sent {junk : Junk} {a : PositionMode} {s : Bus} {r t : UInt8 × Bus}
    (hr : s.send tstatr junk.first (a.firstData junk.frameData) 8 0 a.address = r) (hsent : r.1 = 0)
    (ht : r.2.send tstatr junk.second (a.secondData (a.firstData junk.frameData)) 5 0
      (a.address + 1) = t) :
    s.positionMode tstatr junk a = if t.1 ≠ 0 then (1, t.2) else (0, t.2) := by
  simp only [positionMode, hr, ht]
  exact if_neg (not_not.2 hsent)

theorem can_positionMode (junk : Junk) (a : PositionMode) (s : Bus) :
    (s.positionMode tstatr junk a).1 = (canSendPositionMode tstatr junk a s.can).1 ∧
      (s.positionMode tstatr junk a).2.can = (canSendPositionMode tstatr junk a s.can).2 := by
  let frameData := a.firstData junk.frameData
  let r := canSendMsg tstatr junk.first frameData 8 0 a.address s.can
  let t := canSendMsg tstatr junk.second (a.secondData frameData) 5 0 (a.address + 1) r.2
  simp only [positionMode, canSendPositionMode, firstSend, fst_send, can_send]
  by_cases h1 : r.1 = 0
  · by_cases h2 : t.1 = 0
    · simp only [r, t, frameData] at h1 h2
      simp only [h1, h2, ne_eq, not_true_eq_false, if_false, can_send, and_self]
    · simp only [r, t, frameData] at h1 h2
      simp only [h1, h2, ne_eq, not_true_eq_false, not_false_eq_true, if_false, if_true, can_send,
        and_self]
  · simp only [r, frameData] at h1
    simp only [h1, ne_eq, not_false_eq_true, if_true, can_send, and_self]

end Bus

section
variable {K : Type} [Field K] [LinearOrder K] [FloorRing K] (toBits : K → UInt32)

/-- A call of the driver. `toBits` is the 32 bits of a `float`. -/
def busStep (s : Bus) (c : BusCall K) : Bus :=
  let junk : Junk := ⟨c.frameData, c.stack 0, c.stack 1⟩
  match c.order with
  | .cmd (.controlMotor angle id) => s.sendCommand tstatr junk (motorCommand angle (UInt8.ofNat id))
  | .cmd (.controlMotorNew angle id speed acceleration) =>
    s.sendCommand tstatr junk
      (motorCommandNew angle (UInt8.ofNat id) (UInt32.ofNat speed) (UInt8.ofNat acceleration))
  | .cmd (.canBldcPosControl angle motorId) =>
    s.canBldcPosControl tstatr (c.stack 0) (toBits (bldcRad angle (UInt8.ofNat motorId)))
      (UInt8.ofNat motorId)
  | .cmd (.writeBit _ _) => s
  | .cmd (.lcdSendTask _ _ _ _) => s
  | .canMotorModeSet => s.canMotorModeSet tstatr c.stack

end

end

/-! ## The other end -/

/-- What a node reads: a command to a stepper, or two words for a servo. -/
inductive Word where
  | stepper (a : PositionMode)
  | servo (node command low high : UInt32)
  deriving DecidableEq, Repr

def readServo (f : CanFrame) : Option Word :=
  match f.data with
  | [b0, b1, b2, b3, b4, b5, b6, b7] =>
    some (.servo (f.id >>> 5) (f.id &&& 0x1f) (word32 b3 b2 b1 b0) (word32 b7 b6 b5 b4))
  | _ => none

/-- The first frames that wait for the second, and all that has been read. -/
structure Nodes where
  held : UInt32 → Option CanFrame
  words : List Word

def Nodes.boot : Nodes := ⟨fun _ => none, []⟩

/-- A frame of eight bytes begins a command to a stepper, a shorter one ends it. -/
def nodesStep (s : Nodes) (f : CanFrame) : Nodes :=
  if f.extended then
    if f.data.length = 8 then { s with held := Function.update s.held f.id (some f) }
    else
      -- the second frame has the identifier behind that of the first
      match s.held (f.id - 1) with
      | none => s
      | some first =>
        { held := Function.update s.held (f.id - 1) none
          words := s.words ++ (decode first f).toList.map .stepper }
  else { s with words := s.words ++ (readServo f).toList }

/-- The frames on the wire: those that were reported as sent, and any of the others. -/
inductive Carried : List (CanFrame × Bool) → List CanFrame → Prop
  | nil : Carried [] []
  | kept {f : CanFrame} {b : Bool} {sends : List (CanFrame × Bool)} {wire : List CanFrame} :
      Carried sends wire → Carried ((f, b) :: sends) (f :: wire)
  | lost {f : CanFrame} {sends : List (CanFrame × Bool)} {wire : List CanFrame} :
      Carried sends wire → Carried ((f, false) :: sends) wire

/-- Only what was reported is on the wire. -/
theorem Carried.reported : ∀ sends : List (CanFrame × Bool),
    Carried sends ((sends.filter Prod.snd).map Prod.fst)
  | [] => .nil
  | (_, true) :: sends => .kept (Carried.reported sends)
  | (_, false) :: sends => .lost (Carried.reported sends)

theorem Carried.split {xs ys : List (CanFrame × Bool)} {wire : List CanFrame}
    (h : Carried (xs ++ ys) wire) :
    ∃ front back, wire = front ++ back ∧ Carried xs front ∧ Carried ys back := by
  induction xs generalizing wire with
  | nil => exact ⟨[], wire, rfl, .nil, h⟩
  | cons x xs ih =>
    rw [List.cons_append] at h
    cases h with
    | kept hrest =>
      obtain ⟨front, back, rfl, hfront, hback⟩ := ih hrest
      exact ⟨_ :: front, back, rfl, .kept hfront, hback⟩
    | lost hrest =>
      obtain ⟨front, back, rfl, hfront, hback⟩ := ih hrest
      exact ⟨front, back, rfl, .lost hfront, hback⟩

/-! ## What is read of some sends -/

/-- Whatever is on the wire of these sends, the nodes read some of the words `all`, in order,
and the words `sure` among them. -/
def Reads (sends : List (CanFrame × Bool)) (all sure : List Word) : Prop :=
  ∀ (s : Nodes) (wire : List CanFrame), Carried sends wire →
    ∃ read, (Runs.exec nodesStep s wire).words = s.words ++ read ∧ read.Sublist all ∧ sure.Sublist read

namespace Reads

variable {xs ys : List (CanFrame × Bool)} {all sure all' sure' : List Word}

theorem none (all : List Word) : Reads [] all [] := by
  intro s wire h
  cases h
  exact ⟨[], (List.append_nil s.words).symm, List.nil_sublist all, List.Sublist.refl []⟩

theorem append (hx : Reads xs all sure) (hy : Reads ys all' sure') :
    Reads (xs ++ ys) (all ++ all') (sure ++ sure') := by
  intro s wire h
  obtain ⟨front, back, rfl, hfront, hback⟩ := h.split
  obtain ⟨read, hread, hall, hsure⟩ := hx s front hfront
  obtain ⟨read', hread', hall', hsure'⟩ := hy (Runs.exec nodesStep s front) back hback
  refine ⟨read ++ read', ?_, hall.append hall', hsure.append hsure'⟩
  rw [Runs.exec_append, hread', hread, List.append_assoc]

theorem standard {id : UInt32} {data : List UInt8} {w : Word}
    (hw : readServo (standardFrame id data) = some w) (b : Bool) :
    Reads [(standardFrame id data, b)] [w] [] := by
  intro s wire h
  cases h with
  | kept hrest =>
    cases hrest
    refine ⟨[w], ?_, List.Sublist.refl [w], List.nil_sublist [w]⟩
    rw [Runs.exec_cons, Runs.exec_nil, nodesStep, if_neg (show ¬ (standardFrame id data).extended from
      Bool.false_ne_true), hw]
    rfl
  | lost hrest =>
    cases hrest
    exact ⟨[], (List.append_nil s.words).symm, List.nil_sublist [w], List.Sublist.refl []⟩

theorem nodesStep_first {f : CanFrame} (s : Nodes) (hext : f.extended = true)
    (hlen : f.data.length = 8) :
    nodesStep s f = { s with held := Function.update s.held f.id (some f) } := by
  rw [nodesStep, if_pos hext, if_pos hlen]

theorem nodesStep_second {f first : CanFrame} {a : PositionMode} (s : Nodes)
    (hext : f.extended = true) (hlen : f.data.length = 5) (hheld : s.held (f.id - 1) = some first)
    (hdecode : decode first f = some a) : (nodesStep s f).words = s.words ++ [.stepper a] := by
  rw [nodesStep, if_pos hext, if_neg (by omega), hheld]
  dsimp only
  rw [hdecode]
  rfl

theorem first {f : CanFrame} (hext : f.extended = true) (hlen : f.data.length = 8) (b : Bool)
    (all : List Word) : Reads [(f, b)] all [] := by
  intro s wire h
  refine ⟨[], ?_, List.nil_sublist all, List.Sublist.refl []⟩
  rw [List.append_nil]
  cases h with
  | kept hrest =>
    cases hrest
    rw [Runs.exec_cons, Runs.exec_nil, nodesStep_first s hext hlen]
  | lost hrest =>
    cases hrest
    rfl

theorem pair {a : PositionMode} {f g : CanFrame} (h : Encodes a (a.address + 1) f g) (b : Bool) :
    Reads [(f, true), (g, b)] [.stepper a] (if b then [.stepper a] else []) := by
  intro s wire hwire
  obtain ⟨hext₁, hext₂⟩ := h.extended
  obtain ⟨hlen₁, hlen₂⟩ := h.lengths
  cases hwire with
  | kept hrest =>
    have hstep := nodesStep_first s hext₁ hlen₁
    cases hrest with
    | kept hend =>
      cases hend
      refine ⟨[.stepper a], ?_, List.Sublist.refl _, ?_⟩
      · have hid : g.id - 1 = f.id := by
          rw [h.ids.1, h.ids.2, UInt32.add_sub_cancel]
        rw [Runs.exec_cons, Runs.exec_cons, Runs.exec_nil, hstep]
        exact nodesStep_second _ hext₂ hlen₂ (by rw [hid]; exact Function.update_self _ _ _) h.decoded
      · cases b
        · exact List.nil_sublist _
        · exact List.Sublist.refl _
    | lost hend =>
      cases hend
      refine ⟨[], ?_, List.nil_sublist _, List.Sublist.refl []⟩
      rw [Runs.exec_cons, Runs.exec_nil, hstep, List.append_nil]

end Reads

/-! ## The words of an order -/

def stepperWords : Option PositionMode → List Word
  | none => []
  | some a => [.stepper a]

def servoWords (bits : UInt32) (motorId : UInt8) : List Word :=
  if motorId = 2 then [.servo 2 0x0c bits 0] else if motorId = 3 then [.servo 3 0x0c bits 0] else []

section
variable {K : Type} [Field K] [LinearOrder K] [FloorRing K] (toBits : K → UInt32)

/-- What the nodes are to read of an order. -/
def Order.words : Order K → List Word
  | .cmd (.controlMotor angle id) => stepperWords (motorCommand angle (UInt8.ofNat id))
  | .cmd (.controlMotorNew angle id speed acceleration) =>
    stepperWords
      (motorCommandNew angle (UInt8.ofNat id) (UInt32.ofNat speed) (UInt8.ofNat acceleration))
  | .cmd (.canBldcPosControl angle motorId) =>
    servoWords (toBits (bldcRad angle (UInt8.ofNat motorId))) (UInt8.ofNat motorId)
  | .cmd (.writeBit _ _) => []
  | .cmd (.lcdSendTask _ _ _ _) => []
  | .canMotorModeSet => [.servo 2 0x0b 3 3, .servo 3 0x0b 3 3, .servo 3 0x07 8 0, .servo 2 0x07 8 0]

end

/-! ## What a call sends -/

theorem bldcData_eq (bits : UInt32) : (List.range 8).map (bldcData bits) =
    [bits.toUInt8, (bits >>> 8).toUInt8, (bits >>> 16).toUInt8, (bits >>> 24).toUInt8, 0, 0, 0, 0] := by
  rw [← mask32 bits, ← mask32 (bits >>> 8), ← mask32 (bits >>> 16), ← mask32 (bits >>> 24)]
  rfl

/-- From `s` to `t` the driver has sent what reads as some of the words `all`, with every command
it has reported. -/
def Sending (all : List Word) (s t : Bus) : Prop :=
  ∃ sends reported, t.sends = s.sends ++ sends ∧ t.reported = s.reported ++ reported ∧
    Reads sends all (reported.map .stepper)

namespace Sending

variable {all all' : List Word} {s t u : Bus}

theorem refl (all : List Word) (s : Bus) : Sending all s s :=
  ⟨[], [], (List.append_nil _).symm, (List.append_nil _).symm, .none all⟩

theorem trans (h : Sending all s t) (h' : Sending all' t u) : Sending (all ++ all') s u := by
  obtain ⟨sends, reported, hsends, hreported, hreads⟩ := h
  obtain ⟨sends', reported', hsends', hreported', hreads'⟩ := h'
  refine ⟨sends ++ sends', reported ++ reported', ?_, ?_, ?_⟩
  · rw [hsends', hsends, List.append_assoc]
  · rw [hreported', hreported, List.append_assoc]
  · rw [List.map_append]
    exact hreads.append hreads'

variable (tstatr : Nat → UInt32)

theorem standard (junk : CanTxMsg) (msg : Nat → UInt8) (id : UInt32) (s : Bus) {w : Word}
    (hw : readServo (standardFrame id ((List.range 8).map msg)) = some w) :
    Sending [w] s (s.send tstatr junk msg 8 1 id).2 := by
  have hspec := send_spec tstatr junk msg 1 id s (show (8 : UInt8).toNat ≤ 8 by decide)
  have hreported := (reported_send tstatr junk msg 8 1 id s).trans (List.append_nil _).symm
  by_cases hok : (s.send tstatr junk msg 8 1 id).1 = 0
  · exact ⟨_, [], (hspec.sent hok).1, hreported, .standard hw true⟩
  · rcases (hspec.failed hok).1 with hnone | hunsure
    · exact ⟨[], [], hnone.trans (List.append_nil _).symm, hreported, .none [w]⟩
    · exact ⟨_, [], hunsure, hreported, .standard hw false⟩

theorem canBldcPosControl (junk : CanTxMsg) (bits : UInt32) (motorId : UInt8) (s : Bus) :
    Sending (servoWords bits motorId) s (s.canBldcPosControl tstatr junk bits motorId) := by
  have hread : ∀ node : UInt32, nodeId node 0x0c &&& 0x7ff = nodeId node 0x0c →
      nodeId node 0x0c >>> 5 = node → nodeId node 0x0c &&& 0x1f = 0x0c →
      readServo (standardFrame (nodeId node 0x0c) ((List.range 8).map (bldcData bits))) =
        some (.servo node 0x0c bits 0) := by
    intro node hid hnode hcommand
    rw [standardFrame, readServo, hid]
    dsimp only
    rw [bldcData_eq, hnode, hcommand]
    dsimp only
    rw [word32_bytes]
    rfl
  unfold Bus.canBldcPosControl servoWords
  split_ifs
  · exact standard tstatr junk _ _ s (hread 2 (by decide) (by decide) (by decide))
  · exact standard tstatr junk _ _ s (hread 3 (by decide) (by decide) (by decide))
  · exact refl [] s

theorem canMotorModeSet (stack : Nat → CanTxMsg) (s : Bus) :
    Sending [.servo 2 0x0b 3 3, .servo 3 0x0b 3 3, .servo 3 0x07 8 0, .servo 2 0x07 8 0] s
      (s.canMotorModeSet tstatr stack) := by
  have hword : ∀ (node command : UInt32) (msg : Nat → UInt8) (w : Word), readServo (standardFrame
      (nodeId node command) ((List.range 8).map msg)) = some w → ∀ (k : Nat) (t : Bus),
        Sending [w] t (t.send tstatr (stack k) msg 8 1 (nodeId node command)).2 :=
    fun node command msg w hw k t => standard tstatr (stack k) msg (nodeId node command) t hw
  unfold Bus.canMotorModeSet
  dsimp only
  generalize hs₁ : (s.send tstatr (stack 0) modeData 8 1 (nodeId 2 0x0b)).2 = s₁
  generalize hs₂ : (s₁.send tstatr (stack 1) modeData 8 1 (nodeId 3 0x0b)).2 = s₂
  generalize hs₃ : (s₂.send tstatr (stack 2) loopData 8 1 (nodeId 3 0x07)).2 = s₃
  have h₁ := hword 2 0x0b modeData (.servo 2 0x0b 3 3) (by decide) 0 s
  have h₂ := hword 3 0x0b modeData (.servo 3 0x0b 3 3) (by decide) 1 s₁
  have h₃ := hword 3 0x07 loopData (.servo 3 0x07 8 0) (by decide) 2 s₂
  have h₄ := hword 2 0x07 loopData (.servo 2 0x07 8 0) (by decide) 3 s₃
  rw [hs₁] at h₁
  rw [hs₂] at h₂
  rw [hs₃] at h₃
  exact ((h₁.trans h₂).trans h₃).trans h₄

theorem sendCommand (junk : Junk) {a : PositionMode} (ha : a.address.toNat + 1 < 2 ^ 29) (s : Bus) :
    Sending [.stepper a] s (s.sendCommand tstatr junk (some a)) := by
  generalize hdata : a.firstData junk.frameData = frameData
  let f := sentFrame frameData 8 a.address
  let g := sentFrame (a.secondData frameData) 5 (a.address + 1)
  have hencodes : Encodes a (a.address + 1) f g := by
    have hnext : (a.address + 1).toNat < 2 ^ 29 := by
      rw [UInt32.toNat_add, UInt32.toNat_one]
      omega
    have h := a.encodes_frames junk.frameData frameData (a.address + 1)
    rw [a.wire_of_lt (by omega), onBus_of_lt hnext, hdata] at h
    exact h
  have hf : frameOf 0 a.address ((List.range (8 : UInt8).toNat).map frameData) = f := if_neg (by decide)
  have hg : frameOf 0 (a.address + 1)
      ((List.range (5 : UInt8).toNat).map (a.secondData frameData)) = g :=
    if_neg (by decide)
  have hfirst := send_spec tstatr junk.first frameData 0 a.address s
      (show (8 : UInt8).toNat ≤ 8 by decide)
  rw [hf] at hfirst
  generalize hr : s.send tstatr junk.first frameData 8 0 a.address = r at hfirst
  rw [← hdata] at hr
  by_cases h₁ : r.1 = 0
  · obtain ⟨hsends₁, hreported₁⟩ := hfirst.sent h₁
    have hsecond := send_spec tstatr junk.second (a.secondData frameData) 0 (a.address + 1) r.2
      (show (5 : UInt8).toNat ≤ 8 by decide)
    rw [hg] at hsecond
    generalize ht : r.2.send tstatr junk.second (a.secondData frameData) 5 0 (a.address + 1) = t
      at hsecond
    rw [← hdata] at ht
    rw [Bus.sendCommand, Bus.positionMode_of_sent tstatr hr h₁ ht]
    by_cases h₂ : t.1 = 0
    · obtain ⟨hsends₂, hreported₂⟩ := hsecond.sent h₂
      rw [if_neg (not_not.2 h₂)]
      refine ⟨[(f, true), (g, true)], [a], ?_, ?_, Reads.pair hencodes true⟩
      · show t.2.sends = _
        rw [hsends₂, hsends₁, List.append_assoc]
        rfl
      · show t.2.reported ++ [a] = _
        rw [hreported₂, hreported₁]
    · obtain ⟨hsends₂, hreported₂⟩ := hsecond.failed h₂
      have hreported : t.2.reported = s.reported ++ [] := by
        rw [hreported₂, hreported₁, List.append_nil]
      rw [if_pos h₂]
      rcases hsends₂ with hnone | hunsure
      · exact ⟨[(f, true)], [], hnone.trans hsends₁, hreported,
          Reads.first hencodes.extended.1 hencodes.lengths.1 true _⟩
      · refine ⟨[(f, true), (g, false)], [], ?_, hreported, Reads.pair hencodes false⟩
        show t.2.sends = _
        rw [hunsure, hsends₁, List.append_assoc]
        rfl
  · -- the second frame is not sent behind a first one that failed
    obtain ⟨hsends₁, hreported₁⟩ := hfirst.failed h₁
    rw [Bus.sendCommand, Bus.positionMode_of_failed tstatr hr h₁]
    have hreported : r.2.reported = s.reported ++ [] := by
      rw [hreported₁, List.append_nil]
    rcases hsends₁ with hnone | hunsure
    · exact ⟨[], [], hnone.trans (List.append_nil _).symm, hreported, Reads.none _⟩
    · exact ⟨[(f, false)], [], hunsure, hreported,
        Reads.first hencodes.extended.1 hencodes.lengths.1 false _⟩

theorem sendCommand_option (junk : Junk) {o : Option PositionMode}
    (ho : ∀ a ∈ o, a.address.toNat + 1 < 2 ^ 29) (s : Bus) :
    Sending (stepperWords o) s (s.sendCommand tstatr junk o) := by
  cases o with
  | none => exact refl [] s
  | some a => exact sendCommand tstatr junk (ho a rfl) s

end Sending

section
variable {K : Type} [Field K] [LinearOrder K] [FloorRing K]

theorem address_motorCommand (angle : K) (id : UInt8) :
    ∀ a ∈ motorCommand angle id, a.address.toNat + 1 < 2 ^ 29 := by
  intro a ha
  unfold motorCommand at ha
  split_ifs at ha <;> cases ha
  all_goals
    dsimp only [Motor.command, motor1, motor4, motor5, motor6]
    decide

theorem address_motorCommandNew (angle : K) (id : UInt8) (speed : UInt32) (acceleration : UInt8) :
    ∀ a ∈ motorCommandNew angle id speed acceleration, a.address.toNat + 1 < 2 ^ 29 := by
  intro a ha
  unfold motorCommandNew at ha
  split_ifs at ha <;> cases ha
  all_goals
    dsimp only [Motor.command, motor1, motor4, motor5, motor6]
    decide

theorem sending_busStep (tstatr : Nat → UInt32) (toBits : K → UInt32) (s : Bus) (c : BusCall K) :
    Sending (c.order.words toBits) s (busStep tstatr toBits s c) := by
  obtain ⟨order, frameData, stack⟩ := c
  cases order with
  | canMotorModeSet => exact Sending.canMotorModeSet tstatr stack s
  | cmd c =>
    cases c with
    | controlMotor angle id => exact .sendCommand_option tstatr _ (address_motorCommand _ _) s
    | controlMotorNew angle id speed acceleration =>
      exact .sendCommand_option tstatr _ (address_motorCommandNew _ _ _ _) s
    | canBldcPosControl angle motorId => exact .canBldcPosControl tstatr (stack 0) _ _ s
    | writeBit pin level => exact .refl [] s
    | lcdSendTask x y z j => exact .refl [] s

theorem sending_run (tstatr : Nat → UInt32) (toBits : K → UInt32) (calls : List (BusCall K)) (s : Bus) :
    Sending (calls.flatMap fun c => c.order.words toBits) s
      (Runs.exec (busStep tstatr toBits) s calls) := by
  induction calls generalizing s with
  | nil => exact .refl [] s
  | cons c calls ih =>
    rw [List.flatMap_cons, Runs.exec_cons]
    exact (sending_busStep tstatr toBits s c).trans (ih _)

/-- The nodes read commands that were given, whole and in order, and among them every stepper
command that was reported as sent: whatever the status register shows, whatever the locals hold
and whatever is lost of the frames not reported. The stepper commands are those of the driver. -/
theorem bus_reads (tstatr : Nat → UInt32) (toBits : K → UInt32) (calls : List (BusCall K))
    {wire : List CanFrame} (h : Carried (Runs.exec (busStep tstatr toBits) Bus.boot calls).sends wire) :
    (Runs.exec nodesStep Nodes.boot wire).words.Sublist (calls.flatMap fun c => c.order.words toBits) ∧
      ((Runs.exec (busStep tstatr toBits) Bus.boot calls).reported.map .stepper).Sublist
        (Runs.exec nodesStep Nodes.boot wire).words ∧
      ∀ junk a (s : Bus),
        (s.positionMode tstatr junk a).1 = (canSendPositionMode tstatr junk a s.can).1 ∧
          (s.positionMode tstatr junk a).2.can = (canSendPositionMode tstatr junk a s.can).2 := by
  obtain ⟨sends, reported, hsends, hreported, hreads⟩ := sending_run tstatr toBits calls Bus.boot
  rw [hsends] at h
  obtain ⟨read, hread, hall, hsure⟩ := hreads Nodes.boot wire h
  rw [hread, hreported]
  exact ⟨hall, hsure, Bus.can_positionMode tstatr⟩

end

/-- The servos are set up, then motors 1 and 2 are moved. -/
def setUp : List (BusCall ℚ) :=
  let zeros : Nat → CanTxMsg := fun _ => ⟨0, 0, 0, 0, 0, fun _ => 0⟩
  [⟨.canMotorModeSet, fun _ => 0, zeros⟩, ⟨.cmd (.controlMotor 45 1), fun _ => 0, zeros⟩,
   ⟨.cmd (.canBldcPosControl 30 2), fun _ => 0, zeros⟩]

/-- A register that does not show the second frame for motor 1 as sent. -/
def lateBus (n : Nat) : UInt32 := if 11 ≤ n ∧ n ≤ 4106 then 0 else 0x1c000003

/-- That frame is lost, and motor 1 reads nothing. -/
theorem bus_reads_lost :
    let s := Runs.exec (busStep lateBus fun _ => 0x418efa35) Bus.boot setUp
    let t := Runs.exec nodesStep Nodes.boot ((s.sends.filter Prod.snd).map Prod.fst)
    s.sends.map Prod.snd = [true, true, true, true, true, false, true] ∧
      t.words = [.servo 2 0x0b 3 3, .servo 3 0x0b 3 3, .servo 3 0x07 8 0, .servo 2 0x07 8 0,
        .servo 2 0x0c 0x418efa35 0] ∧
      t.words.Sublist (setUp.flatMap fun c => c.order.words fun _ => 0x418efa35) ∧
      (s.reported.map .stepper).Sublist t.words := by
  intro s t
  obtain ⟨hall, hsure, -⟩ := bus_reads lateBus (fun _ => 0x418efa35) setUp (Carried.reported s.sends)
  have hread : s.sends.map Prod.snd = [true, true, true, true, true, false, true] ∧
      t.words = [.servo 2 0x0b 3 3, .servo 3 0x0b 3 3, .servo 3 0x07 8 0, .servo 2 0x07 8 0,
        .servo 2 0x0c 0x418efa35 0] := by
    decide +kernel
  exact ⟨hread.1, hread.2, hall, hsure⟩

end RoboticArm
