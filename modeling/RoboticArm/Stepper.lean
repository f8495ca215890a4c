import RoboticArm.Can

/- The command to a stepper motor: two frames for one position.

   `CAN_Send_Position_Mode` splits a command of ten bytes over two frames, the cut being
   inside the pulse count, and sends the second only after the first. `decode` puts a
   pair of frames together again.

   1. `position_mode_lossless`: if both sends succeed, exactly two frames are asked for and
      they decode to the command, up to what 29 bits hold of the address; if the first
      fails there is no second.
   2. `lastAddress` is the address from which the identifier of the second frame wraps.

   Correspondence (C ↔ Lean):
     the arguments of `CAN_Send_Position_Mode`   ↔ `PositionMode`
     `msg[10]`                                   ↔ `PositionMode.msg`
     `frame_data` before the first, second send  ↔ `PositionMode.firstData`, `.secondData` -/
namespace RoboticArm

open Bytes

structure PositionMode where
  address : UInt32
  direction : UInt8
  speed : UInt16
  acceleration : UInt8
  pulseCount : UInt32
  positionMode : UInt8
  syncMode : UInt8
  deriving DecidableEq, Repr

/-- What the uninitialised locals hold. -/
structure Junk where
  frameData : Nat → UInt8
  first : CanTxMsg
  second : CanTxMsg

namespace PositionMode

def msg (a : PositionMode) (i : Nat) : UInt8 :=
  [a.direction, ((a.speed >>> 8) &&& 0xff).toUInt8, (a.speed &&& 0xff).toUInt8, a.acceleration,
   ((a.pulseCount >>> 24) &&& 0xff).toUInt8, ((a.pulseCount >>> 16) &&& 0xff).toUInt8,
   ((a.pulseCount >>> 8) &&& 0xff).toUInt8, (a.pulseCount &&& 0xff).toUInt8, a.positionMode,
   a.syncMode].getD i 0

def firstData (a : PositionMode) (junk : Nat → UInt8) : Nat → UInt8 :=
  copyBytes (Function.update junk 0 0xfd) a.msg 1 0 7

/-- The buffer of the first frame is used again. -/
def secondData (a : PositionMode) (frameData : Nat → UInt8) : Nat → UInt8 :=
  Function.update (copyBytes (Function.update frameData 0 0xfd) a.msg 1 7 3) 4 0x6b

end PositionMode

/-- The first of the two sends. -/
def firstSend (tstatr : Nat → UInt32) (junk : Junk) (a : PositionMode) (c : Can) : UInt8 × Can :=
  canSendMsg tstatr junk.first (a.firstData junk.frameData) 8 0 a.address c

def canSendPositionMode (tstatr : Nat → UInt32) (junk : Junk) (a : PositionMode) (c : Can) :
    UInt8 × Can :=
  let r := firstSend tstatr junk a c
  if r.1 ≠ 0 then (1, r.2)
  else
    let frameData := a.secondData (a.firstData junk.frameData)
    let r := canSendMsg tstatr junk.second frameData 5 0 (a.address + 1) r.2
    if r.1 ≠ 0 then (1, r.2) else (0, r.2)

/-! ## The other end -/

/-- The bytes after the function code. -/
def body : List UInt8 → Option (List UInt8)
  | [] => none
  | code :: bytes => if code = 0xfd then some bytes else none

/-- The fields of a command, the high byte of each first. -/
def fields (address : UInt32) : List UInt8 → Option PositionMode
  | [direction, s1, s0, acceleration, p3, p2, p1, p0, positionMode, syncMode] =>
    some ⟨address, direction, word16 s1 s0, acceleration, word32 p3 p2 p1 p0, positionMode, syncMode⟩
  | _ => none

/-- The command in a pair of frames; the second ends with the check byte. -/
def decode (first second : CanFrame) : Option PositionMode := do
  let start ← body first.data
  let rest ← body second.data
  if rest.getLast? = some 0x6b then fields first.id (start ++ rest.dropLast) else none

/-- The frames are the two of a command, the second under the identifier `next`. -/
structure Encodes (a : PositionMode) (next : UInt32) (first second : CanFrame) : Prop where
  extended : first.extended = true ∧ second.extended = true
  data : first.remote = false ∧ second.remote = false
  ids : first.id = a.address ∧ second.id = next
  lengths : first.data.length = 8 ∧ second.data.length = 5
  decoded : decode first second = some a

/-! ## The round trip -/

theorem and_mask (b : UInt8) : b &&& 0xff = b := by
  apply UInt8.toNat_inj.1
  have hmod : b.toNat &&& 2 ^ 8 - 1 = b.toNat % 2 ^ 8 := Nat.and_two_pow_sub_one_eq_mod b.toNat 8
  exact (UInt8.toNat_and b 0xff).trans (hmod.trans (Nat.mod_eq_of_lt b.toNat_lt))

theorem mask16 (x : UInt16) : (x &&& 0xff).toUInt8 = x.toUInt8 :=
  (UInt16.toUInt8_and x 0xff).trans (and_mask x.toUInt8)

theorem mask32 (x : UInt32) : (x &&& 0xff).toUInt8 = x.toUInt8 :=
  (UInt32.toUInt8_and x 0xff).trans (and_mask x.toUInt8)

/-- What the controller keeps of an identifier. -/
def onBus (id : UInt32) : UInt32 := id &&& 0x1fffffff

theorem onBus_of_lt {id : UInt32} (h : id.toNat < 2 ^ 29) : onBus id = id := by
  apply UInt32.toNat_inj.1
  have hmod : id.toNat &&& 2 ^ 29 - 1 = id.toNat % 2 ^ 29 := Nat.and_two_pow_sub_one_eq_mod id.toNat 29
  exact (UInt32.toNat_and id 0x1fffffff).trans (hmod.trans (Nat.mod_eq_of_lt h))

namespace PositionMode

variable (a : PositionMode)

theorem firstData_eq (junk : Nat → UInt8) : (List.range 8).map (a.firstData junk) =
    [0xfd, a.direction, (a.speed >>> 8).toUInt8, a.speed.toUInt8, a.acceleration,
      (a.pulseCount >>> 24).toUInt8, (a.pulseCount >>> 16).toUInt8, (a.pulseCount >>> 8).toUInt8] := by
  rw [← mask16 (a.speed >>> 8), ← mask16 a.speed, ← mask32 (a.pulseCount >>> 24),
    ← mask32 (a.pulseCount >>> 16), ← mask32 (a.pulseCount >>> 8)]
  rfl

theorem secondData_eq (frameData : Nat → UInt8) : (List.range 5).map (a.secondData frameData) =
    [0xfd, a.pulseCount.toUInt8, a.positionMode, a.syncMode, 0x6b] := by
  rw [← mask32 a.pulseCount]
  rfl

/-- The address as far as the frames carry it. -/
def wire : PositionMode := { a with address := onBus a.address }

theorem wire_of_lt (h : a.address.toNat < 2 ^ 29) : a.wire = a := by
  rw [wire, onBus_of_lt h]

theorem encodes_frames (junk frameData : Nat → UInt8) (next : UInt32) :
    Encodes a.wire (onBus next) (sentFrame (a.firstData junk) 8 a.address)
      (sentFrame (a.secondData frameData) 5 next) where
  extended := ⟨rfl, rfl⟩
  data := ⟨rfl, rfl⟩
  ids := ⟨rfl, rfl⟩
  lengths := ⟨rfl, rfl⟩
  decoded := by
    have hfirst : (sentFrame (a.firstData junk) 8 a.address).data = _ := a.firstData_eq junk
    have hsecond : (sentFrame (a.secondData frameData) 5 next).data = _ := a.secondData_eq frameData
    have hid : (sentFrame (a.firstData junk) 8 a.address).id = onBus a.address := rfl
    rw [decode, hfirst, hsecond, hid]
    exact congrArg₂ (fun speed pulseCount => some (⟨onBus a.address, a.direction, speed, a.acceleration,
      pulseCount, a.positionMode, a.syncMode⟩ : PositionMode)) (word16_bytes a.speed)
      (word32_bytes a.pulseCount)

end PositionMode

/-! ## The two sends -/

section
variable (tstatr : Nat → UInt32) (junk : Junk) (a : PositionMode) (c : Can)

/-- The frames of the two sends. -/
def PositionMode.first : CanFrame := sentFrame (a.firstData junk.frameData) 8 a.address

def PositionMode.second : CanFrame :=
  sentFrame (a.secondData (a.firstData junk.frameData)) 5 (a.address + 1)

/-- The command goes out as two frames and nothing else, which decode to it. -/
def Lossless : Prop :=
  (canSendPositionMode tstatr junk a c).1 = 0 →
    ∃ first second, (canSendPositionMode tstatr junk a c).2.requested = second :: first :: c.requested ∧
      Encodes a (a.address + 1) first second

/-- A first send that fails is the end of the command. -/
theorem canSendPositionMode_of_failed (hfail : (firstSend tstatr junk a c).1 ≠ 0) :
    canSendPositionMode tstatr junk a c = (1, (firstSend tstatr junk a c).2) := by
  simp only [canSendPositionMode]
  rw [if_pos hfail]

theorem requested_canSendPositionMode (hsent : (canSendPositionMode tstatr junk a c).1 = 0) :
    (canSendPositionMode tstatr junk a c).2.requested =
      a.second junk :: a.first junk :: c.requested := by
  simp only [canSendPositionMode] at hsent ⊢
  split at hsent
  · exact absurd hsent (by decide : (1 : UInt8) ≠ 0)
  · next hfirst =>
    split at hsent
    · exact absurd hsent (by decide : (1 : UInt8) ≠ 0)
    · next hsecond =>
      rw [if_neg hfirst, if_neg hsecond, requested_of_sent _ _ _ _ _ _ (by decide) (not_not.1 hsecond),
        firstSend, requested_of_sent _ _ _ _ _ _ (by decide) (not_not.1 hfirst)]
      rfl

/-- If both sends succeed, the command goes out as exactly two frames that decode to it, up to what
29 bits hold of the address; if the first fails, it goes out as no more than the first. -/
theorem position_mode_lossless :
    ((canSendPositionMode tstatr junk a c).1 = 0 →
      ∃ first second,
        (canSendPositionMode tstatr junk a c).2.requested = second :: first :: c.requested ∧
          Encodes a.wire (onBus (a.address + 1)) first second ∧
          (a.address < 0x1fffffff → Encodes a (a.address + 1) first second)) ∧
      ((firstSend tstatr junk a c).1 ≠ 0 →
        (canSendPositionMode tstatr junk a c).1 = 1 ∧
          ((canSendPositionMode tstatr junk a c).2.requested = c.requested ∨
            (canSendPositionMode tstatr junk a c).2.requested = a.first junk :: c.requested)) := by
  constructor
  · intro hsent
    have hframes : Encodes a.wire (onBus (a.address + 1)) (a.first junk) (a.second junk) :=
      a.encodes_frames _ _ _
    refine ⟨a.first junk, a.second junk, requested_canSendPositionMode tstatr junk a c hsent,
      hframes, ?_⟩
    intro hlow
    have hlt : a.address.toNat < 0x1fffffff := UInt32.lt_iff_toNat_lt.1 hlow
    have hnext : (a.address + 1).toNat < 2 ^ 29 := by
      rw [UInt32.toNat_add, UInt32.toNat_one]
      omega
    have hwire : a.wire = a := a.wire_of_lt (by omega)
    rw [hwire, onBus_of_lt hnext] at hframes
    exact hframes
  · intro hfail
    rw [canSendPositionMode_of_failed tstatr junk a c hfail]
    refine ⟨rfl, ?_⟩
    rw [firstSend, requested_canSendMsg _ _ _ _ _ _ (by decide)]
    split
    · exact Or.inr rfl
    · exact Or.inl rfl

end

/-- All mailboxes empty, and the transmission of mailbox 0 done at once. -/
def idleBus : Nat → UInt32 := fun _ => 0x1c000003

def noJunk : Junk := ⟨fun _ => 0, ⟨0, 0, 0, 0, 0, fun _ => 0⟩, ⟨0, 0, 0, 0, 0, fun _ => 0⟩⟩

def Can.reset : Can := ⟨fun _ => ⟨0, 0, 0, 0⟩, [], 0⟩

/-- No mailbox is ever empty. -/
def fullBus : Nat → UInt32 := fun _ => 0

/-- Motor 1 to position 3200, at speed 300. -/
def firstMotor : PositionMode := ⟨0x100, 1, 300, 10, 3200, 1, 0⟩

theorem position_mode_lossless_firstMotor :
    (∃ first second, (canSendPositionMode idleBus noJunk firstMotor .reset).2.requested =
      [second, first] ∧ Encodes firstMotor (firstMotor.address + 1) first second) ∧
      (canSendPositionMode fullBus noJunk firstMotor .reset).1 = 1 ∧
      (canSendPositionMode fullBus noJunk firstMotor .reset).2.requested.length ≤ 1 := by
  have hidle := (position_mode_lossless idleBus noJunk firstMotor .reset).1 (by decide)
  have hfail : (firstSend fullBus noJunk firstMotor .reset).1 ≠ 0 := fun hsent =>
    freeMailbox_of_sent fullBus _ _ 8 _ .reset hsent (by decide)
  have hfull := (position_mode_lossless fullBus noJunk firstMotor .reset).2 hfail
  refine ⟨?_, hfull.1, ?_⟩
  · obtain ⟨first, second, hrequested, -, hlow⟩ := hidle
    exact ⟨first, second, hrequested, hlow (by decide)⟩
  · rcases hfull.2 with hnone | hone
    · rw [hnone]
      decide
    · rw [hone]
      decide

/-- The identifier of the second frame does not fit in 29 bits. -/
def lastAddress : PositionMode := ⟨0x1fffffff, 0, 0, 0, 0, 1, 0⟩

theorem not_lossless_lastAddress : ¬ Lossless idleBus noJunk lastAddress .reset := by
  intro h
  have hsent : (canSendPositionMode idleBus noJunk lastAddress .reset).1 = 0 := by decide
  obtain ⟨first, second, hrequested, hencodes⟩ := h hsent
  rw [requested_canSendPositionMode _ _ _ _ hsent] at hrequested
  have hsecond : lastAddress.second noJunk = second := (List.cons.inj hrequested).1
  have hid : (lastAddress.second noJunk).id = lastAddress.address + 1 := hsecond ▸ hencodes.ids.2
  exact absurd hid (by decide)

end RoboticArm
