import RoboticArm.Bytes
import RoboticArm.Runs
import Mathlib.Logic.Function.Basic

/- Receiving a message through the soft filter.

   `CAN_SoftFilterInit` fills a bank of the table; `CAN_ReceiveViaSoftFilter` looks for a bank
   that accepts the pending frame and receives it; `CAN_Receive_Msg` hands its data and its
   length code to the interrupt, which copies as many bytes as the code says. What an
   uninitialised variable holds is a parameter (`junk`, `stack`). What a write behind the
   table hits is not modelled: `written` says that there is one.

   1. `receiveLoop_eq_find`: the loop ends at the first enabled bank that accepts the frame
      or is of another kind than the two it knows.
   2. `len_canReceiveMsg`: the length is that of the frame where the loop ends with a bank
      that accepts it, and whatever the variable held where it does not.
   3. `guarded_iff`: for which tables and frames what is published is the frame.

   Correspondence (C ↔ Lean):
     `CANFilterStruct[]`                      ↔ `SoftFilter`, a bank of it `CanFilterStruct`
     `sFIFOMailBox[0]`                        ↔ `RxMailbox`, the oldest of a list of frames
     the loop of `CAN_ReceiveViaSoftFilter`   ↔ `receiveLoop` -/
namespace RoboticArm

open Bytes

/-! ## The table -/

def cansoftfilterMaxGroupNum : Nat := 2

/-- `CAN2FilterStartBank`, which nothing changes. -/
def can2FilterStartBank : Nat := cansoftfilterMaxGroupNum

/-- A bank: its two words, and the fields of its control word. -/
structure CanFilterStruct where
  fr0 : UInt32
  fr1 : UInt32
  en : Bool
  mode : BitVec 4
  scale : BitVec 3
  deriving DecidableEq, Repr

namespace CanFilterStruct

/-- The control byte, without the enable bit. -/
def ctrlByte (b : CanFilterStruct) : BitVec 8 := b.scale ++ b.mode ++ 0#1

def ctrlByteMask32 : BitVec 8 := (1 <<< 5) ||| (0 <<< 1)
def ctrlByteId32 : BitVec 8 := (1 <<< 5) ||| (1 <<< 1)

end CanFilterStruct

structure CanFilterInit where
  filterIdHigh : UInt16
  filterIdLow : UInt16
  filterMaskIdHigh : UInt16
  filterMaskIdLow : UInt16
  filterNumber : UInt8
  filterMode : UInt8
  filterScale : UInt8
  filterActivation : Bool
  deriving DecidableEq, Repr

/-- The banks, and the indexes written, newest first. -/
structure SoftFilter where
  canFilterStruct : Nat → CanFilterStruct
  written : List Nat

def SoftFilter.boot : SoftFilter := ⟨fun _ => ⟨0, 0, false, 0, 0⟩, []⟩

def canSoftFilterInit (t : SoftFilter) (f : CanFilterInit) : SoftFilter :=
  let number := f.filterNumber.toNat
  if cansoftfilterMaxGroupNum < number then t
  else
    { canFilterStruct := Function.update t.canFilterStruct number
        { fr0 := f.filterIdHigh.toUInt32 <<< 16 ||| f.filterIdLow.toUInt32
          fr1 := f.filterMaskIdHigh.toUInt32 <<< 16 ||| f.filterMaskIdLow.toUInt32
          en := f.filterActivation
          mode := f.filterMode.toBitVec.setWidth 4
          scale := f.filterScale.toBitVec.setWidth 3 }
      written := number :: t.written }

/-- The table after a sequence of installations. -/
def installed (fs : List CanFilterInit) : SoftFilter := Runs.exec canSoftFilterInit SoftFilter.boot fs

/-! ## Reception -/

/-- The registers that show the oldest pending frame. -/
structure RxMailbox where
  rxmir : UInt32
  rxmdtr : UInt32
  rxmdlr : UInt32
  rxmdhr : UInt32
  deriving DecidableEq, Repr

structure CanRxMsg where
  stdId : UInt32
  extId : UInt32
  ide : UInt8
  rtr : UInt8
  dlc : UInt8
  data : Vector UInt8 8
  fmi : UInt8

/-- A message keeps the identifier of the other format. -/
def canReceive (r : RxMailbox) (m : CanRxMsg) : CanRxMsg :=
  let ide := (r.rxmir &&& 4).toUInt8
  { stdId := if ide = 0 then (r.rxmir >>> 21) &&& 0x7ff else m.stdId
    extId := if ide = 0 then m.extId else (r.rxmir >>> 3) &&& 0x1fffffff
    ide := ide
    rtr := (r.rxmir &&& 2).toUInt8
    dlc := (r.rxmdtr &&& 0xf).toUInt8
    data := #v[(r.rxmdlr &&& 0xff).toUInt8, ((r.rxmdlr >>> 8) &&& 0xff).toUInt8,
      ((r.rxmdlr >>> 16) &&& 0xff).toUInt8, ((r.rxmdlr >>> 24) &&& 0xff).toUInt8,
      (r.rxmdhr &&& 0xff).toUInt8, ((r.rxmdhr >>> 8) &&& 0xff).toUInt8,
      ((r.rxmdhr >>> 16) &&& 0xff).toUInt8, ((r.rxmdhr >>> 24) &&& 0xff).toUInt8]
    fmi := ((r.rxmdtr >>> 8) &&& 0xff).toUInt8 }

/-- The loop over the banks, with the pending frame `r` and those after it: the message and
the frames that are pending then. -/
def receiveLoop (bank : Nat → CanFilterStruct) (r : RxMailbox) (rest : List RxMailbox) (m : CanRxMsg) :
    List Nat → CanRxMsg × List RxMailbox
  | [] => (m, rest)
  | group :: groups =>
    let b := bank group
    if b.en then
      let temp := r.rxmir &&& ~~~1
      if b.ctrlByte = CanFilterStruct.ctrlByteId32 then
        if b.fr0 ≠ temp ∧ b.fr1 ≠ temp then receiveLoop bank r rest m groups
        else (canReceive r m, rest)
      else if b.ctrlByte = CanFilterStruct.ctrlByteMask32 then
        if (b.fr0 &&& b.fr1) ^^^ (temp &&& b.fr1) ≠ 0 then receiveLoop bank r rest m groups
        else (canReceive r m, rest)
      -- neither receives the frame nor releases it
      else (m, r :: rest)
    else receiveLoop bank r rest m groups

def canReceiveViaSoftFilter (t : SoftFilter) (r : RxMailbox) (rest : List RxMailbox) (m : CanRxMsg) :
    CanRxMsg × List RxMailbox :=
  receiveLoop t.canFilterStruct r rest m (List.range can2FilterStartBank)

/-- What `CAN_Receive_Msg` returns, the caller's buffer, and the frames pending then. -/
structure Received where
  len : UInt8
  buf : Vector UInt8 8
  fifo : List RxMailbox

def canReceiveMsg (t : SoftFilter) (junk : CanRxMsg) (buf : Vector UInt8 8) :
    List RxMailbox → Received
  | [] => ⟨0, buf, []⟩
  | r :: rest =>
    let q := canReceiveViaSoftFilter t r rest junk
    ⟨q.1.dlc, q.1.data, q.2⟩

/-- The buffer of the interrupt from its start on, its flag, and the indexes used with it. -/
structure RxBuffer where
  canexbufInterrupt : Nat → UInt8
  interruptRxFlag : Bool
  indexed : List Nat

def copyByte (pbuf : Nat → UInt8) (b : RxBuffer) (i : Nat) : RxBuffer :=
  { b with
    canexbufInterrupt := Function.update b.canexbufInterrupt i (pbuf i)
    indexed := i :: b.indexed }

/-- The handler, with the interrupt enabled or not. `pbuf` lies at the start of `stack`. -/
def usbLpCan1Rx0IrqHandler (enabled : Bool) (t : SoftFilter) (junk : CanRxMsg) (stack : Nat → UInt8)
    (fifo : List RxMailbox) (b : RxBuffer) : RxBuffer × List RxMailbox :=
  if enabled && !fifo.isEmpty then
    let q := canReceiveMsg t junk (Vector.ofFn fun i => stack i) fifo
    let pbuf : Nat → UInt8 := fun i => if h : i < 8 then q.buf.get ⟨i, h⟩ else stack i
    let b := Runs.exec (copyByte pbuf) b (List.range q.len.toNat)
    (if q.len ≠ 0 then { b with interruptRxFlag := true } else b, q.fifo)
  else (b, fifo)

/-! ## What is to be published -/

namespace CanFilterStruct

/-- The kinds of bank the filter knows: two identifiers, or one and a mask. -/
def Known (b : CanFilterStruct) : Prop := b.ctrlByte = ctrlByteId32 ∨ b.ctrlByte = ctrlByteMask32

instance (b : CanFilterStruct) : Decidable b.Known := inferInstanceAs (Decidable (_ ∨ _))

end CanFilterStruct

namespace RxMailbox

/-- What the filter looks at: the identifier with its format and whether the frame is remote. -/
def filterId (r : RxMailbox) : UInt32 := r.rxmir &&& ~~~1

/-- The length code. -/
def dlc (r : RxMailbox) : UInt8 := (r.rxmdtr &&& 0xf).toUInt8

def data (r : RxMailbox) : List UInt8 := bytes32 r.rxmdlr ++ bytes32 r.rxmdhr

end RxMailbox

/-- The bank is enabled and its identifiers, or its identifier under its mask, are the frame's. -/
def CanFilterStruct.Accepts (b : CanFilterStruct) (r : RxMailbox) : Prop :=
  b.en = true ∧
    (b.ctrlByte = ctrlByteId32 ∧ (r.filterId = b.fr0 ∨ r.filterId = b.fr1) ∨
      b.ctrlByte = ctrlByteMask32 ∧ r.filterId &&& b.fr1 = b.fr0 &&& b.fr1)

instance (b : CanFilterStruct) (r : RxMailbox) : Decidable (b.Accepts r) :=
  inferInstanceAs (Decidable (_ ∧ _))

/-- Some bank accepts the frame, and no enabled one before it is of an unknown kind. -/
def SoftFilter.LetsIn (t : SoftFilter) (r : RxMailbox) : Prop :=
  ∃ g < can2FilterStartBank, (t.canFilterStruct g).Accepts r ∧
    ∀ h < g, (t.canFilterStruct h).en = true → (t.canFilterStruct h).Known

instance (t : SoftFilter) (r : RxMailbox) : Decidable (t.LetsIn r) :=
  inferInstanceAs (Decidable (∃ g < can2FilterStartBank, _))

def RxBuffer.InBounds (b : RxBuffer) : Prop := ∀ i ∈ b.indexed, i < 8

/-- What is received is the pending frame, which some bank accepts. -/
def Received.IsFrame (t : SoftFilter) (fifo : List RxMailbox) (q : Received) : Prop :=
  ∃ r ∈ fifo.head?, (∃ g < cansoftfilterMaxGroupNum, (t.canFilterStruct g).Accepts r) ∧ q.len ≤ 8 ∧
    q.buf.toList = r.data

/-- Whatever uninitialised variables hold, only an accepted frame is published, the interrupt
stays within its buffers and the table was only written within its banks. -/
structure Guarded (t : SoftFilter) (fifo : List RxMailbox) : Prop where
  published : ∀ junk buf, 0 < (canReceiveMsg t junk buf fifo).len →
    (canReceiveMsg t junk buf fifo).IsFrame t fifo
  indexes : ∀ enabled junk stack b, b.InBounds →
    (usbLpCan1Rx0IrqHandler enabled t junk stack fifo b).1.InBounds
  banks : ∀ n ∈ t.written, n < cansoftfilterMaxGroupNum

/-! ## The table -/

/-- An installation stays within the table unless its number is that of no bank and passes
the check. -/
theorem banks_canSoftFilterInit (t : SoftFilter) (f : CanFilterInit) :
    (∀ n ∈ (canSoftFilterInit t f).written, n < cansoftfilterMaxGroupNum) ↔
      (∀ n ∈ t.written, n < cansoftfilterMaxGroupNum) ∧ f.filterNumber ≠ 2 := by
  have htwo : f.filterNumber ≠ 2 ↔ f.filterNumber.toNat ≠ 2 :=
    not_congr (UInt8.toNat_inj (b := 2)).symm
  rw [htwo]
  unfold canSoftFilterInit cansoftfilterMaxGroupNum
  dsimp only
  split
  · next hlarge =>
    refine ⟨fun h => ⟨h, by omega⟩, fun h => h.1⟩
  · next hsmall =>
    simp only [List.mem_cons, forall_eq_or_imp]
    constructor
    · rintro ⟨hnumber, h⟩
      exact ⟨h, by omega⟩
    · rintro ⟨h, hnumber⟩
      exact ⟨by omega, h⟩

theorem banks_installed (fs : List CanFilterInit) :
    (∀ n ∈ (installed fs).written, n < cansoftfilterMaxGroupNum) ↔
      ∀ f ∈ fs, f.filterNumber ≠ 2 := by
  have hboot : ∀ n ∈ SoftFilter.boot.written, n < cansoftfilterMaxGroupNum := nofun
  have hrun : (∀ n ∈ (installed fs).written, n < cansoftfilterMaxGroupNum) ↔
      (∀ n ∈ SoftFilter.boot.written, n < cansoftfilterMaxGroupNum) ∧
        Runs.Along (fun _ f => f.filterNumber ≠ 2) canSoftFilterInit SoftFilter.boot fs :=
    Runs.exec_iff_along (P := fun t : SoftFilter => ∀ n ∈ t.written, n < cansoftfilterMaxGroupNum)
      banks_canSoftFilterInit
  rw [hrun, and_iff_right hboot]
  exact Runs.along_iff_mem

/-! ## The loop -/

theorem receiveLoop_cons (bank : Nat → CanFilterStruct) (r : RxMailbox) (rest : List RxMailbox)
    (m : CanRxMsg) (g : Nat) (gs : List Nat) :
    receiveLoop bank r rest m (g :: gs) =
      if (bank g).Accepts r then (canReceive r m, rest)
      else if (bank g).en = true ∧ ¬ (bank g).Known then (m, r :: rest)
      else receiveLoop bank r rest m gs := by
  have hkinds : CanFilterStruct.ctrlByteMask32 ≠ CanFilterStruct.ctrlByteId32 := by decide
  rw [receiveLoop]
  generalize bank g = b
  dsimp only
  show (if b.en = true then if _ then if b.fr0 ≠ r.filterId ∧ b.fr1 ≠ r.filterId then _ else _
    else if _ then if (b.fr0 &&& b.fr1) ^^^ (r.filterId &&& b.fr1) ≠ 0 then _ else _ else _ else _) = _
  by_cases hen : b.en = true
  · rw [if_pos hen]
    by_cases hid : b.ctrlByte = CanFilterStruct.ctrlByteId32
    · have hknown : b.Known := .inl hid
      have hmask : b.ctrlByte ≠ CanFilterStruct.ctrlByteMask32 := fun h => hkinds (h.symm.trans hid)
      have haccepts : b.Accepts r ↔ ¬ (b.fr0 ≠ r.filterId ∧ b.fr1 ≠ r.filterId) := by
        unfold CanFilterStruct.Accepts
        rw [not_and_or, not_not, not_not]
        simp [hen, hid, hkinds.symm, eq_comm]
      rw [if_pos hid]
      by_cases hmiss : b.fr0 ≠ r.filterId ∧ b.fr1 ≠ r.filterId
      · rw [if_pos hmiss, if_neg fun h => haccepts.1 h hmiss, if_neg fun h => h.2 hknown]
      · rw [if_neg hmiss, if_pos (haccepts.2 hmiss)]
    · rw [if_neg hid]
      by_cases hmask : b.ctrlByte = CanFilterStruct.ctrlByteMask32
      · have hknown : b.Known := .inr hmask
        have haccepts : b.Accepts r ↔ ¬ ((b.fr0 &&& b.fr1) ^^^ (r.filterId &&& b.fr1) ≠ 0) := by
          unfold CanFilterStruct.Accepts
          rw [not_not, UInt32.xor_eq_zero_iff]
          simp [hen, hmask, hkinds, eq_comm]
        rw [if_pos hmask]
        by_cases hmiss : (b.fr0 &&& b.fr1) ^^^ (r.filterId &&& b.fr1) ≠ 0
        · rw [if_pos hmiss, if_neg fun h => haccepts.1 h hmiss, if_neg fun h => h.2 hknown]
        · rw [if_neg hmiss, if_pos (haccepts.2 hmiss)]
      · have hunknown : ¬ b.Known := not_or.2 ⟨hid, hmask⟩
        have hrejects : ¬ b.Accepts r := fun h => hunknown (h.2.imp And.left And.left)
        rw [if_neg hmask, if_neg hrejects, if_pos ⟨hen, hunknown⟩]
  · have hrejects : ¬ b.Accepts r := fun h => hen h.1
    rw [if_neg hen, if_neg hrejects, if_neg fun h => hen h.1]

/-- The loop ends at the bank, or would have before it. -/
def CanFilterStruct.stops (r : RxMailbox) (b : CanFilterStruct) : Bool :=
  decide (b.Accepts r) || (b.en && !decide b.Known)

theorem receiveLoop_eq_find (bank : Nat → CanFilterStruct) (r : RxMailbox) (rest : List RxMailbox)
    (m : CanRxMsg) : ∀ gs : List Nat, receiveLoop bank r rest m gs =
      match gs.find? fun g => (bank g).stops r with
      | none => (m, rest)
      | some g => if (bank g).Accepts r then (canReceive r m, rest) else (m, r :: rest)
  | [] => rfl
  | g :: gs => by
    rw [receiveLoop_cons, List.find?_cons, receiveLoop_eq_find bank r rest m gs]
    unfold CanFilterStruct.stops
    by_cases haccepts : (bank g).Accepts r
    · simp [haccepts]
    · by_cases hunknown : (bank g).en = true ∧ ¬ (bank g).Known
      · simp [haccepts, hunknown]
      · have hpasses : ((bank g).en && !decide (bank g).Known) = false := by
          simpa using hunknown
        simp only [if_neg haccepts, if_neg hunknown, decide_eq_false haccepts, hpasses, Bool.or_false]

/-- A frame is let in exactly when the loop ends at a bank that accepts it. -/
theorem letsIn_iff_find {t : SoftFilter} {r : RxMailbox} : t.LetsIn r ↔
    ∃ g, ((List.range can2FilterStartBank).find? fun g => (t.canFilterStruct g).stops r) = some g ∧
      (t.canFilterStruct g).Accepts r := by
  constructor
  · rintro ⟨g, hg, haccepts, hbefore⟩
    have hstops : (t.canFilterStruct g).stops r = true := by
      simp [CanFilterStruct.stops, haccepts]
    cases hfind : (List.range can2FilterStartBank).find? fun g => (t.canFilterStruct g).stops r with
    | none =>
      rw [List.find?_eq_none] at hfind
      exact absurd hstops (hfind g (List.mem_range.2 hg))
    | some f =>
      obtain ⟨hf, _, hfirst⟩ := List.find?_range_eq_some.1 hfind
      refine ⟨f, rfl, ?_⟩
      by_cases hlt : f < g
      · simp only [CanFilterStruct.stops, Bool.or_eq_true, decide_eq_true_eq, Bool.and_eq_true,
          Bool.not_eq_true', decide_eq_false_iff_not] at hf
        rcases hf with hf | ⟨hen, hunknown⟩
        · exact hf
        · exact absurd (hbefore f hlt hen) hunknown
      · have hle : f = g := by
          by_contra hne
          have hlater := hfirst g (by omega)
          rw [hstops] at hlater
          exact absurd hlater (by decide)
        exact hle ▸ haccepts
  · rintro ⟨g, hfind, haccepts⟩
    obtain ⟨_, hg, hfirst⟩ := List.find?_range_eq_some.1 hfind
    refine ⟨g, List.mem_range.1 hg, haccepts, ?_⟩
    intro h hlt hen
    have hpasses := hfirst h hlt
    by_contra hunknown
    simp [CanFilterStruct.stops, hen, hunknown] at hpasses

theorem canReceiveViaSoftFilter_fst (t : SoftFilter) (r : RxMailbox) (rest : List RxMailbox)
    (m : CanRxMsg) :
    (canReceiveViaSoftFilter t r rest m).1 = if t.LetsIn r then canReceive r m else m := by
  unfold canReceiveViaSoftFilter
  rw [receiveLoop_eq_find]
  by_cases hin : t.LetsIn r
  · obtain ⟨g, hfind, haccepts⟩ := letsIn_iff_find.1 hin
    rw [hfind, if_pos hin]
    dsimp only
    rw [if_pos haccepts]
  · rw [if_neg hin]
    cases hfind : (List.range can2FilterStartBank).find? fun g => (t.canFilterStruct g).stops r with
    | none => rfl
    | some g =>
      have hrejects : ¬ (t.canFilterStruct g).Accepts r :=
        fun haccepts => hin (letsIn_iff_find.2 ⟨g, hfind, haccepts⟩)
      dsimp only
      rw [if_neg hrejects]

/-! ## The message -/

theorem toUInt8_and (x : UInt32) : (x &&& 0xff).toUInt8 = x.toUInt8 := by
  apply UInt8.toNat_inj.1
  have hmask : x.toNat % 256 &&& 255 = x.toNat % 256 % 256 :=
    Nat.and_two_pow_sub_one_eq_mod (x.toNat % 256) 8
  simpa using hmask

theorem data_canReceive (r : RxMailbox) (m : CanRxMsg) : (canReceive r m).data.toList = r.data := by
  simp only [canReceive, toUInt8_and]
  rfl

theorem len_canReceiveMsg (t : SoftFilter) (junk : CanRxMsg) (buf : Vector UInt8 8) (r : RxMailbox)
    (rest : List RxMailbox) :
    (canReceiveMsg t junk buf (r :: rest)).len = if t.LetsIn r then r.dlc else junk.dlc := by
  show (canReceiveViaSoftFilter t r rest junk).1.dlc = _
  rw [canReceiveViaSoftFilter_fst]
  split <;> rfl

theorem buf_canReceiveMsg {t : SoftFilter} {r : RxMailbox} (h : t.LetsIn r) (junk : CanRxMsg)
    (buf : Vector UInt8 8) (rest : List RxMailbox) :
    (canReceiveMsg t junk buf (r :: rest)).buf.toList = r.data := by
  show (canReceiveViaSoftFilter t r rest junk).1.data.toList = _
  rw [canReceiveViaSoftFilter_fst, if_pos h]
  exact data_canReceive r junk

/-- What an uninitialised message may hold. -/
def CanRxMsg.ofDlc (dlc : UInt8) : CanRxMsg := ⟨0, 0, 0, 0, dlc, Vector.replicate 8 0, 0⟩

/-- What is received is the frame, whatever the uninitialised message held, exactly when the
frame is let in with a length code of 8 at most. -/
theorem published_iff (t : SoftFilter) (r : RxMailbox) (rest : List RxMailbox) :
    (∀ junk buf, 0 < (canReceiveMsg t junk buf (r :: rest)).len →
      (canReceiveMsg t junk buf (r :: rest)).IsFrame t (r :: rest)) ↔ t.LetsIn r ∧ r.dlc ≤ 8 := by
  constructor
  · intro h
    have hlong : ∀ junk : CanRxMsg, ¬ (if t.LetsIn r then r.dlc else junk.dlc) > 8 := by
      intro junk hlong
      have hlen := len_canReceiveMsg t junk (Vector.replicate 8 0) r rest
      have hpos : 0 < (canReceiveMsg t junk (Vector.replicate 8 0) (r :: rest)).len := by
        rw [hlen]
        exact UInt8.lt_trans (by decide) hlong
      obtain ⟨_, _, _, hle, _⟩ := h junk (Vector.replicate 8 0) hpos
      rw [hlen] at hle
      exact UInt8.not_lt.2 hle hlong
    have hin : t.LetsIn r := by
      by_contra hout
      have hjunk := hlong (CanRxMsg.ofDlc 255)
      rw [if_neg hout] at hjunk
      exact hjunk (by decide)
    have hcode := hlong (CanRxMsg.ofDlc 0)
    rw [if_pos hin] at hcode
    exact ⟨hin, UInt8.not_lt.1 hcode⟩
  · rintro ⟨hin, hdlc⟩ junk buf _
    have ⟨g, hg, haccepts, _⟩ := hin
    refine ⟨r, rfl, ⟨g, hg, haccepts⟩, ?_, buf_canReceiveMsg hin junk buf rest⟩
    rw [len_canReceiveMsg, if_pos hin]
    exact hdlc

/-! ## The interrupt -/

theorem indexed_copy (pbuf : Nat → UInt8) (b : RxBuffer) (is : List Nat) :
    (Runs.exec (copyByte pbuf) b is).indexed = is.reverse ++ b.indexed := by
  induction is generalizing b with
  | nil => rfl
  | cons i is ih =>
    rw [Runs.exec_cons, ih, List.reverse_cons, List.append_assoc]
    rfl

/-- The interrupt stays within its buffers where the length is 8 at most. -/
theorem inBounds_handler {t : SoftFilter} {fifo : List RxMailbox} {junk : CanRxMsg}
    {stack : Nat → UInt8}
    (hlen : ∀ buf, (canReceiveMsg t junk buf fifo).len ≤ 8) (enabled : Bool) {b : RxBuffer}
    (h : b.InBounds) : (usbLpCan1Rx0IrqHandler enabled t junk stack fifo b).1.InBounds := by
  have hcopied : ∀ (pbuf : Nat → UInt8) (n : UInt8), n ≤ 8 →
      (Runs.exec (copyByte pbuf) b (List.range n.toNat)).InBounds := by
    intro pbuf n hn i hi
    rw [indexed_copy, List.mem_append, List.mem_reverse, List.mem_range] at hi
    rcases hi with hi | hi
    · have hnat : n.toNat ≤ 8 := UInt8.le_iff_toNat_le.1 hn
      omega
    · exact h i hi
  unfold usbLpCan1Rx0IrqHandler
  dsimp only
  split
  · split
    · exact hcopied _ _ (hlen _)
    · exact hcopied _ _ (hlen _)
  · exact h

/-! ## Every table and every frame -/

/-- Reception is guarded exactly when no filter was installed with the number 2 and the pending
frame, if there is one, is let in with a length code of 8 at most. -/
theorem guarded_iff (fs : List CanFilterInit) (fifo : List RxMailbox) : Guarded (installed fs) fifo ↔
    (∀ f ∈ fs, f.filterNumber ≠ 2) ∧ ∀ r ∈ fifo.head?, (installed fs).LetsIn r ∧ r.dlc ≤ 8 := by
  constructor
  · intro h
    refine ⟨(banks_installed fs).1 h.banks, ?_⟩
    cases fifo with
    | nil => nofun
    | cons r rest =>
      rintro _ ⟨⟩
      exact (published_iff (installed fs) r rest).1 h.published
  · rintro ⟨hnumbers, hframe⟩
    have hbanks := (banks_installed fs).2 hnumbers
    cases fifo with
    | nil =>
      have hlen : ∀ junk buf, (canReceiveMsg (installed fs) junk buf []).len = 0 := fun _ _ => rfl
      refine ⟨fun _ _ hpos => absurd hpos (UInt8.lt_irrefl 0), ?_, hbanks⟩
      intro enabled junk stack b hb
      exact inBounds_handler (fun buf => by rw [hlen junk buf]; decide) enabled hb
    | cons r rest =>
      obtain ⟨hin, hdlc⟩ := hframe r rfl
      refine ⟨(published_iff (installed fs) r rest).2 ⟨hin, hdlc⟩, ?_, hbanks⟩
      intro enabled junk stack b hb
      refine inBounds_handler ?_ enabled hb
      intro buf
      rw [len_canReceiveMsg, if_pos hin]
      exact hdlc

/-- A filter that lets every frame in. -/
def letAll : CanFilterInit := ⟨0, 0, 0, 0, 0, 0, 1, true⟩

/-- A frame of eight bytes, whose length code is 15. -/
def codeFifteen : RxMailbox := ⟨0, 15, 0, 0⟩

/-- The length code is published as it came, past the eight bytes of the buffers. -/
theorem not_guarded_codeFifteen : ¬ Guarded (installed [letAll]) [codeFifteen] := by
  intro h
  have hpublished := (published_iff (installed [letAll]) codeFifteen []).1 h.published
  exact absurd hpublished.2 (by decide)

end RoboticArm
