import RoboticArm.Bytes
import RoboticArm.Register
import Mathlib.Data.List.GetD
import Mathlib.Tactic.SplitIfs

/- The checksum of the distance sensor: `crc16_modbus` and `verify_crc16_modbus` of `tof.c`.

   The register of `crc16_modbus` is a shift register with the taps 0xA001, fed with the
   bits of the bytes in order, the lowest of each byte first (`crcLoop_eq_run`). Its result
   is the register with the bytes swapped, sent high byte first: the frame carries on with
   the bits of the register, lowest first, so that a frame is accepted exactly when it
   leaves the register clear (`verify_iff`).

   A buffer is the memory from its first cell on. The test for a null pointer is left out:
   the callers pass arrays.

   Correspondence (C ↔ Lean):
     the `for` loops of `crc16_modbus`   ↔ `crcShift`, `crcByte`, `crcLoop`
     `crc16_modbus`                      ↔ `crc16Modbus`
     `verify_crc16_modbus`               ↔ `verifyCrc16Modbus` -/
namespace RoboticArm

def polynomial : UInt16 := 0xA001

def crcShift (crc : UInt16) : UInt16 :=
  if crc &&& 0x0001 ≠ 0 then (crc >>> 1) ^^^ polynomial else crc >>> 1

def crcByte (crc : UInt16) (byte : UInt8) : UInt16 := crcShift^[8] (crc ^^^ byte.toUInt16)

/-- The register after `n` bytes. -/
def crcLoop (data : Nat → UInt8) : Nat → UInt16
  | 0 => 0xFFFF
  | n + 1 => crcByte (crcLoop data n) (data n)

def crc16Modbus (data : Nat → UInt8) (length : UInt16) : UInt16 :=
  if length = 0 then 0
  else
    let crc := crcLoop data length.toNat
    (crc <<< 8) ||| (crc >>> 8)

def verifyCrc16Modbus (dataWithCrc : Nat → UInt8) (totalLength : UInt32) : Bool :=
  if totalLength < 2 then false
  else
    let dataLength := totalLength - 2
    let calculatedCrc := crc16Modbus dataWithCrc dataLength.toUInt16
    let receivedCrc := (dataWithCrc dataLength.toNat).toUInt16 <<< 8 |||
      (dataWithCrc (dataLength.toNat + 1)).toUInt16
    calculatedCrc == receivedCrc

/-! ## The register -/

open Bytes Register

/-- The bits of a buffer, the lowest of each byte first. -/
def bitAt (data : Nat → UInt8) (p : Nat) : Bool := (data (p / 8)).toBitVec.getLsbD (p % 8)

theorem bitAt_byte (data : Nat → UInt8) (n : Nat) {i : Nat} (hi : i < 8) :
    bitAt data (8 * n + i) = (data n).toBitVec.getLsbD i := by
  rw [bitAt, show (8 * n + i) / 8 = n by omega, show (8 * n + i) % 8 = i by omega]

theorem polynomial_msb : polynomial.toBitVec.msb = true := by decide

theorem toBitVec_crcShift (crc : UInt16) :
    (crcShift crc).toBitVec = shift polynomial.toBitVec crc.toBitVec := by
  have hmask : (crc &&& 0x0001).toBitVec = (BitVec.ofBool (crc.toBitVec.getLsbD 0)).setWidth 16 := by
    rw [UInt16.toBitVec_and]
    exact BitVec.and_one_eq_setWidth_ofBool_getLsbD
  have hlow : crc &&& 0x0001 ≠ 0 ↔ crc.toBitVec.getLsbD 0 = true := by
    rw [ne_eq, ← UInt16.toBitVec_inj, hmask]
    cases crc.toBitVec.getLsbD 0 <;> decide
  simp only [crcShift, shift, hlow]
  split <;> rfl

theorem toBitVec_iterate_crcShift (n : Nat) (crc : UInt16) :
    (crcShift^[n] crc).toBitVec = (shift polynomial.toBitVec)^[n] crc.toBitVec := by
  induction n generalizing crc with
  | zero => rfl
  | succ n ih => rw [Function.iterate_succ_apply, ih, toBitVec_crcShift]; rfl

theorem toBitVec_crcByte (crc : UInt16) (byte : UInt8) :
    (crcByte crc byte).toBitVec = run polynomial.toBitVec crc.toBitVec byte.toBitVec.getLsbD 8 := by
  have hword : byte.toUInt16.toBitVec = word byte.toBitVec.getLsbD 8 := by
    apply BitVec.eq_of_getLsbD_eq
    intro i hi
    rw [getLsbD_word _ 8 hi, UInt8.toBitVec_toUInt16, BitVec.getLsbD_setWidth, decide_eq_true hi,
      Bool.true_and]
    by_cases h8 : i < 8
    · simp [h8]
    · simp [h8, BitVec.getLsbD_of_ge byte.toBitVec i (by omega)]
  rw [crcByte, toBitVec_iterate_crcShift, UInt16.toBitVec_xor, hword, run_word _ _ (by decide)]

theorem crcLoop_eq_run (data : Nat → UInt8) : ∀ n,
    (crcLoop data n).toBitVec = run polynomial.toBitVec 0xFFFF#16 (bitAt data) (8 * n)
  | 0 => rfl
  | n + 1 => by
    rw [crcLoop, toBitVec_crcByte, crcLoop_eq_run data n, Nat.mul_succ, run_add]
    exact run_congr fun i hi => (bitAt_byte data n hi).symm

theorem getLsbD_swap (crc : UInt16) {i : Nat} (hi : i < 16) :
    ((crc <<< 8) ||| (crc >>> 8)).toBitVec.getLsbD i =
      crc.toBitVec.getLsbD (if i < 8 then i + 8 else i - 8) := by
  have hbits : ((crc <<< 8) ||| (crc >>> 8)).toBitVec =
      (crc.toBitVec <<< 8) ||| (crc.toBitVec >>> 8) := rfl
  rw [hbits, BitVec.getLsbD_or, BitVec.getLsbD_shiftLeft, BitVec.getLsbD_ushiftRight]
  by_cases h8 : i < 8
  · simp [h8, Nat.add_comm]
  · have hhigh : crc.toBitVec.getLsbD (8 + i) = false := BitVec.getLsbD_of_ge _ _ (by omega)
    simp [h8, hi, hhigh]

/-- The two bytes that follow are the result of `crc16_modbus`, high byte first, exactly when
their bits are those of the register. -/
theorem swap_eq_iff (crc : UInt16) (high low : UInt8) :
    (crc <<< 8) ||| (crc >>> 8) = word16 high low ↔
      ∀ i < 8, high.toBitVec.getLsbD i = crc.toBitVec.getLsbD i ∧
        low.toBitVec.getLsbD i = crc.toBitVec.getLsbD (i + 8) := by
  rw [← UInt16.toBitVec_inj]
  constructor
  · intro h i hi
    have hbit : ∀ j < 16, _ := fun j (hj : j < 16) =>
      (congrArg (fun x : BitVec 16 => x.getLsbD j) h).symm
    have hlow := hbit i (by omega)
    have hhigh := hbit (i + 8) (by omega)
    rw [getLsbD_word16 high low (by omega), getLsbD_swap crc (by omega)] at hlow hhigh
    rw [if_pos hi, if_pos hi] at hlow
    rw [if_neg (by omega), if_neg (by omega), Nat.add_sub_cancel] at hhigh
    exact ⟨hhigh, hlow⟩
  · intro h
    apply BitVec.eq_of_getLsbD_eq
    intro i hi
    rw [getLsbD_word16 high low hi, getLsbD_swap crc hi]
    by_cases h8 : i < 8
    · rw [if_pos h8, if_pos h8]
      exact (h i h8).2.symm
    · rw [if_neg h8, if_neg h8]
      exact (h (i - 8) (by omega)).1.symm

theorem verify_eq (data : Nat → UInt8) {n : Nat} (hle : n ≤ 65535) :
    verifyCrc16Modbus data (UInt32.ofNat (n + 2)) =
      (crc16Modbus data (UInt16.ofNat n) == word16 (data n) (data (n + 1))) := by
  have htotal : (UInt32.ofNat (n + 2)).toNat = n + 2 := by
    rw [UInt32.toNat_ofNat']
    exact Nat.mod_eq_of_lt (by omega)
  have htwo : (2 : UInt32) ≤ UInt32.ofNat (n + 2) := by
    rw [UInt32.le_iff_toNat_le, htotal]
    exact Nat.le_add_left 2 n
  have hlen : (UInt32.ofNat (n + 2) - 2).toNat = n := by
    rw [UInt32.toNat_sub_of_le _ _ htwo, htotal]
    rfl
  have hlen16 : (UInt32.ofNat (n + 2) - 2).toUInt16 = UInt16.ofNat n := by
    apply UInt16.toNat_inj.1
    rw [UInt32.toNat_toUInt16, hlen, UInt16.toNat_ofNat']
  rw [verifyCrc16Modbus, if_neg (UInt32.not_lt.2 htwo)]
  simp only [hlen, hlen16, word16]

theorem crc16Modbus_eq (data : Nat → UInt8) {n : Nat} (hpos : 0 < n) (hle : n ≤ 65535) :
    crc16Modbus data (UInt16.ofNat n) = (crcLoop data n <<< 8) ||| (crcLoop data n >>> 8) := by
  have hlen : (UInt16.ofNat n).toNat = n := by
    rw [UInt16.toNat_ofNat']
    exact Nat.mod_eq_of_lt (by omega)
  have hnonzero : UInt16.ofNat n ≠ 0 := by
    intro h
    rw [h] at hlen
    exact absurd hlen (Nat.ne_of_lt hpos)
  rw [crc16Modbus, if_neg hnonzero, hlen]

/-- A frame is accepted exactly when it leaves the register clear. -/
theorem verify_iff (data : Nat → UInt8) {n : Nat} (hpos : 0 < n) (hle : n ≤ 65535) :
    verifyCrc16Modbus data (UInt32.ofNat (n + 2)) = true ↔
      run polynomial.toBitVec 0xFFFF#16 (bitAt data) (8 * n + 16) = 0#16 := by
  have hnext : ∀ i, 8 * n + (i + 8) = 8 * (n + 1) + i := fun i => by omega
  rw [verify_eq data hle, beq_iff_eq, crc16Modbus_eq data hpos hle, swap_eq_iff,
    run_eq_zero_iff polynomial_msb, ← crcLoop_eq_run]
  constructor
  · intro h i hi
    by_cases h8 : i < 8
    · rw [bitAt_byte data n h8]
      exact (h i h8).1
    · obtain ⟨k, rfl⟩ : ∃ k, i = k + 8 := ⟨i - 8, by omega⟩
      have hk : k < 8 := by omega
      rw [hnext, bitAt_byte data (n + 1) hk]
      exact (h k hk).2
  · intro h i hi
    have hhigh := h i (by omega)
    have hlow := h (i + 8) (by omega)
    rw [bitAt_byte data n hi] at hhigh
    rw [hnext, bitAt_byte data (n + 1) hi] at hlow
    exact ⟨hhigh, hlow⟩

/-! ## Frames -/

/-- A list of bytes as a buffer. -/
def cells (bytes : List UInt8) : Nat → UInt8 := fun i => bytes.getD i 0

/-- A message with the two bytes of its checksum, the high byte of the result first. -/
def crcFrame (message : List UInt8) : List UInt8 :=
  let crc := crc16Modbus (cells message) (UInt16.ofNat message.length)
  message ++ [(crc >>> 8).toUInt8, crc.toUInt8]

/-- A change of `frame` to `changed`, of at least one bit and inside `width` consecutive bits. -/
structure Burst (width : Nat) (frame changed : List UInt8) : Prop where
  length_eq : changed.length = frame.length
  ne : changed ≠ frame
  window : ∃ s, ∀ p < 8 * frame.length, bitAt (cells changed) p ≠ bitAt (cells frame) p →
    s ≤ p ∧ p < s + width

theorem exists_bitAt_ne {width : Nat} {frame changed : List UInt8} (h : Burst width frame changed) :
    ∃ p < 8 * frame.length, bitAt (cells changed) p ≠ bitAt (cells frame) p := by
  by_contra hnone
  have hsame : ∀ p < 8 * frame.length, bitAt (cells changed) p = bitAt (cells frame) p :=
    fun p hp => by_contra fun hne => hnone ⟨p, hp, hne⟩
  apply h.ne
  apply List.ext_getElem h.length_eq
  intro i hi hi'
  apply UInt8.toBitVec_inj.1
  apply BitVec.eq_of_getLsbD_eq
  intro j hj
  have hbit := hsame (8 * i + j) (by omega)
  rw [bitAt_byte _ _ hj, bitAt_byte _ _ hj, cells, cells] at hbit
  rwa [← List.getElem_eq_getD (h := hi), ← List.getElem_eq_getD (h := hi')] at hbit

theorem length_crcFrame (message : List UInt8) : (crcFrame message).length = message.length + 2 :=
  List.length_append

theorem crcLoop_congr {x y : Nat → UInt8} : ∀ {n}, (∀ i < n, x i = y i) → crcLoop x n = crcLoop y n
  | 0, _ => rfl
  | n + 1, h => by
    rw [crcLoop, crcLoop, crcLoop_congr fun i hi => h i (Nat.lt_succ_of_lt hi),
      h n (Nat.lt_succ_self n)]

theorem verify_crcFrame {message : List UInt8} (hle : message.length ≤ 65535) :
    verifyCrc16Modbus (cells (crcFrame message)) (UInt32.ofNat (message.length + 2)) = true := by
  let crc := crc16Modbus (cells message) (UInt16.ofNat message.length)
  have hlen : (UInt16.ofNat message.length).toNat = message.length := by
    rw [UInt16.toNat_ofNat']
    exact Nat.mod_eq_of_lt (by omega)
  have hsame : ∀ i < message.length, cells (crcFrame message) i = cells message i := by
    intro i hi
    exact List.getD_append _ _ _ i hi
  have hcrc : crc16Modbus (cells (crcFrame message)) (UInt16.ofNat message.length) = crc := by
    simp only [crc, crc16Modbus, hlen, crcLoop_congr hsame]
  have hhigh : cells (crcFrame message) message.length = (crc >>> 8).toUInt8 := by
    simp [cells, crcFrame, crc]
  have hlow : cells (crcFrame message) (message.length + 1) = crc.toUInt8 := by
    simp [cells, crcFrame, crc]
  rw [verify_eq _ hle, hcrc, hhigh, hlow, word16_bytes, beq_self_eq_true]

/-- Every message of up to 65535 bytes is accepted with its checksum, and no frame that differs
from it in a burst of at most 16 bits is. -/
theorem crc_detects_bursts (message : List UInt8) (hpos : 0 < message.length)
    (hle : message.length ≤ 65535) :
    verifyCrc16Modbus (cells (crcFrame message)) (UInt32.ofNat (message.length + 2)) = true ∧
      ∀ changed, Burst 16 (crcFrame message) changed →
        verifyCrc16Modbus (cells changed) (UInt32.ofNat (message.length + 2)) = false := by
  have hown := verify_crcFrame hle
  refine ⟨hown, ?_⟩
  intro changed hburst
  obtain ⟨s, hwindow⟩ := hburst.window
  obtain ⟨k, hk, hne⟩ := exists_bitAt_ne hburst
  have hbits : 8 * (crcFrame message).length = 8 * message.length + 16 := by
    rw [length_crcFrame, Nat.mul_add]
  rw [hbits] at hk hwindow
  have hdiff := run_ne_of_burst polynomial_msb 0xFFFF#16 hk hne hwindow
  rw [← Bool.not_eq_true, verify_iff _ hpos hle]
  intro haccepted
  exact hdiff (haccepted.trans ((verify_iff _ hpos hle).1 hown).symm)

/-- A reading of 50 cm, and the same with four bits changed across the start of the checksum. -/
theorem crc_detects_bursts_reading :
    verifyCrc16Modbus (cells (crcFrame [0x01, 0x03, 0x02, 0x01, 0xF4])) 7 = true ∧
      verifyCrc16Modbus (cells [0x01, 0x03, 0x02, 0x01, 0x34, 0xBB, 0x53]) 7 = false := by
  have h := crc_detects_bursts [0x01, 0x03, 0x02, 0x01, 0xF4] (by decide) (by decide)
  refine ⟨h.1, h.2 _ ⟨?_, by decide +kernel, 38, by decide +kernel⟩⟩
  rw [length_crcFrame]
  rfl

end RoboticArm
