import RoboticArm.Arm
import RoboticArm.Uart
import Mathlib.Algebra.Field.Rat
import Mathlib.Tactic.SplitIfs

/- The attitude sensor: `wt61.c`.

   `get_angle` drains the ring buffer of USART1 into `g_rx_data_buffer` and hands it to
   `parse_wt_protocol`. The drain counts with a `uint8_t`, the fill count it starts from
   is a `uint16_t` up to 1024, the array has 128 cells and the parser takes an 8-bit
   length. `g_rx_data_buffer` is the memory from its first cell on, so a store past its
   end is a store into what lies behind it; `stores` and `parsed` record the indices
   stored at and the lengths handed over, newest first. No interrupt comes in between.

   `indexSafe_iff`: every store is inside the array and the length is the number of
   bytes drained exactly when at most 128 bytes were waiting.

   Correspondence (C ↔ Lean):
     `bytes_to_signed_short`, `calculate_checksum`
                                    ↔ `bytesToSignedShort`, `calculateChecksum`
     `parse_wt_protocol`            ↔ `parseWtProtocol`, its loop `parseFrames`
     `get_angle`, its `while` loop  ↔ `getAngle`, `drain` -/
namespace RoboticArm

/-- `Roll_angle`, `Pitch_angle` and `Yaw_angle`. -/
structure Attitude (K : Type) where
  roll : K
  pitch : K
  yaw : K
  deriving DecidableEq, Repr

def bytesToSignedShort (lowByte highByte : UInt8) : Int16 :=
  (highByte.toUInt16 <<< 8 ||| lowByte.toUInt16).toInt16

/-- The sum of `len` bytes from `start` on. -/
def calculateChecksum (data : Nat → UInt8) (start : Nat) : Nat → UInt8
  | 0 => 0
  | len + 1 => calculateChecksum data start len + data (start + len)

variable {K : Type}

/-- What `get_angle` works on: the ring buffer, `g_rx_data_buffer` and `g_rx_data_len`, its
static `count`, and the angles. -/
structure Imu (K : Type) where
  ring : RingBuffer
  rxDataBuffer : Nat → UInt8
  rxDataLen : UInt16
  count : UInt8
  angle : Attitude K
  stores : List UInt8
  parsed : List UInt8

/-- The body of the loop. -/
def drainOne (s : Imu K) : Imu K :=
  let (data, ring) := s.ring.pop
  { s with
    ring := ring
    rxDataBuffer := Function.update s.rxDataBuffer s.count.toNat data
    count := s.count + 1
    stores := s.count :: s.stores }

/-- `while (ring_buffer.RemainCount > 0)`, for at most `fuel` rounds. -/
def drain : Nat → Imu K → Imu K
  | 0, s => s
  | fuel + 1, s => if 0 < s.ring.remainCount then drain fuel (drainOne s) else s

/-! ## The drain -/

theorem drain_succ {s : Imu K} {n : Nat} (h : s.ring.remainCount.toNat = n + 1) :
    drain (n + 1) s = drain n (drainOne s) ∧ (drainOne s).ring.remainCount.toNat = n := by
  have hpos : 0 < s.ring.remainCount := UInt16.lt_iff_toNat_lt.2 (by rw [h]; exact Nat.succ_pos n)
  have hpop : (drainOne s).ring.remainCount = s.ring.remainCount - 1 := s.ring.pop_remainCount
  have hone : (1 : UInt16) ≤ s.ring.remainCount :=
    UInt16.le_iff_toNat_le.2 (by rw [h]; exact Nat.succ_pos n)
  refine ⟨if_pos hpos, ?_⟩
  rw [hpop, UInt16.toNat_sub_of_le _ _ hone, h]
  rfl

theorem remainCount_drain : ∀ (n : Nat) {s : Imu K}, s.ring.remainCount.toNat = n →
    (drain n s).ring.remainCount.toNat = 0
  | 0, _, h => h
  | n + 1, s, h => by
    obtain ⟨hdrain, hrest⟩ := drain_succ h
    rw [hdrain]
    exact remainCount_drain n hrest

/-- The drain stores at the count and at the 8-bit numbers that follow it. -/
theorem stores_drain : ∀ (n : Nat) {s : Imu K}, s.ring.remainCount.toNat = n →
    (drain n s).stores = ((List.range n).map fun i => s.count + UInt8.ofNat i).reverse ++ s.stores
  | 0, _, _ => rfl
  | n + 1, s, h => by
    obtain ⟨hdrain, hrest⟩ := drain_succ h
    have hnext : ∀ i, s.count + 1 + UInt8.ofNat i = s.count + UInt8.ofNat (i + 1) := by
      intro i
      rw [UInt8.ofNat_add, UInt8.add_assoc, UInt8.add_comm 1]
      rfl
    rw [hdrain, stores_drain n hrest, List.range_succ_eq_map]
    show ((List.range n).map fun i => s.count + 1 + UInt8.ofNat i).reverse ++ s.count :: s.stores = _
    simp [hnext, Function.comp_def]

theorem parsed_drain : ∀ (n : Nat) {s : Imu K}, s.ring.remainCount.toNat = n →
    (drain n s).rxDataLen = s.rxDataLen ∧ (drain n s).parsed = s.parsed
  | 0, _, _ => ⟨rfl, rfl⟩
  | n + 1, s, h => by
    obtain ⟨hdrain, hrest⟩ := drain_succ h
    rw [hdrain]
    exact parsed_drain n hrest

/-! ## The parser -/

variable [Field K]

def toAngle (raw : Int16) : K := (raw.toInt : K) / 32768 * 180

/-- The frames that start at the given places: the first angle frame decides. -/
def parseFrames (data : Nat → UInt8) (a : Attitude K) : List Nat → UInt8 × Attitude K
  | [] => (2, a)
  | i :: rest =>
    if data i = 0x55 ∧ data (i + 1) = 0x53 then
      if calculateChecksum data i 10 ≠ data (i + 10) then (3, a)
      else
        (0, { roll := toAngle (bytesToSignedShort (data (i + 2)) (data (i + 3)))
              pitch := toAngle (bytesToSignedShort (data (i + 4)) (data (i + 5)))
              yaw := toAngle (bytesToSignedShort (data (i + 6)) (data (i + 7))) })
    else parseFrames data a rest

/-- The return code, and the angles after the call. -/
def parseWtProtocol (data : Nat → UInt8) (dataLength : UInt8) (a : Attitude K) : UInt8 × Attitude K :=
  if dataLength ≠ 33 then (1, a) else parseFrames data a [0, 11, 22]

def getAngle (s : Imu K) : Imu K :=
  if 0 < s.ring.remainCount then
    let s := { s with rxDataLen := s.ring.remainCount, count := 0 }
    let s := drain s.ring.remainCount.toNat s
    let dataLength := s.rxDataLen.toUInt8
    { s with
      angle := (parseWtProtocol s.rxDataBuffer dataLength s.angle).2
      parsed := dataLength :: s.parsed }
  else s

/-! ## Index safety -/

theorem stores_getAngle (s : Imu K) : (getAngle s).stores =
    ((List.range s.ring.remainCount.toNat).map UInt8.ofNat).reverse ++ s.stores := by
  simp only [getAngle]
  split
  · have hstores := stores_drain s.ring.remainCount.toNat
      (s := { s with rxDataLen := s.ring.remainCount, count := 0 }) rfl
    simpa using hstores
  · next h =>
    have hzero : s.ring.remainCount.toNat = 0 :=
      Nat.le_zero.1 (UInt16.le_iff_toNat_le.1 (UInt16.not_lt.1 h))
    rw [hzero]
    rfl

theorem parsed_getAngle (s : Imu K) : (getAngle s).parsed =
    if 0 < s.ring.remainCount then s.ring.remainCount.toUInt8 :: s.parsed else s.parsed := by
  simp only [getAngle]
  split
  · obtain ⟨hlen, hold⟩ := parsed_drain s.ring.remainCount.toNat
      (s := { s with rxDataLen := s.ring.remainCount, count := 0 }) rfl
    simp only [hlen, hold]
  · rfl

/-- A call leaves nothing waiting. -/
theorem remainCount_getAngle (s : Imu K) : (getAngle s).ring.remainCount.toNat = 0 := by
  simp only [getAngle]
  split
  · exact remainCount_drain s.ring.remainCount.toNat
      (s := { s with rxDataLen := s.ring.remainCount, count := 0 }) rfl
  · next h => exact Nat.le_zero.1 (UInt16.le_iff_toNat_le.1 (UInt16.not_lt.1 h))

/-- Every byte that a call of `get_angle` drains is stored inside `g_rx_data_buffer`, and the
length it hands over is the number of these bytes. -/
def IndexSafe (s : Imu K) : Prop :=
  let t := getAngle { s with stores := [], parsed := [] }
  (∀ i ∈ t.stores, i.toNat < rxBufferLen) ∧
    ∀ dataLength ∈ t.parsed, dataLength.toNat = t.stores.length

/-- Both hold of exactly the calls that find at most 128 bytes waiting. -/
theorem indexSafe_iff (s : Imu K) : IndexSafe s ↔ s.ring.remainCount.toNat ≤ rxBufferLen := by
  unfold IndexSafe rxBufferLen
  dsimp only
  rw [stores_getAngle, parsed_getAngle]
  constructor
  · rintro ⟨hstores, -⟩
    by_contra hfull
    have hmem : UInt8.ofNat 128 ∈
        ((List.range s.ring.remainCount.toNat).map UInt8.ofNat).reverse ++ [] := by
      simpa using ⟨128, by omega, rfl⟩
    exact absurd (hstores _ hmem) (by decide)
  · intro hle
    constructor
    · intro i hi
      obtain ⟨k, hk, rfl⟩ : ∃ k < s.ring.remainCount.toNat, UInt8.ofNat k = i := by
        simpa using hi
      rw [UInt8.toNat_ofNat']
      omega
    · intro l hl
      have hlen : l = s.ring.remainCount.toUInt8 := by
        split at hl
        · simpa using hl
        · exact absurd hl List.not_mem_nil
      rw [hlen]
      simp
      omega

/-- A full DMA buffer and one byte more are received before the main loop comes round. -/
def overfull : Imu ℚ where
  ring := (RingBuffer.boot.pushHuge (fun _ => 0x55) 128).pushHuge (fun _ => 0x55) 1
  rxDataBuffer := fun _ => 0
  rxDataLen := 0
  count := 0
  angle := ⟨0, 0, 0⟩
  stores := []
  parsed := []

/-- The byte after the first 128 is stored behind the array. -/
theorem not_indexSafe_overfull : overfull.ring.remainCount = 129 ∧
    128 ∈ (getAngle overfull).stores ∧ ¬ IndexSafe overfull := by
  have hcount : overfull.ring.remainCount = 129 := by decide +kernel
  have hstored : 128 ∈ (getAngle overfull).stores := by
    rw [stores_getAngle, hcount]
    decide +kernel
  refine ⟨hcount, hstored, ?_⟩
  intro h
  exact absurd (h.1 128 hstored) (by decide)

end RoboticArm
