import RoboticArm.Crc
import RoboticArm.Arm
import Mathlib.Algebra.Field.Rat
import Mathlib.Algebra.Order.Ring.Rat
import Mathlib.Tactic.NormNum

/- The distance reading: `new_tof` of `tof.c`.

   `new_tof` looks for the header 01 03 02 at fifteen offsets of the receive buffer, gives
   each header a slot of `tof_num` and stores the value there if the packet's checksum is
   right. It returns slot 0.

   1. `writes_lt`: a frame of 13 bytes has no room for a fourth packet with a right
      checksum, so the three slots are enough.
   2. `newTof_reads_iff`: the value returned is that of the lowest packet with a right
      checksum, unless a header without one stands before it: that header takes slot 0.
   3. `damagedFirst` is a frame with such a header.

   Correspondence (C ↔ Lean):
     `rx_buffer_uart2`, `rx_len_uart2`, `frame_ready`   ↔ `Uart2`
     `tof_num`, `jisu`                                  ↔ `Slots` (with the indices written)
     the `for` loop of `new_tof`, its body              ↔ `scan`, `scanAt`
     `new_tof`                                          ↔ `newTof` -/
namespace RoboticArm

/-- The receive side of USART2. -/
structure Uart2 where
  rxBuffer : Nat → UInt8
  rxLen : Nat
  frameReady : Bool

/-- The locals of `new_tof`, and the indices at which `tof_num` is written, newest first. -/
structure Slots where
  tofNum : Nat → UInt16
  jisu : UInt8
  writes : List Nat

def Slots.init : Slots := ⟨fun _ => 0, 0, []⟩

def headerAt (buf : Nat → UInt8) (i : Nat) : Bool :=
  buf i == 0x01 && buf (i + 1) == 0x03 && buf (i + 2) == 0x02

/-- The 16-bit value of the packet at an offset. -/
def valueAt (buf : Nat → UInt8) (i : Nat) : UInt16 :=
  ((buf (i + 3)).toUInt16 <<< 8) + (buf (i + 4)).toUInt16

def crcAt (buf : Nat → UInt8) (i : Nat) : Bool := verifyCrc16Modbus (fun k => buf (i + k)) 7

def scanAt (buf : Nat → UInt8) (s : Slots) (i : Nat) : Slots :=
  if headerAt buf i then
    let s :=
      if crcAt buf i then
        { s with
          tofNum := Function.update s.tofNum s.jisu.toNat (valueAt buf i)
          writes := s.jisu.toNat :: s.writes }
      else s
    { s with jisu := s.jisu + 1 }
  else s

/-- The first `n` rounds of the loop. -/
def scan (buf : Nat → UInt8) (n : Nat) : Slots := (List.range n).foldl (scanAt buf) Slots.init

/-- `rx_len_uart2 = 0; frame_ready = 0; memset(rx_buffer_uart2, 0, 60);` -/
def Uart2.release (u : Uart2) : Uart2 :=
  { rxBuffer := fun i => if i < 60 then 0 else u.rxBuffer i, rxLen := 0, frameReady := false }

def newTof {K : Type} [Field K] (u : Uart2) : K × Uart2 :=
  if u.frameReady then (((scan u.rxBuffer 15).tofNum 0).toNat / 10, u.release)
  else (((0 : Nat) : K) / 10, u)

/-! ## Headers -/

variable {buf : Nat → UInt8}

/-- A packet with a right checksum. -/
def packetAt (buf : Nat → UInt8) (i : Nat) : Bool := headerAt buf i && crcAt buf i

/-- The headers at the first `n` offsets. -/
def headers (buf : Nat → UInt8) (n : Nat) : Nat := (List.range n).countP (headerAt buf ·)

theorem headers_succ (buf : Nat → UInt8) (n : Nat) :
    headers buf (n + 1) = headers buf n + if headerAt buf n then 1 else 0 := by
  rw [headers, List.range_succ, List.countP_append, List.countP_singleton, headers]

theorem headers_mono {i n : Nat} (h : i ≤ n) : headers buf i ≤ headers buf n := by
  induction h with
  | refl => exact Nat.le_refl _
  | step _ ih =>
    rw [headers_succ]
    omega

theorem not_headerAt_of_headerAt {i : Nat} (h : headerAt buf i = true) :
    headerAt buf (i + 1) = false ∧ headerAt buf (i + 2) = false := by
  simp only [headerAt, Bool.and_eq_true, beq_iff_eq] at h ⊢
  obtain ⟨⟨_, h1⟩, h2⟩ := h
  constructor
  · simp [h1]
  · simp [h2]

/-- Headers take three bytes each. -/
theorem three_mul_headers_le (buf : Nat → UInt8) : ∀ n, 3 * headers buf n ≤ n + 2
  | 0 => Nat.zero_le _
  | 1 => by
    rw [headers_succ]
    split <;> simp [headers]
  | 2 => by
    have h : headerAt buf 0 = true → headerAt buf 1 = false ∧ headerAt buf 2 = false :=
      not_headerAt_of_headerAt
    rw [headers_succ, headers_succ]
    cases h0 : headerAt buf 0 <;> cases h1 : headerAt buf 1 <;> simp_all [headers]
  | n + 3 => by
    have ih0 := three_mul_headers_le buf n
    have h0 : headerAt buf n = true → headerAt buf (n + 1) = false ∧ headerAt buf (n + 2) = false :=
      not_headerAt_of_headerAt
    have h1 : headerAt buf (n + 1) = true →
        headerAt buf (n + 2) = false ∧ headerAt buf (n + 3) = false :=
      not_headerAt_of_headerAt
    rw [headers_succ, headers_succ, headers_succ]
    grind

/-! ## The slots -/

theorem scan_succ (buf : Nat → UInt8) (n : Nat) : scan buf (n + 1) = scanAt buf (scan buf n) n := by
  rw [scan, List.range_succ, List.foldl_append]
  rfl

theorem jisu_scanAt (buf : Nat → UInt8) (s : Slots) (i : Nat) :
    (scanAt buf s i).jisu = s.jisu + if headerAt buf i then 1 else 0 := by
  unfold scanAt
  cases headerAt buf i
  · exact (UInt8.add_zero _).symm
  · cases crcAt buf i <;> rfl

theorem tofNum_scanAt (buf : Nat → UInt8) (s : Slots) (i : Nat) : (scanAt buf s i).tofNum =
    if packetAt buf i then Function.update s.tofNum s.jisu.toNat (valueAt buf i) else s.tofNum := by
  unfold scanAt packetAt
  cases headerAt buf i
  · rfl
  · cases crcAt buf i <;> rfl

theorem writes_scanAt (buf : Nat → UInt8) (s : Slots) (i : Nat) : (scanAt buf s i).writes =
    if packetAt buf i then s.jisu.toNat :: s.writes else s.writes := by
  unfold scanAt packetAt
  cases headerAt buf i
  · rfl
  · cases crcAt buf i <;> rfl

/-- The next slot is the number of headers so far. -/
theorem jisu_scan (buf : Nat → UInt8) : ∀ n, (scan buf n).jisu = UInt8.ofNat (headers buf n)
  | 0 => rfl
  | n + 1 => by
    rw [scan_succ, jisu_scanAt, jisu_scan buf n, headers_succ]
    split
    · exact (UInt8.ofNat_add _ 1).symm
    · exact UInt8.add_zero _

theorem toNat_jisu_scan {n : Nat} (h : n ≤ 15) : (scan buf n).jisu.toNat = headers buf n := by
  have hle := three_mul_headers_le buf n
  rw [jisu_scan, UInt8.toNat_ofNat']
  exact Nat.mod_eq_of_lt (by omega)

/-- Slot 0 belongs to the first header. -/
theorem tofNum_scan (buf : Nat → UInt8) : ∀ n ≤ 15,
    (headers buf n = 0 → (scan buf n).tofNum 0 = 0) ∧
      ∀ i < n, headerAt buf i = true → headers buf i = 0 →
        (scan buf n).tofNum 0 = if packetAt buf i then valueAt buf i else 0
  | 0, _ => ⟨fun _ => rfl, fun i hi => absurd hi (Nat.not_lt_zero i)⟩
  | n + 1, h => by
    obtain ⟨hnone, hfirst⟩ := tofNum_scan buf n (Nat.le_of_succ_le h)
    have hjisu : (scan buf n).jisu.toNat = headers buf n := toNat_jisu_scan (Nat.le_of_succ_le h)
    rw [scan_succ, tofNum_scanAt, hjisu]
    constructor
    · intro hzero
      rw [headers_succ] at hzero
      have hno : packetAt buf n = false := by
        cases hhead : headerAt buf n
        · simp [packetAt, hhead]
        · simp [hhead] at hzero
      rw [hno]
      exact hnone (by omega)
    · intro i hi hhead hzero
      rcases Nat.lt_succ_iff_lt_or_eq.1 hi with hlt | rfl
      · -- a later header has another slot
        have hslot : 0 < headers buf n := by
          have hmono : headers buf (i + 1) ≤ headers buf n := headers_mono (Nat.succ_le_of_lt hlt)
          rw [headers_succ, if_pos hhead] at hmono
          omega
        rw [← hfirst i hlt hhead hzero]
        split
        · exact Function.update_of_ne (Nat.ne_of_lt hslot) _ _
        · rfl
      · rw [hzero, ← hnone hzero]
        split
        · exact Function.update_self _ _ _
        · rfl

theorem mem_writes_scan {w : Nat} : ∀ {n}, n ≤ 15 → w ∈ (scan buf n).writes →
    ∃ i < n, packetAt buf i = true ∧ w = headers buf i
  | 0, _, hw => absurd hw List.not_mem_nil
  | n + 1, h, hw => by
    have hold : w ∈ (scan buf n).writes → ∃ i < n + 1, packetAt buf i = true ∧ w = headers buf i := by
      intro hmem
      obtain ⟨i, hi, hrest⟩ := mem_writes_scan (Nat.le_of_succ_le h) hmem
      exact ⟨i, Nat.lt_succ_of_lt hi, hrest⟩
    rw [scan_succ, writes_scanAt] at hw
    split at hw
    · next hpacket =>
      rcases List.mem_cons.1 hw with rfl | hmem
      · exact ⟨n, Nat.lt_succ_self n, hpacket, toNat_jisu_scan (Nat.le_of_succ_le h)⟩
      · exact hold hmem
    · exact hold hw

/-! ## Frames of 13 bytes -/

/-- The cells behind the frame are clear, as the handler of USART2 leaves them. -/
def Framed (buf : Nat → UInt8) : Prop := ∀ i, 13 ≤ i → i < 60 → buf i = 0

/-- A packet with a right checksum begins at offset 8 or before: behind the frame only its first
four bytes could be there. -/
theorem le_of_packetAt (hframed : Framed buf) {i : Nat} (hi : i < 15) (h : packetAt buf i = true) :
    i ≤ 8 := by
  by_contra hlate
  simp only [packetAt, headerAt, crcAt, Bool.and_eq_true, beq_iff_eq] at h
  obtain ⟨⟨⟨h0, h1⟩, h2⟩, hcrc⟩ := h
  let data : Nat → UInt8 := fun k => buf (i + k)
  have hclear : Register.run polynomial.toBitVec 0xFFFF#16 (bitAt data) (32 + 24) = 0#16 :=
    (verify_iff data (n := 5) (by decide) (by decide)).1 hcrc
  have hquiet : ∀ j < 24, bitAt data (32 + j) = false := by
    intro j hj
    have hcell : data ((32 + j) / 8) = 0 := hframed _ (by omega) (by omega)
    rw [bitAt, hcell]
    simp
  have hfour : Register.run polynomial.toBitVec 0xFFFF#16 (bitAt data) (16 + 16) = 0#16 := by
    rw [Register.run_add _ _ 32, Register.run_of_quiet _ hquiet] at hclear
    exact (Register.iterate_shift_eq_zero polynomial_msb _).1 hclear
  have hown := (Register.run_eq_zero_iff polynomial_msb _ _ 16).1 hfour 6 (by decide)
  have htwo : Register.run polynomial.toBitVec 0xFFFF#16 (bitAt data) 16 = 0x2140#16 := by
    have hbytes : ∀ k < 2, data k = cells [0x01, 0x03] k := by
      intro k hk
      have hcases : k = 0 ∨ k = 1 := by omega
      rcases hcases with rfl | rfl
      · exact h0
      · exact h1
    have hloop : (crcLoop data 2).toBitVec = 0x2140#16 := by
      rw [crcLoop_congr hbytes]
      decide +kernel
    exact (crcLoop_eq_run data 2).symm.trans hloop
  have hthird : bitAt data (16 + 6) = false := by
    show (buf (i + 2)).toBitVec.getLsbD 6 = false
    rw [h2]
    decide
  rw [htwo, hthird] at hown
  exact absurd hown (by decide)

theorem writes_lt (hframed : Framed buf) {w : Nat} (hw : w ∈ (scan buf 15).writes) : w < 3 := by
  obtain ⟨i, hi, hpacket, rfl⟩ := mem_writes_scan (Nat.le_refl 15) hw
  have hle : i ≤ 8 := le_of_packetAt hframed hi hpacket
  have hhead : headerAt buf i = true := (Bool.and_eq_true _ _ ▸ hpacket).1
  have hcount := three_mul_headers_le buf (i + 1)
  rw [headers_succ, if_pos hhead] at hcount
  omega

/-! ## The value returned -/

theorem headers_eq_zero_iff {n : Nat} : headers buf n = 0 ↔ ∀ k < n, headerAt buf k = false := by
  rw [headers, List.countP_eq_zero]
  simp

theorem exists_first_header {n : Nat} (h : headers buf n ≠ 0) :
    ∃ i < n, headerAt buf i = true ∧ headers buf i = 0 := by
  induction n with
  | zero => exact absurd rfl h
  | succ n ih =>
    by_cases hbefore : headers buf n = 0
    · cases hhead : headerAt buf n
      · rw [headers_succ, hbefore, hhead] at h
        exact absurd rfl h
      · exact ⟨n, Nat.lt_succ_self n, hhead, hbefore⟩
    · obtain ⟨i, hi, hfirst⟩ := ih hbefore
      exact ⟨i, Nat.lt_succ_of_lt hi, hfirst⟩

theorem slotZero_of_first {i : Nat} (hi : i < 15) (hhead : headerAt buf i = true)
    (hfirst : headers buf i = 0) :
    (scan buf 15).tofNum 0 = if packetAt buf i then valueAt buf i else 0 :=
  (tofNum_scan buf 15 (Nat.le_refl 15)).2 i hi hhead hfirst

/-- The lowest offset with a packet whose checksum is right. -/
def Lowest (buf : Nat → UInt8) (i : Nat) : Prop :=
  i < 15 ∧ packetAt buf i = true ∧ ∀ k < i, packetAt buf k = false

/-- A damaged packet, or what looks like one, stands before the lowest good one. -/
theorem slotZero_of_shadowed {i : Nat} (hi : Lowest buf i) (hbefore : headers buf i ≠ 0) :
    (scan buf 15).tofNum 0 = 0 := by
  obtain ⟨k, hk, hhead, hfirst⟩ := exists_first_header hbefore
  rw [slotZero_of_first (Nat.lt_trans hk hi.1) hhead hfirst, hi.2.2 k hk]
  rfl

theorem slotZero_of_lowest {i : Nat} (hi : Lowest buf i) (hbefore : headers buf i = 0) :
    (scan buf 15).tofNum 0 = valueAt buf i := by
  rw [slotZero_of_first hi.1 (Bool.and_eq_true _ _ ▸ hi.2.1).1 hbefore, if_pos hi.2.1]

theorem slotZero_of_none (hnone : ∀ i < 15, packetAt buf i = false) : (scan buf 15).tofNum 0 = 0 := by
  by_cases hzero : headers buf 15 = 0
  · exact (tofNum_scan buf 15 (Nat.le_refl 15)).1 hzero
  · obtain ⟨i, hi, hhead, hfirst⟩ := exists_first_header hzero
    rw [slotZero_of_first hi hhead hfirst, hnone i hi]
    rfl

/-- The value of the packet at an offset, high byte first. -/
def wordAt (buf : Nat → UInt8) (i : Nat) : Nat := 256 * (buf (i + 3)).toNat + (buf (i + 4)).toNat

theorem toNat_valueAt (buf : Nat → UInt8) (i : Nat) : (valueAt buf i).toNat = wordAt buf i := by
  have hhigh := (buf (i + 3)).toNat_lt
  have hlow := (buf (i + 4)).toNat_lt
  have hshift : UInt16.toNat 8 % 16 = 8 := rfl
  rw [valueAt, wordAt, UInt16.toNat_add, UInt16.toNat_shiftLeft, hshift, UInt8.toNat_toUInt16,
    UInt8.toNat_toUInt16, Nat.shiftLeft_eq]
  omega

section
variable {K : Type} [Field K]

/-- `new_tof` returns a tenth of the value of the lowest packet with a right checksum, 0 if there
is none, and writes only the three slots. -/
def ReadsRight (K : Type) [Field K] (u : Uart2) : Prop :=
  (∀ i, Lowest u.rxBuffer i → (newTof u).1 = (wordAt u.rxBuffer i : K) / 10) ∧
    ((∀ i < 15, packetAt u.rxBuffer i = false) → (newTof u).1 = (0 : K)) ∧
    ∀ w ∈ (scan u.rxBuffer 15).writes, w < 3

theorem newTof_of_ready {u : Uart2} (hready : u.frameReady = true) :
    (newTof u).1 = (((scan u.rxBuffer 15).tofNum 0).toNat : K) / 10 := by
  rw [newTof, if_pos hready]

/-- The value returned is right exactly of the frames in which no header stands before the lowest
packet with a right checksum, unless the value of that packet is 0. -/
theorem newTof_reads_iff [CharZero K] {u : Uart2} (hready : u.frameReady = true)
    (hframed : Framed u.rxBuffer) :
    ReadsRight K u ↔ ∀ i, Lowest u.rxBuffer i →
      (∀ k < i, headerAt u.rxBuffer k = false) ∨ wordAt u.rxBuffer i = 0 := by
  have hten : (10 : K) ≠ 0 := by norm_num
  rw [ReadsRight, newTof_of_ready hready]
  constructor
  · rintro ⟨hvalue, -, -⟩ i hi
    by_cases hbefore : headers u.rxBuffer i = 0
    · exact Or.inl (headers_eq_zero_iff.1 hbefore)
    · right
      have hzero := hvalue i hi
      rw [slotZero_of_shadowed hi hbefore, div_left_inj' hten] at hzero
      exact_mod_cast hzero.symm
  · intro hok
    refine ⟨?_, ?_, fun w hw => writes_lt hframed hw⟩
    · intro i hi
      by_cases hbefore : headers u.rxBuffer i = 0
      · rw [slotZero_of_lowest hi hbefore, toNat_valueAt]
      · have hword : wordAt u.rxBuffer i = 0 :=
          (hok i hi).resolve_left fun h => hbefore (headers_eq_zero_iff.2 h)
        rw [slotZero_of_shadowed hi hbefore, hword]
        rfl
    · intro hnone
      rw [slotZero_of_none hnone]
      simp

end

/-- The first bytes of a damaged packet, and a whole one that says 50 cm. -/
def damagedFirst : Uart2 where
  rxBuffer := cells [0x01, 0x03, 0x02, 0x01, 0x03, 0x02, 0x01, 0xF4, 0xB8, 0x53, 0x00, 0x00, 0x00]
  rxLen := 13
  frameReady := true

/-- The reading is then 0. -/
theorem not_readsRight_damagedFirst : ¬ ReadsRight ℚ damagedFirst := by
  have hlowest : Lowest damagedFirst.rxBuffer 3 := by
    unfold Lowest
    decide +kernel
  have hslot : (scan damagedFirst.rxBuffer 15).tofNum 0 = 0 := by decide +kernel
  rintro ⟨hvalue, -, -⟩
  have h := hvalue 3 hlowest
  rw [newTof_of_ready rfl, hslot, show wordAt damagedFirst.rxBuffer 3 = 500 by decide +kernel] at h
  norm_num at h

/-- A single packet is read as it should be. -/
theorem newTof_reads_iff_single :
    ReadsRight ℚ ⟨cells [0x01, 0x03, 0x02, 0x01, 0xF4, 0xB8, 0x53], 13, true⟩ := by
  have hpacket : packetAt (cells [0x01, 0x03, 0x02, 0x01, 0xF4, 0xB8, 0x53]) 0 = true := by
    decide +kernel
  refine (newTof_reads_iff rfl ?_).2 ?_
  · have hclear : ∀ i < 60, 13 ≤ i → cells [0x01, 0x03, 0x02, 0x01, 0xF4, 0xB8, 0x53] i = 0 := by
      decide +kernel
    exact fun i hlo hhi => hclear i hhi hlo
  · intro i hi
    left
    intro k hk
    exact absurd (hpacket.symm.trans (hi.2.2 0 (Nat.zero_lt_of_lt hk))) (by decide)

end RoboticArm
