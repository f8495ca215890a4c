import RoboticArm.Crc
import RoboticArm.RegisterErrors
import Mathlib.Data.Nat.Prime.Basic
import Mathlib.Tactic.Linarith
import Mathlib.Tactic.NormNum.Prime

/- What `verify_crc16_modbus` makes of frames with scattered errors.

   The taps 0xA001 have odd parity, and under them a single bit comes back after 32767
   shifts and not before (`minimalPeriod_polynomial`: 32767 = 7 * 31 * 151, and it is not
   back after 4681, 1057 or 217). So an odd number of changed bits is never accepted, and
   two changed bits are accepted exactly when a multiple of 32767 bits lies between them:
   never in a frame of up to 4095 bytes, and the sensor's frames have 7. -/
namespace RoboticArm

open Register

theorem polynomial_odd : parity polynomial.toBitVec = true := by decide

/-! ## The period of a single bit -/

theorem orbit_polynomial : orbit 0xA001 32767 1 = 1 ∧ orbit 0xA001 4681 1 ≠ 1 ∧
    orbit 0xA001 1057 1 ≠ 1 ∧ orbit 0xA001 217 1 ≠ 1 := by
  decide +kernel

theorem isPeriodicPt_iff_orbit (n : Nat) :
    Function.IsPeriodicPt (shift polynomial.toBitVec) n (low true : BitVec 16) ↔
      orbit 0xA001 n 1 = 1 := by
  have hnat : ((shift polynomial.toBitVec)^[n] (low true)).toNat =
      orbit _ n (low true : BitVec 16).toNat :=
    toNat_iterate_shift n (low true)
  have hlow : (low true : BitVec 16).toNat = 1 := by decide
  have htaps : polynomial.toBitVec.toNat = 0xA001 := by decide
  rw [hlow, htaps] at hnat
  rw [← hnat]
  constructor
  · intro hback
    have heq : (shift polynomial.toBitVec)^[n] (low true) = low true := hback
    rw [heq, hlow]
  · intro hback
    exact BitVec.eq_of_toNat_eq (hback.trans hlow.symm)

/-- A divisor of 32767 that divides none of its three largest proper divisors is 32767. -/
theorem eq_of_dvd {n : Nat} (h : n ∣ 32767) (h7 : ¬n ∣ 4681) (h31 : ¬n ∣ 1057) (h151 : ¬n ∣ 217) :
    n = 32767 := by
  obtain ⟨m, hm⟩ := h
  by_contra hne
  have hm1 : m ≠ 1 := by
    rintro rfl
    exact hne (by rw [hm, Nat.mul_one])
  -- some prime is left over, and it is one of three
  obtain ⟨p, hp, k, rfl⟩ := Nat.exists_prime_and_dvd hm1
  have hdvd : p ∣ 7 * 31 * 151 := ⟨n * k, by rw [Nat.mul_left_comm, ← hm]⟩
  rcases hp.dvd_mul.1 hdvd with hdvd | hdvd
  · rcases hp.dvd_mul.1 hdvd with hdvd | hdvd
    · rw [(Nat.prime_dvd_prime_iff_eq hp (by norm_num)).1 hdvd] at hm
      exact h7 ⟨k, by linarith⟩
    · rw [(Nat.prime_dvd_prime_iff_eq hp (by norm_num)).1 hdvd] at hm
      exact h31 ⟨k, by linarith⟩
  · rw [(Nat.prime_dvd_prime_iff_eq hp (by norm_num)).1 hdvd] at hm
    exact h151 ⟨k, by linarith⟩

theorem minimalPeriod_polynomial :
    Function.minimalPeriod (shift polynomial.toBitVec) (low true : BitVec 16) = 32767 := by
  have hdvd : ∀ n, Function.minimalPeriod (shift polynomial.toBitVec) (low true : BitVec 16) ∣ n ↔
      orbit 0xA001 n 1 = 1 := by
    intro n
    rw [← Function.isPeriodicPt_iff_minimalPeriod_dvd, isPeriodicPt_iff_orbit]
  obtain ⟨hback, h7, h31, h151⟩ := orbit_polynomial
  apply eq_of_dvd
  · exact (hdvd 32767).2 hback
  · exact fun h => h7 ((hdvd 4681).1 h)
  · exact fun h => h31 ((hdvd 1057).1 h)
  · exact fun h => h151 ((hdvd 217).1 h)

/-! ## Frames -/

/-- The places of the bits that were changed, counted. -/
def changedBits (frame changed : List UInt8) : Nat :=
  (List.range (8 * frame.length)).countP fun p => bitAt (cells frame) p ^^ bitAt (cells changed) p

/-- The bits `p` and `q` were changed, and no others. -/
def ChangedAt (frame changed : List UInt8) (p q : Nat) : Prop :=
  ∀ i < 8 * frame.length, (bitAt (cells frame) i ^^ bitAt (cells changed) i) = true ↔ i = p ∨ i = q

instance (frame changed : List UInt8) (p q : Nat) : Decidable (ChangedAt frame changed p q) :=
  inferInstanceAs (Decidable (∀ i < 8 * frame.length,
    (bitAt (cells frame) i ^^ bitAt (cells changed) i) = true ↔ i = p ∨ i = q))

/-- A changed frame is accepted exactly when it leaves the register as the frame does. -/
theorem verify_changed_iff {message : List UInt8} (hpos : 0 < message.length)
    (hle : message.length ≤ 65535) (changed : List UInt8) :
    verifyCrc16Modbus (cells changed) (UInt32.ofNat (message.length + 2)) = true ↔
      run polynomial.toBitVec 0xFFFF#16 (bitAt (cells (crcFrame message)))
        (8 * (crcFrame message).length) =
        run polynomial.toBitVec 0xFFFF#16 (bitAt (cells changed)) (8 * (crcFrame message).length) := by
  have hown := (verify_iff _ hpos hle).1 (verify_crcFrame hle)
  have hbits : 8 * (crcFrame message).length = 8 * message.length + 16 := by
    rw [length_crcFrame, Nat.mul_add]
  rw [verify_iff _ hpos hle, hbits, hown]
  exact eq_comm

/-- Of the frames with changed bits: none with an odd number of them is accepted, and one with
two exactly when their distance is a multiple of 32767. -/
theorem crc_detects_scattered (message : List UInt8) (hpos : 0 < message.length)
    (hle : message.length ≤ 65535) (changed : List UInt8) :
    (Odd (changedBits (crcFrame message) changed) →
      verifyCrc16Modbus (cells changed) (UInt32.ofNat (message.length + 2)) = false) ∧
    ∀ p q, p < q → q < 8 * (crcFrame message).length → ChangedAt (crcFrame message) changed p q →
      (verifyCrc16Modbus (cells changed) (UInt32.ofNat (message.length + 2)) = true ↔
        32767 ∣ q - p) := by
  constructor
  · intro hodd
    rw [← Bool.not_eq_true, verify_changed_iff hpos hle]
    exact run_ne_of_odd polynomial_odd (by decide) _ hodd
  · intro p q hpq hq hchanged
    rw [verify_changed_iff hpos hle, run_eq_iff_of_two polynomial_msb hpq hq _ hchanged,
      minimalPeriod_polynomial]

/-- A reading of 50 cm with three bits changed, and with two. -/
theorem crc_detects_scattered_reading :
    verifyCrc16Modbus (cells [0x01, 0x03, 0x02, 0x81, 0xF0, 0xB8, 0x73]) 7 = false ∧
      ¬verifyCrc16Modbus (cells [0x01, 0x03, 0x02, 0x81, 0xF0, 0xB8, 0x53]) 7 = true := by
  have hthree := crc_detects_scattered [0x01, 0x03, 0x02, 0x01, 0xF4] (by decide) (by decide)
    [0x01, 0x03, 0x02, 0x81, 0xF0, 0xB8, 0x73]
  have htwo := crc_detects_scattered [0x01, 0x03, 0x02, 0x01, 0xF4] (by decide) (by decide)
    [0x01, 0x03, 0x02, 0x81, 0xF0, 0xB8, 0x53]
  refine ⟨hthree.1 (by decide +kernel), ?_⟩
  intro haccepted
  have hapart := (htwo.2 31 34 (by decide) (by decide +kernel) (by decide +kernel)).1 haccepted
  exact absurd hapart (by decide)

end RoboticArm
