import Mathlib.Algebra.Ring.Nat

/- Words and their bytes.

   `word16` and `word32` put bytes together, the high one first; `bytes32` takes a word apart,
   the low byte first. The bytes of a word give it back (`word16_bytes`, `word32_bytes`), and
   a word gives its bytes back (`bytes32_word32`). -/
namespace Bytes

def word16 (high low : UInt8) : UInt16 := high.toUInt16 <<< 8 ||| low.toUInt16

def word32 (b3 b2 b1 b0 : UInt8) : UInt32 :=
  (b3.toUInt32 <<< 24) ||| (b2.toUInt32 <<< 16) ||| (b1.toUInt32 <<< 8) ||| b0.toUInt32

def bytes32 (x : UInt32) : List UInt8 :=
  [x.toUInt8, (x >>> 8).toUInt8, (x >>> 16).toUInt8, (x >>> 24).toUInt8]

theorem getLsbD_word16 (high low : UInt8) {i : Nat} (hi : i < 16) :
    (word16 high low).toBitVec.getLsbD i =
      if i < 8 then low.toBitVec.getLsbD i else high.toBitVec.getLsbD (i - 8) := by
  have hbits : (word16 high low).toBitVec =
      (high.toBitVec.setWidth 16 <<< 8) ||| low.toBitVec.setWidth 16 := rfl
  rw [hbits, BitVec.getLsbD_or, BitVec.getLsbD_shiftLeft, BitVec.getLsbD_setWidth,
    BitVec.getLsbD_setWidth]
  by_cases h8 : i < 8
  · simp [h8, hi]
  · have hlow : low.toBitVec.getLsbD i = false := BitVec.getLsbD_of_ge _ i (by omega)
    simp [h8, hi, hlow, show i - 8 < 16 by omega]

theorem word16_bytes (x : UInt16) : word16 (x >>> 8).toUInt8 x.toUInt8 = x := by
  apply UInt16.toBitVec_inj.1
  apply BitVec.eq_of_getLsbD_eq
  intro i hi
  rw [getLsbD_word16 _ _ hi]
  by_cases h8 : i < 8
  · simp [h8]
  · simp [h8, show i - 8 < 8 by omega, show 8 + (i - 8) = i by omega]

theorem toNat_word32 (b3 b2 b1 b0 : UInt8) : (word32 b3 b2 b1 b0).toNat =
    b3.toNat * 2 ^ 24 + b2.toNat * 2 ^ 16 + b1.toNat * 2 ^ 8 + b0.toNat := by
  have h3 := b3.toNat_lt
  have h2 := b2.toNat_lt
  have h1 := b1.toNat_lt
  have h0 := b0.toNat_lt
  have hlow : b1.toNat <<< 8 ||| b0.toNat = b1.toNat <<< 8 + b0.toNat :=
    (Nat.shiftLeft_add_eq_or_of_lt (by omega) b1.toNat).symm
  have hmid : b2.toNat <<< 16 ||| (b1.toNat <<< 8 + b0.toNat) =
      b2.toNat <<< 16 + (b1.toNat <<< 8 + b0.toNat) :=
    (Nat.shiftLeft_add_eq_or_of_lt (by rw [Nat.shiftLeft_eq]; omega) b2.toNat).symm
  have hhigh : b3.toNat <<< 24 ||| (b2.toNat <<< 16 + (b1.toNat <<< 8 + b0.toNat)) =
      b3.toNat <<< 24 + (b2.toNat <<< 16 + (b1.toNat <<< 8 + b0.toNat)) :=
    (Nat.shiftLeft_add_eq_or_of_lt (by rw [Nat.shiftLeft_eq, Nat.shiftLeft_eq]; omega) b3.toNat).symm
  have hfits : ∀ {b k : Nat}, b < 256 → k ≤ 24 → (b <<< k) % 2 ^ 32 = b <<< k := by
    intro b k hb hk
    rw [Nat.shiftLeft_eq]
    apply Nat.mod_eq_of_lt
    calc b * 2 ^ k < 2 ^ 8 * 2 ^ k := Nat.mul_lt_mul_of_pos_right hb (Nat.two_pow_pos k)
      _ ≤ 2 ^ 8 * 2 ^ 24 := Nat.mul_le_mul_left _ (Nat.pow_le_pow_right (by decide) hk)
  have hbits : (word32 b3 b2 b1 b0).toNat =
      b3.toNat <<< 24 ||| (b2.toNat <<< 16 ||| (b1.toNat <<< 8 ||| b0.toNat)) := by
    simp only [word32, UInt32.toNat_or, UInt32.toNat_shiftLeft, UInt8.toNat_toUInt32,
      UInt32.reduceToNat, Nat.reduceMod, Nat.or_assoc]
    rw [hfits h3 (by decide), hfits h2 (by decide), hfits h1 (by decide)]
  rw [hbits, hlow, hmid, hhigh, Nat.shiftLeft_eq, Nat.shiftLeft_eq, Nat.shiftLeft_eq]
  omega

theorem word32_bytes (x : UInt32) :
    word32 (x >>> 24).toUInt8 (x >>> 16).toUInt8 (x >>> 8).toUInt8 x.toUInt8 = x := by
  have hx := x.toNat_lt
  apply UInt32.toNat_inj.1
  rw [toNat_word32]
  simp only [UInt32.toNat_shiftRight, UInt32.toNat_toUInt8, Nat.shiftRight_eq_div_pow,
    UInt32.reduceToNat, Nat.reduceMod, Nat.reducePow]
  omega

theorem bytes32_word32 (b3 b2 b1 b0 : UInt8) : bytes32 (word32 b3 b2 b1 b0) = [b0, b1, b2, b3] := by
  have h3 := b3.toNat_lt
  have h2 := b2.toNat_lt
  have h1 := b1.toNat_lt
  have h0 := b0.toNat_lt
  simp only [bytes32, List.cons.injEq, and_true, ← UInt8.toNat_inj, UInt32.toNat_toUInt8,
    UInt32.toNat_shiftRight, toNat_word32, Nat.shiftRight_eq_div_pow, UInt32.reduceToNat,
    Nat.reduceMod, Nat.reducePow]
  omega

end Bytes
