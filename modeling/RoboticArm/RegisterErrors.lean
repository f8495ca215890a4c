import RoboticArm.Register
import Mathlib.Algebra.Ring.Parity
import Mathlib.Data.List.Count
import Mathlib.Dynamics.PeriodicPts.Defs

/- Scattered errors in what a shift register with feedback is fed.

   The parity of a register is kept by a shift when its taps have odd parity
   (`parity_shift`), so a register adds up the parity of its stream (`parity_run`), and
   streams that differ in an odd number of bits leave different registers
   (`run_ne_of_odd`). Streams that differ in two bits leave the same register exactly when
   the distance of the two is a multiple of the period of a single bit
   (`run_eq_iff_of_two`). -/
namespace Register

variable {w : Nat}

/-- The sum of the first `n` bits. -/
def parityOf (bits : Nat → Bool) : Nat → Bool
  | 0 => false
  | n + 1 => parityOf bits n ^^ bits n

def parity (c : BitVec w) : Bool := parityOf c.getLsbD w

/-! ## Parity of a stream -/

theorem parityOf_xor (x y : Nat → Bool) : ∀ n,
    parityOf (fun i => x i ^^ y i) n = (parityOf x n ^^ parityOf y n)
  | 0 => rfl
  | n + 1 => by
    rw [parityOf, parityOf, parityOf, parityOf_xor x y n]
    cases parityOf x n <;> cases parityOf y n <;> cases x n <;> cases y n <;> rfl

theorem parityOf_succ' (bits : Nat → Bool) : ∀ n,
    parityOf bits (n + 1) = (bits 0 ^^ parityOf (fun i => bits (i + 1)) n)
  | 0 => by rw [parityOf, parityOf, parityOf, Bool.false_xor, Bool.xor_false]
  | n + 1 => by rw [parityOf, parityOf_succ' bits n, parityOf, Bool.xor_assoc]

theorem parityOf_eq_odd (bits : Nat → Bool) (n : Nat) :
    parityOf bits n = true ↔ Odd ((List.range n).countP bits) := by
  induction n with
  | zero => exact iff_of_false Bool.false_ne_true (by simp)
  | succ n ih =>
    rw [parityOf, List.range_succ, List.countP_append, List.countP_singleton]
    cases hbit : bits n
    · rw [Bool.xor_false, ih, if_neg Bool.false_ne_true, Nat.add_zero]
    · rw [Bool.xor_true, Bool.not_eq_true', ← Bool.not_eq_true, ih, if_pos rfl, Nat.odd_add_one]

/-! ## Parity of a register -/

variable {taps : BitVec w}

theorem parity_xor (a b : BitVec w) : parity (a ^^^ b) = (parity a ^^ parity b) := by
  have hbits : (a ^^^ b).getLsbD = fun i => a.getLsbD i ^^ b.getLsbD i := by
    funext i
    exact BitVec.getLsbD_xor
  rw [parity, hbits, parityOf_xor, parity, parity]

theorem parity_low (hw : 0 < w) (b : Bool) : parity (low b : BitVec w) = b := by
  obtain ⟨n, rfl⟩ : ∃ n, w = n + 1 := ⟨w - 1, by omega⟩
  have hrest : ∀ m, parityOf (fun i => (low b : BitVec (n + 1)).getLsbD (i + 1)) m = false := by
    intro m
    induction m with
    | zero => rfl
    | succ m ih => rw [parityOf, ih, getLsbD_low, decide_eq_false (Nat.succ_ne_zero m)]; simp
  rw [parity, parityOf_succ', hrest, getLsbD_low]
  simp

theorem parity_ushiftRight (c : BitVec w) : parity (c >>> 1) = (parity c ^^ c.getLsbD 0) := by
  have hbits : (c >>> 1).getLsbD = fun i => c.getLsbD (i + 1) := by
    funext i
    rw [BitVec.getLsbD_ushiftRight, Nat.add_comm]
  have hend : parityOf c.getLsbD (w + 1) = parity c := by
    rw [parityOf, BitVec.getLsbD_of_ge c w (Nat.le_refl w), Bool.xor_false, parity]
  rw [parity, hbits, ← hend, parityOf_succ', Bool.xor_comm (c.getLsbD 0), Bool.xor_assoc,
    Bool.xor_self, Bool.xor_false]

/-- The bit that falls out and the taps it adds cancel. -/
theorem parity_shift (hodd : parity taps = true) (c : BitVec w) : parity (shift taps c) = parity c := by
  rw [shift]
  cases hlow : c.getLsbD 0
  · rw [if_neg Bool.false_ne_true, parity_ushiftRight, hlow, Bool.xor_false]
  · rw [if_pos rfl, parity_xor, parity_ushiftRight, hlow, hodd, Bool.xor_assoc, Bool.xor_self,
      Bool.xor_false]

theorem parity_run (hodd : parity taps = true) (hw : 0 < w) (c : BitVec w) (bits : Nat → Bool) : ∀ n,
    parity (run taps c bits n) = (parity c ^^ parityOf bits n)
  | 0 => by rw [run, parityOf, Bool.xor_false]
  | n + 1 => by
    rw [run, feed, parity_shift hodd, parity_xor, parity_low hw, parity_run hodd hw c bits n,
      parityOf, Bool.xor_assoc]

theorem run_ne_of_odd (hodd : parity taps = true) (hw : 0 < w) (c : BitVec w) {x y : Nat → Bool}
    {n : Nat} (h : Odd ((List.range n).countP fun i => x i ^^ y i)) :
    run taps c x n ≠ run taps c y n := by
  intro heq
  have hparity := congrArg parity heq
  rw [parity_run hodd hw, parity_run hodd hw] at hparity
  have hdiff := (parityOf_eq_odd _ n).2 h
  rw [parityOf_xor] at hdiff
  revert hparity hdiff
  cases parity c <;> cases parityOf x n <;> cases parityOf y n <;> decide

/-! ## Two changed bits -/

/-- What two streams that differ in two bits make of the register: the difference is that of a
bit and a bit that was shifted over the distance. -/
theorem run_xor_of_two {x y : Nat → Bool} {n p q : Nat} (hpq : p < q) (hq : q < n) (c : BitVec w)
    (hdiff : ∀ i < n, (x i ^^ y i) = true ↔ i = p ∨ i = q) :
    run taps c x n ^^^ run taps c y n =
      (shift taps)^[n - q] ((shift taps)^[q - p] (low true) ^^^ low true) := by
  let e : Nat → Bool := fun i => x i ^^ y i
  have hquiet : ∀ i < n, i ≠ p → i ≠ q → e i = false := by
    intro i hi hp hq
    exact Bool.eq_false_iff.2 fun hbit => ((hdiff i hi).1 hbit).elim hp hq
  have hp : e p = true := (hdiff p (by omega)).2 (Or.inl rfl)
  have hq' : e q = true := (hdiff q hq).2 (Or.inr rfl)
  -- up to the first change, between the two, and behind the second
  have hfirst : run taps 0#w e (p + 1) = shift taps (low true) := by
    rw [run, run_of_quiet 0#w fun i hi => hquiet i (by omega) (by omega) (by omega),
      iterate_shift_zero, hp, feed, BitVec.zero_xor]
  have hbetween : run taps 0#w e q = (shift taps)^[q - p] (low true) := by
    have hsplit : q = p + 1 + (q - p - 1) := by omega
    rw [hsplit, run_add, hfirst, run_of_quiet _ fun i hi => hquiet _ (by omega) (by omega) (by omega),
      ← Function.iterate_succ_apply, ← hsplit]
    congr 1
    omega
  have hsecond : run taps 0#w e (q + 1) =
      shift taps ((shift taps)^[q - p] (low true) ^^^ low true) := by
    rw [run, hbetween, hq', feed]
  have hend : run taps 0#w e n =
      (shift taps)^[n - q] ((shift taps)^[q - p] (low true) ^^^ low true) := by
    have hsplit : n = q + 1 + (n - q - 1) := by omega
    rw [hsplit, run_add, hsecond, run_of_quiet _ fun i hi => hquiet _ (by omega) (by omega) (by omega),
      ← Function.iterate_succ_apply, ← hsplit]
    congr 1
    omega
  rw [← hend, ← run_xor, BitVec.xor_self]

/-- Streams that differ in two bits leave the same register exactly when a single bit comes back
after their distance. -/
theorem run_eq_iff_of_two (htop : taps.msb = true) {x y : Nat → Bool} {n p q : Nat} (hpq : p < q)
    (hq : q < n) (c : BitVec w) (hdiff : ∀ i < n, (x i ^^ y i) = true ↔ i = p ∨ i = q) :
    run taps c x n = run taps c y n ↔
      Function.minimalPeriod (shift taps) (low true : BitVec w) ∣ q - p := by
  rw [← Function.isPeriodicPt_iff_minimalPeriod_dvd, ← BitVec.xor_eq_zero_iff,
    run_xor_of_two hpq hq c hdiff, iterate_shift_eq_zero htop, BitVec.xor_eq_zero_iff]
  exact Iff.rfl

/-! ## Many shifts -/

/-- The number that a register holds after `n` shifts. Each step looks at the number it comes to,
so that it is computed before the next. -/
def orbit (taps : Nat) : Nat → Nat → Nat
  | 0, v => v
  | n + 1, v =>
    match v / 2 ^^^ v % 2 * taps with
    | 0 => 0
    | u + 1 => orbit taps n (u + 1)

theorem toNat_shift (c : BitVec w) :
    (shift taps c).toNat = c.toNat / 2 ^^^ c.toNat % 2 * taps.toNat := by
  have hlow : c.getLsbD 0 = decide (c.toNat % 2 = 1) := by
    rw [BitVec.getLsbD, Nat.testBit_zero]
  rw [shift, hlow]
  rcases Nat.mod_two_eq_zero_or_one c.toNat with heven | hodd
  · rw [heven, decide_eq_false (by decide), if_neg Bool.false_ne_true, BitVec.toNat_ushiftRight,
      Nat.shiftRight_one, Nat.zero_mul, Nat.xor_zero]
  · rw [hodd, decide_eq_true rfl, if_pos rfl, BitVec.toNat_xor, BitVec.toNat_ushiftRight,
      Nat.shiftRight_one, Nat.one_mul]

theorem toNat_iterate_shift (n : Nat) (c : BitVec w) :
    ((shift taps)^[n] c).toNat = orbit taps.toNat n c.toNat := by
  induction n generalizing c with
  | zero => rfl
  | succ n ih =>
    rw [Function.iterate_succ_apply, orbit, ← toNat_shift]
    cases hnext : (shift taps c).toNat with
    | zero =>
      have hclear : shift taps c = 0#w := BitVec.eq_of_toNat_eq (hnext.trans BitVec.toNat_zero.symm)
      rw [hclear, iterate_shift_zero]
      exact BitVec.toNat_zero
    | succ u => rw [ih, hnext]

end Register
