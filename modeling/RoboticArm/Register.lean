import Mathlib.Logic.Function.Iterate

/- Shift registers with feedback, of any width `w`.

   `shift` moves the register down by one place and, if a one fell out, adds `taps`;
   `feed` adds a message bit first, and `run` feeds the bits of a stream one by one. Both
   are linear over the bits (`shift_xor`, `run_xor`). If the top tap is set a shift loses
   nothing (`shift_eq_zero`), and then:

   1. `run_eq_zero_iff`: the register is clear after `w` more bits exactly when these are
      its own bits, lowest first;
   2. `run_ne_of_burst`: streams that differ, and differ only inside a window of `w`
      bits, leave different registers. -/
namespace Register

variable {w : Nat}

/-- The register with the lowest bit `b`. -/
def low (b : Bool) : BitVec w := (BitVec.ofBool b).setWidth w

def shift (taps c : BitVec w) : BitVec w := if c.getLsbD 0 then (c >>> 1) ^^^ taps else c >>> 1

def feed (taps c : BitVec w) (b : Bool) : BitVec w := shift taps (c ^^^ low b)

/-- The register after the first bits of a stream. -/
def run (taps c : BitVec w) (bits : Nat → Bool) : Nat → BitVec w
  | 0 => c
  | n + 1 => feed taps (run taps c bits n) (bits n)

/-- The first `n` bits of a stream, as a register. -/
def word (bits : Nat → Bool) : Nat → BitVec w
  | 0 => 0#w
  | n + 1 => word bits n ^^^ (low (bits n) <<< n)

/-! ## One shift -/

variable {taps : BitVec w}

@[simp] theorem low_false : (low false : BitVec w) = 0#w := by simp [low]

theorem low_xor (a b : Bool) : (low (a ^^ b) : BitVec w) = low a ^^^ low b := by
  cases a <;> cases b <;> simp

theorem getLsbD_low (b : Bool) (i : Nat) :
    (low b : BitVec w).getLsbD i = (decide (i < w) && decide (i = 0) && b) := by
  rw [low, BitVec.getLsbD_setWidth]
  cases i with
  | zero => simp
  | succ i => simp

@[simp] theorem shift_zero : shift taps 0#w = 0#w := by simp [shift]

theorem shift_xor (a b : BitVec w) : shift taps (a ^^^ b) = shift taps a ^^^ shift taps b := by
  have hcancel : ∀ x y : BitVec w, (x ^^^ taps) ^^^ (y ^^^ taps) = x ^^^ y := by
    intro x y
    rw [BitVec.xor_comm y, BitVec.xor_assoc, ← BitVec.xor_assoc taps, BitVec.xor_self,
      BitVec.zero_xor]
  simp only [shift, BitVec.getLsbD_xor, BitVec.ushiftRight_xor_distrib]
  cases a.getLsbD 0 <;> cases b.getLsbD 0
  · rfl
  · exact BitVec.xor_assoc _ _ _
  · show (a >>> 1 ^^^ b >>> 1) ^^^ taps = (a >>> 1 ^^^ taps) ^^^ b >>> 1
    rw [BitVec.xor_assoc, BitVec.xor_assoc, BitVec.xor_comm taps]
  · exact (hcancel _ _).symm

/-- With the top tap set, only the clear register becomes clear. -/
theorem shift_eq_zero (htop : taps.msb = true) {c : BitVec w} : shift taps c = 0#w ↔ c = 0#w := by
  constructor
  · intro h
    cases hlow : c.getLsbD 0
    · have hshift : c >>> 1 = 0#w := by simpa [shift, hlow] using h
      apply BitVec.eq_of_getLsbD_eq
      intro i hi
      rw [BitVec.getLsbD_zero]
      cases i with
      | zero => exact hlow
      | succ i =>
        have hbit := congrArg (fun x => x.getLsbD i) hshift
        simpa [Nat.add_comm] using hbit
    · -- the bit that fell out set the top bit
      have hshift : (c >>> 1) ^^^ taps = 0#w := by simpa [shift, hlow] using h
      have hbit := congrArg BitVec.msb hshift
      have hclear : (c >>> 1).msb = false := by
        rw [BitVec.msb_eq_getLsbD_last, BitVec.getLsbD_ushiftRight]
        exact BitVec.getLsbD_of_ge c _ (by omega)
      rw [BitVec.msb_xor, hclear, htop] at hbit
      exact absurd hbit (by simp)
  · rintro rfl
    exact shift_zero

theorem iterate_shift_zero (n : Nat) : (shift taps)^[n] 0#w = 0#w := Function.iterate_fixed shift_zero n

theorem iterate_shift_xor (n : Nat) (a b : BitVec w) :
    (shift taps)^[n] (a ^^^ b) = (shift taps)^[n] a ^^^ (shift taps)^[n] b := by
  induction n generalizing a b with
  | zero => rfl
  | succ n ih => rw [Function.iterate_succ_apply, shift_xor, ih]; rfl

theorem iterate_shift_eq_zero (htop : taps.msb = true) (n : Nat) {c : BitVec w} :
    (shift taps)^[n] c = 0#w ↔ c = 0#w := by
  induction n generalizing c with
  | zero => exact Iff.rfl
  | succ n ih => rw [Function.iterate_succ_apply, ih, shift_eq_zero htop]

theorem iterate_shift_low (b : Bool) {n : Nat} (hn : n < w) :
    (shift taps)^[n] (low b <<< n) = low b := by
  induction n with
  | zero => exact BitVec.shiftLeft_zero _
  | succ n ih =>
    have hdown : shift taps (low b <<< (n + 1)) = low b <<< n := by
      have hclear : ((low b : BitVec w) <<< (n + 1)).getLsbD 0 = false := by simp
      rw [shift, hclear, if_neg Bool.false_ne_true]
      apply BitVec.eq_of_getLsbD_eq
      intro i hi
      simp only [BitVec.getLsbD_ushiftRight, BitVec.getLsbD_shiftLeft, getLsbD_low]
      grind
    rw [Function.iterate_succ_apply, hdown, ih (by omega)]

/-! ## Runs -/

theorem run_xor (a b : BitVec w) (x y : Nat → Bool) : ∀ n,
    run taps (a ^^^ b) (fun i => x i ^^ y i) n = run taps a x n ^^^ run taps b y n
  | 0 => rfl
  | n + 1 => by
    simp only [run, feed]
    rw [run_xor a b x y n, low_xor, ← shift_xor]
    congr 1
    ac_rfl

theorem run_add (c : BitVec w) (bits : Nat → Bool) (m : Nat) : ∀ n,
    run taps c bits (m + n) = run taps (run taps c bits m) (fun i => bits (m + i)) n
  | 0 => rfl
  | n + 1 => by rw [← Nat.add_assoc, run, run_add c bits m n, run]

theorem run_congr {c : BitVec w} {x y : Nat → Bool} : ∀ {n}, (∀ i < n, x i = y i) →
    run taps c x n = run taps c y n
  | 0, _ => rfl
  | n + 1, h => by
    rw [run, run, run_congr fun i hi => h i (Nat.lt_succ_of_lt hi), h n (Nat.lt_succ_self n)]

theorem run_of_quiet {bits : Nat → Bool} (c : BitVec w) : ∀ {n}, (∀ i < n, bits i = false) →
    run taps c bits n = (shift taps)^[n] c
  | 0, _ => rfl
  | n + 1, h => by
    have hlast : bits n = false := h n (Nat.lt_succ_self n)
    rw [run, run_of_quiet c fun i hi => h i (Nat.lt_succ_of_lt hi), hlast, feed, low_false,
      BitVec.xor_zero, Function.iterate_succ_apply']

theorem getLsbD_word (bits : Nat → Bool) : ∀ (n : Nat) {i : Nat}, i < w →
    (word bits n : BitVec w).getLsbD i = (decide (i < n) && bits i)
  | 0, i, _ => by simp [word]
  | n + 1, i, hi => by
    rw [word, BitVec.getLsbD_xor, getLsbD_word bits n hi, BitVec.getLsbD_shiftLeft, getLsbD_low]
    rcases Nat.lt_trichotomy i n with hlt | rfl | hgt
    · simp [hlt, Nat.lt_succ_of_lt hlt]
    · have hpos : 0 < w := by omega
      simp [hi, hpos]
    · have hne : ¬ i - n = 0 := by omega
      have hbefore : ¬ i < n := by omega
      have hafter : ¬ i < n + 1 := by omega
      simp [hbefore, hafter, hne]

/-- Up to `w` bits act on the register as if added to it at once. -/
theorem run_word (c : BitVec w) (bits : Nat → Bool) : ∀ {n : Nat}, n ≤ w →
    run taps c bits n = (shift taps)^[n] (c ^^^ word bits n)
  | 0, _ => by simp [run, word]
  | n + 1, h => by
    rw [run, feed, run_word c bits (Nat.le_of_succ_le h), Function.iterate_succ_apply', word,
      ← BitVec.xor_assoc, iterate_shift_xor n (c ^^^ word bits n), iterate_shift_low (bits n) h]

theorem run_eq_zero_iff (htop : taps.msb = true) (c : BitVec w) (bits : Nat → Bool) (n : Nat) :
    run taps c bits (n + w) = 0#w ↔ ∀ i < w, bits (n + i) = (run taps c bits n).getLsbD i := by
  rw [run_add, run_word _ _ (Nat.le_refl w), iterate_shift_eq_zero htop, BitVec.xor_eq_zero_iff]
  constructor
  · intro h i hi
    rw [h, getLsbD_word _ w hi]
    simp [hi]
  · intro h
    apply BitVec.eq_of_getLsbD_eq
    intro i hi
    rw [getLsbD_word _ w hi, ← h i hi]
    simp [hi]

/-- A stream with a one, and with ones only inside a window of `w` bits, does not leave the
register clear. -/
theorem run_ne_zero_of_burst (htop : taps.msb = true) {bits : Nat → Bool} {n s k : Nat} (hk : k < n)
    (hone : bits k = true) (hwindow : ∀ i < n, bits i = true → s ≤ i ∧ i < s + w) :
    run taps 0#w bits n ≠ 0#w := by
  obtain ⟨hs, hw⟩ := hwindow k hk hone
  obtain ⟨m, r, hm, hmw, hkm, hr⟩ :
      ∃ m r, n = s + (m + r) ∧ m ≤ w ∧ k < s + m ∧ (r = 0 ∨ m = w) := by
    by_cases hin : n ≤ s + w
    · exact ⟨n - s, 0, by omega, by omega, by omega, Or.inl rfl⟩
    · exact ⟨w, n - s - w, by omega, Nat.le_refl w, hw, Or.inr rfl⟩
  have hbefore : run taps 0#w bits s = 0#w := by
    rw [run_of_quiet 0#w, iterate_shift_zero]
    intro i hi
    by_contra hbit
    exact absurd (hwindow i (by omega) (by simpa using hbit)).1 (by omega)
  have hbehind : ∀ i < r, bits (s + (m + i)) = false := by
    intro i hi
    by_contra hbit
    have := (hwindow (s + (m + i)) (by omega) (by simpa using hbit)).2
    omega
  have hinside : (word (fun i => bits (s + i)) m : BitVec w) ≠ 0#w := by
    intro hzero
    have hbit := getLsbD_word (w := w) (fun i => bits (s + i)) m (i := k - s) (by omega)
    rw [hzero, BitVec.getLsbD_zero, show s + (k - s) = k by omega, hone] at hbit
    exact absurd hbit (by simp; omega)
  rw [hm, run_add, hbefore, run_add, run_word _ _ hmw, BitVec.zero_xor, run_of_quiet _ hbehind,
    ← Function.iterate_add_apply]
  exact fun h => hinside ((iterate_shift_eq_zero htop _).1 h)

/-- Streams that differ, and only inside a window of `w` bits, leave different registers. -/
theorem run_ne_of_burst (htop : taps.msb = true) (c : BitVec w) {x y : Nat → Bool} {n s k : Nat}
    (hk : k < n) (hne : x k ≠ y k) (hwindow : ∀ i < n, x i ≠ y i → s ≤ i ∧ i < s + w) :
    run taps c x n ≠ run taps c y n := by
  have hxor : ∀ i, (x i ^^ y i) = true ↔ x i ≠ y i := by
    intro i
    cases x i <;> cases y i <;> simp
  have hdiff : run taps 0#w (fun i => x i ^^ y i) n ≠ 0#w :=
    run_ne_zero_of_burst htop hk ((hxor k).2 hne) fun i hi hbit => hwindow i hi ((hxor i).1 hbit)
  intro heq
  apply hdiff
  have hsplit : run taps (c ^^^ c) (fun i => x i ^^ y i) n = run taps c x n ^^^ run taps c y n :=
    run_xor c c x y n
  rw [BitVec.xor_self] at hsplit
  rw [hsplit, heq, BitVec.xor_self]

end Register
