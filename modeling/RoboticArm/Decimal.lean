import Mathlib.Data.Nat.Digits.Defs
import Mathlib.Data.Nat.Digits.Lemmas

/- Numbers in decimal text: printing, and reading up to the first character that is no digit.

   Text is a list of bytes. `read` keeps the value of the digits so far, as a loop over the
   text does, and gives it back with the text behind the digits. Reading takes back what
   was printed, whatever follows that is no digit (`read_print`, `readInt_printInt`); a
   number below `10 ^ k` takes at most `k` characters (`length_print_le`). -/
namespace Decimal

def isDigit (b : UInt8) : Bool := 48 ≤ b && b ≤ 57

/-- The character of a digit. -/
def digit (d : Nat) : UInt8 := UInt8.ofNat (48 + d)

def print (n : Nat) : List UInt8 := if n = 0 then [digit 0] else (Nat.digits 10 n).reverse.map digit

/-- The value of the digits at the head of the text, behind the value `v`, and the rest. -/
def read (v : Nat) : List UInt8 → Nat × List UInt8
  | [] => (v, [])
  | b :: text => if isDigit b then read (v * 10 + (b.toNat - 48)) text else (v, b :: text)

/-- The text does not go on with a digit. -/
def Ends (text : List UInt8) : Prop := ∀ b ∈ text.head?, isDigit b = false

/-! ## Digits -/

theorem toNat_digit {d : Nat} (hd : d < 10) : (digit d).toNat = 48 + d := by
  rw [digit, UInt8.toNat_ofNat']
  exact Nat.mod_eq_of_lt (by omega)

theorem isDigit_digit {d : Nat} (hd : d < 10) : isDigit (digit d) = true := by
  have hnat := toNat_digit hd
  have hlo : 48 ≤ digit d := UInt8.le_iff_toNat_le.2 (by rw [hnat]; exact Nat.le_add_right 48 d)
  have hhi : digit d ≤ 57 := UInt8.le_iff_toNat_le.2 (by rw [hnat]; show 48 + d ≤ 57; omega)
  rw [isDigit, decide_eq_true hlo, decide_eq_true hhi, Bool.and_self]

theorem exists_digits (n : Nat) : ∃ ds : List Nat, print n = ds.map digit ∧ (∀ d ∈ ds, d < 10) ∧
    ds.foldl (fun v d => v * 10 + d) 0 = n ∧ ds ≠ [] := by
  rw [print]
  split
  · next hzero => exact ⟨[0], rfl, by decide, by rw [hzero]; rfl, List.cons_ne_nil 0 []⟩
  · next hpos =>
    refine ⟨(Nat.digits 10 n).reverse, rfl, ?_, ?_, ?_⟩
    · intro d hd
      exact Nat.digits_lt_base (by decide) (List.mem_reverse.1 hd)
    · have hvalue : Nat.ofDigits 10 (Nat.digits 10 n) = n := Nat.ofDigits_digits 10 n
      rw [Nat.ofDigits_eq_foldr] at hvalue
      rw [List.foldl_reverse]
      convert hvalue using 2
      funext d v
      rw [Nat.cast_id]
      omega
    · intro hnil
      exact hpos (Nat.digits_eq_nil_iff_eq_zero.1 (List.reverse_eq_nil_iff.1 hnil))

theorem isDigit_of_mem_print {n : Nat} {b : UInt8} (hb : b ∈ print n) : isDigit b = true := by
  obtain ⟨ds, hprint, hlt, -, -⟩ := exists_digits n
  rw [hprint] at hb
  obtain ⟨d, hd, rfl⟩ := List.mem_map.1 hb
  exact isDigit_digit (hlt d hd)

theorem print_ne_nil (n : Nat) : print n ≠ [] := by
  obtain ⟨ds, hprint, -, -, hne⟩ := exists_digits n
  rw [hprint]
  exact fun hnil => hne (List.map_eq_nil_iff.1 hnil)

theorem length_print_le {n k : Nat} (hk : 0 < k) (hn : n < 10 ^ k) : (print n).length ≤ k := by
  rw [print]
  split
  · exact hk
  · rw [List.length_map, List.length_reverse]
    exact (Nat.digits_length_le_iff (by decide) n).2 hn

/-! ## Reading -/

theorem read_digits {ds : List Nat} (hlt : ∀ d ∈ ds, d < 10) {rest : List UInt8} (hrest : Ends rest)
    (v : Nat) : read v (ds.map digit ++ rest) = (ds.foldl (fun v d => v * 10 + d) v, rest) := by
  -- the value so far goes along, so the induction is over any of them
  induction ds generalizing v with
  | nil =>
    cases rest with
    | nil => rfl
    | cons b rest =>
      have hstop : isDigit b = false := hrest b rfl
      rw [List.map_nil, List.nil_append, read, hstop, if_neg Bool.false_ne_true, List.foldl_nil]
  | cons d ds ih =>
    have hd := hlt d List.mem_cons_self
    rw [List.map_cons, List.cons_append, read, isDigit_digit hd, if_pos rfl, toNat_digit hd,
      Nat.add_sub_cancel_left, ih fun e he => hlt e (List.mem_cons_of_mem d he), List.foldl_cons]

theorem read_print (n : Nat) {rest : List UInt8} (hrest : Ends rest) :
    read 0 (print n ++ rest) = (n, rest) := by
  obtain ⟨ds, hprint, hlt, hvalue, -⟩ := exists_digits n
  rw [hprint, read_digits hlt hrest, hvalue]

/-! ## Signed numbers -/

/-- The sign, as printed. -/
def minus : UInt8 := 45

def printInt (v : Int) : List UInt8 := if v < 0 then minus :: print v.natAbs else print v.natAbs

/-- A number with or without a sign, and the rest of the text. -/
def readInt : List UInt8 → Int × List UInt8
  | [] => (0, [])
  | b :: text =>
    if b = minus then
      let (n, rest) := read 0 text
      (-(n : Int), rest)
    else
      let (n, rest) := read 0 (b :: text)
      (n, rest)

theorem minus_ne_of_digit {b : UInt8} (h : isDigit b = true) : b ≠ minus := by
  rintro rfl
  exact absurd h (by decide)

theorem readInt_printInt (v : Int) {rest : List UInt8} (hrest : Ends rest) :
    readInt (printInt v ++ rest) = (v, rest) := by
  rw [printInt]
  split
  · next hneg =>
    rw [List.cons_append, readInt, if_pos rfl, read_print _ hrest]
    show (-(v.natAbs : Int), rest) = (v, rest)
    congr 1
    omega
  · next hpos =>
    have hread := read_print v.natAbs hrest
    obtain ⟨b, text, hprint⟩ := List.exists_cons_of_ne_nil (print_ne_nil v.natAbs)
    have hdigit : isDigit b = true :=
      isDigit_of_mem_print (n := v.natAbs) (by rw [hprint]; exact List.mem_cons_self)
    rw [hprint, List.cons_append] at hread ⊢
    rw [readInt, if_neg (minus_ne_of_digit hdigit), hread]
    show ((v.natAbs : Int), rest) = (v, rest)
    congr 1
    omega

theorem printInt_natCast (n : Nat) : printInt n = print n := by
  rw [printInt, if_neg (by omega), Int.natAbs_natCast]

theorem length_printInt_le {v : Int} {k : Nat} (hk : 0 < k) (hv : v.natAbs < 10 ^ k) :
    (printInt v).length ≤ k + 1 := by
  have hlength := length_print_le hk hv
  rw [printInt]
  split
  · rw [List.length_cons]
    omega
  · omega

theorem lt_of_mem_printInt {v : Int} {b : UInt8} (hb : b ∈ printInt v) : b < 0x80 := by
  have hdigit : ∀ c ∈ print v.natAbs, c < 0x80 := by
    intro c hc
    have hc' := isDigit_of_mem_print hc
    rw [isDigit, Bool.and_eq_true, decide_eq_true_eq, decide_eq_true_eq] at hc'
    exact UInt8.lt_of_le_of_lt hc'.2 (by decide)
  rw [printInt] at hb
  split at hb
  · rcases List.mem_cons.1 hb with rfl | hb
    · decide
    · exact hdigit b hb
  · exact hdigit b hb

end Decimal
