import Mathlib.Data.List.Basic

/- A mailbox with one slot, between producers that store at any time and one reader.

   The reader takes what is in the slot, works on it and clears the slot; nothing
   keeps a producer out in between. Each store has a number, so that two stores of
   one value stay apart, and a cell records the numbers that were taken, that were
   overwritten by a later store and that a clear erased.

   `NoLoss` is the law of such a mailbox: a clear erases only what was taken, and a
   store disappears untaken only under a later one. The two rules are about one
   step of a reader that reads when it holds nothing and clears when it holds
   something (`Disciplined`):

   1. `kept_step`: the law survives every step but a store between the read and the
      clear;
   2. `doomed_store`, `doomed_step`: such a store breaks it for good, once the clear
      has come;
   3. `faithful_step`: what the reader finds is a sublist of what was stored, and
      `missed_step`: it never finds a store made under it. -/
namespace OneSlot

variable {V : Type*}

/-- The slot, and what happened to the stores so far. `reading` is set from a read to
the clear after it. -/
structure Cell (V : Type*) where
  content : Option (Nat × V)
  stored : Nat
  reading : Bool
  taken : List Nat
  overwritten : List Nat
  erased : List Nat

def Cell.empty : Cell V := ⟨none, 0, false, [], [], []⟩

/-- The numbers in the slot: one or none. -/
def Cell.held (s : Cell V) : List Nat := (s.content.map Prod.fst).toList

inductive Act (V : Type*) where
  | store (v : V)
  | read
  | clear
  | other

def step (s : Cell V) : Act V → Cell V
  | .store v =>
    { s with
      content := some (s.stored, v)
      stored := s.stored + 1
      overwritten := s.held ++ s.overwritten }
  | .read => { s with reading := true, taken := s.held ++ s.taken }
  | .clear => { s with content := none, reading := false, erased := s.held ++ s.erased }
  | .other => s

/-- The reader reads when it holds nothing, and clears when it holds something. -/
def Disciplined (s : Cell V) : Act V → Prop
  | .read => s.reading = false
  | .clear => s.reading = true
  | _ => True

/-- No store between a read and the clear after it. -/
def Clean (s : Cell V) : Act V → Prop
  | .store _ => s.reading = false
  | _ => True

/-- A clear erased only what had been taken, and a store is in the slot, was taken or
was overwritten. -/
structure NoLoss (s : Cell V) : Prop where
  erased : ∀ n ∈ s.erased, n ∈ s.taken
  stored : ∀ n < s.stored, n ∈ s.held ∨ n ∈ s.taken ∨ n ∈ s.overwritten

/-! ## Numbers -/

/-- Every number recorded is that of an earlier store. -/
structure Numbered (s : Cell V) : Prop where
  held : ∀ n ∈ s.held, n < s.stored
  taken : ∀ n ∈ s.taken, n < s.stored

theorem numbered_empty : Numbered (Cell.empty : Cell V) where
  held := nofun
  taken := nofun

@[simp] theorem held_store (s : Cell V) (v : V) : (step s (.store v)).held = [s.stored] := rfl

@[simp] theorem held_read (s : Cell V) : (step s (.read : Act V)).held = s.held := rfl

@[simp] theorem held_clear (s : Cell V) : (step s (.clear : Act V)).held = [] := rfl

theorem numbered_step {s : Cell V} (h : Numbered s) (a : Act V) : Numbered (step s a) := by
  cases a with
  | store v =>
    constructor
    · intro n hn
      rw [held_store, List.mem_singleton] at hn
      subst hn
      exact Nat.lt_succ_self _
    · intro n hn
      exact Nat.lt_succ_of_lt (h.taken n hn)
  | read =>
    refine ⟨h.held, ?_⟩
    intro n hn
    rcases List.mem_append.1 hn with hheld | htaken
    · exact h.held n hheld
    · exact h.taken n htaken
  | clear => exact ⟨nofun, h.taken⟩
  | other => exact h

/-! ## Keeping the law -/

/-- The law, with what carries it from a read to the clear: the reader has taken what it
finds there. -/
structure Kept (s : Cell V) : Prop where
  erased : ∀ n ∈ s.erased, n ∈ s.taken
  reading : s.reading = true → ∀ n ∈ s.held, n ∈ s.taken
  stored : ∀ n < s.stored, n ∈ s.held ∨ n ∈ s.taken ∨ n ∈ s.overwritten

theorem kept_empty : Kept (Cell.empty : Cell V) where
  erased := nofun
  reading := nofun
  stored := nofun

theorem Kept.noLoss {s : Cell V} (h : Kept s) : NoLoss s := ⟨h.erased, h.stored⟩

theorem kept_step {s : Cell V} {a : Act V} (h : Kept s) (hreader : Disciplined s a)
    (hclean : Clean s a) : Kept (step s a) := by
  cases a with
  | store v =>
    refine ⟨h.erased, ?_, ?_⟩
    · intro hreading
      have hidle : s.reading = false := hclean
      exact absurd (hidle.symm.trans hreading) Bool.false_ne_true
    · intro n hn
      rcases Nat.lt_succ_iff_lt_or_eq.1 hn with hlt | rfl
      · rcases h.stored n hlt with hheld | htaken | hover
        · exact Or.inr (Or.inr (List.mem_append_left _ hheld))
        · exact Or.inr (Or.inl htaken)
        · exact Or.inr (Or.inr (List.mem_append_right _ hover))
      · exact Or.inl (List.mem_singleton_self _)
  | read =>
    refine ⟨?_, ?_, ?_⟩
    · intro n hn
      exact List.mem_append_right _ (h.erased n hn)
    · intro _ n hn
      exact List.mem_append_left _ hn
    · intro n hn
      rcases h.stored n hn with hheld | htaken | hover
      · exact Or.inl hheld
      · exact Or.inr (Or.inl (List.mem_append_right _ htaken))
      · exact Or.inr (Or.inr hover)
  | clear =>
    have hheld : ∀ n ∈ s.held, n ∈ s.taken := h.reading hreader
    refine ⟨?_, nofun, ?_⟩
    · intro n hn
      rcases List.mem_append.1 hn with hin | hbefore
      · exact hheld n hin
      · exact h.erased n hbefore
    · intro n hn
      rcases h.stored n hn with hin | htaken | hover
      · exact Or.inr (Or.inl (hheld n hin))
      · exact Or.inr (Or.inl htaken)
      · exact Or.inr (Or.inr hover)
  | other => exact h

/-! ## Breaking it -/

/-- A store was made under the reader, and is about to be erased or has been. -/
def Doomed (s : Cell V) : Prop :=
  ∃ n, n < s.stored ∧ n ∉ s.taken ∧
    (s.reading = true ∧ n ∈ s.held ∨ n ∈ s.erased ∧ n ∉ s.held)

/-- A number not given out yet is not recorded. -/
theorem stored_not_taken {s : Cell V} (h : Numbered s) : s.stored ∉ s.taken := by
  intro hmem
  exact Nat.lt_irrefl _ (h.taken _ hmem)

theorem doomed_store {s : Cell V} (h : Numbered s) (hreading : s.reading = true) (v : V) :
    Doomed (step s (.store v)) := by
  refine ⟨s.stored, Nat.lt_succ_self _, stored_not_taken h, Or.inl ⟨hreading, ?_⟩⟩
  rw [held_store]
  exact List.mem_singleton_self _

theorem doomed_step {s : Cell V} {a : Act V} (hnumbered : Numbered s) (hreader : Disciplined s a)
    (h : Doomed s) : Doomed (step s a) := by
  obtain ⟨n, hn, huntaken, hwhere⟩ := h
  cases a with
  | store v =>
    rcases hwhere with ⟨hreading, -⟩ | ⟨herased, -⟩
    · exact doomed_store hnumbered hreading v
    · refine ⟨n, Nat.lt_succ_of_lt hn, huntaken, Or.inr ⟨herased, ?_⟩⟩
      rw [held_store, List.mem_singleton]
      omega
  | read =>
    have hidle : s.reading = false := hreader
    rcases hwhere with ⟨hreading, -⟩ | ⟨herased, hout⟩
    · exact absurd (hidle.symm.trans hreading) Bool.false_ne_true
    · refine ⟨n, hn, ?_, Or.inr ⟨herased, hout⟩⟩
      intro htaken
      rcases List.mem_append.1 htaken with hheld | hbefore
      · exact hout hheld
      · exact huntaken hbefore
  | clear =>
    refine ⟨n, hn, huntaken, Or.inr ⟨?_, nofun⟩⟩
    rcases hwhere with ⟨-, hheld⟩ | ⟨herased, -⟩
    · exact List.mem_append_left _ hheld
    · exact List.mem_append_right _ herased
  | other => exact ⟨n, hn, huntaken, hwhere⟩

/-- Once the reader holds nothing, such a store is lost. -/
theorem Doomed.not_noLoss {s : Cell V} (h : Doomed s) (hidle : s.reading = false) : ¬NoLoss s := by
  obtain ⟨n, -, huntaken, ⟨hreading, -⟩ | ⟨herased, -⟩⟩ := h
  · exact absurd (hidle.symm.trans hreading) Bool.false_ne_true
  · intro hlaw
    exact huntaken (hlaw.erased n herased)

/-! ## What the reader finds -/

/-- The values stored so far, after a step. -/
def logged (log : List V) : Act V → List V
  | .store v => log ++ [v]
  | _ => log

/-- The values the reader has found so far, after a step. -/
def seen (s : Cell V) (found : List V) : Act V → List V
  | .read => found ++ s.content.toList.map Prod.snd
  | _ => found

/-- The slot holds the value of its number; what the reader has found was stored, in that
order, and before what it may find next. -/
structure Faithful (s : Cell V) (log found : List V) : Prop where
  length : log.length = s.stored
  content : ∀ n v, s.content = some (n, v) → log[n]? = some v
  found : ∃ b ≤ log.length,
    found.Sublist (log.take b) ∧ (s.reading = false → ∀ n ∈ s.held, b ≤ n)

theorem faithful_empty : Faithful (Cell.empty : Cell V) [] [] where
  length := rfl
  content := nofun
  found := ⟨0, Nat.le_refl _, List.Sublist.refl _, nofun⟩

theorem Faithful.sublist {s : Cell V} {log found : List V} (h : Faithful s log found) :
    found.Sublist log := by
  obtain ⟨b, -, hsub, -⟩ := h.found
  exact hsub.trans (List.take_sublist b log)

theorem faithful_step {s : Cell V} {a : Act V} {log found : List V} (h : Faithful s log found)
    (hreader : Disciplined s a) :
    Faithful (step s a) (logged log a) (seen s found a) := by
  obtain ⟨hlength, hcontent, b, hb, hsub, hahead⟩ := h
  cases a with
  | store v =>
    refine ⟨?_, ?_, b, ?_, ?_, ?_⟩
    · rw [logged, List.length_append, hlength]
      rfl
    · intro n w hnew
      obtain ⟨rfl, rfl⟩ := Prod.mk.inj (Option.some.inj hnew)
      rw [logged, ← hlength, List.getElem?_concat_length]
    · rw [logged, List.length_append]
      omega
    · rw [logged, List.take_append_of_le_length hb]
      exact hsub
    · intro _ n hn
      rw [held_store, List.mem_singleton] at hn
      rw [hn, ← hlength]
      exact hb
  | read =>
    have hidle : s.reading = false := hreader
    cases hslot : s.content with
    | none =>
      have hseen : seen s found .read = found := by
        rw [seen, hslot]
        exact List.append_nil found
      rw [hseen]
      exact ⟨hlength, hcontent, b, hb, hsub, nofun⟩
    | some c =>
      obtain ⟨n, v⟩ := c
      have hn : log[n]? = some v := hcontent n v hslot
      have hheld : n ∈ s.held := by
        rw [Cell.held, hslot]
        exact List.mem_singleton_self n
      have hlt : n < log.length := (List.getElem?_eq_some_iff.1 hn).1
      have hseen : seen s found .read = found ++ [v] := by
        rw [seen, hslot]
        rfl
      have htake : log.take (n + 1) = log.take n ++ [v] := by
        rw [List.take_add_one, hn]
        rfl
      refine ⟨hlength, hcontent, n + 1, hlt, ?_, nofun⟩
      show (seen s found .read).Sublist (log.take (n + 1))
      rw [hseen, htake]
      exact (hsub.trans (List.take_sublist_take_left (hahead hidle n hheld))).append
        (List.Sublist.refl [v])
  | clear => exact ⟨hlength, nofun, b, hb, hsub, nofun⟩
  | other => exact ⟨hlength, hcontent, b, hb, hsub, hahead⟩

/-- The store with this number was made under the reader: it is lost, or about to be. -/
structure Missed (n : Nat) (s : Cell V) : Prop where
  past : n < s.stored
  untaken : n ∉ s.taken
  out : s.reading = true ∨ n ∉ s.held

theorem missed_store {s : Cell V} (h : Numbered s) (hreading : s.reading = true) (v : V) :
    Missed s.stored (step s (.store v)) :=
  ⟨Nat.lt_succ_self _, stored_not_taken h, Or.inl hreading⟩

theorem missed_step {s : Cell V} {a : Act V} {n : Nat} (hreader : Disciplined s a) (h : Missed n s) :
    Missed n (step s a) := by
  obtain ⟨hpast, huntaken, hout⟩ := h
  cases a with
  | store v =>
    refine ⟨Nat.lt_succ_of_lt hpast, huntaken, Or.inr ?_⟩
    rw [held_store, List.mem_singleton]
    omega
  | read =>
    have hidle : s.reading = false := hreader
    have hgone : n ∉ s.held := by
      rcases hout with hreading | hgone
      · exact absurd (hidle.symm.trans hreading) Bool.false_ne_true
      · exact hgone
    refine ⟨hpast, ?_, Or.inl rfl⟩
    intro htaken
    rcases List.mem_append.1 htaken with hheld | hbefore
    · exact hgone hheld
    · exact huntaken hbefore
  | clear => exact ⟨hpast, huntaken, Or.inr nofun⟩
  | other => exact ⟨hpast, huntaken, hout⟩

end OneSlot
