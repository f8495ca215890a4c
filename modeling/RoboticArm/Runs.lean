import Mathlib.Data.List.Basic

/- Runs of a deterministic labelled machine `step : S → A → S`.

   `exec step s as` is the state after the labels `as`; `Along ok step s as`
   says that every step of that run is taken in a state that allows it. The
   rules below are the only inductions over runs a development needs:

   1. `exec_inv`, `exec_inv_along`: what every (allowed) step preserves holds
      at the end of every (allowed) run;
   2. `exec_iff_along`, `along_kept_iff`, `prefix_iff_along`: what exactly the allowed
      steps preserve holds at the end, or all along, exactly when every step was allowed;
   3. `exec_sim_along`, `exec_sim`, `along_sim`: a relation kept step by step relates
      the ends of corresponding runs, and carries a condition on steps across;
   4. `exec_flatMap`: a run of composite steps is the run of their parts. -/
namespace Runs

variable {S A T B : Type*}

/-- The state after a run. -/
def exec (step : S → A → S) : S → List A → S
  | s, [] => s
  | s, a :: as => exec step (step s a) as

/-- Every step of the run is taken where `ok` allows it. -/
def Along (ok : S → A → Prop) (step : S → A → S) : S → List A → Prop
  | _, [] => True
  | s, a :: as => ok s a ∧ Along ok step (step s a) as

@[simp] theorem exec_nil (step : S → A → S) (s : S) : exec step s [] = s := rfl

@[simp] theorem exec_cons (step : S → A → S) (s : S) (a : A) (as : List A) :
    exec step s (a :: as) = exec step (step s a) as := rfl

@[simp] theorem along_nil (ok : S → A → Prop) (step : S → A → S) (s : S) :
    Along ok step s [] := trivial

@[simp] theorem along_cons {ok : S → A → Prop} {step : S → A → S} {s : S} {a : A}
    {as : List A} : Along ok step s (a :: as) ↔ ok s a ∧ Along ok step (step s a) as := Iff.rfl

theorem exec_append (step : S → A → S) (s : S) (as bs : List A) :
    exec step s (as ++ bs) = exec step (exec step s as) bs := by
  induction as generalizing s with
  | nil => rfl
  | cons a as ih => exact ih (step s a)

theorem along_append {ok : S → A → Prop} {step : S → A → S} {s : S} {as bs : List A} :
    Along ok step s (as ++ bs) ↔ Along ok step s as ∧ Along ok step (exec step s as) bs := by
  induction as generalizing s with
  | nil => simp
  | cons a as ih => simp [ih, and_assoc]

theorem along_and {p q : S → A → Prop} {step : S → A → S} {s : S} {as : List A} :
    Along (fun s a => p s a ∧ q s a) step s as ↔ Along p step s as ∧ Along q step s as := by
  induction as generalizing s with
  | nil => simp
  | cons a as ih => simp only [along_cons, ih, and_assoc, and_left_comm]

theorem along_of_forall {ok : S → A → Prop} {step : S → A → S} (h : ∀ s a, ok s a) :
    ∀ {s : S} {as : List A}, Along ok step s as
  | _, [] => trivial
  | s, a :: _ => ⟨h s a, along_of_forall h⟩

theorem along_of_mem {p : A → Prop} {step : S → A → S} {s : S} {as : List A} (h : ∀ a ∈ as, p a) :
    Along (fun _ a => p a) step s as := by
  induction as generalizing s with
  | nil => trivial
  | cons a as ih =>
    exact ⟨h a List.mem_cons_self, ih fun b hb => h b (List.mem_cons_of_mem a hb)⟩

theorem along_iff_mem {p : A → Prop} {step : S → A → S} {s : S} {as : List A} :
    Along (fun _ a => p a) step s as ↔ ∀ a ∈ as, p a := by
  induction as generalizing s with
  | nil => simp
  | cons a as ih => simp only [along_cons, ih, List.forall_mem_cons]

theorem along_of_split {ok : S → A → Prop} {step : S → A → S} {s : S} {as : List A}
    (h : ∀ pre a post, as = pre ++ a :: post → ok (exec step s pre) a) : Along ok step s as := by
  induction as generalizing s with
  | nil => trivial
  | cons a as ih =>
    refine ⟨h [] a as rfl, ih ?_⟩
    intro pre b post hsplit
    exact h (a :: pre) b post (by rw [hsplit]; rfl)

/-- What holds before every step of a run holds after every step but the last. -/
theorem along_after {p : S → Prop} {step : S → A → S} {s : S} {as bs : List A} {b : A}
    (h : Along (fun s _ => p s) step s (as ++ b :: bs)) :
    Along (fun s a => p (step s a)) step s as := by
  induction as generalizing s with
  | nil => trivial
  | cons a as ih =>
    refine ⟨?_, ih h.2⟩
    cases as with
    | nil => exact h.2.1
    | cons _ _ => exact h.2.1

theorem along_congr {p q : S → A → Prop} {step : S → A → S} (h : ∀ s a, p s a ↔ q s a) :
    ∀ {s : S} {as : List A}, Along p step s as ↔ Along q step s as
  | _, [] => Iff.rfl
  | s, a :: _ => and_congr (h s a) (along_congr h)

/-- Conditions that agree wherever an invariant holds. -/
theorem along_congr_mem {p q : S → A → Prop} {step : S → A → S} {P : S → Prop} {as : List A}
    (hstep : ∀ s, ∀ a ∈ as, P s → P (step s a)) (h : ∀ s, ∀ a ∈ as, P s → (p s a ↔ q s a)) {s : S}
    (hs : P s) : Along p step s as ↔ Along q step s as := by
  induction as generalizing s with
  | nil => exact Iff.rfl
  | cons a as ih =>
    have hhead := h s a List.mem_cons_self hs
    have hnext := hstep s a List.mem_cons_self hs
    exact and_congr hhead (ih (fun t b hb => hstep t b (List.mem_cons_of_mem a hb))
      (fun t b hb => h t b (List.mem_cons_of_mem a hb)) hnext)

/-- What holds after every step of a run, and before the first, holds in every state of it. -/
theorem along_after_iff {P : S → Prop} {step : S → A → S} :
    ∀ {s : S} {as : List A}, P s →
      ((∀ pre, pre <+: as → P (exec step s pre)) ↔ Along (fun s a => P (step s a)) step s as) := by
  intro s as
  induction as generalizing s with
  | nil =>
    intro h
    refine iff_of_true ?_ trivial
    intro pre hpre
    rw [List.prefix_nil.1 hpre]
    exact h
  | cons a as ih =>
    intro h
    constructor
    · intro hall
      have hnext : P (step s a) := hall [a] (List.prefix_append [a] as)
      refine ⟨hnext, (ih hnext).1 ?_⟩
      intro pre hpre
      exact hall (a :: pre) (List.cons_prefix_cons.2 ⟨rfl, hpre⟩)
    · rintro ⟨hnext, hrest⟩ pre hpre
      cases pre with
      | nil => exact h
      | cons b pre =>
        obtain ⟨hb, htail⟩ := List.cons_prefix_cons.1 hpre
        subst hb
        exact (ih hnext).2 hrest pre htail

/-- A property that a step from a state with it keeps exactly when the step is allowed
holds after every step of a run exactly when every step is allowed. -/
theorem along_kept_iff {ok : S → A → Prop} {step : S → A → S} {P : S → Prop}
    (hstep : ∀ s a, P s → (P (step s a) ↔ ok s a)) :
    ∀ {s : S} {as : List A}, P s →
      (Along (fun s a => P (step s a)) step s as ↔ Along ok step s as) := by
  intro s as
  induction as generalizing s with
  | nil => intro _; exact Iff.rfl
  | cons a as ih =>
    intro h
    have hhead := hstep s a h
    exact ⟨fun ⟨h1, h2⟩ => ⟨hhead.1 h1, (ih h1).1 h2⟩,
      fun ⟨h1, h2⟩ => ⟨hhead.2 h1, (ih (hhead.2 h1)).2 h2⟩⟩

/-- What an invariant implies, and only steps that are allowed preserve, holds in every state of
a run exactly when every step is allowed. -/
theorem prefix_iff_along {ok : S → A → Prop} {step : S → A → S} {P Q : S → Prop}
    (himp : ∀ s, P s → Q s) (hkeep : ∀ s a, P s → ok s a → P (step s a))
    (hbreak : ∀ s a, P s → Q (step s a) → ok s a) :
    ∀ {s : S} {as : List A}, P s →
      ((∀ pre, pre <+: as → Q (exec step s pre)) ↔ Along ok step s as) := by
  intro s as
  induction as generalizing s with
  | nil =>
    intro h
    refine iff_of_true ?_ trivial
    intro pre hpre
    rw [List.prefix_nil.1 hpre]
    exact himp s h
  | cons a as ih =>
    intro h
    constructor
    · intro hall
      have hok : ok s a := hbreak s a h (hall [a] (List.prefix_append [a] as))
      refine ⟨hok, (ih (hkeep s a h hok)).1 ?_⟩
      intro pre hpre
      exact hall (a :: pre) (List.cons_prefix_cons.2 ⟨rfl, hpre⟩)
    · rintro ⟨hok, hrest⟩ pre hpre
      cases pre with
      | nil => exact himp s h
      | cons b pre =>
        obtain ⟨hb, htail⟩ := List.cons_prefix_cons.1 hpre
        subst hb
        exact (ih (hkeep s b h hok)).2 hrest pre htail

theorem exec_flatMap (step : S → A → S) (parts : B → List A) (s : S) (bs : List B) :
    exec step s (bs.flatMap parts) = exec (fun s b => exec step s (parts b)) s bs := by
  induction bs generalizing s with
  | nil => rfl
  | cons b bs ih => rw [List.flatMap_cons, exec_append, ih]; rfl

/-- The invariant rule, for runs whose steps are all allowed. -/
theorem exec_inv_along {ok : S → A → Prop} {step : S → A → S} {P : S → Prop}
    (hstep : ∀ s a, P s → ok s a → P (step s a)) :
    ∀ {s : S} {as : List A}, P s → Along ok step s as → P (exec step s as) := by
  intro s as
  induction as generalizing s with
  | nil => intro h _; exact h
  | cons a as ih => intro h hok; exact ih (hstep s a h hok.1) hok.2

/-- What an invariant of the allowed steps implies holds after each step of an allowed run. -/
theorem along_inv {ok : S → A → Prop} {step : S → A → S} {P Q : S → Prop} (himp : ∀ s, P s → Q s)
    (hstep : ∀ s a, P s → ok s a → P (step s a)) :
    ∀ {s : S} {as : List A}, P s → Along ok step s as → Along (fun s a => Q (step s a)) step s as := by
  intro s as
  induction as generalizing s with
  | nil => intro _ _; trivial
  | cons a as ih =>
    intro h hok
    have hnext := hstep s a h hok.1
    exact ⟨himp _ hnext, ih hnext hok.2⟩

/-- The invariant rule. -/
theorem exec_inv {step : S → A → S} {P : S → Prop} (hstep : ∀ s a, P s → P (step s a))
    {s : S} (as : List A) (h : P s) : P (exec step s as) := by
  induction as generalizing s with
  | nil => exact h
  | cons a as ih => exact ih (hstep s a h)

theorem exec_inv_mem {step : S → A → S} {P : S → Prop} {s : S} {as : List A}
    (hstep : ∀ t, ∀ a ∈ as, P t → P (step t a)) (h : P s) : P (exec step s as) := by
  induction as generalizing s with
  | nil => exact h
  | cons a as ih =>
    exact ih (fun t b hb => hstep t b (List.mem_cons_of_mem a hb)) (hstep s a List.mem_cons_self h)

/-- A property that each step keeps exactly when it is allowed holds at the end of a run
exactly when it held before and every step was allowed. -/
theorem exec_iff_along {ok : S → A → Prop} {step : S → A → S} {P : S → Prop}
    (hstep : ∀ s a, P (step s a) ↔ P s ∧ ok s a) :
    ∀ {s : S} {as : List A}, P (exec step s as) ↔ P s ∧ Along ok step s as := by
  intro s as
  induction as generalizing s with
  | nil => simp
  | cons a as ih => rw [exec_cons, ih, hstep, along_cons, and_assoc]

/-- Simulation: a relation kept by corresponding steps, where they are allowed, relates
corresponding runs. -/
theorem exec_sim_along {ok : S → A → Prop} {step : S → A → S} {step' : T → B → T} (label : A → B)
    {R : S → T → Prop} (hstep : ∀ s t a, R s t → ok s a → R (step s a) (step' t (label a))) :
    ∀ {s : S} {t : T} {as : List A}, R s t → Along ok step s as →
      R (exec step s as) (exec step' t (as.map label)) := by
  intro s t as
  induction as generalizing s t with
  | nil => intro h _; exact h
  | cons a as ih => intro h hok; exact ih (hstep s t a h hok.1) hok.2

theorem exec_sim {step : S → A → S} {step' : T → B → T} (label : A → B) {R : S → T → Prop}
    (hstep : ∀ s t a, R s t → R (step s a) (step' t (label a)))
    {s : S} {t : T} (as : List A) (h : R s t) : R (exec step s as) (exec step' t (as.map label)) := by
  have hall : Along (fun _ _ => True) step s as := along_of_forall fun _ _ => trivial
  refine exec_sim_along label ?_ h hall
  intro s t a hR _
  exact hstep s t a hR

theorem along_sim {step : S → A → S} {step' : T → B → T} (label : A → B) {R : S → T → Prop}
    {ok : S → A → Prop} {ok' : T → B → Prop}
    (hstep : ∀ s t a, R s t → R (step s a) (step' t (label a)))
    (hok : ∀ s t a, R s t → (ok s a ↔ ok' t (label a))) :
    ∀ {s : S} {t : T} (as : List A), R s t →
      (Along ok step s as ↔ Along ok' step' t (as.map label)) := by
  intro s t as
  induction as generalizing s t with
  | nil => intro _; exact Iff.rfl
  | cons a as ih => intro h; exact and_congr (hok s t a h) (ih (hstep s t a h))

/-! ## Values and counts along a run -/

section
variable [DecidableEq B]

/-- The values `f` takes along a run, in order, each once for a stretch of states with it. -/
def visits (f : S → B) (step : S → A → S) : S → List A → List B
  | s, [] => [f s]
  | s, a :: as =>
    if f (step s a) = f s then visits f step (step s a) as else f s :: visits f step (step s a) as

end

/-- A number that each step keeps or raises by one takes every value in between, in order. -/
theorem visits_eq_range' {f : S → Nat} {step : S → A → S} :
    ∀ {s : S} {as : List A}, Along (fun s a => f (step s a) = f s ∨ f (step s a) = f s + 1) step s as →
      ∃ n, f (exec step s as) = f s + n ∧ visits f step s as = List.range' (f s) (n + 1)
  | s, [], _ => ⟨0, rfl, rfl⟩
  | s, a :: as, h => by
    obtain ⟨n, hn, hv⟩ := visits_eq_range' h.2
    rcases h.1 with hsame | hnext
    · refine ⟨n, by rw [exec_cons, hn, hsame], ?_⟩
      rw [visits, if_pos hsame, hv, hsame]
    · refine ⟨n + 1, by rw [exec_cons, hn, hnext]; omega, ?_⟩
      rw [visits, if_neg (by omega), hv, hnext]
      rfl

/-- The steps of a run that satisfy a condition in the state they are taken in. -/
def count (p : S → A → Bool) (step : S → A → S) : S → List A → Nat
  | _, [] => 0
  | s, a :: as => (if p s a then 1 else 0) + count p step (step s a) as

/-- A condition on the steps of a given run can be computed. -/
instance decidableAlong {ok : S → A → Prop} [∀ s a, Decidable (ok s a)] {step : S → A → S} :
    ∀ (s : S) (as : List A), Decidable (Along ok step s as)
  | _, [] => .isTrue trivial
  | s, a :: as => @instDecidableAnd _ _ _ (decidableAlong (step s a) as)

end Runs
