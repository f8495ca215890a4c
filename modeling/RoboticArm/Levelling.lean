import RoboticArm.Loop
import Mathlib.Algebra.BigOperators.Group.Finset.Basic
import Mathlib.Data.List.GetD
import Mathlib.Data.List.Induction
import Mathlib.Tactic.LinearCombination
import Mathlib.Tactic.NormNum
import Mathlib.Tactic.Ring

/- The levelling controller: the calls of `PID_five_motor` in `new.c`.

   The code adds `P (e_k - e_{k-1}) + I e_k + D (e_k - 2 e_{k-1} + e_{k-2})` to its output
   at call `k`, so the outputs should be `P e_n + I (e_1 + ... + e_n) + D (e_n - e_{n-1})`.
   But `last_error` is shifted before `last_last_error` reads it: both hold `e_{k-1}`.

   1. `levelled_spec`: the history variables and the output of the code, in closed form.
   2. `closedForm_eq`: the written increments add up to the closed form.
   3. `incremental_iff`: the code returns it exactly where `D` or the error before is 0,
      and its history variables are right exactly where the last two errors agree.
   4. `levelOutput_gains`: with the gains of the firmware, whose `D` is 0, the output is right.

   Correspondence (C ↔ Lean):
     the statics after some calls              ↔ `levelled`
     the value the next call returns           ↔ `levelOutput` -/
namespace RoboticArm

variable {K : Type} [Field K]

def pidStep (g : Gains K) (l : Level K) (e : K) : Level K := (pidFiveMotor g e l).2

/-- The statics after calls with the errors `es`. -/
def levelled (g : Gains K) (es : List K) : Level K := Runs.exec (pidStep g) (boot : Rb K).level es

/-- What the call with error `e` returns after calls with the errors `pre`. -/
def levelOutput (g : Gains K) (pre : List K) (e : K) : K := (pidFiveMotor g e (levelled g pre)).1

/-- The last of some errors, and 0 where there is none. -/
def lastOf (es : List K) : K := es.getLastD 0

/-- The closed form of an incremental controller. -/
def closedForm (g : Gains K) (pre : List K) (e : K) : K :=
  g.p * e + g.i * (pre ++ [e]).sum + g.d * (e - lastOf pre)

/-- The increment of the controller for the error `e` after `pre`. -/
def increment (g : Gains K) (pre : List K) (e : K) : K :=
  g.p * (e - lastOf pre) + g.i * e + g.d * (e - 2 * lastOf pre + lastOf pre.dropLast)

/-- The increments the code writes out for the errors `es`, added up. -/
def incrementSum (g : Gains K) (es : List K) : K :=
  ∑ k ∈ Finset.range es.length, increment g (es.take k) (es.getD k 0)

/-- The values a run of the controller returns are those of the closed form, and its history
variables hold the last two errors at every call. -/
structure Incremental (g : Gains K) (es : List K) : Prop where
  value : ∀ pre e post, es = pre ++ e :: post → levelOutput g pre e = closedForm g pre e
  history : ∀ pre e post, es = pre ++ e :: post →
    (levelled g pre).lastError = lastOf pre ∧ (levelled g pre).lastLastError = lastOf pre.dropLast

/-! ## Closed forms -/

theorem lastOf_append (es : List K) (e : K) : lastOf (es ++ [e]) = e := by
  rw [lastOf, List.getLastD_concat]

theorem incrementSum_append (g : Gains K) (pre : List K) (e : K) :
    incrementSum g (pre ++ [e]) = incrementSum g pre + increment g pre e := by
  rw [incrementSum, List.length_append, List.length_singleton, Finset.sum_range_succ]
  congr 1
  · apply Finset.sum_congr rfl
    intro k hk
    have hlt : k < pre.length := Finset.mem_range.1 hk
    rw [List.take_append_of_le_length (Nat.le_of_lt hlt), List.getD_append _ _ _ _ hlt]
  · rw [List.take_left' rfl, List.getD_append_right _ _ _ _ (Nat.le_refl _), Nat.sub_self]
    rfl

theorem closedForm_eq (g : Gains K) (pre : List K) (e : K) :
    closedForm g pre e = incrementSum g (pre ++ [e]) := by
  induction pre using List.reverseRecOn generalizing e with
  | nil =>
    have hfirst : incrementSum g [e] = increment g [] e := Finset.sum_range_one _
    rw [List.nil_append, hfirst]
    simp only [closedForm, increment, lastOf, List.nil_append, List.sum_singleton, List.getLastD_nil,
      List.dropLast_nil]
    ring
  | append_singleton pre e' ih =>
    rw [incrementSum_append, ← ih e']
    simp only [closedForm, increment, lastOf_append, List.dropLast_concat, List.sum_append,
      List.sum_singleton]
    ring

theorem levelled_append (g : Gains K) (pre : List K) (e : K) :
    levelled g (pre ++ [e]) = pidStep g (levelled g pre) e := by
  rw [levelled, Runs.exec_append]
  rfl

/-- What the statics hold: the last error in both history variables, and an output whose
`D` part is that of the last error alone. -/
theorem levelled_spec (g : Gains K) (es : List K) :
    (levelled g es).lastError = lastOf es ∧ (levelled g es).lastLastError = lastOf es ∧
      (levelled g es).runAngle = g.p * lastOf es + g.i * es.sum + g.d * lastOf es := by
  induction es using List.reverseRecOn with
  | nil =>
    refine ⟨rfl, rfl, ?_⟩
    simp [levelled, lastOf, boot]
  | append_singleton pre e ih =>
    obtain ⟨hlast, hlastLast, hangle⟩ := ih
    rw [levelled_append, lastOf_append]
    refine ⟨rfl, rfl, ?_⟩
    simp only [pidStep, pidFiveMotor, hlast, hlastLast, hangle, List.sum_append, List.sum_singleton]
    ring

theorem levelOutput_eq (g : Gains K) (pre : List K) (e : K) :
    levelOutput g pre e = g.p * e + g.i * (pre ++ [e]).sum + g.d * e := by
  have hangle : levelOutput g pre e = (levelled g (pre ++ [e])).runAngle := by
    rw [levelled_append]
    rfl
  rw [hangle, (levelled_spec g (pre ++ [e])).2.2, lastOf_append]

/-! ## Where the controller is incremental -/

theorem levelOutput_eq_closedForm (g : Gains K) (pre : List K) (e : K) :
    levelOutput g pre e = closedForm g pre e ↔ g.d = 0 ∨ lastOf pre = 0 := by
  rw [levelOutput_eq, closedForm, ← mul_eq_zero]
  constructor
  · intro h
    linear_combination h
  · intro h
    linear_combination h

theorem history_iff (g : Gains K) (pre : List K) :
    (levelled g pre).lastError = lastOf pre ∧ (levelled g pre).lastLastError = lastOf pre.dropLast ↔
      lastOf pre = lastOf pre.dropLast := by
  obtain ⟨hlast, hlastLast, -⟩ := levelled_spec g pre
  rw [hlast, hlastLast]
  exact ⟨fun h => h.2, fun h => ⟨rfl, h⟩⟩

theorem levelOutput_gains (pre : List K) (e : K) :
    levelOutput gains pre e = closedForm gains pre e :=
  (levelOutput_eq_closedForm gains pre e).2 (Or.inl rfl)

/-- The errors before the last call of a run that agree with the ones before them are 0. -/
theorem zero_of_agree {es : List K} (h : ∀ pre e post, es = pre ++ e :: post →
    lastOf pre = lastOf pre.dropLast) : ∀ pre e post, es = pre ++ e :: post → lastOf pre = 0 := by
  intro pre
  induction pre using List.reverseRecOn with
  | nil => exact fun _ _ _ => rfl
  | append_singleton pre e' ih =>
    intro e post hsplit
    have hagree := h (pre ++ [e']) e post hsplit
    rw [List.dropLast_concat] at hagree
    rw [hagree]
    exact ih e' (e :: post) (by rw [hsplit, List.append_assoc, List.singleton_append])

theorem incremental_iff_zero (g : Gains K) (es : List K) :
    Incremental g es ↔ ∀ pre e post, es = pre ++ e :: post → lastOf pre = 0 := by
  constructor
  · intro h
    apply zero_of_agree
    intro pre e post hsplit
    exact (history_iff g pre).1 (h.history pre e post hsplit)
  · intro h
    refine ⟨?_, ?_⟩
    · intro pre e post hsplit
      exact (levelOutput_eq_closedForm g pre e).2 (Or.inr (h pre e post hsplit))
    · intro pre e post hsplit
      refine (history_iff g pre).2 ?_
      rw [h pre e post hsplit]
      rcases List.eq_nil_or_concat' pre with rfl | ⟨front, e', rfl⟩
      · rfl
      · rw [List.dropLast_concat]
        refine (h front e' (e :: post) ?_).symm
        rw [hsplit, List.append_assoc, List.singleton_append]

/-- The closed form is the sum of the increments that the code writes out. A call returns it exactly
when `D` or the error before is 0; a run of the controller returns it throughout, with the right
history variables, exactly when every error before a call is 0. With the gains of the firmware every
call returns it. -/
theorem incremental_iff (g : Gains K) (es : List K) :
    (∀ pre e, closedForm g pre e = incrementSum g (pre ++ [e])) ∧
    (∀ pre e post, es = pre ++ e :: post →
      (levelOutput g pre e = closedForm g pre e ↔ g.d = 0 ∨ lastOf pre = 0) ∧
      ((levelled g pre).lastError = lastOf pre ∧
          (levelled g pre).lastLastError = lastOf pre.dropLast ↔
        lastOf pre = lastOf pre.dropLast)) ∧
    (Incremental g es ↔ ∀ pre e post, es = pre ++ e :: post → lastOf pre = 0) ∧
    ∀ pre e, levelOutput (gains : Gains K) pre e = closedForm gains pre e := by
  refine ⟨closedForm_eq g, ?_, incremental_iff_zero g es, levelOutput_gains⟩
  intro pre e _ _
  exact ⟨levelOutput_eq_closedForm g pre e, history_iff g pre⟩

/-- Two errors of 1 under `D = 1` alone: the second call returns 1, and should return 0. -/
theorem not_incremental_twice : ¬ Incremental (⟨0, 0, 1⟩ : Gains ℚ) [1, 1] := by
  intro h
  have hvalue := h.value [1] 1 [] rfl
  rw [levelOutput_eq] at hvalue
  norm_num [closedForm, lastOf] at hvalue

end RoboticArm
