import RoboticArm.Runs
import Mathlib.Algebra.BigOperators.Group.Finset.Basic
import Mathlib.Algebra.GroupWithZero.Nat

/- A round of stops, kept by a clock that is looked at only now and then.

   A `Plan` has a number of stops in order, a travelling time in front of each and a
   time to stay at each. Time passes in ticks; whether an arrival or a departure is due
   is looked at after some ticks, so what falls due between two looks is late by the
   ticks up to the next one.

   1. `Plan.pass`: some ticks, then a look.
   2. `OnTime`: how many ticks may have passed at a place. A gap of at most `slack + 1`
      ticks makes each travel and each stay at most `slack` ticks longer than planned,
      and none shorter (`onTime_pass`).
   3. `onTime_exec`: so the timetable holds after any number of looks, and `reached` reads
      it as bounds on the stop that has been reached. -/
namespace Itinerary

structure Plan where
  stops : Nat
  travel : Nat
  stay : Nat → Nat

/-- On the way to stop `i` for `r` ticks, at stop `i` for `t` ticks, or past the last stop. -/
inductive Place where
  | travelling (i r : Nat)
  | staying (i t : Nat)
  | done
  deriving DecidableEq, Repr

/-- The stop that is being travelled to or stayed at, or the number of stops. -/
def Plan.stop (p : Plan) : Place → Nat
  | .travelling i _ => i
  | .staying i _ => i
  | .done => p.stops

/-- Ticks pass unseen. -/
def Place.wait (m : Nat) : Place → Place
  | .travelling i r => .travelling i (r + m)
  | .staying i t => .staying i (t + m)
  | .done => .done

theorem Place.wait_zero (x : Place) : x.wait 0 = x := by
  cases x <;> rfl

theorem Place.wait_succ (m : Nat) (x : Place) : x.wait (m + 1) = (x.wait m).wait 1 := by
  cases x <;> rfl

namespace Plan

variable (p : Plan)

def arrive : Place → Place
  | .travelling i r => if p.travel ≤ r then .staying i 0 else .travelling i r
  | x => x

def leave : Place → Place
  | .staying i t =>
    if p.stay i ≤ t then if i + 1 < p.stops then .travelling (i + 1) 0 else .done
    else .staying i t
  | x => x

/-- Some ticks, and then a look at the clock. -/
def pass (x : Place) (m : Nat) : Place := p.leave (p.arrive (x.wait m))

/-- The ticks planned up to the departure for stop `i`. -/
def early (i : Nat) : Nat := ∑ j ∈ Finset.range i, (p.travel + p.stay j)

/-- The ticks it takes when every look comes `slack` ticks late. -/
def late (slack i : Nat) : Nat := ∑ j ∈ Finset.range i, (p.travel + slack + (p.stay j + slack))

theorem early_succ (i : Nat) : p.early (i + 1) = p.early i + (p.travel + p.stay i) :=
  Finset.sum_range_succ (fun j => p.travel + p.stay j) i

theorem late_succ (slack i : Nat) :
    p.late slack (i + 1) = p.late slack i + (p.travel + slack + (p.stay i + slack)) :=
  Finset.sum_range_succ (fun j => p.travel + slack + (p.stay j + slack)) i

variable {p} {d i : Nat}

theorem early_eq (h : ∀ j < p.stops, p.stay j = d) (hi : i ≤ p.stops) :
    p.early i = i * (p.travel + d) := by
  have hsame : ∀ j ∈ Finset.range i, p.travel + p.stay j = p.travel + d := fun j hj => by
    rw [h j ((Finset.mem_range.1 hj).trans_le hi)]
  rw [early, Finset.sum_congr rfl hsame, Finset.sum_const, Finset.card_range, Nat.nsmul_eq_mul]

theorem late_eq {slack : Nat} (h : ∀ j < p.stops, p.stay j = d) (hi : i ≤ p.stops) :
    p.late slack i = i * (p.travel + d + 2 * slack) := by
  have hsame : ∀ j ∈ Finset.range i,
      p.travel + slack + (p.stay j + slack) = p.travel + d + 2 * slack := fun j hj => by
    rw [h j ((Finset.mem_range.1 hj).trans_le hi)]
    omega
  rw [late, Finset.sum_congr rfl hsame, Finset.sum_const, Finset.card_range, Nat.nsmul_eq_mul]

end Plan

/-- After `τ` ticks of the plan, the last of them just looked at, the place may be `x`. -/
def OnTime (p : Plan) (slack τ : Nat) : Place → Prop
  | .travelling i r =>
    i < p.stops ∧ r < p.travel ∧ p.early i + r ≤ τ ∧ τ ≤ p.late slack i + r
  | .staying i t =>
    i < p.stops ∧ t < p.stay i ∧ p.early i + p.travel + t ≤ τ ∧
      τ ≤ p.late slack i + (p.travel + slack) + t
  | .done => p.early p.stops ≤ τ

variable {p : Plan} {slack τ : Nat} {x : Place}

/-- A gap on the way: it goes on, or ends in an arrival that is at most `slack` ticks late. -/
theorem onTime_travelling {i r m : Nat} (hstay : 0 < p.stay i)
    (h : OnTime p slack τ (.travelling i r)) (hm : m ≤ slack + 1) :
    OnTime p slack (τ + m) (p.pass (.travelling i r) m) := by
  obtain ⟨hi, hr, hearly, hlate⟩ := h
  -- it was not due at the last look, so it is late by what this gap has over one tick
  by_cases hdue : p.travel ≤ r + m
  · have hpass : p.pass (.travelling i r) m = .staying i 0 := by
      simp only [Plan.pass, Place.wait, Plan.arrive, if_pos hdue, Plan.leave]
      exact if_neg (by omega)
    rw [hpass]
    exact ⟨hi, hstay, by omega, by omega⟩
  · have hpass : p.pass (.travelling i r) m = .travelling i (r + m) := by
      simp only [Plan.pass, Place.wait, Plan.arrive, if_neg hdue, Plan.leave]
    rw [hpass]
    exact ⟨hi, by omega, by omega, by omega⟩

theorem onTime_staying {i t m : Nat} (htravel : 0 < p.travel)
    (h : OnTime p slack τ (.staying i t)) (hm : m ≤ slack + 1) :
    OnTime p slack (τ + m) (p.pass (.staying i t) m) := by
  obtain ⟨hi, ht, hearly, hlate⟩ := h
  have hpass : p.pass (.staying i t) m =
      if p.stay i ≤ t + m then if i + 1 < p.stops then .travelling (i + 1) 0 else .done
      else .staying i (t + m) := rfl
  have hnext := p.early_succ i
  rw [hpass]
  split
  · next hdue =>
    split
    · next hmore =>
      have hlast := p.late_succ slack i
      exact ⟨hmore, htravel, by omega, by omega⟩
    · next hend =>
      have hstops : p.stops = i + 1 := by omega
      show p.early p.stops ≤ τ + m
      rw [hstops]
      omega
  · next hdue => exact ⟨hi, by omega, by omega, by omega⟩

theorem onTime_pass {m : Nat} (htravel : 0 < p.travel) (hstay : ∀ i < p.stops, 0 < p.stay i)
    (h : OnTime p slack τ x) (hm : m ≤ slack + 1) : OnTime p slack (τ + m) (p.pass x m) := by
  cases x with
  | travelling i r => exact onTime_travelling (hstay i h.1) h hm
  | staying i t => exact onTime_staying htravel h hm
  | done => exact Nat.le_add_right_of_le h

theorem onTime_exec (htravel : 0 < p.travel) (hstay : ∀ i < p.stops, 0 < p.stay i) :
    ∀ {τ : Nat} {x : Place} {ms : List Nat}, OnTime p slack τ x → (∀ m ∈ ms, m ≤ slack + 1) →
      OnTime p slack (τ + ms.sum) (Runs.exec p.pass x ms)
  | _, _, [], h, _ => h
  | τ, x, m :: ms, h, hgap => by
    have hnext := onTime_pass htravel hstay h (hgap m List.mem_cons_self)
    have hrest := onTime_exec htravel hstay hnext fun k hk => hgap k (List.mem_cons_of_mem m hk)
    rw [List.sum_cons, ← Nat.add_assoc]
    exact hrest

/-- The stop that is reached after `τ` ticks: none ahead of the plan, none further behind it
than the slack of the travels and stays up to there. -/
theorem reached (h : OnTime p slack τ x) :
    p.stop x ≤ p.stops ∧ p.early (p.stop x) ≤ τ ∧
      (p.stop x < p.stops → τ < p.late slack (p.stop x + 1)) := by
  cases x with
  | travelling i r =>
    obtain ⟨hi, hr, hearly, hlate⟩ := h
    have hnext := p.late_succ slack i
    refine ⟨hi.le, ?_, fun _ => ?_⟩
    · show p.early i ≤ τ
      omega
    · show τ < p.late slack (i + 1)
      omega
  | staying i t =>
    obtain ⟨hi, ht, hearly, hlate⟩ := h
    have hnext := p.late_succ slack i
    refine ⟨hi.le, ?_, fun _ => ?_⟩
    · show p.early i ≤ τ
      omega
    · show τ < p.late slack (i + 1)
      omega
  | done => exact ⟨Nat.le_refl _, h, fun hlt => absurd hlt (Nat.lt_irrefl _)⟩

end Itinerary
