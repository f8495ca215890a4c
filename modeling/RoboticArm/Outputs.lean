import RoboticArm.Effect
import RoboticArm.Replay

/- The flame, the fan and the light.

   The outputs should be off while no cycle has been launched or resumed since
   power-on, since the last clear-all key or since the last completion, and flame
   and fan should never be on together (`Cycle.Safe`).

   The burn counter of the tick handler and its enable flag know nothing of
   launches: the clear-all key and a completion switch the outputs off and let the
   counter run on, so that up to 252 s later it switches light and fan on, and a
   launch after that switches the flame on next to the fan. `safe_of_supervised`:
   these two steps, a burn that ends with no cycle launched and a launch with the
   fan on, are the only ones that break it. `burnPastClear` takes both. -/
namespace RoboticArm

/-- A cycle has been launched or resumed since the last clear or completion, newest
event first. -/
def launched : List Ev → Bool
  | [] | .clearAll :: _ | .cycleComplete :: _ => false
  | .resume :: _ | .startReturnDelay 3 _ :: _ | .startReturnDelay 4 _ :: _ => true
  | _ :: older => launched older

/-- Everything is off unless a cycle is launched, and the flame and the fan are not on
together. -/
structure Cycle.Safe (c : Cycle) : Prop where
  off : launched c.log = false → c.gpio = .off
  apart : ¬ (c.gpio.flame = true ∧ c.gpio.fan = true)

/-- The burn does not end while no cycle is launched, and no start key launches a cycle
while the fan is on. -/
def Supervised (c : Cycle) : Move → Prop
  | .tick => c.burner.expires = true → launched c.log = true
  | .key .start => (c.restarts || c.firstStarts) = true → c.gpio.fan = false
  | _ => True

instance (c : Cycle) : ∀ m, Decidable (Supervised c m)
  | .tick | .key .start => inferInstanceAs (Decidable (_ → _))
  | .key .zUp | .key .zDown | .key .xDec | .key .xInc | .key .yInc | .key .yDec | .key (.swing _)
  | .key .zero | .key .rest | .key .mark | .key .timeAdd | .key .timeMinus | .key .clear
  | .key (.correct6 _) | .key (.correct1 _) | .key .other | .returnDelay | .runLogic | .sensors
  | .manual => .isTrue trivial

namespace Cycle

variable {c : Cycle}

/-! ## Launches on record -/

theorem launched_markEvents (r : Bool) (log : List Ev) :
    launched (c.markEvents r ++ log) = launched log := by
  simp only [markEvents]
  split_ifs
  · rfl
  · rfl
  · cases c.ctl.targetMode with
    | none => rfl
    | some m =>
      show launched (c.switchEvents m ++ log) = launched log
      simp only [switchEvents]
      split <;> rfl
  · rfl

/-- A start key that does not launch leaves the record as it is, or resumes. -/
theorem launched_startEvents (log : List Ev) :
    launched (c.startEvents ++ log) = true ∨
      (c.restarts || c.firstStarts) = false ∧ launched (c.startEvents ++ log) = launched log := by
  simp only [startEvents]
  by_cases hr : c.restarts = true
  · rw [if_pos hr]
    exact Or.inl rfl
  · by_cases hf : c.firstStarts = true
    · rw [if_neg hr, if_pos hf]
      exact Or.inl rfl
    · have hnone : (c.restarts || c.firstStarts) = false := by simp [hr, hf]
      rw [if_neg hr, if_neg hf]
      split_ifs
      · exact Or.inr ⟨hnone, rfl⟩
      · exact Or.inl rfl
      · exact Or.inr ⟨hnone, rfl⟩

theorem launched_runEvents (log : List Ev) :
    launched (c.runEvents ++ log) = (!c.finishes && launched log) := by
  simp only [runEvents]
  by_cases hf : c.finishes = true
  · rw [if_pos hf, hf]
    rfl
  · rw [if_neg hf, Bool.eq_false_of_not_eq_true hf]
    split <;> rfl

theorem launched_returnEvents (r : Bool) (log : List Ev) :
    launched (c.events r .returnDelay ++ log) = launched log := by
  show launched ((if c.ctl.returnDue then [.returnDone c.ctl.returnType] else []) ++ log) = _
  split <;> rfl

/-! ## Safety -/

theorem safe_of_gpio_off (h : c.gpio = .off) : c.Safe :=
  ⟨fun _ => h, fun hboth => absurd (h ▸ hboth.1) (by simp [Gpio.off])⟩

theorem Safe.of_same {d : Cycle} (h : c.Safe) (hgpio : d.gpio = c.gpio)
    (hlog : launched d.log = false → launched c.log = false) : d.Safe :=
  ⟨fun hl => hgpio.trans (h.off (hlog hl)), fun hboth => h.apart (hgpio ▸ hboth)⟩

theorem gpio_move (r v : Bool) (m : Move) : (c.move r v m).gpio = (c.nextBurner m).gpio := by
  rw [← burner_move r v]
  rfl

theorem Safe.startKey (r v : Bool) (h : c.Safe) (hok : Supervised c (.key .start)) :
    (c.move r v (.key .start)).Safe := by
  have hlog : (c.move r v (.key .start)).log = c.startEvents ++ c.log := log_move r v c (.key .start)
  have hgpio := gpio_move (c := c) r v (.key .start)
  simp only [nextBurner] at hgpio
  -- the key launches or resumes, or does neither
  rcases launched_startEvents c.log with hl | ⟨hnone, hl⟩
  · refine ⟨fun hno => absurd (hno.symm.trans (hlog ▸ hl)) (by simp), ?_⟩
    split at hgpio
    · next hlaunch =>
      have hfan : c.gpio.fan = false := hok hlaunch
      rw [hgpio]
      exact fun hboth => absurd (hfan.symm.trans hboth.2) (by simp)
    · rw [hgpio]
      exact h.apart
  · rw [hnone] at hgpio
    apply h.of_same hgpio
    intro hno
    rw [hlog, hl] at hno
    exact hno

theorem Safe.tick (r v : Bool) (h : c.Safe) (hok : Supervised c .tick) : (c.move r v .tick).Safe := by
  have hlog : launched (c.move r v .tick).log = launched c.log := by
    rw [log_move]
    rfl
  have hgpio := gpio_move (c := c) r v .tick
  simp only [nextBurner, Burner.tick] at hgpio
  split at hgpio
  · next hx =>
    constructor
    · intro hno
      rw [hlog, hok hx] at hno
      exact absurd hno (by simp)
    · rw [hgpio]
      simp
  · refine h.of_same ?_ fun hno => hlog ▸ hno
    split at hgpio <;> exact hgpio

theorem Safe.move (r v : Bool) (m : Move) (h : c.Safe) (hok : Supervised c m) :
    (c.move r v m).Safe := by
  have hgpio := gpio_move (c := c) r v m
  have hlog := log_move r v c m
  cases m with
  | key k =>
    cases k with
    | mark =>
      apply h.of_same hgpio
      intro hno
      rw [hlog] at hno
      exact (launched_markEvents r c.log) ▸ hno
    | start => exact h.startKey r v hok
    | clear => exact safe_of_gpio_off hgpio
    | _ => exact h.of_same hgpio fun hno => (congrArg launched hlog).symm.trans hno
  | returnDelay =>
    have hkeep : launched (c.move r v .returnDelay).log = launched c.log := by
      rw [hlog]
      exact launched_returnEvents r c.log
    simp only [nextBurner] at hgpio
    split at hgpio
    · exact safe_of_gpio_off hgpio
    · exact h.of_same hgpio fun hno => hkeep ▸ hno
  | runLogic =>
    simp only [nextBurner] at hgpio
    split at hgpio
    · exact safe_of_gpio_off hgpio
    · next hf =>
      have hkeep : launched (c.move r v .runLogic).log = launched c.log := by
        calc launched (c.move r v .runLogic).log = (!c.finishes && launched c.log) :=
              (congrArg launched hlog).trans (launched_runEvents c.log)
          _ = launched c.log := by rw [Bool.eq_false_of_not_eq_true hf, Bool.not_false, Bool.true_and]
      exact h.of_same hgpio fun hno => hkeep ▸ hno
  | tick => exact h.tick r v hok
  | sensors => exact h.of_same hgpio fun hno => (congrArg launched hlog).symm.trans hno
  | manual => exact h.of_same hgpio fun hno => (congrArg launched hlog).symm.trans hno

end Cycle

section
variable {K : Type} [Field K] [LinearOrder K]

/-- In every run in which no burn ends with no cycle launched and no cycle is launched
with the fan on, the outputs are safe in every state reached. -/
theorem safe_of_supervised (env : Env K) (as : List (Step K))
    (h : Throughout (fun s a => Supervised s.cycle a.move) env as) :
    ∀ pre, pre <+: as → (run env pre).cycle.Safe := by
  intro pre hpre
  exact run_inv_along Supervised (Cycle.safe_of_gpio_off rfl)
    (fun r v c m _ hsafe hok _ => hsafe.move r v m hok) (throughout_initial h hpre)

end

theorem safe_startOne : (run firmware startOne).gpio.flame = true ∧
    ∀ pre, pre <+: startOne → (run firmware pre).cycle.Safe := by
  refine ⟨?_, safe_of_supervised firmware startOne ?_⟩
  · show (run firmware startOne).cycle.gpio.flame = true
    rw [cycle_run]
    decide +kernel
  · rw [throughout_iff firmware Supervised]
    decide +kernel

/-- A cycle is launched and cleared at once, and 252 s pass. -/
noncomputable def burnPastClear : List (Step ℝ) := startOne ++ [press 0xe1] ++ ticks 2520

set_option maxRecDepth 200000 in
/-- The fan and the light then come on with no cycle launched, and marking a point and
starting it lights the flame next to the fan. -/
theorem not_safe_burnPastClear : ¬ (run firmware burnPastClear).cycle.Safe ∧
    ¬ (run firmware (burnPastClear ++ [press 0xfb, press 0xfc])).cycle.Safe := by
  have hruns : (launched (run firmware burnPastClear).cycle.log = false ∧
      (run firmware burnPastClear).cycle.gpio.fan = true) ∧
      (run firmware (burnPastClear ++ [press 0xfb, press 0xfc])).cycle.gpio.flame = true ∧
      (run firmware (burnPastClear ++ [press 0xfb, press 0xfc])).cycle.gpio.fan = true := by
    rw [cycle_run, cycle_run_append]
    decide +kernel
  obtain ⟨hidle, hboth⟩ := hruns
  refine ⟨?_, fun h => h.apart hboth⟩
  intro h
  have hfan := hidle.2
  rw [h.off hidle.1] at hfan
  exact absurd hfan (by simp [Gpio.off])

end RoboticArm
