import RoboticArm.Effect
import RoboticArm.Replay

/- Which point is being run.

   A running arm reads and writes `points[current_point]` at every tick and in
   every iteration. Here it is settled when that point is one of those marked
   since the last clear-all key.

   1. Marked points are logged as such (`Marked.move`): this needs no condition.
   2. A running arm is at a marked point (`Current.move`), as long as no start
      key resumes a cycle whose current point was lost: the clear-all key resets
      the count of points and leaves `current_point` as it is, so that in the
      middle of a cycle the pause branch of a later start key may resume past the
      last mark (`ResumesLost`).
   3. `clearMidCycle` is a run that does so. -/
namespace RoboticArm

/-- The events since the last clear-all key. -/
def sinceClear (log : List Ev) : List Ev := log.takeWhile (· ≠ .clearAll)

/-- If the arm runs, the point it is at has been marked since the last clear. -/
def Cycle.Indexed (c : Cycle) : Prop :=
  c.ctl.startFlag = true →
    c.ctl.currentPoint < c.ctl.pointCount ∧ .mark c.ctl.currentPoint ∈ sinceClear c.log

/-- The start key resumes an unfinished cycle at a point that is not marked. -/
def ResumesLost (c : Cycle) (m : Move) : Prop :=
  m = .key .start ∧ c.ctl.startFlag = false ∧ c.ctl.cycleComplete = false ∧
    0 < c.ctl.pointCount ∧ c.ctl.pointCount ≤ c.ctl.currentPoint

instance (c : Cycle) (m : Move) : Decidable (ResumesLost c m) :=
  inferInstanceAs (Decidable (_ ∧ _))

namespace Cycle

/-! ## Marks -/

/-- Every marked point has a mark on record since the last clear. -/
def Marked (c : Cycle) : Prop := ∀ i < c.ctl.pointCount, .mark i ∈ sinceClear c.log

variable {c : Cycle}

theorem sinceClear_append {es log : List Ev} (h : .clearAll ∉ es) :
    sinceClear (es ++ log) = es ++ sinceClear log := by
  simp only [sinceClear]
  rw [List.takeWhile_append_of_pos]
  intro e he
  have hne : e ≠ .clearAll := fun heq => h (heq ▸ he)
  simpa using hne

theorem Marked.move (r v : Bool) (m : Move) (h : c.Marked) : (c.move r v m).Marked := by
  intro i hi
  have hcount : i < (c.nextCourse r m).count := by
    rw [← course_move r v]
    exact hi
  rw [log_move]
  by_cases hclear : m = .key .clear
  · subst hclear
    exact absurd hcount (Nat.not_lt_zero i)
  · have hno : .clearAll ∉ c.events r m := fun he => hclear (source_of_mem_events he).symm
    rw [sinceClear_append hno]
    by_cases hold : i < c.ctl.pointCount
    · exact List.mem_append_right _ (h i hold)
    · apply List.mem_append_left
      obtain ⟨rfl, hmark⟩ := mark_of_count_lt hcount hold
      rw [hmark]
      exact List.mem_singleton.2 rfl

/-! ## The current point -/

/-- A running arm is at a marked point. -/
def Current (c : Cycle) : Prop :=
  c.ctl.startFlag = true → c.ctl.currentPoint < c.ctl.pointCount

theorem current_startKey (hinv : c.Inv) (hok : ¬ ResumesLost c (.key .start))
    (hstart : c.startCourse.start = true) : c.startCourse.current < c.startCourse.count := by
  simp only [startCourse] at hstart ⊢
  split_ifs at hstart ⊢ with hr hf hm
  · simp only [restarts, Bool.and_eq_true, decide_eq_true_eq] at hr
    exact hr.1.1
  · simp only [firstStarts, Bool.and_eq_true, decide_eq_true_eq] at hf
    calc c.ctl.currentPoint = 0 := hf.2.1
      _ < c.ctl.pointCount := hf.1.1.1
  · -- what is left is a resume
    have hstopped : c.ctl.startFlag = false := by simpa using hstart
    have hunfinished : c.ctl.cycleComplete = false := by
      apply hinv.complete_of_not_restart hm
      intro hc
      apply hr
      simpa [restarts, hm, hstopped] using hc
    exact Nat.lt_of_not_le fun hle => hok ⟨rfl, hstopped, hunfinished, hm, hle⟩
  · exact absurd (hinv.running hstart).2 hm

theorem Current.move (r v : Bool) (m : Move) (h : c.Current) (hinv : c.Inv) (hok : ¬ ResumesLost c m) :
    (c.move r v m).Current := by
  show (c.move r v m).ctl.course.start = true →
    (c.move r v m).ctl.course.current < (c.move r v m).ctl.course.count
  rw [course_move]
  intro hstart
  cases courseMove_next r c m with
  | mark _ _ hnext =>
    rw [hnext] at hstart ⊢
    exact Nat.lt_succ_of_lt (h hstart)
  | restart hm _ _ | firstStart hm _ _ | toggle hm _ _ _ _ =>
    subst hm
    exact current_startKey hinv hok hstart
  | arrive _ hdue hnext =>
    rw [hnext]
    exact hinv.marked_of_return hdue
  | clear _ hnext | finish _ _ hnext | switch _ _ hnext =>
    rw [hnext] at hstart
    exact absurd hstart Bool.false_ne_true
  | same hnext =>
    rw [hnext] at hstart ⊢
    exact h hstart

end Cycle

/-! ## Runs -/

section
variable {K : Type} [Field K] [LinearOrder K]

theorem marked_run (env : Env K) (as : List (Step K)) : (run env as).cycle.Marked :=
  run_inv (fun r v _ m _ h _ => h.move r v m) (fun i hi => absurd hi (Nat.not_lt_zero i))

/-- In every run that never resumes a cycle at a lost point, the arm only ever runs at a
point marked since the last clear. -/
theorem indexed_of_never_resumesLost (env : Env K) (as : List (Step K))
    (h : Throughout (fun s a => ¬ ResumesLost s.cycle a.move) env as) :
    ∀ pre, pre <+: as → (run env pre).cycle.Indexed := by
  intro pre hpre hstart
  have hcurrent : (run env pre).cycle.Current :=
    run_inv_along (¬ ResumesLost · ·) (fun hs => absurd hs (by simp [Cycle.boot, Ctl.boot]))
      (fun r v c m hinv hc hok _ => hc.move r v m hinv hok) (throughout_initial h hpre)
  exact ⟨hcurrent hstart, marked_run env pre _ (hcurrent hstart)⟩

end

theorem indexed_startOne :
    (run firmware startOne).ctl.startFlag = true ∧
      ∀ pre, pre <+: startOne → (run firmware pre).cycle.Indexed := by
  refine ⟨?_, indexed_of_never_resumesLost firmware startOne ?_⟩
  · show (run firmware startOne).cycle.ctl.startFlag = true
    rw [cycle_run]
    decide +kernel
  · rw [throughout_iff firmware (¬ ResumesLost · ·)]
    decide +kernel

/-- During the second of two points all is cleared, one point is marked again, and the
start key pressed. -/
noncomputable def clearMidCycle : List (Step ℝ) :=
  goOn ++ [press 0xe1, press 0xfb, press 0xfc]

set_option maxRecDepth 100000 in
/-- The arm is then set running at the second of one points. -/
theorem not_indexed_clearMidCycle : ¬ (run firmware clearMidCycle).cycle.Indexed := by
  have hstate : (run firmware clearMidCycle).cycle.ctl.startFlag = true ∧
      (run firmware clearMidCycle).cycle.ctl.currentPoint = 1 ∧
      (run firmware clearMidCycle).cycle.ctl.pointCount = 1 := by
    rw [cycle_run]
    decide +kernel
  obtain ⟨hstart, hcurrent, hcount⟩ := hstate
  intro h
  have hlt := (h hstart).1
  rw [hcurrent, hcount] at hlt
  exact Nat.lt_irrefl 1 hlt

end RoboticArm
