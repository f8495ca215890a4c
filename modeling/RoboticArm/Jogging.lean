import RoboticArm.Effect
import RoboticArm.Replay

/- The manual-control block and the jog keys.

   The block drives the arm to the jog target when that differs from the one last handled
   and the arm is stopped. It should run only in an iteration in which a jog key was
   handled while no cycle was running (`ManualOnJog`).

   The X and Y keys move the target of a running arm too, and nothing marks it as handled;
   whatever stops the arm later then drives it there. `manualOnJog_of_answered`: this is the
   only way. As long as no jog key moves the target while the arm is set running, and the
   arm is never set running with a jog of the same iteration still open, the block answers
   nothing but a jog key. `pauseAfterJog` is a run with such a key. -/
namespace RoboticArm

/-- The keys that move the jog target. -/
def Key.jogs : Key → Bool
  | .zUp | .zDown | .xDec | .xInc | .yInc | .yDec => true
  | _ => false

/-- The move sets a stopped arm running: a start key that resumes, or the completion of a
return that does. -/
def Cycle.setsRunning (c : Cycle) : Move → Bool
  | .key .start => !c.restarts && !c.firstStarts && decide (0 < c.ctl.pointCount) && !c.ctl.startFlag
  | .returnDelay => c.ctl.returnDue && Cycle.startsArm c.ctl.returnType
  | _ => false

theorem Cycle.start_nextCourse {r : Bool} {c : Cycle} {m : Move} (h : (c.nextCourse r m).start = true) :
    c.ctl.startFlag = true ∨ c.setsRunning m = true := by
  cases courseMove_next r c m with
  | same hnext | mark _ _ hnext | restart _ _ hnext | firstStart _ _ hnext =>
    rw [hnext] at h
    exact Or.inl h
  | toggle hm hre hfi hcount hnext =>
    subst hm
    rw [hnext] at h
    right
    have hstop : c.ctl.startFlag = false := by simpa using h
    simp [setsRunning, hre, hfi, hcount, hstop]
  | arrive hm hdue _ =>
    subst hm
    exact Or.inr hdue
  | clear _ hnext | finish _ _ hnext | switch _ _ hnext =>
    rw [hnext] at h
    exact absurd h Bool.false_ne_true

section
variable {R : Type} [Ring R] [LinearOrder R]

namespace Jog

variable {j : Jog R}

theorem next_of_not_jog (c : Ctl) {m : Move} (hkey : ∀ k, m = .key k → k.jogs = false)
    (hm : m ≠ .manual) : j.next c m = j := by
  cases m with
  | key k =>
    have hk := hkey k rfl
    cases k <;> first | rfl | exact absurd hk (by decide)
  | manual => exact absurd rfl hm
  | _ => rfl

/-- For an arm that is set running, no move marks the target as handled. -/
theorem prev_next {c : Ctl} (h : c.startFlag = true) (m : Move) : (j.next c m).prev = j.prev := by
  cases m with
  | key k =>
    cases k with
    | zUp =>
      simp only [next]
      split <;> rfl
    | zDown =>
      simp only [next]
      split <;> rfl
    | _ => rfl
  | manual =>
    simp only [next, h, Bool.not_true, Bool.and_false]
    rfl
  | _ => rfl

omit [Ring R] in
theorem moved_handled (j : Jog R) : ({ j with prev := j.cur } : Jog R).moved = false := by
  simp [moved]

end Jog

/-- The move leaves no jog open: a key handled while the arm is set running leaves the jog
target where it is, and the arm is set running only with the target handled. -/
def Session.Answered (s : Session R) (m : Move) : Prop :=
  (s.cycle.ctl.startFlag = true → (s.jog.next s.cycle.ctl m).cur = s.jog.cur) ∧
    (s.cycle.setsRunning m = true → s.jog.moved = false)

/-- An arm that is set running has no jog open. -/
def Session.Handled (s : Session R) : Prop := s.cycle.ctl.startFlag = true → s.jog.moved = false

variable {s : Session R} {m : Move}

theorem Session.moved_of_running (hok : s.Answered m) (h : s.cycle.ctl.startFlag = true) :
    (s.jog.next s.cycle.ctl m).moved = s.jog.moved := by
  simp only [Jog.moved]
  rw [hok.1 h, Jog.prev_next h]

theorem Session.Handled.move (h : s.Handled) (hok : s.Answered m) : (s.move m).Handled := by
  intro hrun
  have hstart : (s.cycle.nextCourse (checkCoordinateRange s.jog.cur) m).start = true := by
    rw [← Cycle.course_move _ s.jog.moved]
    exact hrun
  show (s.jog.next s.cycle.ctl m).moved = false
  rcases Cycle.start_nextCourse hstart with hs | hs
  · rw [Session.moved_of_running hok hs]
    exact h hs
  · -- neither a start key nor a completed return touches the jog target
    have hsame : s.jog.next s.cycle.ctl m = s.jog := by
      cases m with
      | key k => cases k <;> first | rfl | exact absurd hs Bool.false_ne_true
      | returnDelay => rfl
      | _ => exact absurd hs Bool.false_ne_true
    rw [hsame]
    exact hok.2 hs

/-- A jog is opened by a jog key, and only for a stopped arm. -/
theorem Session.jogs_of_moved (hok : s.Answered m) (hclosed : s.jog.moved = false)
    (hm : m ≠ .manual) (hopen : (s.jog.next s.cycle.ctl m).moved = true) :
    ∃ k, m = .key k ∧ k.jogs = true ∧ s.cycle.ctl.startFlag = false := by
  have hstop : s.cycle.ctl.startFlag = false := by
    by_contra hrun
    rw [Session.moved_of_running hok (Bool.eq_true_of_not_eq_false hrun)] at hopen
    exact absurd (hclosed.symm.trans hopen) Bool.false_ne_true
  by_contra hno
  have hkey : ∀ k, m = .key k → k.jogs = false := by
    intro k hk
    by_contra hj
    exact hno ⟨k, hk, Bool.eq_true_of_not_eq_false hj, hstop⟩
  rw [Jog.next_of_not_jog _ hkey hm] at hopen
  exact absurd (hclosed.symm.trans hopen) Bool.false_ne_true

end

/-! ## Iterations -/

section
variable {K : Type} [Field K] [LinearOrder K]

/-- The state in which an iteration reaches the manual block. -/
def beforeManual (env : Env K) (s : Rb K) (i : Input K) : Rb K :=
  Runs.exec (stage env) s
    [.lcd i.lcd i.tofLcd, .ir i.ir i.tofIr, .returnDelay, .runLogic i.tofRun,
     .sensors i.tofSense i.pitch]

/-- The manual block is executed in the iteration. -/
def ManualRuns (env : Env K) (s : Rb K) (i : Input K) : Prop :=
  ((beforeManual env s i).jog.moved && !(beforeManual env s i).ctl.startFlag) = true

/-- A jog key of the iteration is handled while no cycle is running. -/
def JogHandled (env : Env K) (s : Rb K) (i : Input K) : Prop :=
  ((lcdKey i.lcd).jogs = true ∧ s.ctl.running = false) ∨
    ((irKey i.ir).jogs = true ∧ (lcdSwitch env i.lcd i.tofLcd s).ctl.running = false)

/-- The manual block is executed only in iterations in which a jog key is handled while no
cycle is running. -/
def ManualOnJog (env : Env K) (as : List (Step K)) : Prop :=
  ∀ pre i post, as = pre ++ .iteration i :: post → ManualRuns env (run env pre) i →
    JogHandled env (run env pre) i

def Answered (s : Rb K) (a : Stage K) : Prop := s.session.Answered a.move

variable {env : Env K}

theorem handled_stage {s : Rb K} {a : Stage K} (h : s.session.Handled) (hok : Answered s a) :
    (stage env s a).session.Handled := by
  rw [session_stage]
  exact h.move hok

theorem jog_stage_moved {s : Rb K} {a : Stage K} (hok : Answered s a) (hclosed : s.jog.moved = false)
    (ha : a.move ≠ .manual) (hopen : (stage env s a).jog.moved = true) :
    ∃ k, a.move = .key k ∧ k.jogs = true ∧ s.ctl.startFlag = false := by
  rw [jog_stage] at hopen
  exact Session.jogs_of_moved (s := s.session) hok hclosed ha hopen

theorem jog_stage_of_not_jog (env : Env K) {s : Rb K} {a : Stage K} (hkey : ∀ k, a.move ≠ .key k)
    (ha : a.move ≠ .manual) : (stage env s a).jog = s.jog := by
  rw [jog_stage]
  exact Jog.next_of_not_jog _ (fun k hk => absurd hk (hkey k)) ha

theorem running_of_startFlag {c : Ctl} (h : c.startFlag = false) : c.running = false := by
  simp [Ctl.running, h]

/-- No jog is open, and none is open for an arm that is set running. -/
structure Closed (s : Rb K) : Prop where
  jog : s.jog.moved = false
  handled : s.session.Handled

/-- An iteration that starts with no jog open executes the manual block for a jog of its own
only. -/
theorem jogHandled_of_manualRuns {s : Rb K} {i : Input K} (h : s.jog.moved = false)
    (hok : Runs.Along Answered (stage env) s (Step.iteration i).stages)
    (hruns : ManualRuns env s i) : JogHandled env s i := by
  let s₁ := stage env s (.lcd i.lcd i.tofLcd)
  let s₂ := stage env s₁ (.ir i.ir i.tofIr)
  obtain ⟨hok₁, hok₂, _⟩ := hok
  have hsame : (beforeManual env s i).jog = s₂.jog := by
    calc (beforeManual env s i).jog
        = (stage env (stage env s₂ .returnDelay) (.runLogic i.tofRun)).jog :=
          jog_stage_of_not_jog env (a := .sensors i.tofSense i.pitch) (fun _ h => Move.noConfusion h)
            fun h => Move.noConfusion h
      _ = (stage env s₂ .returnDelay).jog :=
          jog_stage_of_not_jog env (a := .runLogic i.tofRun) (fun _ h => Move.noConfusion h)
            fun h => Move.noConfusion h
      _ = s₂.jog :=
          jog_stage_of_not_jog env (a := .returnDelay) (fun _ h => Move.noConfusion h)
            fun h => Move.noConfusion h
  have hopen : s₂.jog.moved = true := by
    simp only [ManualRuns, Bool.and_eq_true] at hruns
    rw [← hsame]
    exact hruns.1
  cases h₁ : s₁.jog.moved with
  | true =>
    obtain ⟨k, hk, hjogs, hstop⟩ := jog_stage_moved hok₁ h (fun h => Move.noConfusion h) h₁
    have hkey : lcdKey i.lcd = k := Move.key.inj hk
    exact Or.inl ⟨hkey ▸ hjogs, running_of_startFlag hstop⟩
  | false =>
    obtain ⟨k, hk, hjogs, hstop⟩ := jog_stage_moved hok₂ h₁ (fun h => Move.noConfusion h) hopen
    have hkey : irKey i.ir = k := Move.key.inj hk
    exact Or.inr ⟨hkey ▸ hjogs, running_of_startFlag hstop⟩

/-- An iteration ends with no jog open: its manual block has handled it, or the arm is set
running and had none. -/
theorem Closed.step {s : Rb K} {b : Step K} (h : Closed s)
    (hok : Runs.Along Answered (stage env) s b.stages) : Closed (step env s b) := by
  have hhandled : (RoboticArm.step env s b).session.Handled :=
    Runs.exec_inv_along (P := fun s : Rb K => s.session.Handled)
      (fun _ _ hs ha => handled_stage hs ha) h.handled hok
  refine ⟨?_, hhandled⟩
  cases b with
  | tick =>
    show (stage env s .tick).jog.moved = false
    rw [jog_stage_of_not_jog env (fun _ h => Move.noConfusion h) fun h => Move.noConfusion h]
    exact h.jog
  | iteration i =>
    let t := beforeManual env s i
    have ht : t.session.Handled := by
      have hfirst : Runs.Along Answered (stage env) s
          ([.lcd i.lcd i.tofLcd, .ir i.ir i.tofIr, .returnDelay, .runLogic i.tofRun,
            .sensors i.tofSense i.pitch] ++ [.manual]) := hok
      exact Runs.exec_inv_along (P := fun s : Rb K => s.session.Handled)
        (fun _ _ hs ha => handled_stage hs ha) h.handled (Runs.along_append.1 hfirst).1
    show (stage env t .manual).jog.moved = false
    rw [jog_stage]
    show (if t.jog.moved && !t.ctl.startFlag then { t.jog with prev := t.jog.cur } else t.jog).moved
      = false
    split
    · exact Jog.moved_handled t.jog
    · next hno =>
      by_contra hopen
      have hmoved : t.jog.moved = true := Bool.eq_true_of_not_eq_false hopen
      have hrun : t.ctl.startFlag = true := by simpa [hmoved] using hno
      exact hopen (ht hrun)

theorem closed_exec : ∀ {s : Rb K} (as : List (Step K)), Closed s →
    Runs.Along Answered (stage env) s (as.flatMap Step.stages) → Closed (Runs.exec (step env) s as)
  | _, [], h, _ => h
  | s, b :: as, h, hok => by
    rw [List.flatMap_cons, Runs.along_append] at hok
    exact closed_exec as (h.step hok.1) hok.2

theorem closed_boot : Closed (boot : Rb K) where
  jog := by simp [boot, Jog.boot, Jog.moved]
  handled h := absurd h Bool.false_ne_true

/-- In every run that leaves no jog open, the manual block is executed only in iterations in
which a jog key is handled while no cycle is running. -/
theorem manualOnJog_of_answered (env : Env K) (as : List (Step K)) (h : Throughout Answered env as) :
    ManualOnJog env as := by
  intro pre i post hsplit hruns
  rw [Throughout, hsplit, List.flatMap_append, Runs.along_append, List.flatMap_cons,
    Runs.along_append] at h
  have hclosed : Closed (run env pre) := closed_exec pre closed_boot h.1
  rw [← run_eq_stages] at h
  exact jogHandled_of_manualRuns hclosed.jog h.2.1 hruns

end

/-! ## Following a run -/

instance (s : Session ℤ) (m : Move) : Decidable (s.Answered m) :=
  inferInstanceAs (Decidable ((_ → _) ∧ (_ → _)))

section
variable {K : Type} [Field K] [LinearOrder K] [IsStrictOrderedRing K]

theorem Pos.cast_inj {p q : Pos ℤ} : (p.cast : Pos K) = q.cast ↔ p = q := by
  obtain ⟨x, y, z⟩ := p
  obtain ⟨x', y', z'⟩ := q
  simp [Pos.cast]

theorem cast_answered (s : Session ℤ) (m : Move) : (s.cast : Session K).Answered m ↔ s.Answered m := by
  have hcur : ((s.jog.cast : Jog K).next s.cycle.ctl m).cur = (s.jog.cast : Jog K).cur ↔
      (s.jog.next s.cycle.ctl m).cur = s.jog.cur := by
    rw [← cast_next]
    exact Pos.cast_inj
  exact and_congr (imp_congr_right fun _ => hcur)
    (imp_congr_right fun _ => by rw [show (s.cast : Session K).jog.moved = _ from cast_moved s.jog])

theorem answered_iff (env : Env K) (as : List (Step K)) : Throughout Answered env as ↔
    Runs.Along Session.Answered Session.move (Session.boot : Session ℤ) (moves as) := by
  have hok : ∀ (t : Rb K) (c : Session ℤ) (a : Stage K), t.session = c.cast →
      (Answered t a ↔ c.Answered a.move) := by
    intro t c a h
    rw [Answered, h]
    exact cast_answered c a.move
  exact Runs.along_sim Stage.move (session_stage_cast env) hok _ session_boot

end

/-- A first jog is answered in its own iteration. -/
theorem manualOnJog_firstJog : ManualRuns firmware (run firmware []) ⟨0xf3, 0, 0, 0, 0, 0, none⟩ ∧
    ManualOnJog firmware [press 0xf3] := by
  constructor
  · let keys : List (Stage ℝ) :=
      [.lcd 0xf3 0, .ir 0 0, .returnDelay, .runLogic 0, .sensors 0 none]
    have hsession := session_exec firmware session_boot keys
    show ((Runs.exec (stage firmware) boot keys).session.jog.moved &&
      !(Runs.exec (stage firmware) boot keys).session.cycle.ctl.startFlag) = true
    rw [hsession]
    show ((Jog.cast _ : Jog ℝ).moved && _) = true
    rw [cast_moved]
    decide +kernel
  · refine manualOnJog_of_answered firmware [press 0xf3] ?_
    rw [answered_iff]
    decide +kernel

/-- The jog target is moved while the arm runs, and the arm paused. -/
noncomputable def pauseAfterJog : List (Step ℝ) := startOne ++ [press 0xf3] ++ [press 0xfc]

/-- The pause then drives the arm to the jog target. -/
theorem not_manualOnJog_pauseAfterJog : ¬ ManualOnJog firmware pauseAfterJog := by
  let keys : List (Stage ℝ) := [.lcd 0xfc 0, .ir 0 0, .returnDelay, .runLogic 0, .sensors 0 none]
  have hbefore := session_exec firmware session_boot ((startOne ++ [press 0xf3]).flatMap Step.stages)
  rw [← run_eq_stages] at hbefore
  have hsession := session_exec firmware hbefore keys
  have hruns : ManualRuns firmware (run firmware (startOne ++ [press 0xf3]))
      ⟨0xfc, 0, 0, 0, 0, 0, none⟩ := by
    show ((Runs.exec (stage firmware) _ keys).session.jog.moved &&
      !(Runs.exec (stage firmware) _ keys).session.cycle.ctl.startFlag) = true
    rw [hsession]
    show ((Jog.cast _ : Jog ℝ).moved && _) = true
    rw [cast_moved]
    decide +kernel
  intro h
  rcases h (startOne ++ [press 0xf3]) _ [] rfl hruns with ⟨hkey, _⟩ | ⟨hkey, _⟩
  · exact absurd hkey (by decide)
  · exact absurd hkey (by decide)

end RoboticArm
