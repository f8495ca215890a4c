import RoboticArm.Effect
import RoboticArm.Replay

/- A launched cycle treats its points completely and in order.

   A window is what follows, stage by stage, the completion of a launch (a return of
   type 3 or 4), as long as no clear-all key is handled and the cycle is not yet
   complete; its last stage may complete it. `treated_of_window`: in it the number of
   points does not change, the current point goes through 0, 1, 2, ... without
   skipping or repeating one, and it moves on only from a point whose timer has
   reached its duration, counted by ticks of this window alone, taken while the arm
   ran at this point.

   1. `Underway` is what holds between launch and completion, and `Underway.move`
      the step that keeps it, or ends the cycle behind the last point.
   2. `timer_move_le`: no timer runs ahead of the ticks of its point. -/
namespace RoboticArm

section
variable {K : Type} [Field K] [LinearOrder K]

/-- The stages `bs` follow the completion of a launch that is due in `t`. -/
structure Window (env : Env K) (t : Rb K) (bs : List (Stage K)) : Prop where
  reached : ∃ (as : List (Step K)) (pre post : List (Stage K)),
    as.flatMap Step.stages = pre ++ .returnDelay :: bs ++ post ∧ t = Runs.exec (stage env) boot pre
  due : t.ctl.returnDue = true
  launch : t.ctl.returnType = 3 ∨ t.ctl.returnType = 4
  noClear : ∀ a ∈ bs, a.move ≠ .key .clear
  unfinished : Runs.Along (fun s _ => s.ctl.cycleComplete = false) (stage env)
    (stage env t .returnDelay) bs

/-- A tick at point `i` of a running arm. -/
def ticksAt (i : Nat) (s : Rb K) (a : Stage K) : Bool :=
  a.move == .tick && s.ctl.startFlag && s.ctl.currentPoint == i

/-- The stage moves the current point, or completes the cycle. -/
def Advances (env : Env K) (s : Rb K) (a : Stage K) : Prop :=
  (stage env s a).ctl.currentPoint ≠ s.ctl.currentPoint ∨ (stage env s a).ctl.cycleComplete = true

/-- A step from point `i` to the next, after ticks at `i` for the whole duration of `i`. -/
structure Earned (env : Env K) (s₀ s : Rb K) (before : List (Stage K)) (a : Stage K) : Prop where
  byRunLogic : a.move = .runLogic
  running : s.ctl.startFlag = true
  next : (stage env s a).ctl.currentPoint = s.ctl.currentPoint + 1
  timeUp : s.here.pointDuration ≤ s.here.pointTimer
  ticked : s.here.pointTimer ≤ 100 * Runs.count (ticksAt s.ctl.currentPoint) (stage env) s₀ before

/-- A complete and ordered treatment, as far as the stages `bs` from `s₀` have brought it. -/
structure Treated (env : Env K) (s₀ : Rb K) (bs : List (Stage K)) : Prop where
  count : (Runs.exec (stage env) s₀ bs).ctl.pointCount = s₀.ctl.pointCount
  order : Runs.visits (·.ctl.currentPoint) (stage env) s₀ bs =
    List.range ((Runs.exec (stage env) s₀ bs).ctl.currentPoint + 1)
  current : if (Runs.exec (stage env) s₀ bs).ctl.cycleComplete then
      (Runs.exec (stage env) s₀ bs).ctl.currentPoint = s₀.ctl.pointCount
    else (Runs.exec (stage env) s₀ bs).ctl.currentPoint < s₀.ctl.pointCount
  earned : ∀ before a after, bs = before ++ a :: after →
    Advances env (Runs.exec (stage env) s₀ before) a →
    Earned env s₀ (Runs.exec (stage env) s₀ before) before a

end

namespace Cycle

variable {c : Cycle}

/-- Between launch and completion of a cycle of `n` points: marking is closed, and the
current point is one of them. -/
structure Underway (n : Nat) (c : Cycle) : Prop where
  count : c.ctl.pointCount = n
  closed : c.ctl.bijiFlag = false
  current : c.ctl.currentPoint < n
  unfinished : c.ctl.cycleComplete = false

/-- What a move makes of a cycle of `n` points that was at point `i`: the same, or, by the
run logic at the end of its time, a step on, which past the last point is completion. -/
def Onward (n i : Nat) (due : Bool) (m : Move) (k : Course) : Prop :=
  k.count = n ∧ k.marking = false ∧
    (k.current = i ∧ k.complete = false ∨
      m = .runLogic ∧ due = true ∧ k.current = i + 1 ∧ (k.complete = true ↔ i + 1 = n))

theorem Underway.nextCourse {n : Nat} (r : Bool) (m : Move) (h : c.Underway n) (hm : m ≠ .key .clear) :
    Onward n c.ctl.currentPoint c.pointDue m (c.nextCourse r m) := by
  have hsame : Onward n c.ctl.currentPoint c.pointDue m c.ctl.course :=
    ⟨h.count, h.closed, Or.inl ⟨rfl, h.unfinished⟩⟩
  cases courseMove_next r c m with
  | same hnext | toggle _ _ _ _ hnext | arrive _ _ hnext =>
    rw [hnext]
    exact hsame
  | mark _ hmark _ =>
    simp [marks, Ctl.canMark, h.closed] at hmark
  | restart _ hre _ =>
    -- a start key can pause or resume here, but not begin again from the first point
    simp [restarts, h.unfinished] at hre
  | firstStart _ _ hnext =>
    rw [hnext]
    exact ⟨h.count, rfl, Or.inl ⟨rfl, h.unfinished⟩⟩
  | clear hclear _ => exact absurd hclear hm
  | finish hrun hfin hnext =>
    have hlt := h.current
    have hcount := h.count
    simp only [finishes, Bool.and_eq_true, decide_eq_true_eq] at hfin
    rw [hnext]
    refine ⟨h.count, h.closed, Or.inr ⟨hrun, hfin.1, rfl, iff_of_true rfl ?_⟩⟩
    omega
  | switch hrun hsw hnext =>
    have hcount := h.count
    simp only [switchesPoint, Bool.and_eq_true, decide_eq_true_eq] at hsw
    rw [hnext]
    refine ⟨h.count, h.closed, Or.inr ⟨hrun, hsw.1, rfl, ?_⟩⟩
    refine iff_of_false ?_ (by omega)
    exact fun hc => absurd (h.unfinished.symm.trans hc) (by simp)

/-- A move of a cycle underway keeps it so, or takes it a step on. -/
theorem Underway.move {n : Nat} (r v : Bool) (m : Move) (h : c.Underway n) (hm : m ≠ .key .clear) :
    Onward n c.ctl.currentPoint c.pointDue m (c.move r v m).ctl.course := by
  rw [course_move]
  exact h.nextCourse r m hm

/-- A move does not make a timer run ahead of the ticks counted at its point: it resets
timers, or is a tick of a running arm at the current point. -/
theorem timer_move_le (r v : Bool) (m : Move) {n : Nat} (i : Nat) (h : c.Underway n)
    (hm : m ≠ .key .clear) : (c.move r v m).timer i ≤
      c.timer i + if m == .tick && c.ctl.startFlag && c.ctl.currentPoint == i then 100 else 0 := by
  rw [timer_move r]
  cases m with
  | key k =>
    cases k with
    | mark =>
      have hno : c.marks r = false := by simp [marks, Ctl.canMark, h.closed]
      simp [nextTimer, hno]
    | start =>
      have hno : c.restarts = false := by simp [restarts, h.unfinished]
      simp [nextTimer, hno]
    | clear => exact absurd rfl hm
    | _ => exact Nat.le_add_right _ _
  | returnDelay =>
    simp only [nextTimer]
    split
    · rw [Function.update_apply]
      split
      · exact Nat.zero_le _
      · exact Nat.le_add_right _ _
    · exact Nat.le_add_right _ _
  | tick =>
    simp only [nextTimer]
    split
    · next hr =>
      rw [Function.update_apply]
      split
      · next hcur =>
        have hstart : c.ctl.startFlag = true := by
          simp only [Ctl.running, Bool.and_eq_true] at hr
          exact hr.1.1
        rw [← hcur, hstart, if_pos (by simp)]
        exact u32_le _
      · exact Nat.le_add_right _ _
    · exact Nat.le_add_right _ _
  | _ => exact Nat.le_add_right _ _

theorem underway_of_launch (h : c.Inv) (hdue : c.ctl.returnDue = true)
    (hl : c.ctl.returnType = 3 ∨ c.ctl.returnType = 4) :
    c.returnDelay.Underway c.returnDelay.ctl.pointCount ∧ c.returnDelay.ctl.currentPoint = 0 ∧
      ∀ i < c.returnDelay.ctl.pointCount, c.returnDelay.timer i = 0 := by
  have hpend : c.ctl.returnInProgress = true := by
    simp only [Ctl.returnDue, Bool.and_eq_true] at hdue
    exact hdue.1
  have hlaunch := h.launch hpend hl
  have hstarts : startsArm c.ctl.returnType = true := by
    rcases hl with ht | ht <;> simp [startsArm, ht]
  have hcourse : c.returnDelay.ctl.course = { c.ctl.course with start := true } := by
    rw [course_returnDelay c true]
    simp only [nextCourse, hdue, hstarts]
    rfl
  have htimer : c.returnDelay.timer = c.timer := by
    rw [timer_returnDelay c true]
    apply if_neg
    rcases hl with ht | ht <;> simp [ht]
  have hcount : c.returnDelay.ctl.pointCount = c.ctl.pointCount := congrArg Course.count hcourse
  have hcurrent : c.returnDelay.ctl.currentPoint = 0 :=
    (congrArg Course.current hcourse).trans hlaunch.current
  refine ⟨⟨rfl, ?_, ?_, ?_⟩, hcurrent, ?_⟩
  · exact (congrArg Course.marking hcourse).trans hlaunch.closed
  · rw [hcurrent, hcount]
    exact hlaunch.marked
  · exact (congrArg Course.complete hcourse).trans hlaunch.unfinished
  · intro i hi
    rw [htimer]
    rw [hcount] at hi
    rcases Nat.eq_zero_or_pos i with rfl | hpos
    · exact hlaunch.fresh
    · exact h.ahead i (by rw [hlaunch.current]; exact hpos) hi

end Cycle

/-! ## Windows -/

section
variable {K : Type} [Field K] [LinearOrder K] {env : Env K}

variable (env) in
theorem onward_stage {n : Nat} {s : Rb K} {a : Stage K} (h : s.cycle.Underway n)
    (ha : a.move ≠ .key .clear) :
    Cycle.Onward n s.ctl.currentPoint (pointDue s) a.move (stage env s a).ctl.course := by
  show Cycle.Onward n s.cycle.ctl.currentPoint s.cycle.pointDue a.move (stage env s a).cycle.ctl.course
  rw [cycle_stage]
  exact h.move _ _ _ ha

theorem underway_stage {n : Nat} {s : Rb K} {a : Stage K} (h : s.cycle.Underway n)
    (ha : a.move ≠ .key .clear) (hopen : (stage env s a).ctl.cycleComplete = false) :
    (stage env s a).cycle.Underway n := by
  obtain ⟨hcount, hclosed, ⟨hsame, _⟩ | ⟨_, _, hnext, hdone⟩⟩ := onward_stage env h ha
  · refine ⟨hcount, hclosed, ?_, hopen⟩
    exact hsame.trans_lt h.current
  · have hlt : s.cycle.ctl.currentPoint < n := h.current
    have hne : s.cycle.ctl.currentPoint + 1 ≠ n := fun he =>
      absurd (hopen.symm.trans (hdone.2 he)) (by simp)
    refine ⟨hcount, hclosed, ?_, hopen⟩
    exact hnext.trans_lt (by show s.cycle.ctl.currentPoint + 1 < n; omega)

/-- Along stages without a clear that leave the cycle unfinished, it stays underway, and no
timer runs ahead of the ticks at its point. -/
theorem underway_exec {n : Nat} : ∀ {s : Rb K} {bs : List (Stage K)}, s.cycle.Underway n →
    (∀ a ∈ bs, a.move ≠ .key .clear) →
    Runs.Along (fun s a => (stage env s a).ctl.cycleComplete = false) (stage env) s bs →
    (Runs.exec (stage env) s bs).cycle.Underway n ∧
      ∀ i, (Runs.exec (stage env) s bs).cycle.timer i ≤
        s.cycle.timer i + 100 * Runs.count (ticksAt i) (stage env) s bs
  | s, [], h, _, _ => ⟨h, fun i => Nat.le_add_right _ _⟩
  | s, a :: bs, h, hclear, hopen => by
    have ha := hclear a List.mem_cons_self
    have hnext := underway_stage h ha hopen.1
    obtain ⟨hend, htimer⟩ :=
      underway_exec hnext (fun b hb => hclear b (List.mem_cons_of_mem a hb)) hopen.2
    refine ⟨hend, ?_⟩
    intro i
    have hstep : (stage env s a).cycle.timer i ≤
        s.cycle.timer i + 100 * (if ticksAt i s a then 1 else 0) := by
      rw [cycle_stage, mul_ite, Nat.mul_one, Nat.mul_zero]
      exact Cycle.timer_move_le _ _ _ i h ha
    calc (Runs.exec (stage env) (stage env s a) bs).cycle.timer i
        ≤ (stage env s a).cycle.timer i +
            100 * Runs.count (ticksAt i) (stage env) (stage env s a) bs := htimer i
      _ ≤ s.cycle.timer i + 100 * Runs.count (ticksAt i) (stage env) s (a :: bs) := by
        rw [Runs.count]
        omega

theorem underway_start {t : Rb K} {bs : List (Stage K)} (h : Window env t bs) :
    (stage env t .returnDelay).cycle.Underway (stage env t .returnDelay).ctl.pointCount ∧
      (stage env t .returnDelay).ctl.currentPoint = 0 ∧
      ∀ i < (stage env t .returnDelay).ctl.pointCount,
        (stage env t .returnDelay).cycle.timer i = 0 := by
  obtain ⟨as, pre, post, hrun, rfl⟩ := h.reached
  rw [List.append_assoc] at hrun
  have hinv := inv_stages env hrun
  have hcycle : (stage env (Runs.exec (stage env) boot pre) .returnDelay).cycle = _ :=
    cycle_stage env (Runs.exec (stage env) boot pre) .returnDelay
  show Cycle.Underway (Rb.cycle _).ctl.pointCount _ ∧ (Rb.cycle _).ctl.currentPoint = 0 ∧
    ∀ i < (Rb.cycle _).ctl.pointCount, _
  rw [hcycle]
  exact Cycle.underway_of_launch hinv h.due h.launch

theorem underway_of_window {t : Rb K} {bs before after : List (Stage K)} {a : Stage K}
    (h : Window env t bs) (hsplit : bs = before ++ a :: after) :
    (Runs.exec (stage env) (stage env t .returnDelay) before).cycle.Underway
        (stage env t .returnDelay).ctl.pointCount ∧
      ∀ i < (stage env t .returnDelay).ctl.pointCount,
        (Runs.exec (stage env) (stage env t .returnDelay) before).cycle.timer i ≤
          100 * Runs.count (ticksAt i) (stage env) (stage env t .returnDelay) before := by
  obtain ⟨hstart, _, hzero⟩ := underway_start h
  have hopen := h.unfinished
  rw [hsplit] at hopen
  have hclear : ∀ b ∈ before, b.move ≠ .key .clear := fun b hb =>
    h.noClear b (by rw [hsplit]; exact List.mem_append_left _ hb)
  obtain ⟨hend, htimer⟩ := underway_exec hstart hclear (Runs.along_after hopen)
  refine ⟨hend, fun i hi => (htimer i).trans_eq ?_⟩
  rw [hzero i hi, Nat.zero_add]

theorem earned_of_window {t : Rb K} {bs before after : List (Stage K)} {a : Stage K}
    (h : Window env t bs) (hsplit : bs = before ++ a :: after)
    (hadv : Advances env (Runs.exec (stage env) (stage env t .returnDelay) before) a) :
    Earned env (stage env t .returnDelay) (Runs.exec (stage env) (stage env t .returnDelay) before)
      before a := by
  obtain ⟨hu, htimer⟩ := underway_of_window h hsplit
  have ha : a.move ≠ .key .clear := h.noClear a (by simp [hsplit])
  obtain ⟨_, _, ⟨hsame, hopen⟩ | ⟨hrun, hdue, hnext, _⟩⟩ := onward_stage env hu ha
  · rcases hadv with hmoved | hdone
    · exact absurd hsame hmoved
    · exact absurd (hopen.symm.trans hdone) (by simp)
  · obtain ⟨hstart, _, _, htime⟩ := Cycle.running_of_pointDue (c := Rb.cycle _) hdue
    exact ⟨hrun, hstart, hnext, htime, htimer _ hu.current⟩

theorem onward_of_window {t : Rb K} {bs before after : List (Stage K)} {a : Stage K}
    (h : Window env t bs) (hsplit : bs = before ++ a :: after) :
    Cycle.Onward (stage env t .returnDelay).ctl.pointCount
      (Runs.exec (stage env) (stage env t .returnDelay) before).ctl.currentPoint
      (pointDue (Runs.exec (stage env) (stage env t .returnDelay) before)) a.move
      (stage env (Runs.exec (stage env) (stage env t .returnDelay) before) a).ctl.course :=
  onward_stage env (underway_of_window h hsplit).1 (h.noClear a (by simp [hsplit]))

/-- At the end of a window the points are as many as at its beginning, and the current
one is among them, or just past the last if the cycle is complete. -/
theorem end_of_window {t : Rb K} {bs : List (Stage K)} (h : Window env t bs) :
    (Runs.exec (stage env) (stage env t .returnDelay) bs).ctl.pointCount =
        (stage env t .returnDelay).ctl.pointCount ∧
      if (Runs.exec (stage env) (stage env t .returnDelay) bs).ctl.cycleComplete then
        (Runs.exec (stage env) (stage env t .returnDelay) bs).ctl.currentPoint =
          (stage env t .returnDelay).ctl.pointCount
      else (Runs.exec (stage env) (stage env t .returnDelay) bs).ctl.currentPoint <
          (stage env t .returnDelay).ctl.pointCount := by
  obtain ⟨hstart, _, _⟩ := underway_start h
  rcases List.eq_nil_or_concat bs with rfl | ⟨before, a, rfl⟩
  · refine ⟨rfl, ?_⟩
    split
    · next hc => exact absurd (hstart.unfinished.symm.trans hc) (by simp)
    · exact hstart.current
  · rw [List.concat_eq_append] at h ⊢
    rw [Runs.exec_append, Runs.exec_cons, Runs.exec_nil]
    have hlt := (underway_of_window h rfl).1.current
    obtain ⟨hcount, _, ⟨hsame, hopen⟩ | ⟨_, _, hnext, hdone⟩⟩ := onward_of_window h rfl
    · refine ⟨hcount, ?_⟩
      split
      · next hc => exact absurd (hopen.symm.trans hc) (by simp)
      · exact hsame.trans_lt hlt
    · refine ⟨hcount, ?_⟩
      split
      · next hc => exact hnext.trans (hdone.1 hc)
      · next hc =>
        have hne := fun he => hc (hdone.2 he)
        exact hnext.trans_lt (lt_of_le_of_ne hlt hne)

/-- A launched cycle treats its points completely and in order. -/
theorem treated_of_window {t : Rb K} {bs : List (Stage K)} (h : Window env t bs) :
    Treated env (stage env t .returnDelay) bs := by
  obtain ⟨_, hzero, _⟩ := underway_start h
  obtain ⟨hcount, hcurrent⟩ := end_of_window h
  have hunit : Runs.Along (fun s a => (stage env s a).ctl.currentPoint = s.ctl.currentPoint ∨
      (stage env s a).ctl.currentPoint = s.ctl.currentPoint + 1) (stage env)
      (stage env t .returnDelay) bs := by
    apply Runs.along_of_split
    intro before a after hsplit
    obtain ⟨_, _, ⟨hsame, _⟩ | ⟨_, _, hnext, _⟩⟩ := onward_of_window h hsplit
    · exact Or.inl hsame
    · exact Or.inr hnext
  obtain ⟨n, hn, hvisits⟩ := Runs.visits_eq_range' (f := fun s : Rb K => s.ctl.currentPoint) hunit
  refine ⟨hcount, ?_, hcurrent, fun before a after hsplit => earned_of_window h hsplit⟩
  rw [hvisits, hn, hzero, Nat.zero_add, List.range_eq_range']

end

/-! ## A whole treatment -/

/-- One point of two minutes is marked and its launch has settled. -/
noncomputable def settledLaunch : List (Step ℝ) :=
  [press 0xf3, press 0xfb] ++ List.replicate 5 (press 0xfe) ++ [press 0xfc] ++ ticks 60

/-- The stages up to the completion of the launch, and those from there to the end. -/
noncomputable def beforeLaunch : List (Stage ℝ) :=
  settledLaunch.flatMap Step.stages ++ [.lcd 0 0, .ir 0 0]

noncomputable def treatOne : List (Stage ℝ) :=
  [.runLogic 0, .sensors 0 none, .manual] ++ (ticks 1200).flatMap Step.stages ++
    [.lcd 0 0, .ir 0 0, .returnDelay, .runLogic 0]

theorem reached_treatOne : (settledLaunch ++ [idle] ++ ticks 1200 ++ [idle]).flatMap Step.stages =
    beforeLaunch ++ .returnDelay :: treatOne ++ [.sensors 0 none, .manual] := by
  have hidle : ([idle] : List (Step ℝ)).flatMap Step.stages =
      [.lcd 0 0, .ir 0 0, .returnDelay, .runLogic 0, .sensors 0 none, .manual] := rfl
  rw [List.flatMap_append, List.flatMap_append, List.flatMap_append, hidle, beforeLaunch, treatOne]
  simp only [List.append_assoc, List.cons_append, List.nil_append]

/-- A window of the control program, checked over the integers. -/
theorem window_of_session {K : Type} [Field K] [LinearOrder K] [IsStrictOrderedRing K] {env : Env K}
    {t : Rb K} {c : Session ℤ} (h : t.session = c.cast) {bs : List (Stage K)}
    (hreached : ∃ (as : List (Step K)) (pre post : List (Stage K)),
      as.flatMap Step.stages = pre ++ .returnDelay :: bs ++ post ∧ t = Runs.exec (stage env) boot pre)
    (hdue : c.cycle.ctl.returnDue = true)
    (hlaunch : c.cycle.ctl.returnType = 3 ∨ c.cycle.ctl.returnType = 4)
    (hclear : ∀ m ∈ bs.map Stage.move, m ≠ .key .clear)
    (hopen : Runs.Along (fun s _ => s.cycle.ctl.cycleComplete = false) Session.move
      (c.move .returnDelay) (bs.map Stage.move)) : Window env t bs := by
  have hctl := ctl_of_session h
  refine ⟨hreached, hctl ▸ hdue, hctl ▸ hlaunch, fun a ha => hclear _ (List.mem_map_of_mem ha), ?_⟩
  exact (along_iff env (fun d _ => d.ctl.cycleComplete = false)
    (session_stage_cast env t c .returnDelay h) bs).2 hopen

set_option maxRecDepth 100000 in
theorem window_treatOne : Window firmware (Runs.exec (stage firmware) boot beforeLaunch) treatOne :=
  window_of_session (session_exec firmware session_boot beforeLaunch) ⟨_, _, _, reached_treatOne, rfl⟩
    (by decide +kernel) (by decide +kernel) (by decide +kernel) (by decide +kernel)

set_option maxRecDepth 100000 in
theorem treated_treatOne :
    (Runs.exec (stage firmware) (stage firmware (Runs.exec (stage firmware) boot beforeLaunch)
      .returnDelay) treatOne).ctl.cycleComplete = true ∧
    Treated firmware (stage firmware (Runs.exec (stage firmware) boot beforeLaunch) .returnDelay)
      treatOne := by
  refine ⟨?_, treated_of_window window_treatOne⟩
  have hlaunch := session_exec firmware session_boot beforeLaunch
  have hend := session_exec firmware (session_stage_cast firmware _ _ .returnDelay hlaunch) treatOne
  rw [ctl_of_session hend]
  decide +kernel

end RoboticArm
