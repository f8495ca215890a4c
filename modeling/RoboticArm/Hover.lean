import RoboticArm.Compensation
import RoboticArm.Sight
import RoboticArm.Replay
import Mathlib.Tactic.Linarith
import Mathlib.Tactic.NormNum

/- The motion functions during a return delay.

   While the arm is on its way back to a point, no motion function should command a motor
   (`Silent`). Three of the four ask whether a return is in progress before they do
   anything; `run_hover` does not, and is reached when the mode is changed back to hover
   during a mode-switch return, or when the arm is resumed inside a point switch.

   1. `silent_iff`: a run is silent exactly when it never reaches `run_hover` during a
      return with a height to compensate.
   2. `backToHover` is a run that does. While the sensor is quiet, the compensation stays
      as it is (`Watched.stage`), which is how the run is followed. -/
namespace RoboticArm

theorem entered_of_returning {K : Type} {s : Rb K} (h : s.ctl.returnInProgress = true) :
    s.entered = if s.ctl.modeHover then some .runHover else none := by
  have hblocked : moveBlocked s = true := by simp [moveBlocked, h]
  simp only [Rb.entered, hblocked, if_true, ite_self]

section
variable {K : Type} [Field K] [LinearOrder K]

/-- With a return in progress, the mode dispatch sends no command. -/
def Silent (env : Env K) (s : Rb K) : Stage K → Prop
  | .runLogic raw => s.ctl.returnInProgress = true → s.dispatches = true →
      (runMode env raw s).cmds = s.cmds
  | _ => True

/-- The run logic enters `run_hover` during a return, with a height to compensate. -/
def HoversBack (s : Rb K) : Stage K → Prop
  | .runLogic raw => s.ctl.returnInProgress = true ∧ s.dispatches = true ∧ s.ctl.modeHover = true ∧
      Drifted (filteredTof raw s.tof).1 s.here.jiuliBaseline s.comp
  | _ => False

variable [IsStrictOrderedRing K]

theorem cmds_runHover (env : Env K) (raw : K) (s : Rb K) : (runHover env raw s).cmds = s.cmds ↔
    ¬ Drifted (filteredTof raw s.tof).1 s.here.jiuliBaseline s.comp := by
  have hiff : 1 / 100 < |(readCompensation raw s).1| ↔
      Drifted (filteredTof raw s.tof).1 s.here.jiuliBaseline s.comp :=
    compensation_iff (filteredTof raw s.tof).1 s.here.jiuliBaseline s.comp
  rw [← hiff]
  simp only [runHover]
  split
  · next hz =>
    refine iff_of_false ?_ fun hno => hno hz
    intro heq
    have hlen := congrArg List.length heq
    simp [Rb.send, solveFor, readCompensation] at hlen
    omega
  · next hz => exact iff_of_true rfl hz

/-- With a return in progress, only `run_hover` can send anything. -/
theorem silent_stage_iff (env : Env K) (s : Rb K) (a : Stage K) :
    Silent env s a ↔ ¬ HoversBack s a := by
  cases a with
  | runLogic raw =>
    simp only [Silent, HoversBack]
    by_cases hp : s.ctl.returnInProgress = true
    · by_cases hd : s.dispatches = true
      · have he := entered_of_returning hp
        cases hh : s.ctl.modeHover with
        | false =>
          rw [hh] at he
          cases dispatch raw s with
          | nothing _ hr => exact iff_of_true (fun _ _ => by rw [hr]) (by simp)
          | hover he' _ => exact absurd (he.symm.trans he') (by simp)
          | lr he' _ _ => exact absurd (he.symm.trans he') (by simp)
          | circle he' _ _ => exact absurd (he.symm.trans he') (by simp)
          | ud he' _ _ => exact absurd (he.symm.trans he') (by simp)
        | true =>
          have hr : runMode env raw s = runHover env raw s := if_pos hh
          rw [hr, cmds_runHover]
          simp [hp, hd]
      · exact iff_of_true (fun _ h => absurd h hd) fun h => hd h.2.1
    · exact iff_of_true (fun h => absurd h hp) fun h => hp h.1
  | _ => exact iff_of_true trivial not_false

/-- In a run the motion functions are silent during returns if and only if the run logic
never enters `run_hover` during one with a height to compensate. -/
theorem silent_iff (env : Env K) (as : List (Step K)) :
    Throughout (Silent env) env as ↔ Throughout (fun s a => ¬ HoversBack s a) env as :=
  Runs.along_congr (silent_stage_iff env)

instance decidableHoversBack (s : Rb K) : ∀ a, Decidable (HoversBack s a)
  | .runLogic raw => inferInstanceAs (Decidable (_ ∧ _ ∧ _ ∧
      Drifted (filteredTof raw s.tof).1 s.here.jiuliBaseline s.comp))
  | .lcd _ _ | .ir _ _ | .returnDelay | .sensors _ _ | .manual | .tick => .isFalse not_false

/-- The mode is changed while a point is treated. -/
def modeChange : List (Step ℚ) :=
  [press 0xf3, press 0xfb, press 0xfc] ++ ticks 60 ++ [idle, press 0xfb, idle]

/-- The arm is sent back to its point, and the circle mode is silent meanwhile. -/
theorem silent_iff_modeChange :
    (Runs.exec (stage answering) boot (modeChange.flatMap Step.stages)).ctl.returnInProgress = true ∧
      Throughout (Silent answering) answering modeChange :=
  ⟨by decide +kernel, (silent_iff answering modeChange).2 (by unfold Throughout; decide +kernel)⟩

/-! ## A quiet sensor -/

/-- The filter rests at `t`, the points have the baselines `base`, and nothing has been
compensated but the value the filter rests at. -/
structure Watched (t : Tof K) (base : Nat → K) (v : Sight K) : Prop where
  tof : v.tof = t
  comp : v.comp.isFirstCall = true ∨
    10 < t.lastValidValue ∧ v.comp.lastCompensatedJiuli = t.lastValidValue
  base : ∀ i, (v.site i).2 = base i

/-- The stage takes no reading within range. -/
def Stage.Quiet : Stage K → Prop
  | .lcd _ raw | .ir _ raw | .runLogic raw | .sensors raw _ => raw ≤ 0
  | _ => True

/-- The move writes no cell: it is no mark, no height key and not clear-all. -/
def KeepsTable (c : Cycle) (m : Move) : Prop :=
  (m = .key .mark → c.ctl.canMark = false) ∧ m ≠ .key .zUp ∧ m ≠ .key .zDown ∧ m ≠ .key .clear

instance (c : Cycle) (m : Move) : Decidable (KeepsTable c m) :=
  inferInstanceAs (Decidable (_ ∧ _ ∧ _ ∧ _))

omit [IsStrictOrderedRing K] in
theorem filteredTof_of_quiet {raw : K} (h : raw ≤ 0) (t : Tof K) :
    filteredTof raw t = (t.lastValidValue, t) := if_pos (Or.inl h)

/-- A reading of the value the filter rests at compensates nothing, at a point marked there
and at an unmarked one. -/
theorem Watched.read {t : Tof K} {base : Nat → K}
    (hbase : ∀ i, base i ≤ 10 ∨ base i = t.lastValidValue)
    {s : Rb K} (h : Watched t base s.sight) {raw : K} (hq : raw ≤ 0) :
    Watched t base (s.readSight raw) := by
  have htof : s.tof = t := h.tof
  have hcomp : s.comp.isFirstCall = true ∨
      10 < t.lastValidValue ∧ s.comp.lastCompensatedJiuli = t.lastValidValue := h.comp
  have hhere : s.here.jiuliBaseline = base s.ctl.currentPoint := h.base _
  have hread : (s.readSight raw).tof = t ∧
      (s.readSight raw).comp =
        (calculateZCompensation t.lastValidValue (base s.ctl.currentPoint) s.comp).2 := by
    simp only [Rb.readSight, readCompensation, Rb.sight]
    rw [filteredTof_of_quiet hq, htof, hhere]
    exact ⟨rfl, rfl⟩
  refine ⟨hread.1, ?_, h.base⟩
  rw [hread.2]
  simp only [calculateZCompensation]
  split
  · exact hcomp
  · next hr =>
    have hat : base s.ctl.currentPoint = t.lastValidValue :=
      (hbase _).resolve_left fun hle => hr (Or.inl hle)
    have hnear : |t.lastValidValue - t.lastValidValue| ≤ (2 : K) := by norm_num
    have hhigh : 10 < t.lastValidValue := hat ▸ not_le.1 fun hle => hr (Or.inl hle)
    rw [hat, if_pos hnear]
    split
    · exact Or.inr ⟨hhigh, rfl⟩
    · exact hcomp

omit [IsStrictOrderedRing K] in
theorem keySight_of_keeps {s : Rb K} {k : Key} (raw : K) (hk : KeepsTable s.cycle (.key k)) :
    keySight raw s k = s.sight := by
  cases k with
  | zUp => exact absurd rfl hk.2.1
  | zDown => exact absurd rfl hk.2.2.1
  | clear => exact absurd rfl hk.2.2.2
  | mark =>
    have hno : s.cycle.marks (checkCoordinateRange s.jog.cur) = false := by
      simp [Cycle.marks, hk.1 rfl]
    simp only [keySight, hno, Bool.false_eq_true, if_false]
  | _ => rfl

omit [IsStrictOrderedRing K] in
theorem site_of_keeps {env : Env K} {s : Rb K} {a : Stage K} (hk : KeepsTable s.cycle a.move) :
    (stage env s a).sight.site = s.sight.site := by
  cases a with
  | lcd b raw =>
    show (onKey env raw s (lcdKey b)).sight.site = s.sight.site
    rw [sight_onKey, keySight_of_keeps raw hk]
  | ir b raw =>
    show (onKey env raw s (irKey b)).sight.site = s.sight.site
    rw [sight_onKey, keySight_of_keeps raw hk]
  | _ => exact site_stage env s fun _ h => Move.noConfusion h

omit [IsStrictOrderedRing K] in
theorem site_exec_of_keeps {env : Env K} {s : Rb K} {as : List (Stage K)}
    (hk : Runs.Along (fun s a => KeepsTable s.cycle a.move) (stage env) s as) :
    (Runs.exec (stage env) s as).sight.site = s.sight.site := by
  refine Runs.exec_inv_along (P := fun t : Rb K => t.sight.site = s.sight.site) ?_ rfl hk
  intro t a hsame hkeeps
  exact (site_of_keeps hkeeps).trans hsame

theorem Watched.stage {t : Tof K} {base : Nat → K}
    (hbase : ∀ i, base i ≤ 10 ∨ base i = t.lastValidValue) {env : Env K} {s : Rb K}
    (h : Watched t base s.sight) {a : Stage K} (hq : a.Quiet) (hk : KeepsTable s.cycle a.move) :
    Watched t base (RoboticArm.stage env s a).sight := by
  cases a with
  | lcd b raw =>
    show Watched t base (onKey env raw s (lcdKey b)).sight
    rw [sight_onKey, keySight_of_keeps raw hk]
    exact h
  | ir b raw =>
    show Watched t base (onKey env raw s (irKey b)).sight
    rw [sight_onKey, keySight_of_keeps raw hk]
    exact h
  | returnDelay =>
    show Watched t base (returnDelay s).sight
    rw [sight_of_ground (ground_returnDelay s)]
    exact h
  | runLogic raw =>
    show Watched t base (runLogic env raw s).sight
    rw [sight_runLogic]
    split
    · exact h.read hbase hq
    · exact h
  | sensors raw pitch =>
    show Watched t base (sensors raw pitch s).sight
    rw [sight_sensors, filteredTof_of_quiet hq]
    exact h
  | manual =>
    show Watched t base (manual env s).sight
    rw [sight_manual]
    exact h
  | tick =>
    show Watched t base (tim3IrqHandler s).sight
    rw [sight_of_ground (ground_tick s)]
    exact h

theorem Watched.exec {t : Tof K} {base : Nat → K}
    (hbase : ∀ i, base i ≤ 10 ∨ base i = t.lastValidValue) {env : Env K} {s : Rb K}
    {as : List (Stage K)} (h : Watched t base s.sight) (hq : ∀ a ∈ as, a.Quiet)
    (hk : Runs.Along (fun s a => KeepsTable s.cycle a.move) (RoboticArm.stage env) s as) :
    Watched t base (Runs.exec (RoboticArm.stage env) s as).sight := by
  have hok := Runs.along_and.2 ⟨Runs.along_of_mem hq, hk⟩
  refine Runs.exec_inv_along (P := fun s : Rb K => Watched t base s.sight) ?_ h hok
  intro s a hwatch hallowed
  exact hwatch.stage hbase hallowed.1 hallowed.2

end

theorem quiet_press (b : UInt8) : ∀ a ∈ (press b : Step ℝ).stages, a.Quiet := by
  intro a ha
  simp only [press, Step.stages, List.mem_cons, List.not_mem_nil, or_false] at ha
  rcases ha with rfl | rfl | rfl | rfl | rfl | rfl <;> simp [Stage.Quiet]

/-- A point is marked at a first reading, the mode changed while the arm is on its way to it,
and changed three times more, back to hover, when it has arrived, with a second reading. -/
noncomputable def backToHover : List (Step ℝ) :=
  [press 0xf3, .iteration ⟨0xfb, 0, 45, 0, 0, 0, none⟩, press 0xfc, press 0xfb] ++ ticks 60 ++
    [idle, press 0xfb, press 0xfb, .iteration ⟨0xfb, 0, 0, 0, 45, 0, none⟩]

/-- The stages of `backToHover` between its two readings. -/
noncomputable def betweenReadings : List (Stage ℝ) :=
  [.ir 0 0, .returnDelay, .runLogic 0, .sensors 0 none, .manual] ++
    ([press 0xfc, press 0xfb] ++ ticks 60 ++ [idle, press 0xfb, press 0xfb]).flatMap Step.stages ++
    [.lcd 0xfb 0, .ir 0 0, .returnDelay]

theorem stages_backToHover : backToHover.flatMap Step.stages =
    (press 0xf3 : Step ℝ).stages ++ .lcd 0xfb 45 ::
      (betweenReadings ++ .runLogic 45 :: [.sensors 0 none, .manual]) := by
  rfl

theorem quiet_betweenReadings : ∀ a ∈ betweenReadings, a.Quiet := by
  intro a ha
  simp only [betweenReadings, List.mem_append, List.mem_flatMap, ticks, List.mem_replicate, idle,
    List.mem_cons, List.not_mem_nil, or_false] at ha
  rcases ha with ((rfl | rfl | rfl | rfl | rfl) | ⟨b, hb, ha⟩) | rfl | rfl | rfl
  any_goals simp [Stage.Quiet]
  rcases hb with ((rfl | rfl) | ⟨_, rfl⟩) | rfl | rfl | rfl
  any_goals exact quiet_press _ a ha
  rw [List.mem_singleton.1 ha]
  trivial

/-- The filter after a first reading of 45. -/
noncomputable def firstReading : Tof ℝ := ⟨Function.update (fun _ => 0) 0 45, 1, 45 / 4, 1⟩

theorem filteredTof_first : filteredTof 45 (boot : Rb ℝ).tof = (45 / 4, firstReading) := by
  norm_num [filteredTof, limitFilter, movingAverageFilter, filterWindow, boot, firstReading]

theorem filteredTof_second : (filteredTof 45 firstReading).1 = 45 / 2 := by
  norm_num [filteredTof, limitFilter, movingAverageFilter, filterWindow, firstReading]

theorem marks_firstJog :
    let s : Rb ℝ := Runs.exec (stage firmware) boot (press 0xf3 : Step ℝ).stages
    s.cycle.marks (checkCoordinateRange s.jog.cur) = true ∧ s.ctl.pointCount = 0 ∧
      s.jog.cur = (⟨5, 30, 25⟩ : Pos ℤ).cast := by
  intro s
  have hsession := session_exec firmware session_boot (press 0xf3 : Step ℝ).stages
  show s.cycle.marks (checkCoordinateRange s.session.jog.cur) = true ∧
    s.cycle.ctl.pointCount = 0 ∧ s.session.jog.cur = _
  rw [cycle_of_session hsession, hsession]
  show _ = true ∧ _ ∧ Pos.cast _ = _
  rw [show checkCoordinateRange (Session.cast _).jog.cur = _ from cast_checkCoordinateRange _]
  refine ⟨by decide +kernel, by decide +kernel, congrArg Pos.cast ?_⟩
  decide +kernel

/-- The second reading then moves the arm although it is on its way back. -/
theorem not_silent_backToHover : ¬ Throughout (Silent firmware) firmware backToHover := by
  let marked : List (Stage ℝ) := (press 0xf3 : Step ℝ).stages ++ [.lcd 0xfb 45]
  let s₀ : Rb ℝ := Runs.exec (stage firmware) boot (press 0xf3 : Step ℝ).stages
  let s₁ : Rb ℝ := Runs.exec (stage firmware) boot marked
  let s₂ : Rb ℝ := Runs.exec (stage firmware) s₁ betweenReadings
  have hsession₀ := session_exec firmware session_boot (press 0xf3 : Step ℝ).stages
  have hsession₁ := session_exec firmware session_boot marked
  have hsession₂ := session_exec firmware hsession₁ betweenReadings
  have hwatch₀ : Watched (boot : Rb ℝ).tof (fun _ => 0) s₀.sight := by
    refine Watched.exec (fun _ => Or.inl (by norm_num)) ?_ (quiet_press 0xf3) ?_
    · exact ⟨rfl, Or.inl rfl, fun _ => rfl⟩
    · rw [along_iff firmware KeepsTable session_boot]
      decide +kernel
  -- the mark keeps the first reading as its baseline
  have hmarks : s₀.cycle.marks (checkCoordinateRange s₀.jog.cur) = true ∧
      s₀.ctl.pointCount = 0 ∧ _ := marks_firstJog
  have hwatch₁ : Watched firstReading (fun i => if i = 0 then 45 / 4 else 0) s₁.sight := by
    have hsight : s₁.sight = keySight 45 s₀ .mark := sight_onKey firmware 45 s₀ .mark
    have htof : filteredTof 45 s₀.tof = (45 / 4, firstReading) := by
      rw [show s₀.tof = _ from hwatch₀.tof]
      exact filteredTof_first
    simp only [keySight, hmarks.1, if_true, hmarks.2.1, htof] at hsight
    rw [hsight]
    refine ⟨rfl, ?_, ?_⟩
    · refine Or.inl (hwatch₀.comp.resolve_right fun hl => ?_)
      exact absurd hl.1 (by norm_num [boot])
    · intro i
      by_cases hi : i = 0
      · subst hi
        simp
      · simp only [Function.update_of_ne hi, if_neg hi]
        exact hwatch₀.base i
  have hwatch₂ : Watched firstReading (fun i => if i = 0 then 45 / 4 else 0) s₂.sight := by
    refine hwatch₁.exec ?_ quiet_betweenReadings ?_
    · intro i
      simp only [firstReading]
      split
      · exact Or.inr rfl
      · exact Or.inl (by norm_num)
    · rw [along_iff firmware KeepsTable hsession₁]
      decide +kernel
  have hstate : s₂.ctl.returnInProgress = true ∧ s₂.dispatches = true ∧ s₂.ctl.modeHover = true ∧
      s₂.ctl.currentPoint = 0 := by
    show s₂.cycle.ctl.returnInProgress = true ∧
      (s₂.cycle.ctl.running && !s₂.cycle.pointDue) = true ∧ s₂.cycle.ctl.modeHover = true ∧
      s₂.cycle.ctl.currentPoint = 0
    rw [cycle_of_session hsession₂]
    decide +kernel
  rw [silent_iff, Throughout, stages_backToHover]
  intro h
  rw [Runs.along_append] at h
  have hlast : ¬ HoversBack s₂ (.runLogic 45) := (Runs.along_append.1 h.2.2).2.1
  apply hlast
  refine ⟨hstate.1, hstate.2.1, hstate.2.2.1, ?_⟩
  have htof : s₂.tof = firstReading := hwatch₂.tof
  have hbase : s₂.here.jiuliBaseline = 45 / 4 := by
    have hcell := hwatch₂.base s₂.ctl.currentPoint
    rw [hstate.2.2.2] at hcell
    show (s₂.sight.site s₂.ctl.currentPoint).2 = _
    rw [hstate.2.2.2, hcell, if_pos rfl]
  rw [htof, hbase, filteredTof_second]
  refine ⟨by norm_num, by norm_num, by norm_num [abs_of_pos], ?_⟩
  rcases hwatch₂.comp with hf | ⟨_, hl⟩
  · exact Or.inl hf
  · right
    show 1 ≤ |45 / 2 - s₂.sight.comp.lastCompensatedJiuli|
    rw [hl]
    norm_num [firstReading, abs_of_pos]

end RoboticArm
