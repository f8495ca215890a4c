import RoboticArm.Effect

/- What the height compensation sees.

   The compensation compares a filtered distance reading with the baseline of the current
   point, and the result moves the coordinates of that point before they go to the joint
   search. `Sight` is the part of the state this depends on: coordinates and baseline of
   every point, the filter of `tof.c`, the statics of `calculate_z_compensation`.

   1. `sight_onKey`: a mark writes a cell and takes a reading, the height keys adjust the
      current cell, clear-all empties the table, and no other key writes anything.
   2. `dispatch` and `runLogic_eq`: the run logic in its cases. `sight_runLogic`: it writes
      no coordinates, and takes a reading exactly where it enters a motion function.
   3. `site_stage`: all other stages leave the table as it is. -/
namespace RoboticArm

/-! ## What the compensation sees -/

/-- Coordinates and baseline of the points, the distance filter and the statics of the
compensation. -/
structure Sight (K : Type) where
  site : Nat → Pos K × K
  tof : Tof K
  comp : Comp K

section
variable {K : Type}

def SimplePoint.site (p : SimplePoint K) : Pos K × K := (p.pos, p.jiuliBaseline)

def Rb.sight (s : Rb K) : Sight K := ⟨fun i => (s.points i).site, s.tof, s.comp⟩

theorem sight_setPoint (i : Nat) (p : SimplePoint K) (s : Rb K) :
    (s.setPoint i p).sight = { s.sight with site := Function.update s.sight.site i p.site } := by
  have hsite := Function.comp_update SimplePoint.site s.points i p
  exact congrArg (fun site => (⟨site, s.tof, s.comp⟩ : Sight K)) hsite

theorem sight_of_scene {s t : Rb K} (h : t.scene = s.scene) : t.sight = s.sight := by
  show (⟨t.scene.site, t.scene.tof, t.scene.comp⟩ : Sight K) = _
  rw [h]
  rfl

theorem sight_of_ground {s t : Rb K} (h : t.ground = s.ground) : t.sight = s.sight :=
  sight_of_scene (congrArg Ground.scene h)

variable [Field K]

/-- The table after the height of the current point has been adjusted. -/
def Rb.raised (dz : K) (s : Rb K) : Sight K :=
  { s.sight with
    site := Function.update s.sight.site s.ctl.currentPoint
      ({ s.here.pos with z := s.here.pos.z + dz }, s.here.jiuliBaseline + dz) }

theorem sight_adjustZ (env : Env K) (dz : K) (prompt : Nat) (s : Rb K) :
    (adjustZ env dz prompt s).sight = s.raised dz := by
  let p : Pos K := { s.here.pos with z := s.here.pos.z + dz }
  let s₁ := s.setPoint s.ctl.currentPoint { s.here with pos := p }
  let s₂ := solveFor env p s₁
  have h₁ : s₁.sight = _ := sight_setPoint s.ctl.currentPoint { s.here with pos := p } s
  have hhere : s₂.here.site = (p, s.here.jiuliBaseline) := by
    show (Function.update s.points s.ctl.currentPoint _ s.ctl.currentPoint).site = _
    rw [Function.update_self]
    rfl
  calc (adjustZ env dz prompt s).sight
      = { s₁.sight with
          site := Function.update s₁.sight.site s.ctl.currentPoint
            (s₂.here.site.1, s₂.here.site.2 + dz) } := sight_setPoint ..
    _ = s.raised dz := by
      rw [hhere, h₁]
      simp only [Function.update_idem]
      rfl

variable [LinearOrder K]

/-! ## Who writes it -/

def keySight (raw : K) (s : Rb K) : Key → Sight K
  | .zUp => if s.ctl.running = true ∧ s.here.pos.z + 5 < zMax then s.raised 5 else s.sight
  | .zDown => if s.ctl.running = true ∧ zMin < s.here.pos.z - 5 then s.raised (-5) else s.sight
  | .mark =>
    if s.cycle.marks (checkCoordinateRange s.jog.cur) then
      { s.sight with
        site := Function.update s.sight.site s.ctl.pointCount
          (s.jog.cur, (filteredTof raw s.tof).1)
        tof := (filteredTof raw s.tof).2 }
    else s.sight
  | .clear =>
    { s.sight with site := fun i => if i < maxPoints then (⟨0, 0, 0⟩, 0) else s.sight.site i }
  | _ => s.sight

theorem sight_caseMark (env : Env K) (raw : K) (s : Rb K) :
    (caseMark env raw s).sight = keySight raw s .mark := by
  have hmarks : s.cycle.marks (checkCoordinateRange s.jog.cur) =
      (s.ctl.canMark && checkCoordinateRange s.jog.cur) := rfl
  simp only [caseMark, keySight]
  rw [hmarks]
  by_cases hm : s.ctl.canMark = true
  · rw [if_pos hm, hm]
    by_cases hr : checkCoordinateRange s.jog.cur = true
    · rw [if_pos hr, hr]
      let s₁ : Rb K := { s.note (.mark s.ctl.pointCount) with tof := (filteredTof raw s.tof).2 }
      exact sight_setPoint s.ctl.pointCount _ s₁
    · rw [if_neg hr, Bool.eq_false_of_not_eq_true hr]
      rfl
  · rw [if_neg hm, Bool.eq_false_of_not_eq_true hm]
    show Rb.sight (if s.ctl.canSwitch then _ else _) = s.sight
    split
    · exact sight_of_scene (scene_nextMode env s)
    · rfl

theorem sight_heightKey (env : Env K) (dz : K) (prompt : Nat) (inside : Prop) [Decidable inside]
    (s : Rb K) :
    (pitchOn true
      (if s.ctl.running then if inside then adjustZ env dz prompt s else s
        else jogBy 0 0 dz s)).sight =
      if s.ctl.running = true ∧ inside then s.raised dz else s.sight := by
  by_cases hrun : s.ctl.running = true
  · by_cases hin : inside
    · rw [if_pos hrun, if_pos hin, if_pos ⟨hrun, hin⟩]
      exact sight_adjustZ env dz prompt s
    · rw [if_pos hrun, if_neg hin, if_neg fun h => hin h.2]
      rfl
  · rw [if_neg hrun, if_neg fun h => hrun h.1]
    rfl

theorem sight_onKey (env : Env K) (raw : K) (s : Rb K) (k : Key) :
    (onKey env raw s k).sight = keySight raw s k := by
  cases k with
  | zUp => exact sight_heightKey env 5 6 _ s
  | zDown => exact sight_heightKey env (-5) 7 _ s
  | mark => exact sight_caseMark env raw s
  | start => exact sight_of_scene (scene_caseStart env s)
  | timeAdd => exact sight_of_ground (ground_runTimeAdd s)
  | timeMinus => exact sight_of_ground (ground_runTimeMinus s)
  | clear =>
    show Sight.mk _ s.tof s.comp = _
    simp only [keySight, Rb.sight, Sight.mk.injEq, and_true]
    funext i
    exact apply_ite SimplePoint.site _ _ _
  | _ => rfl

/-! ## The mode motions -/

/-- The places that call the joint search. -/
inductive Place where
  | manual
  | mark
  | adjustZ
  | moveToPoint (i : Nat)
  | runHover
  | runLr
  | runCircle
  | runUd
  deriving DecidableEq, Repr

/-- The motion function the mode dispatch enters past its guards. -/
def Rb.entered (s : Rb K) : Option Place :=
  if s.ctl.modeHover then some .runHover
  else if s.ctl.modeLr && s.motion.lrMoveFlag then if moveBlocked s then none else some .runLr
  else if s.ctl.modeCircle && s.motion.circleMoveFlag then
    if moveBlocked s then none else some .runCircle
  else if s.ctl.modeUd && s.motion.udMoveFlag then if moveBlocked s then none else some .runUd
  else none

/-- A distance reading at the current point has been taken. -/
def Rb.readSight (raw : K) (s : Rb K) : Sight K := (readCompensation raw s).2.sight

theorem sight_runHover (env : Env K) (raw : K) (s : Rb K) :
    (runHover env raw s).sight = s.readSight raw := by
  simp only [runHover]
  split <;> rfl

/-- `run_lr` writes the position of the point before it takes its reading. -/
theorem readCompensation_position (raw : K) (s : Rb K) (n : Nat) :
    let t := s.setPoint s.ctl.currentPoint { s.here with position := n }
    (readCompensation raw t).1 = (readCompensation raw s).1 ∧
      (readCompensation raw t).2.sight = s.readSight raw := by
  intro t
  have hbase : t.here.jiuliBaseline = s.here.jiuliBaseline := by simp [t, Rb.here, Rb.setPoint]
  have hsame : t.sight = s.sight := sight_of_ground (ground_setPoint rfl)
  constructor
  · simp only [readCompensation]
    rw [hbase]
    rfl
  · show Sight.mk t.sight.site _ _ = Sight.mk s.sight.site _ _
    rw [hsame]
    simp only [readCompensation]
    rw [hbase]
    rfl

theorem sight_runLr (env : Env K) (raw : K) (s : Rb K) : (runLr env raw s).sight =
    if !s.motion.lrMoveFlag || moveBlocked s then s.sight else s.readSight raw := by
  simp only [runLr]
  split
  · rfl
  · exact (readCompensation_position raw s _).2

theorem sight_runCircle (env : Env K) (raw : K) (s : Rb K) : (runCircle env raw s).sight =
    if !s.motion.circleMoveFlag || moveBlocked s then s.sight else s.readSight raw := by
  simp only [runCircle]
  split <;> rfl

theorem sight_runUd (env : Env K) (raw : K) (s : Rb K) : (runUd env raw s).sight =
    if !s.motion.udMoveFlag || moveBlocked s then s.sight else s.readSight raw := by
  simp only [runUd]
  split <;> rfl

/-- What the mode dispatch does: it runs the motion function it enters, or nothing. -/
inductive Dispatch (raw : K) (s : Rb K) : Prop where
  | hover (he : s.entered = some .runHover) (hr : ∀ env : Env K, runMode env raw s = runHover env raw s)
  | lr (he : s.entered = some .runLr) (hg : (!s.motion.lrMoveFlag || moveBlocked s) = false)
      (hr : ∀ env : Env K, runMode env raw s = runLr env raw s)
  | circle (he : s.entered = some .runCircle)
      (hg : (!s.motion.circleMoveFlag || moveBlocked s) = false)
      (hr : ∀ env : Env K, runMode env raw s = runCircle env raw s)
  | ud (he : s.entered = some .runUd) (hg : (!s.motion.udMoveFlag || moveBlocked s) = false)
      (hr : ∀ env : Env K, runMode env raw s = runUd env raw s)
  | nothing (he : s.entered = none) (hr : ∀ env : Env K, runMode env raw s = s)

theorem dispatch (raw : K) (s : Rb K) : Dispatch raw s := by
  by_cases h1 : s.ctl.modeHover = true
  · exact .hover (by rw [Rb.entered, if_pos h1]) (fun env => by rw [runMode, if_pos h1])
  by_cases h2 : (s.ctl.modeLr && s.motion.lrMoveFlag) = true
  · have hrun : ∀ env : Env K, runMode env raw s = runLr env raw s := fun env => by
      rw [runMode, if_neg h1, if_pos h2]
    have he : s.entered = if moveBlocked s then none else some .runLr := by
      rw [Rb.entered, if_neg h1, if_pos h2]
    have hflag : s.motion.lrMoveFlag = true := (Bool.and_eq_true _ _ ▸ h2).2
    cases hb : moveBlocked s with
    | true =>
      exact .nothing (by rw [he, hb]; rfl) (fun env => by rw [hrun, runLr, hb, Bool.or_true]; rfl)
    | false => exact .lr (by rw [he, hb]; rfl) (by rw [hflag, hb]; rfl) hrun
  by_cases h3 : (s.ctl.modeCircle && s.motion.circleMoveFlag) = true
  · have hrun : ∀ env : Env K, runMode env raw s = runCircle env raw s := fun env => by
      rw [runMode, if_neg h1, if_neg h2, if_pos h3]
    have he : s.entered = if moveBlocked s then none else some .runCircle := by
      rw [Rb.entered, if_neg h1, if_neg h2, if_pos h3]
    have hflag : s.motion.circleMoveFlag = true := (Bool.and_eq_true _ _ ▸ h3).2
    cases hb : moveBlocked s with
    | true =>
      exact .nothing (by rw [he, hb]; rfl) (fun env => by rw [hrun, runCircle, hb, Bool.or_true]; rfl)
    | false => exact .circle (by rw [he, hb]; rfl) (by rw [hflag, hb]; rfl) hrun
  by_cases h4 : (s.ctl.modeUd && s.motion.udMoveFlag) = true
  · have hrun : ∀ env : Env K, runMode env raw s = runUd env raw s := fun env => by
      rw [runMode, if_neg h1, if_neg h2, if_neg h3, if_pos h4]
    have he : s.entered = if moveBlocked s then none else some .runUd := by
      rw [Rb.entered, if_neg h1, if_neg h2, if_neg h3, if_pos h4]
    have hflag : s.motion.udMoveFlag = true := (Bool.and_eq_true _ _ ▸ h4).2
    cases hb : moveBlocked s with
    | true =>
      exact .nothing (by rw [he, hb]; rfl) (fun env => by rw [hrun, runUd, hb, Bool.or_true]; rfl)
    | false => exact .ud (by rw [he, hb]; rfl) (by rw [hflag, hb]; rfl) hrun
  · exact .nothing (by rw [Rb.entered, if_neg h1, if_neg h2, if_neg h3, if_neg h4])
      (fun env => by rw [runMode, if_neg h1, if_neg h2, if_neg h3, if_neg h4])

theorem sight_runMode (env : Env K) (raw : K) (s : Rb K) :
    (runMode env raw s).sight = if s.entered.isSome then s.readSight raw else s.sight := by
  cases dispatch raw s with
  | hover he hr =>
    rw [he, hr]
    exact sight_runHover env raw s
  | lr he hg hr =>
    rw [he, hr, sight_runLr, hg]
    rfl
  | circle he hg hr =>
    rw [he, hr, sight_runCircle, hg]
    rfl
  | ud he hg hr =>
    rw [he, hr, sight_runUd, hg]
    rfl
  | nothing he hr =>
    rw [he, hr]
    rfl

/-- The run logic in its four cases. -/
theorem runLogic_eq (env : Env K) (raw : K) (s : Rb K) : runLogic env raw s =
    if s.cycle.finishes then
      finishCycle { s with ctl := { s.ctl with currentPoint := s.ctl.currentPoint + 1 } }
    else if s.cycle.switchesPoint then
      switchPoint env { s with ctl := { s.ctl with currentPoint := s.ctl.currentPoint + 1 } }
    else if s.ctl.running then runMode env raw s
    else s := by
  have hfinishes : s.cycle.finishes = (s.ctl.running &&
      decide (s.here.pointDuration ≤ s.here.pointTimer) &&
      decide (s.ctl.pointCount ≤ s.ctl.currentPoint + 1)) := rfl
  have hswitches : s.cycle.switchesPoint = (s.ctl.running &&
      decide (s.here.pointDuration ≤ s.here.pointTimer) &&
      decide (s.ctl.currentPoint + 1 < s.ctl.pointCount)) := rfl
  simp only [runLogic]
  rw [hfinishes, hswitches]
  by_cases hr : s.ctl.running = true
  · by_cases hd : s.here.pointDuration ≤ s.here.pointTimer
    · by_cases hn : s.ctl.pointCount ≤ s.ctl.currentPoint + 1
      · simp [hr, hd, hn]
      · have hlt : s.ctl.currentPoint + 1 < s.ctl.pointCount := by omega
        simp [hr, hd, hn, hlt]
    · simp [hr, hd]
  · simp [hr]

/-- The run logic has reached its mode dispatch. -/
def Rb.dispatches (s : Rb K) : Bool := s.ctl.running && !s.cycle.pointDue

theorem runLogic_of_dispatches {env : Env K} {raw : K} {s : Rb K} (h : s.dispatches = true) :
    runLogic env raw s = runMode env raw s := by
  simp only [Rb.dispatches, Bool.and_eq_true, Bool.not_eq_true'] at h
  rw [runLogic_eq]
  simp [Cycle.finishes, Cycle.switchesPoint, h]

/-- The run logic writes no coordinates, and takes a reading where a motion function is
entered. -/
theorem sight_runLogic (env : Env K) (raw : K) (s : Rb K) : (runLogic env raw s).sight =
    if s.dispatches && s.entered.isSome then s.readSight raw else s.sight := by
  cases hd : s.dispatches with
  | true =>
    rw [runLogic_of_dispatches hd]
    exact sight_runMode env raw s
  | false =>
    rw [runLogic_eq, Bool.false_and, if_neg Bool.false_ne_true]
    split_ifs with hf hs hr
    · rfl
    · exact sight_of_scene (scene_startReturnDelay env 5 _ _)
    · have hdue : s.cycle.pointDue = true := by simpa [Rb.dispatches, hr] using hd
      simp only [Cycle.finishes, Cycle.switchesPoint, hdue, Bool.true_and, decide_eq_true_eq] at hf hs
      omega
    · rfl

theorem sight_sensors (raw : K) (pitch : Option K) (s : Rb K) :
    (sensors raw pitch s).sight = { s.sight with tof := (filteredTof raw s.tof).2 } := by
  simp only [sensors]
  split_ifs <;> rfl

theorem sight_manual (env : Env K) (s : Rb K) : (manual env s).sight = s.sight := by
  simp only [manual]
  split_ifs <;> rfl

/-- Only keys write coordinates and baselines. -/
theorem site_stage (env : Env K) (s : Rb K) {a : Stage K} (ha : ∀ k, a.move ≠ .key k) :
    (stage env s a).sight.site = s.sight.site := by
  cases a with
  | lcd b raw => exact absurd rfl (ha _)
  | ir b raw => exact absurd rfl (ha _)
  | returnDelay => exact congrArg Scene.site (congrArg Ground.scene (ground_returnDelay s))
  | runLogic raw =>
    show (runLogic env raw s).sight.site = s.sight.site
    rw [sight_runLogic]
    split <;> rfl
  | sensors raw pitch =>
    show (sensors raw pitch s).sight.site = s.sight.site
    rw [sight_sensors]
  | manual => exact congrArg Sight.site (sight_manual env s)
  | tick => exact congrArg Scene.site (congrArg Ground.scene (ground_tick s))

end

end RoboticArm
