import RoboticArm.Sight
import RoboticArm.Replay
import Mathlib.Tactic.Linarith
import Mathlib.Tactic.NormNum

/- Where the arm is sent.

   The joint search is called in eight places, and each of them clamps a different part
   of its target. `called` gives the call a stage makes; `stage_congr` says that a stage
   depends on the search by its answer to that call only, so that no call is left out.

   1. `Boxed`: the jog target is in the box and every marked point strictly inside it.
      Every stage keeps it, because marking tests the coordinates and the height keys
      test the height they adjust.
   2. `coordinates_safe`: hence every target that is called for is in the box, where the
      point it belongs to is a marked one. -/
namespace RoboticArm

/-! ## The box -/

section
variable {K : Type} [Field K] [LinearOrder K]

/-- In the box that the coordinates are clamped to. -/
structure InBox (p : Pos K) : Prop where
  x : xMin ≤ p.x ∧ p.x ≤ xMax
  y : yMin ≤ p.y ∧ p.y ≤ yMax
  z : zMin ≤ p.z ∧ p.z ≤ zMax

/-- Strictly inside it. -/
structure Inside (p : Pos K) : Prop where
  x : xMin < p.x ∧ p.x < xMax
  y : yMin < p.y ∧ p.y < yMax
  z : zMin < p.z ∧ p.z < zMax

theorem Inside.inBox {p : Pos K} (h : Inside p) : InBox p :=
  ⟨⟨h.x.1.le, h.x.2.le⟩, ⟨h.y.1.le, h.y.2.le⟩, ⟨h.z.1.le, h.z.2.le⟩⟩

theorem checkCoordinateRange_iff {p : Pos K} : checkCoordinateRange p = true ↔ Inside p := by
  simp only [checkCoordinateRange, Bool.not_eq_true', decide_eq_false_iff_not, not_or, not_le]
  constructor
  · rintro ⟨hx, hx', hy, hy', hz, hz'⟩
    exact ⟨⟨hx, hx'⟩, ⟨hy, hy'⟩, ⟨hz, hz'⟩⟩
  · rintro ⟨⟨hx, hx'⟩, ⟨hy, hy'⟩, ⟨hz, hz'⟩⟩
    exact ⟨hx, hx', hy, hy', hz, hz'⟩

/-- The jog target is in the box, and every marked point strictly inside it. -/
structure Rb.Boxed (s : Rb K) : Prop where
  jog : InBox s.jog.cur
  marked : ∀ i < s.ctl.pointCount, Inside (s.points i).pos

theorem Inside.raised {p : Pos K} {dz : K} (h : Inside p) (hlo : zMin < p.z + dz)
    (hhi : p.z + dz < zMax) :
    Inside { p with z := p.z + dz } := ⟨h.x, h.y, hlo, hhi⟩

/-- A height key keeps the point it adjusts inside: the new height is tested, and the old one
is inside on the other side. -/
theorem marked_raised {s : Rb K} {dz : K} (h : ∀ i < s.ctl.pointCount, Inside (s.points i).pos)
    (hlo : Inside s.here.pos → zMin < s.here.pos.z + dz)
    (hhi : Inside s.here.pos → s.here.pos.z + dz < zMax) :
    ∀ i < s.ctl.pointCount, Inside ((s.raised dz).site i).1 := by
  intro i hi
  simp only [Rb.raised]
  by_cases hcur : i = s.ctl.currentPoint
  · subst hcur
    rw [Function.update_self]
    have hin : Inside s.here.pos := h _ hi
    exact hin.raised (hlo hin) (hhi hin)
  · rw [Function.update_of_ne hcur]
    exact h i hi

variable [IsStrictOrderedRing K]

theorem inBox_clamp (p : Pos K) : InBox (clampCoordinates p) where
  x := clampTo_mem (by norm_num [xMin, xMax]) p.x
  y := clampTo_mem (by norm_num [yMin, yMax]) p.y
  z := clampTo_mem (by norm_num [zMin, zMax]) p.z

theorem boxed_boot : (boot : Rb K).Boxed where
  jog := by constructor <;> norm_num [boot, Jog.boot, xMin, xMax, yMin, yMax, zMin, zMax]
  marked i hi := absurd hi (Nat.not_lt_zero i)

theorem inBox_next {j : Jog K} (h : InBox j.cur) (c : Ctl) (m : Move) : InBox (j.next c m).cur := by
  have hmove : ∀ dx dy dz : K, InBox (j.move dx dy dz).cur := fun dx dy dz => inBox_clamp _
  cases m with
  | key k =>
    cases k with
    | zUp =>
      simp only [Jog.next]
      split
      · exact h
      · exact hmove 0 0 5
    | zDown =>
      simp only [Jog.next]
      split
      · exact h
      · exact hmove 0 0 (-5)
    | xDec => exact hmove (-5) 0 0
    | xInc => exact hmove 5 0 0
    | yInc => exact hmove 0 5 0
    | yDec => exact hmove 0 (-5) 0
    | _ => exact h
  | manual =>
    simp only [Jog.next]
    split
    · exact h
    · exact h
  | _ => exact h

theorem marked_keySight {s : Rb K} (h : ∀ i < s.ctl.pointCount, Inside (s.points i).pos) (raw : K)
    (k : Key) : ∀ i < (s.cycle.nextCourse (checkCoordinateRange s.jog.cur) (.key k)).count,
      Inside ((keySight raw s k).site i).1 := by
  cases k with
  | zUp =>
    intro i hi
    simp only [keySight]
    split
    · next hz =>
      refine marked_raised h (fun hin => ?_) (fun _ => hz.2) i hi
      linarith [hin.z.1]
    · exact h i hi
  | zDown =>
    intro i hi
    simp only [keySight]
    split
    · next hz =>
      refine marked_raised h (fun _ => ?_) (fun hin => ?_) i hi
      · linarith [hz.2]
      · linarith [hin.z.2]
    · exact h i hi
  | mark =>
    intro i hi
    simp only [keySight]
    simp only [Cycle.nextCourse] at hi
    split at hi
    · next hm =>
      rw [if_pos hm]
      by_cases hnew : i = s.ctl.pointCount
      · subst hnew
        simp only [Function.update_self]
        simp only [Cycle.marks, Bool.and_eq_true] at hm
        exact checkCoordinateRange_iff.1 hm.2
      · simp only [Function.update_of_ne hnew]
        exact h i (Nat.lt_of_le_of_ne (Nat.lt_succ_iff.1 hi) hnew)
    · next hm =>
      rw [if_neg hm]
      exact h i hi
  | start =>
    intro i hi
    rw [Cycle.count_nextCourse _ s.cycle (m := .key .start) (by simp) (by simp)] at hi
    exact h i hi
  | clear => exact fun i hi => absurd hi (Nat.not_lt_zero i)
  | _ => exact h

theorem Rb.Boxed.stage {env : Env K} {s : Rb K} (h : s.Boxed) (a : Stage K) :
    (stage env s a).Boxed := by
  have hjog : InBox (RoboticArm.stage env s a).jog.cur := by
    rw [jog_stage]
    exact inBox_next h.jog s.ctl a.move
  have hcount : (RoboticArm.stage env s a).ctl.pointCount =
      (s.cycle.nextCourse (checkCoordinateRange s.jog.cur) a.move).count := by
    show (RoboticArm.stage env s a).cycle.ctl.course.count = _
    rw [cycle_stage, Cycle.course_move]
  have hkeys : ∀ (raw : K) (k : Key), a.move = .key k →
      (RoboticArm.stage env s a).sight = keySight raw s k →
      ∀ i < (RoboticArm.stage env s a).ctl.pointCount,
        Inside ((RoboticArm.stage env s a).sight.site i).1 := by
    intro raw k hm hsight i hi
    rw [hcount, hm] at hi
    rw [hsight]
    exact marked_keySight h.marked raw k i hi
  refine ⟨hjog, ?_⟩
  intro i hi
  show Inside ((RoboticArm.stage env s a).sight.site i).1
  cases a with
  | lcd b raw => exact hkeys raw _ rfl (sight_onKey env raw s _) i hi
  | ir b raw => exact hkeys raw _ rfl (sight_onKey env raw s _) i hi
  | _ =>
    rw [site_stage env s fun _ h => Move.noConfusion h]
    have hkept := hcount.trans
        (Cycle.count_nextCourse _ s.cycle (fun h => Move.noConfusion h) fun h => Move.noConfusion h)
    exact h.marked i (hi.trans_eq hkept)

theorem boxed_stages (env : Env K) (as : List (Stage K)) : (Runs.exec (stage env) boot as).Boxed :=
  Runs.exec_inv (fun _ a h => h.stage a) as boxed_boot

end

/-! ## The calls of the search -/

/-- A call of `robot_arm_5dof_method2`. -/
structure Call (K : Type) where
  place : Place
  target : Pos K
  deriving DecidableEq

/-- The point a call is made for, if it is one of the table. -/
def Place.point (c : Ctl) : Place → Option Nat
  | .manual | .mark => none
  | .moveToPoint i => some i
  | .adjustZ | .runHover | .runLr | .runCircle | .runUd => some c.currentPoint

section
variable {K : Type} [Field K] {env env' : Env K}

/-- The two searches give the same answer to a call. -/
def Agree (env env' : Env K) (a : Arm K) (c : Option (Call K)) : Prop :=
  ∀ d ∈ c, env'.solve a d.target.x d.target.y d.target.z = env.solve a d.target.x d.target.y d.target.z

theorem solveFor_congr {s : Rb K} {a : Arm K} {p : Pos K} {c : Call K} (hm : env'.math = env.math)
    (h : Agree env env' a (some c)) (hs : s.arm = a) (hp : p = c.target) :
    solveFor env' p s = solveFor env p s := by
  have hsolve : env'.solve s.arm p.x p.y p.z = env.solve s.arm p.x p.y p.z := by
    rw [hs, hp]
    exact h c rfl
  simp only [solveFor, solution, robotArm5dofMethod2]
  rw [hm, hsolve]

theorem adjustZ_congr {s : Rb K} {dz : K} {prompt : Nat} (hm : env'.math = env.math)
    (h : Agree env env' s.arm (some ⟨.adjustZ, { s.here.pos with z := s.here.pos.z + dz }⟩)) :
    adjustZ env' dz prompt s = adjustZ env dz prompt s := by
  let p : Pos K := { s.here.pos with z := s.here.pos.z + dz }
  let s₁ := s.setPoint s.ctl.currentPoint { s.here with pos := p }
  have hsolve : solveFor env' p s₁ = solveFor env p s₁ := solveFor_congr hm h rfl rfl
  let store : Rb K → Rb K := fun t =>
    (t.setPoint s.ctl.currentPoint
      { t.here with j := t.arm.global, jiuliBaseline := t.here.jiuliBaseline + dz }).setYuyin prompt
  show store (solveFor env' p s₁) = store (solveFor env p s₁)
  rw [hsolve]

variable [LinearOrder K]

/-- A replay solves a marked point that is stored with five zero angles. -/
def replayCall (i : Nat) (s : Rb K) : Option (Call K) :=
  if i < s.ctl.pointCount ∧ (s.points i).j = Joints.zero then
    some ⟨.moveToPoint i, (s.points i).pos⟩
  else none

def keyCall (s : Rb K) : Key → Option (Call K)
  | .zUp =>
    if s.ctl.running = true ∧ s.here.pos.z + 5 < zMax then
      some ⟨.adjustZ, { s.here.pos with z := s.here.pos.z + 5 }⟩
    else none
  | .zDown =>
    if s.ctl.running = true ∧ zMin < s.here.pos.z - 5 then
      some ⟨.adjustZ, { s.here.pos with z := s.here.pos.z + -5 }⟩
    else none
  | .mark =>
    if s.cycle.marks (checkCoordinateRange s.jog.cur) then some ⟨.mark, s.jog.cur⟩
    else if s.cycle.remodes then replayCall s.ctl.currentPoint s
    else none
  | .start => if s.cycle.restarts || s.cycle.firstStarts then replayCall 0 s else none
  | _ => none

/-- `target_x` of `run_lr`. -/
def lrTargetX (p : SimplePoint K) : K :=
  match p.position with
  | 0 => p.pos.x + 3
  | 1 => p.pos.x - 3
  | 2 => p.pos.x + 3
  | _ => p.pos.x

/-- The target of a motion function, for the compensation `z`. -/
def motionTarget (m : MathH K) (z : K) (s : Rb K) : Place → Pos K
  | .runLr =>
    { clampCoordinates ⟨lrTargetX s.here, s.here.pos.y, s.here.pos.z + z⟩ with y := s.here.pos.y }
  | .runCircle =>
    let rad : K := s.motion.angleIdx * (360 / circlePoints) * (31415926 / 10000000) / 180
    clampCoordinates
      ⟨s.here.pos.x + 8 * m.cos rad, s.here.pos.y + 8 * m.sin rad, s.here.pos.z + z⟩
  | .runUd =>
    let t : K := (s.motion.udTrajStep * interpStepsModeUd + s.motion.udInterpCount : Nat) /
      (udTrajectoryPoints * interpStepsModeUd : Nat)
    clampCoordinates
      { s.here.pos with z := s.here.pos.z + 8 * (2 * smoothSCurve m t - 1) + z }
  | _ => clampCoordinates { s.here.pos with z := s.here.pos.z + z }

/-- `run_hover` calls the search where there is something to compensate, the others always. -/
def motionCall (m : MathH K) (raw : K) (s : Rb K) : Option (Call K) :=
  let z := (readCompensation raw s).1
  match s.entered with
  | none => none
  | some .runHover => if 1 / 100 < |z| then some ⟨.runHover, motionTarget m z s .runHover⟩ else none
  | some p => some ⟨p, motionTarget m z s p⟩

/-- The call a stage makes. -/
def called (m : MathH K) (s : Rb K) : Stage K → Option (Call K)
  | .lcd b _ => keyCall s (lcdKey b)
  | .ir b _ => keyCall s (irKey b)
  | .runLogic raw =>
    if s.cycle.switchesPoint then replayCall (s.ctl.currentPoint + 1) s
    else if s.dispatches then motionCall m raw s
    else none
  | .manual => if s.jog.moved && !s.ctl.startFlag then some ⟨.manual, s.jog.cur⟩ else none
  | _ => none

theorem moveToPoint_congr {s : Rb K} {i : Nat} (hm : env'.math = env.math)
    (h : Agree env env' s.arm (replayCall i s)) : moveToPoint env' i s = moveToPoint env i s := by
  simp only [moveToPoint]
  by_cases hi : s.ctl.pointCount ≤ i
  · rw [if_pos hi, if_pos hi]
  · rw [if_neg hi, if_neg hi]
    by_cases hz : (s.points i).j = Joints.zero
    · have hcall : replayCall i s = some ⟨.moveToPoint i, (s.points i).pos⟩ :=
        if_pos ⟨Nat.lt_of_not_le hi, hz⟩
      rw [hcall] at h
      simp only [hz, if_true]
      rw [solveFor_congr hm h rfl rfl]
    · simp only [hz, if_false]

theorem startReturnDelay_congr {s : Rb K} {type i : Nat} (hm : env'.math = env.math)
    (h : Agree env env' s.arm (replayCall i s)) :
    startReturnDelay env' type i s = startReturnDelay env type i s := by
  let s₁ : Rb K := { s.note (.startReturnDelay type i) with ctl := { s.ctl with returnType := type } }
  have hmove : moveToPoint env' i s₁ = moveToPoint env i s₁ := moveToPoint_congr hm h
  let wait : Rb K → Rb K := fun t =>
    { t with ctl := { t.ctl with returnInProgress := true, returnDelayFlag := false } }
  show wait (if i < s.ctl.pointCount then moveToPoint env' i s₁ else s₁) =
    wait (if i < s.ctl.pointCount then moveToPoint env i s₁ else s₁)
  rw [hmove]

theorem switchMode_congr {s : Rb K} {m : Nat} (hm : env'.math = env.math)
    (h : (s.ctl.startFlag && decide (0 < s.ctl.pointCount)) = true →
      Agree env env' s.arm (replayCall s.ctl.currentPoint s)) :
    switchMode env' m s = switchMode env m s := by
  let s₁ : Rb K := { s.note (.switchMode m) with ctl := s.ctl.stopTimers.setMode m }
  show (if s.ctl.startFlag && decide (0 < s.ctl.pointCount) then
      startReturnDelay env' 1 s.ctl.currentPoint s₁ else _) =
    if s.ctl.startFlag && decide (0 < s.ctl.pointCount) then
      startReturnDelay env 1 s.ctl.currentPoint s₁ else _
  by_cases hr : (s.ctl.startFlag && decide (0 < s.ctl.pointCount)) = true
  · rw [if_pos hr, if_pos hr]
    exact startReturnDelay_congr (s := s₁) hm (h hr)
  · rw [if_neg hr, if_neg hr]

theorem nextMode_congr {s : Rb K} (hm : env'.math = env.math)
    (h : s.ctl.targetMode.isSome = true → (s.ctl.startFlag && decide (0 < s.ctl.pointCount)) = true →
      Agree env env' s.arm (replayCall s.ctl.currentPoint s)) : nextMode env' s = nextMode env s := by
  have hswitch : ∀ m, s.ctl.targetMode.isSome = true → switchMode env' m s = switchMode env m s :=
    fun m hsome => switchMode_congr hm (h hsome)
  simp only [nextMode, Ctl.targetMode] at hswitch ⊢
  split_ifs at hswitch ⊢ with h1 h2 h3 h4
  · rw [hswitch 2 rfl]
  · rw [hswitch 3 rfl]
  · rw [hswitch 1 rfl]
  · rw [hswitch 0 rfl]
  · rfl

theorem caseMark_congr {s : Rb K} {raw : K} (hm : env'.math = env.math)
    (h : Agree env env' s.arm (keyCall s .mark)) : caseMark env' raw s = caseMark env raw s := by
  have hmarks : s.cycle.marks (checkCoordinateRange s.jog.cur) =
      (s.ctl.canMark && checkCoordinateRange s.jog.cur) := rfl
  have hremodes : s.cycle.remodes = (!s.ctl.canMark && s.ctl.canSwitch && s.ctl.targetMode.isSome &&
      s.ctl.startFlag && decide (0 < s.ctl.pointCount)) := rfl
  simp only [keyCall] at h
  rw [hmarks, hremodes] at h
  simp only [caseMark]
  by_cases hcan : s.ctl.canMark = true
  · rw [if_pos hcan, if_pos hcan]
    by_cases hr : checkCoordinateRange s.jog.cur = true
    · rw [if_pos hr, if_pos hr]
      rw [hcan, hr] at h
      exact solveFor_congr hm h rfl rfl
    · rw [if_neg hr, if_neg hr]
  · rw [if_neg hcan, if_neg hcan]
    by_cases hsw : s.ctl.canSwitch = true
    · rw [if_pos hsw, if_pos hsw]
      apply nextMode_congr hm
      intro hsome hrun
      simp only [Bool.and_eq_true] at hrun
      simpa [hcan, hsw, hsome, hrun] using h
    · rw [if_neg hsw, if_neg hsw]

theorem caseStart_congr {s : Rb K} (hm : env'.math = env.math)
    (h : Agree env env' s.arm (keyCall s .start)) : caseStart env' s = caseStart env s := by
  have hrestarts : s.cycle.restarts = (decide (0 < s.ctl.pointCount) && !s.ctl.startFlag &&
      (s.ctl.cycleComplete && s.ctl.firstImuFlag2)) := rfl
  have hfirst : s.cycle.firstStarts = (decide (0 < s.ctl.pointCount) && !s.ctl.startFlag &&
      !(s.ctl.cycleComplete && s.ctl.firstImuFlag2) &&
      decide (s.ctl.currentPoint = 0 ∧ (s.points 0).pointTimer = 0)) := rfl
  have hrestart : Agree env env' s.arm (replayCall 0 s) → restart env' s = restart env s := by
    intro h0
    let s₁ : Rb K := { ignite s with
      ctl := { (ignite s).ctl with currentPoint := 0, cycleComplete := false } }
    let s₂ : Rb K := s₁.mapMarked fun p => { p with pointTimer := 0, position := 0 }
    let s₃ : Rb K := { s₂ with motion := s₂.motion.resetUd }
    have hcall : replayCall 0 s₃ = replayCall 0 s := by
      have hpos : (s₃.points 0).pos = (s.points 0).pos := by
        show (if 0 < s.ctl.pointCount then _ else _ : SimplePoint K).pos = _
        split <;> rfl
      have hj : (s₃.points 0).j = (s.points 0).j := by
        show (if 0 < s.ctl.pointCount then _ else _ : SimplePoint K).j = _
        split <;> rfl
      simp only [replayCall]
      rw [hpos, hj]
      rfl
    exact startReturnDelay_congr (s := s₃) hm (hcall ▸ h0)
  simp only [keyCall] at h
  rw [hrestarts, hfirst] at h
  simp only [caseStart]
  by_cases hp : 0 < s.ctl.pointCount
  · rw [if_pos hp, if_pos hp]
    by_cases hs : s.ctl.startFlag = true
    · rw [if_pos hs, if_pos hs]
    · rw [if_neg hs, if_neg hs]
      by_cases hc : (s.ctl.cycleComplete && s.ctl.firstImuFlag2) = true
      · rw [if_pos hc, if_pos hc]
        apply hrestart
        simpa [hp, hs, hc] using h
      · rw [if_neg hc, if_neg hc]
        by_cases hf : s.ctl.currentPoint = 0 ∧ (s.points 0).pointTimer = 0
        · rw [if_pos hf, if_pos hf]
          have h0 : Agree env env' s.arm (replayCall 0 s) := by simpa [hp, hs, hc, hf] using h
          exact startReturnDelay_congr (s := ignite s) hm h0
        · rw [if_neg hf, if_neg hf]
  · rw [if_neg hp, if_neg hp]

theorem onKey_congr {s : Rb K} {raw : K} (k : Key) (hm : env'.math = env.math)
    (h : Agree env env' s.arm (keyCall s k)) : onKey env' raw s k = onKey env raw s k := by
  cases k with
  | zUp =>
    simp only [onKey, caseZUp]
    by_cases hr : s.ctl.running = true
    · rw [if_pos hr, if_pos hr]
      by_cases hz : s.here.pos.z + 5 < zMax
      · rw [if_pos hz, if_pos hz]
        simp only [keyCall] at h
        rw [if_pos ⟨hr, hz⟩] at h
        rw [adjustZ_congr hm h]
      · rw [if_neg hz, if_neg hz]
    · rw [if_neg hr, if_neg hr]
  | zDown =>
    simp only [onKey, caseZDown]
    by_cases hr : s.ctl.running = true
    · rw [if_pos hr, if_pos hr]
      by_cases hz : zMin < s.here.pos.z - 5
      · rw [if_pos hz, if_pos hz]
        simp only [keyCall] at h
        rw [if_pos ⟨hr, hz⟩] at h
        rw [adjustZ_congr hm h]
      · rw [if_neg hz, if_neg hz]
    · rw [if_neg hr, if_neg hr]
  | mark => exact caseMark_congr hm h
  | start => exact caseStart_congr hm h
  | _ => rfl

theorem runMode_congr {s : Rb K} {raw : K} (hm : env'.math = env.math)
    (h : Agree env env' s.arm (motionCall env.math raw s)) :
    runMode env' raw s = runMode env raw s := by
  simp only [motionCall] at h
  cases dispatch raw s with
  | hover he hr =>
    rw [hr, hr]
    simp only [he] at h
    simp only [runHover]
    split
    · next hz =>
      rw [if_pos hz] at h
      rw [solveFor_congr hm h]
      · rfl
      · rfl
    · rfl
  | lr he hg hr =>
    rw [hr, hr]
    simp only [he] at h
    simp only [runLr]
    rw [hg]
    rw [solveFor_congr hm h]
    · rfl
    · simp only [motionTarget, lrTargetX]
      rw [(readCompensation_position raw s _).1]
      generalize s.here.position = n
      rcases n with _ | _ | _ | n <;> rfl
  | circle he hg hr =>
    rw [hr, hr]
    simp only [he] at h
    simp only [runCircle]
    rw [hg, hm]
    rw [solveFor_congr hm h]
    · rfl
    · rfl
  | ud he hg hr =>
    rw [hr, hr]
    simp only [he] at h
    simp only [runUd]
    rw [hg, hm]
    rw [solveFor_congr hm h]
    · rfl
    · rfl
  | nothing he hr => rw [hr, hr]

theorem runLogic_congr {s : Rb K} {raw : K} (hm : env'.math = env.math)
    (h : Agree env env' s.arm (called env.math s (.runLogic raw))) :
    runLogic env' raw s = runLogic env raw s := by
  simp only [called] at h
  rw [runLogic_eq, runLogic_eq]
  by_cases hf : s.cycle.finishes = true
  · rw [if_pos hf, if_pos hf]
  rw [if_neg hf, if_neg hf]
  by_cases hs : s.cycle.switchesPoint = true
  · rw [if_pos hs] at h
    rw [if_pos hs, if_pos hs]
    exact startReturnDelay_congr (i := s.ctl.currentPoint + 1) hm h
  rw [if_neg hs] at h
  rw [if_neg hs, if_neg hs]
  by_cases hr : s.ctl.running = true
  · have hd : s.dispatches = true := by
      have hnot : s.cycle.pointDue = false := by
        by_contra hdue
        simp only [Cycle.finishes, Cycle.switchesPoint, Bool.eq_true_of_not_eq_false hdue,
          Bool.true_and, decide_eq_true_eq] at hf hs
        omega
      simp [Rb.dispatches, hr, hnot]
    rw [if_pos hd] at h
    rw [if_pos hr, if_pos hr]
    exact runMode_congr hm h
  · rw [if_neg hr, if_neg hr]

theorem manual_congr {s : Rb K} (hm : env'.math = env.math)
    (h : Agree env env' s.arm (called env.math s .manual)) : manual env' s = manual env s := by
  simp only [called] at h
  simp only [manual]
  by_cases hmoved : (s.jog.moved && !s.ctl.startFlag) = true
  · rw [if_pos hmoved] at h
    rw [if_pos hmoved, if_pos hmoved]
    rw [solveFor_congr hm h]
    · split_ifs <;> rfl
    · split_ifs <;> rfl
  · rw [if_neg hmoved, if_neg hmoved]

/-- A stage depends on the search by its answer to the one call of `called`. -/
theorem stage_congr {s : Rb K} (a : Stage K) (hm : env'.math = env.math)
    (h : Agree env env' s.arm (called env.math s a)) : stage env' s a = stage env s a := by
  cases a with
  | lcd b raw => exact onKey_congr (lcdKey b) hm h
  | ir b raw => exact onKey_congr (irKey b) hm h
  | runLogic raw => exact runLogic_congr hm h
  | manual => exact manual_congr hm h
  | _ => rfl

/-- A stage makes no call of the search but `c`: a search with the same answer to it will do. -/
def OnlyCalls (env : Env K) (s : Rb K) (a : Stage K) (c : Option (Call K)) : Prop :=
  ∀ env' : Env K, env'.math = env.math → Agree env env' s.arm c → stage env' s a = stage env s a

theorem onlyCalls_called (s : Rb K) (a : Stage K) : OnlyCalls env s a (called env.math s a) :=
  fun _ hm h => stage_congr a hm h

/-! ## The targets are in the box -/

theorem inBox_replayCall {s : Rb K} (h : s.Boxed) {i : Nat} {c : Call K}
    (hc : replayCall i s = some c) : InBox c.target := by
  simp only [replayCall] at hc
  split at hc
  · next hi =>
    cases hc
    exact (h.marked i hi.1).inBox
  · exact absurd hc (by simp)

theorem inBox_adjustZ {s : Rb K} {dz : K} (hin : Inside s.here.pos)
    (hlo : zMin < s.here.pos.z + dz) (hhi : s.here.pos.z + dz < zMax) :
    InBox ({ s.here.pos with z := s.here.pos.z + dz } : Pos K) := (hin.raised hlo hhi).inBox

variable [IsStrictOrderedRing K]

theorem inBox_keyCall {s : Rb K} (h : s.Boxed) {k : Key} {c : Call K} (hc : keyCall s k = some c)
    (hp : ∀ i ∈ c.place.point s.ctl, i < s.ctl.pointCount) : InBox c.target := by
  cases k with
  | zUp =>
    simp only [keyCall] at hc
    split at hc
    · next hz =>
      cases hc
      have hin : Inside s.here.pos := h.marked _ (hp _ rfl)
      exact inBox_adjustZ hin (by linarith [hin.z.1]) hz.2
    · exact absurd hc (by simp)
  | zDown =>
    simp only [keyCall] at hc
    split at hc
    · next hz =>
      cases hc
      have hin : Inside s.here.pos := h.marked _ (hp _ rfl)
      exact inBox_adjustZ hin (by linarith [hz.2]) (by linarith [hin.z.2])
    · exact absurd hc (by simp)
  | mark =>
    simp only [keyCall] at hc
    split_ifs at hc
    · cases hc
      exact h.jog
    · exact inBox_replayCall h hc
  | start =>
    simp only [keyCall] at hc
    split at hc
    · exact inBox_replayCall h hc
    · exact absurd hc (by simp)
  | _ => exact absurd hc (by simp [keyCall])

/-- The motion functions clamp, but for the `y` of `run_lr`, which is that of the marked point. -/
theorem inBox_motionTarget {s : Rb K} (h : s.Boxed) (hm : s.ctl.currentPoint < s.ctl.pointCount)
    (m : MathH K) (z : K) (p : Place) : InBox (motionTarget m z s p) := by
  cases p with
  | runLr =>
    have hclamp := inBox_clamp ⟨lrTargetX s.here, s.here.pos.y, s.here.pos.z + z⟩
    exact ⟨hclamp.x, (h.marked _ hm).inBox.y, hclamp.z⟩
  | _ => exact inBox_clamp _

theorem inBox_motionCall {s : Rb K} (h : s.Boxed) {m : MathH K} {raw : K} {c : Call K}
    (hc : motionCall m raw s = some c) (hp : ∀ i ∈ c.place.point s.ctl, i < s.ctl.pointCount) :
    InBox c.target := by
  cases dispatch raw s with
  | hover he _ =>
    simp only [motionCall, he] at hc
    split at hc
    · cases hc
      exact inBox_motionTarget h (hp _ rfl) m _ .runHover
    · exact absurd hc (by simp)
  | lr he _ _ =>
    simp only [motionCall, he] at hc
    cases hc
    exact inBox_motionTarget h (hp _ rfl) m _ .runLr
  | circle he _ _ =>
    simp only [motionCall, he] at hc
    cases hc
    exact inBox_motionTarget h (hp _ rfl) m _ .runCircle
  | ud he _ _ =>
    simp only [motionCall, he] at hc
    cases hc
    exact inBox_motionTarget h (hp _ rfl) m _ .runUd
  | nothing he _ =>
    simp only [motionCall, he] at hc
    exact absurd hc (by simp)

theorem inBox_called {s : Rb K} (h : s.Boxed) {m : MathH K} {a : Stage K} {c : Call K}
    (hc : called m s a = some c) (hp : ∀ i ∈ c.place.point s.ctl, i < s.ctl.pointCount) :
    InBox c.target := by
  cases a with
  | lcd b raw => exact inBox_keyCall h hc hp
  | ir b raw => exact inBox_keyCall h hc hp
  | runLogic raw =>
    simp only [called] at hc
    split_ifs at hc
    · exact inBox_replayCall h hc
    · exact inBox_motionCall h hc hp
  | manual =>
    simp only [called] at hc
    split at hc
    · cases hc
      exact h.jog
    · exact absurd hc (by simp)
  | _ => exact absurd hc (by simp [called])

/-- In every state that stages in any order lead to, the jog target is in the box and every
marked point strictly inside it, and a stage with any reading calls the search for a target
in the box, if the point it calls it for is a marked one. -/
theorem coordinates_safe (env : Env K) (as : List (Stage K)) :
    let s := Runs.exec (stage env) boot as
    InBox s.jog.cur ∧ (∀ i < s.ctl.pointCount, Inside (s.points i).pos) ∧
      ∀ a, OnlyCalls env s a (called env.math s a) ∧
        ∀ c, called env.math s a = some c →
          (∀ i ∈ c.place.point s.ctl, i < s.ctl.pointCount) → InBox c.target := by
  intro s
  have h : s.Boxed := boxed_stages env as
  exact ⟨h.jog, h.marked, fun a => ⟨onlyCalls_called s a, fun _ hc hp => inBox_called h hc hp⟩⟩

end

/-- One point is marked and started. -/
def startKeys : List (Stage ℚ) :=
  ([press 0xf3, press 0xfb, press 0xfc] ++ ticks 60 ++ [idle]).flatMap Step.stages

/-- The height key adjusts it. -/
theorem coordinates_safe_raise :
    called answering.math (Runs.exec (stage answering) boot startKeys) (.lcd 0xf1 0) =
        some ⟨.adjustZ, ⟨5, 30, 30⟩⟩ ∧ InBox (⟨5, 30, 30⟩ : Pos ℚ) := by
  have hcall : called answering.math (Runs.exec (stage answering) boot startKeys) (.lcd 0xf1 0) =
      some ⟨.adjustZ, ⟨5, 30, 30⟩⟩ := by
    decide +kernel
  have hmarked : (Runs.exec (stage answering) boot startKeys).ctl.currentPoint <
      (Runs.exec (stage answering) boot startKeys).ctl.pointCount := by
    decide +kernel
  obtain ⟨-, -, hcalls⟩ := coordinates_safe answering startKeys
  refine ⟨hcall, (hcalls (.lcd 0xf1 0)).2 _ hcall ?_⟩
  intro i hi
  obtain rfl := Option.some.inj hi
  exact hmarked

end RoboticArm
