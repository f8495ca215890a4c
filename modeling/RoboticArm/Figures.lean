import RoboticArm.WholeArm
import Mathlib.Analysis.SpecialFunctions.Trigonometric.Bounds
import Mathlib.Analysis.Real.Pi.Bounds

/- The figures that the moving modes draw round a point.

   In each of its periods a moving mode sends the arm to the next target of a figure:
   left and right of the point, eight places of a circle round it, or twenty-four heights
   above and below it. Which one is next is kept in counters that nothing else reads: the
   index of the circle is one static for all points, the counters of the up-down figure
   one pair of globals, the side of the left-right figure is stored with the point.

   1. `Strokes` counts, beside a run, the strokes made of each figure since it was begun.
      A left-right figure begins when its point is marked, cleared, restarted or returned
      to after a mode change or a point switch, the up-down figure with the last three of
      these, the circle at power-on only.
   2. `pencil` says which figure a stage begins or goes on with, from the flags alone.
      `phases_stage`: the counters move so, with one lemma for each function; `Drawn` ties
      them to the strokes.
   3. `figures_drawn`: so in every run the targets are the places of the figures, one after
      the other. -/
namespace RoboticArm

/-- The counters of the figures. -/
structure Phases where
  angleIdx : Nat
  udTrajStep : Nat
  udInterpCount : Nat
  position : Nat → Nat

/-- The strokes of each figure since it was begun, the left-right one for each point. -/
structure Strokes where
  circle : Nat
  upDown : Nat
  sides : Nat → Nat

section
variable {K : Type}

def Rb.phases (s : Rb K) : Phases :=
  ⟨s.motion.angleIdx, s.motion.udTrajStep, s.motion.udInterpCount, fun i => (s.points i).position⟩

/-! ## What a stage does to the counters -/

/-- The side of the left-right figure after a stroke. -/
def nextSide (n : Nat) : Nat := if n = 0 ∨ n = 2 then 1 else if n = 1 then 2 else 0

/-- What a stage is to the figures: nothing, the beginning of the left-right figures of some
points, and with them perhaps of the up-down figure, or a stroke at a point. -/
inductive Pencil where
  | keep
  | begin (which : Nat → Bool) (upDown : Bool)
  | stroke (i : Nat) (place : Place)

namespace Phases

def begin (which : Nat → Bool) (upDown : Bool) (p : Phases) : Phases where
  angleIdx := p.angleIdx
  udTrajStep := if upDown then 0 else p.udTrajStep
  udInterpCount := if upDown then 0 else p.udInterpCount
  position := fun i => if which i then 0 else p.position i

def stroke (i : Nat) (p : Phases) : Place → Phases
  | .runLr => { p with position := Function.update p.position i (nextSide (p.position i)) }
  | .runCircle => { p with angleIdx := (p.angleIdx + 1) % circlePoints }
  | .runUd =>
    if interpStepsModeUd ≤ p.udInterpCount + 1 then
      if udTrajectoryPoints ≤ p.udTrajStep + 1 then { p with udInterpCount := 0, udTrajStep := 0 }
      else { p with udInterpCount := 0, udTrajStep := p.udTrajStep + 1 }
    else { p with udInterpCount := p.udInterpCount + 1 }
  | _ => p

def draw (p : Phases) : Pencil → Phases
  | .keep => p
  | .begin which upDown => p.begin which upDown
  | .stroke i place => p.stroke i place

end Phases

/-- The return that completes is one behind which the figures begin again. -/
def Cycle.rebegins (c : Cycle) : Bool :=
  c.ctl.returnDue && (c.ctl.returnType == 1 || c.ctl.returnType == 5)

def keyPencil [LinearOrder K] [Field K] (s : Rb K) : Key → Pencil
  | .mark =>
    if s.cycle.marks (checkCoordinateRange s.jog.cur) then .begin (· == s.ctl.pointCount) false
    else .keep
  | .start =>
    if s.cycle.restarts then .begin (fun i => decide (i < s.ctl.pointCount)) true else .keep
  | .clear => .begin (fun i => decide (i < maxPoints)) false
  | _ => .keep

def pencil [LinearOrder K] [Field K] (s : Rb K) : Stage K → Pencil
  | .lcd b _ => keyPencil s (lcdKey b)
  | .ir b _ => keyPencil s (irKey b)
  -- types 1 and 5 set the side of the point and the trajectory back
  | .returnDelay => if s.cycle.rebegins then .begin (· == s.ctl.currentPoint) true else .keep
  | .runLogic _ =>
    if s.dispatches then (s.entered.map (.stroke s.ctl.currentPoint)).getD .keep else .keep
  | _ => .keep

@[simp] theorem phases_send (cs : List (Cmd K)) (s : Rb K) : (s.send cs).phases = s.phases := rfl

theorem phases_setPoint {i : Nat} {p : SimplePoint K} {s : Rb K}
    (h : p.position = (s.points i).position) : (s.setPoint i p).phases = s.phases := by
  simp only [Rb.phases, Rb.setPoint, point_update SimplePoint.position h]

theorem phases_setPoint_begin {i : Nat} {p : SimplePoint K} {s : Rb K} (h : p.position = 0) :
    (s.setPoint i p).phases = s.phases.begin (· == i) false := by
  simp only [Rb.phases, Rb.setPoint, Phases.begin, Bool.false_eq_true, if_false, Phases.mk.injEq,
    true_and]
  funext k
  by_cases hk : k = i
  · subst hk
    simp [h]
  · simp [hk]

theorem phases_mapMarked {f : SimplePoint K → SimplePoint K} (hf : ∀ p, (f p).position = p.position)
    (s : Rb K) : (s.mapMarked f).phases = s.phases := by
  simp only [Rb.phases, Rb.mapMarked, Phases.mk.injEq, true_and]
  funext k
  split
  · exact hf _
  · rfl

theorem phases_tick (s : Rb K) : (tim3IrqHandler s).phases = s.phases := by
  have hpoint : ∀ t : Rb K, (tickPoint t).phases = t.phases := by
    intro t
    simp only [tickPoint]
    split
    · exact phases_setPoint rfl
    · rfl
  have hreturn : ∀ t : Rb K, (tickReturn t).phases = t.phases := by
    intro t
    simp only [tickReturn]
    split_ifs <;> rfl
  have hflame : ∀ t : Rb K, (tickFlame t).phases = t.phases := by
    intro t
    simp only [tickFlame]
    split_ifs <;> rfl
  have h100 : ∀ t : Rb K, (tick100ms t).phases = t.phases := by
    intro t
    simp only [tick100ms]
    split <;> rfl
  simp only [tim3IrqHandler]
  rw [hpoint, hreturn]
  exact (hflame _).trans (h100 _)

theorem phases_mapDuration (f : Nat → Nat) (d : Nat) (s : Rb K) :
    (({ s with ctl := { s.ctl with pointDuration := d } } : Rb K).mapMarked
      fun p => { p with pointDuration := f p.pointDuration }).phases = s.phases := by
  refine phases_mapMarked ?_ { s with ctl := { s.ctl with pointDuration := d } }
  intro p
  rfl

theorem phases_runTimeAdd (s : Rb K) : (runTimeAdd s).phases = s.phases := by
  unfold runTimeAdd
  split
  · exact phases_mapDuration (fun d => u32 (d + 60000)) _ s
  · rfl

theorem phases_runTimeMinus (s : Rb K) : (runTimeMinus s).phases = s.phases := by
  unfold runTimeMinus
  split
  · exact phases_mapDuration (fun d => u32 (d + 2 ^ 32 - 60000)) _ s
  · rfl

theorem phases_udAdvance (s : Rb K) :
    ({ s with motion := { udAdvance s.motion with udMoveFlag := false } } : Rb K).phases =
      s.phases.stroke s.ctl.currentPoint .runUd := by
  simp only [Phases.stroke]
  show Phases.mk (udAdvance s.motion).angleIdx (udAdvance s.motion).udTrajStep
    (udAdvance s.motion).udInterpCount s.phases.position = _
  unfold udAdvance
  show _ = if interpStepsModeUd ≤ s.motion.udInterpCount + 1 then
    if udTrajectoryPoints ≤ s.motion.udTrajStep + 1 then _ else _ else _
  dsimp only
  split_ifs <;> rfl

variable [Field K]

theorem phases_returnDelay (s : Rb K) : (returnDelay s).phases =
    s.phases.draw (if s.cycle.rebegins then .begin (· == s.ctl.currentPoint) true else .keep) := by
  have hrebegins : s.cycle.rebegins =
      (s.ctl.returnDue && (s.ctl.returnType == 1 || s.ctl.returnType == 5)) := rfl
  rw [hrebegins]
  unfold returnDelay
  by_cases hdue : s.ctl.returnDue = true
  · rw [if_pos hdue, hdue, Bool.true_and]
    dsimp only
    let beginUd : Phases → Phases := fun p => { p with udTrajStep := 0, udInterpCount := 0 }
    simp only [completeReturn]
    split
    · next ht =>
      rw [show s.ctl.returnType = 1 from ht]
      exact congrArg beginUd (phases_setPoint_begin (s := s) rfl)
    · next ht =>
      rw [show s.ctl.returnType = 2 from ht]
      rfl
    · next ht =>
      rw [show s.ctl.returnType = 3 from ht]
      rfl
    · next ht =>
      rw [show s.ctl.returnType = 4 from ht]
      rfl
    · next ht =>
      rw [show s.ctl.returnType = 5 from ht]
      exact congrArg beginUd (phases_setPoint_begin (s := s) rfl)
    · next h1 _ _ _ h5 =>
      have hno : (s.ctl.returnType == 1 || s.ctl.returnType == 5) = false := by
        simpa using ⟨fun h => h1 h, fun h => h5 h⟩
      rw [hno]
      rfl
  · rw [if_neg hdue, Bool.eq_false_of_not_eq_true hdue]
    rfl

theorem phases_adjustZ (env : Env K) (dz : K) (prompt : Nat) (s : Rb K) :
    (adjustZ env dz prompt s).phases = s.phases := by
  let p : Pos K := { s.here.pos with z := s.here.pos.z + dz }
  let s₁ := s.setPoint s.ctl.currentPoint { s.here with pos := p }
  let s₂ := solveFor env p s₁
  have h₁ : s₁.phases = s.phases := phases_setPoint rfl
  have h₂ : (s₂.setPoint s.ctl.currentPoint { s₂.here with
      j := s₂.arm.global, jiuliBaseline := s₂.here.jiuliBaseline + dz }).phases = s₂.phases :=
    phases_setPoint rfl
  exact h₂.trans h₁

variable [LinearOrder K]

theorem phases_caseClear (s : Rb K) :
    (caseClear s).phases = s.phases.draw (keyPencil s .clear) := by
  simp only [caseClear, Rb.phases, keyPencil, Phases.draw, Phases.begin, Phases.mk.injEq]
  refine ⟨rfl, rfl, rfl, ?_⟩
  funext i
  show (if i < maxPoints then _ else s.points i : SimplePoint K).position = _
  by_cases hi : i < maxPoints <;> simp [hi]

theorem phases_moveToPoint (env : Env K) (i : Nat) (s : Rb K) :
    (moveToPoint env i s).phases = s.phases := by
  simp only [moveToPoint]
  split
  · rfl
  · simp only [phases_send]
    split
    · exact phases_setPoint rfl
    · rfl

theorem phases_startReturnDelay (env : Env K) (type i : Nat) (s : Rb K) :
    (startReturnDelay env type i s).phases = s.phases := by
  simp only [startReturnDelay]
  split
  · exact phases_moveToPoint env i _
  · rfl

theorem phases_switchMode (env : Env K) (m : Nat) (s : Rb K) :
    (switchMode env m s).phases = s.phases := by
  simp only [switchMode]
  split
  · exact phases_startReturnDelay env 1 _ _
  · split <;> rfl

theorem phases_nextMode (env : Env K) (s : Rb K) : (nextMode env s).phases = s.phases := by
  simp only [nextMode]
  split_ifs
  · exact phases_switchMode env 2 s
  · exact phases_switchMode env 3 s
  · exact phases_switchMode env 1 s
  · exact phases_switchMode env 0 s
  · rfl

theorem phases_caseMark (env : Env K) (raw : K) (s : Rb K) :
    (caseMark env raw s).phases = s.phases.draw (keyPencil s .mark) := by
  have hmarks : s.cycle.marks (checkCoordinateRange s.jog.cur) =
      (s.ctl.canMark && checkCoordinateRange s.jog.cur) := rfl
  simp only [caseMark, keyPencil]
  rw [hmarks]
  by_cases hmark : s.ctl.canMark = true
  · rw [if_pos hmark, hmark, Bool.true_and]
    split
    · exact phases_setPoint_begin (s := s) rfl
    · rfl
  · rw [if_neg hmark, Bool.eq_false_of_not_eq_true hmark]
    split
    · exact phases_nextMode env s
    · rfl

theorem phases_restart (env : Env K) (s : Rb K) : (restart env s).phases =
    s.phases.begin (fun i => decide (i < s.ctl.pointCount)) true := by
  simp only [restart]
  rw [phases_startReturnDelay]
  simp only [Rb.phases, Phases.begin, if_true, Phases.mk.injEq]
  refine ⟨rfl, rfl, rfl, ?_⟩
  funext i
  show (if i < s.ctl.pointCount then _ else s.points i : SimplePoint K).position = _
  by_cases hi : i < s.ctl.pointCount <;> simp [hi]

theorem phases_caseStart (env : Env K) (s : Rb K) :
    (caseStart env s).phases = s.phases.draw (keyPencil s .start) := by
  have hrestarts : s.cycle.restarts = (decide (0 < s.ctl.pointCount) && !s.ctl.startFlag &&
      (s.ctl.cycleComplete && s.ctl.firstImuFlag2)) := rfl
  simp only [caseStart, keyPencil]
  rw [hrestarts]
  by_cases hm : 0 < s.ctl.pointCount
  · rw [if_pos hm, decide_eq_true hm]
    cases hs : s.ctl.startFlag with
    | true => rfl
    | false =>
      cases hc : s.ctl.cycleComplete && s.ctl.firstImuFlag2 with
      | true => exact phases_restart env s
      | false =>
        simp only [Bool.false_eq_true, if_false, Bool.and_false]
        split
        · exact phases_startReturnDelay env 4 0 _
        · rfl
  · rw [if_neg hm, decide_eq_false hm]
    rfl

theorem phases_onKey (env : Env K) (raw : K) (s : Rb K) (k : Key) :
    (onKey env raw s k).phases = s.phases.draw (keyPencil s k) := by
  cases k with
  | zUp =>
    show Rb.phases (if s.ctl.running then if s.here.pos.z + 5 < zMax then adjustZ env 5 6 s else s
      else jogBy 0 0 5 s) = s.phases
    split_ifs
    · exact phases_adjustZ env 5 6 s
    · rfl
    · rfl
  | zDown =>
    show Rb.phases (if s.ctl.running then if zMin < s.here.pos.z - 5 then adjustZ env (-5) 7 s else s
      else jogBy 0 0 (-5) s) = s.phases
    split_ifs
    · exact phases_adjustZ env (-5) 7 s
    · rfl
    · rfl
  | mark => exact phases_caseMark env raw s
  | start => exact phases_caseStart env s
  | timeAdd => exact phases_runTimeAdd s
  | timeMinus => exact phases_runTimeMinus s
  | clear => exact phases_caseClear s
  | _ => rfl

/-! ## The strokes -/

theorem phases_runHover (env : Env K) (raw : K) (s : Rb K) :
    (runHover env raw s).phases = s.phases := by
  simp only [runHover]
  split <;> rfl

theorem phases_runLr (env : Env K) (raw : K) {s : Rb K}
    (hg : (!s.motion.lrMoveFlag || moveBlocked s) = false) :
    (runLr env raw s).phases = s.phases.stroke s.ctl.currentPoint .runLr := by
  have hwrite : ∀ n, (s.setPoint s.ctl.currentPoint { s.here with position := n }).phases =
      { s.phases with position := Function.update s.phases.position s.ctl.currentPoint n } := by
    intro n
    simp only [Rb.phases, Rb.setPoint, Phases.mk.injEq, true_and]
    exact Function.comp_update SimplePoint.position s.points s.ctl.currentPoint _
  have hstroke : s.phases.stroke s.ctl.currentPoint .runLr =
      { s.phases with position :=
          Function.update s.phases.position s.ctl.currentPoint (nextSide s.here.position) } := rfl
  rw [hstroke]
  simp only [runLr]
  rw [if_neg (by simp [hg])]
  generalize s.here.position = n
  rcases n with _ | _ | _ | n
  · exact hwrite 1
  · exact hwrite 2
  · exact hwrite 1
  · rw [show nextSide (n + 3) = 0 by simp [nextSide]]
    exact hwrite 0

theorem phases_runCircle (env : Env K) (raw : K) {s : Rb K}
    (hg : (!s.motion.circleMoveFlag || moveBlocked s) = false) :
    (runCircle env raw s).phases = s.phases.stroke s.ctl.currentPoint .runCircle := by
  simp only [runCircle]
  rw [if_neg (by simp [hg])]
  rfl

theorem phases_runUd (env : Env K) (raw : K) {s : Rb K}
    (hg : (!s.motion.udMoveFlag || moveBlocked s) = false) :
    (runUd env raw s).phases = s.phases.stroke s.ctl.currentPoint .runUd := by
  simp only [runUd]
  rw [if_neg (by simp [hg])]
  exact phases_udAdvance (K := K) _

theorem phases_runLogic (env : Env K) (raw : K) (s : Rb K) :
    (runLogic env raw s).phases = s.phases.draw (pencil s (.runLogic raw)) := by
  simp only [pencil]
  cases hd : s.dispatches with
  | true =>
    rw [runLogic_of_dispatches hd, if_pos rfl]
    cases dispatch raw s with
    | hover he hr =>
      rw [he, hr]
      exact phases_runHover env raw s
    | lr he hg hr =>
      rw [he, hr]
      exact phases_runLr env raw hg
    | circle he hg hr =>
      rw [he, hr]
      exact phases_runCircle env raw hg
    | ud he hg hr =>
      rw [he, hr]
      exact phases_runUd env raw hg
    | nothing he hr =>
      rw [he, hr]
      rfl
  | false =>
    rw [runLogic_eq, if_neg Bool.false_ne_true]
    split_ifs with hf hs hr
    · rfl
    · exact phases_startReturnDelay env 5 _ _
    · -- a running arm that does not dispatch is at the end of its time
      have hdue : s.cycle.pointDue = true := by simpa [Rb.dispatches, hr] using hd
      simp only [Cycle.finishes, Cycle.switchesPoint, hdue, Bool.true_and, decide_eq_true_eq] at hf hs
      omega
    · rfl

theorem phases_stage (env : Env K) (s : Rb K) (a : Stage K) :
    (stage env s a).phases = s.phases.draw (pencil s a) := by
  cases a with
  | lcd b raw => exact phases_onKey env raw s (lcdKey b)
  | ir b raw => exact phases_onKey env raw s (irKey b)
  | returnDelay => exact phases_returnDelay s
  | runLogic raw => exact phases_runLogic env raw s
  | sensors raw pitch =>
    show (sensors raw pitch s).phases = s.phases
    unfold sensors
    dsimp only
    split_ifs <;> rfl
  | manual =>
    show (manual env s).phases = s.phases
    unfold manual
    dsimp only
    split_ifs <;> rfl
  | tick => exact phases_tick s

end

/-! ## Counting the strokes -/

namespace Strokes

def begin (which : Nat → Bool) (upDown : Bool) (n : Strokes) : Strokes where
  circle := n.circle
  upDown := if upDown then 0 else n.upDown
  sides := fun i => if which i then 0 else n.sides i

def stroke (i : Nat) (n : Strokes) : Place → Strokes
  | .runLr => { n with sides := Function.update n.sides i (n.sides i + 1) }
  | .runCircle => { n with circle := n.circle + 1 }
  | .runUd => { n with upDown := n.upDown + 1 }
  | _ => n

def draw (n : Strokes) : Pencil → Strokes
  | .keep => n
  | .begin which upDown => n.begin which upDown
  | .stroke i place => n.stroke i place

end Strokes

/-- The strokes of the up-down figure. -/
def udStrokes : Nat := udTrajectoryPoints * interpStepsModeUd

/-- The side stored with a point after `n` strokes. -/
def side (n : Nat) : Nat := if n = 0 then 0 else if n % 2 = 1 then 1 else 2

theorem nextSide_side (n : Nat) : nextSide (side n) = side (n + 1) := by
  by_cases h0 : n = 0
  · subst h0
    rfl
  by_cases h1 : n % 2 = 1
  · have hnext : (n + 1) % 2 ≠ 1 := by omega
    simp [side, nextSide, h0, h1, hnext]
  · have hnext : (n + 1) % 2 = 1 := by omega
    simp [side, nextSide, h0, h1, hnext]

/-- The counters are those of the strokes made. -/
structure Drawn (p : Phases) (n : Strokes) : Prop where
  circle : p.angleIdx = n.circle % circlePoints
  upDown : p.udTrajStep * interpStepsModeUd + p.udInterpCount = n.upDown % udStrokes
  within : p.udInterpCount < interpStepsModeUd
  sides : ∀ i, p.position i = side (n.sides i)

theorem Drawn.begin {p : Phases} {n : Strokes} (which : Nat → Bool) (upDown : Bool) (h : Drawn p n) :
    Drawn (p.begin which upDown) (n.begin which upDown) where
  circle := h.circle
  upDown := by
    cases upDown with
    | true => rfl
    | false => exact h.upDown
  within := by
    cases upDown with
    | true => exact Nat.zero_lt_succ 2
    | false => exact h.within
  sides i := by
    show (if which i then 0 else p.position i) = side (if which i then 0 else n.sides i)
    cases which i with
    | true => rfl
    | false => exact h.sides i

/-- The two counters of the up-down figure count through its strokes. -/
theorem upDown_stroke {p : Phases} {n : Nat} (i : Nat)
    (h : p.udTrajStep * interpStepsModeUd + p.udInterpCount = n % udStrokes)
    (hw : p.udInterpCount < interpStepsModeUd) :
    (p.stroke i .runUd).udTrajStep * interpStepsModeUd + (p.stroke i .runUd).udInterpCount =
        (n + 1) % udStrokes ∧ (p.stroke i .runUd).udInterpCount < interpStepsModeUd := by
  have hbelow : n % udStrokes < udStrokes := Nat.mod_lt n (by decide)
  by_cases hturn : interpStepsModeUd ≤ p.udInterpCount + 1
  · by_cases hlast : udTrajectoryPoints ≤ p.udTrajStep + 1
    · have hstroke : p.stroke i .runUd = { p with udInterpCount := 0, udTrajStep := 0 } :=
        (if_pos hturn).trans (if_pos hlast)
      rw [hstroke]
      simp only [udStrokes, udTrajectoryPoints, interpStepsModeUd] at *
      exact ⟨by omega, by decide⟩
    · have hstroke : p.stroke i .runUd =
          { p with udInterpCount := 0, udTrajStep := p.udTrajStep + 1 } :=
        (if_pos hturn).trans (if_neg hlast)
      rw [hstroke]
      simp only [udStrokes, udTrajectoryPoints, interpStepsModeUd] at *
      exact ⟨by omega, by decide⟩
  · have hstroke : p.stroke i .runUd = { p with udInterpCount := p.udInterpCount + 1 } :=
      if_neg hturn
    rw [hstroke]
    simp only [udStrokes, udTrajectoryPoints, interpStepsModeUd] at *
    exact ⟨by omega, by omega⟩

theorem Drawn.stroke {p : Phases} {n : Strokes} (i : Nat) (place : Place) (h : Drawn p n) :
    Drawn (p.stroke i place) (n.stroke i place) := by
  cases place with
  | runCircle =>
    refine ⟨?_, h.upDown, h.within, h.sides⟩
    show (p.angleIdx + 1) % circlePoints = (n.circle + 1) % circlePoints
    rw [h.circle, Nat.mod_add_mod]
  | runUd =>
    obtain ⟨hcount, hwithin⟩ := upDown_stroke i h.upDown h.within
    have hrest : (p.stroke i .runUd).angleIdx = p.angleIdx ∧
        (p.stroke i .runUd).position = p.position := by
      simp only [Phases.stroke]
      split_ifs <;> exact ⟨rfl, rfl⟩
    exact ⟨hrest.1.trans h.circle, hcount, hwithin, fun k => hrest.2 ▸ h.sides k⟩
  | runLr =>
    refine ⟨h.circle, h.upDown, h.within, ?_⟩
    intro k
    show Function.update p.position i (nextSide (p.position i)) k =
      side (Function.update n.sides i (n.sides i + 1) k)
    by_cases hk : k = i
    · subst hk
      rw [Function.update_self, Function.update_self, h.sides, nextSide_side]
    · rw [Function.update_of_ne hk, Function.update_of_ne hk]
      exact h.sides k
  | _ => exact h

theorem Drawn.draw {p : Phases} {n : Strokes} (d : Pencil) (h : Drawn p n) :
    Drawn (p.draw d) (n.draw d) := by
  cases d with
  | keep => exact h
  | begin which upDown => exact h.begin which upDown
  | stroke i place => exact h.stroke i place

/-! ## Runs -/

section
variable {K : Type} [Field K] [LinearOrder K]

/-- The strokes after the stages `as`, from `n` in the state `s`. -/
def strokesFrom (env : Env K) : Rb K → Strokes → List (Stage K) → Strokes
  | _, n, [] => n
  | s, n, a :: as => strokesFrom env (stage env s a) (n.draw (pencil s a)) as

/-- The strokes made since power-on. -/
def strokes (env : Env K) (as : List (Stage K)) : Strokes := strokesFrom env boot ⟨0, 0, fun _ => 0⟩ as

theorem drawn_exec (env : Env K) : ∀ (as : List (Stage K)) {s : Rb K} {n : Strokes},
    Drawn s.phases n → Drawn (Runs.exec (stage env) s as).phases (strokesFrom env s n as)
  | [], _, _, h => h
  | a :: as, s, n, h => by
    have hnext : Drawn (stage env s a).phases (n.draw (pencil s a)) := by
      rw [phases_stage]
      exact h.draw (pencil s a)
    exact drawn_exec env as hnext

theorem drawn_strokes (env : Env K) (as : List (Stage K)) :
    Drawn (Runs.exec (stage env) boot as).phases (strokes env as) :=
  drawn_exec env as ⟨rfl, rfl, Nat.zero_lt_succ 2, fun _ => rfl⟩

/-- How far to the side of the point the `n`-th left-right stroke goes. -/
def lrSwing (n : Nat) : K := if n % 2 = 0 then 3 else -3

/-- The angle of the `n`-th circle stroke, with the source's value of pi. -/
def circleRad (n : Nat) : K :=
  (n % circlePoints : Nat) * (360 / circlePoints) * (31415926 / 10000000) / 180

/-- The height of the `n`-th up-down stroke over the point. -/
def udHeight (m : MathH K) (n : Nat) : K :=
  -(8 * m.cos (m.pi * ((n % udStrokes : Nat) / (udStrokes : Nat))))

/-- The place of a figure round point `i` at `p`, for the compensation `z`. -/
def figureTarget (m : MathH K) (n : Strokes) (z : K) (i : Nat) (p : Pos K) : Place → Pos K
  | .runLr => { clampCoordinates ⟨p.x + lrSwing (n.sides i), p.y, p.z + z⟩ with y := p.y }
  | .runCircle =>
    clampCoordinates
      ⟨p.x + 8 * m.cos (circleRad n.circle), p.y + 8 * m.sin (circleRad n.circle), p.z + z⟩
  | .runUd => clampCoordinates { p with z := p.z + udHeight m n.upDown + z }
  | _ => clampCoordinates { p with z := p.z + z }

theorem lrTargetX_eq {p : SimplePoint K} {n : Nat} (h : p.position = side n) :
    lrTargetX p = p.pos.x + lrSwing n := by
  unfold lrTargetX lrSwing
  rw [h, side]
  split_ifs <;> first | rfl | exact sub_eq_add_neg _ _ | omega

variable [IsStrictOrderedRing K]

theorem moveRatio_eq (m : MathH K) (t : K) :
    8 * (2 * smoothSCurve m t - 1) = -(8 * m.cos (m.pi * t)) := by
  unfold smoothSCurve
  ring

/-- Where the counters are those of the strokes, the next target is that of the figure. -/
theorem motionTarget_eq {m : MathH K} {n : Strokes} {s : Rb K} (h : Drawn s.phases n) (place : Place)
    (z : K) : motionTarget m z s place = figureTarget m n z s.ctl.currentPoint s.here.pos place := by
  cases place with
  | runLr =>
    have hx : lrTargetX s.here = s.here.pos.x + lrSwing (n.sides s.ctl.currentPoint) :=
      lrTargetX_eq (h.sides s.ctl.currentPoint)
    simp only [motionTarget, figureTarget, hx]
  | runCircle =>
    have hidx : s.motion.angleIdx = n.circle % circlePoints := h.circle
    simp only [motionTarget, figureTarget, circleRad, hidx]
  | runUd =>
    have hcount : s.motion.udTrajStep * interpStepsModeUd + s.motion.udInterpCount =
        n.upDown % udStrokes := h.upDown
    simp only [motionTarget, figureTarget, udHeight, hcount]
    rw [← moveRatio_eq]
    rfl
  | _ => rfl

/-- The call that the motion function `place` makes, for the compensation `z`. -/
def figureCall (m : MathH K) (n : Strokes) (z : K) (s : Rb K) (place : Place) : Option (Call K) :=
  if place = .runHover ∧ |z| ≤ 1 / 100 then none
  else some ⟨place, figureTarget m n z s.ctl.currentPoint s.here.pos place⟩

/-- In every run the moving modes draw their figures. Where the run logic does not go on to
another point, it calls the search for the place of the figure, round the current point,
that follows the strokes made of this figure since it was begun. -/
theorem figures_drawn (env : Env K) (as : List (Stage K)) (raw : K) :
    let s := Runs.exec (stage env) boot as
    OnlyCalls env s (.runLogic raw) (called env.math s (.runLogic raw)) ∧
      called env.math s (.runLogic raw) =
        if s.cycle.switchesPoint then replayCall (s.ctl.currentPoint + 1) s
        else if s.dispatches then
          s.entered.bind (figureCall env.math (strokes env as) (readCompensation raw s).1 s)
        else none := by
  intro s
  refine ⟨onlyCalls_called s (.runLogic raw), ?_⟩
  have htarget := motionTarget_eq (m := env.math) (drawn_strokes env as)
  simp only [called]
  congr 2
  cases dispatch raw s with
  | hover he _ =>
    simp only [motionCall, he, Option.bind_some, figureCall, true_and]
    split_ifs with hz hno hno
    · exact absurd hz (not_lt.2 hno)
    · rfl
    · rfl
    · exact absurd (not_lt.1 hz) hno
  | lr he _ _ | circle he _ _ | ud he _ _ =>
    simp [motionCall, he, figureCall, htarget, s]
  | nothing he _ => simp only [motionCall, he, Option.bind_none]

/-- The run of `sideways`, up to its first left-right stroke. -/
noncomputable def toStroke : List (Stage ℝ) :=
  (press 0xf3 : Step ℝ).stages ++ .lcd 0xfb 0 :: (afterMark ++ List.replicate 12 .tick)

theorem figures_drawn_toStroke :
    let s := Runs.exec (stage firmware) boot toStroke
    called realMath s (.runLogic 0) =
      some ⟨.runLr, figureTarget realMath (strokes firmware toStroke) (readCompensation 0 s).1 0
        ⟨5, 30, 25⟩ .runLr⟩ := by
  obtain ⟨-, hfigure⟩ := figures_drawn firmware toStroke 0
  have hsession := session_exec firmware session_boot toStroke
  have hcell := site_firstMark (afterMark ++ List.replicate 12 .tick) (by decide +kernel)
  have hdue := lrMoveFlag_sideways
  rw [← toStroke] at hcell hdue
  generalize Runs.exec (stage firmware) boot toStroke = s at hfigure hsession hcell hdue ⊢
  have hctl := ctl_of_session hsession
  have hcycle := cycle_of_session hsession
  have hfirst : s.ctl.currentPoint = 0 := by
    rw [hctl]
    decide +kernel
  have hswitch : s.cycle.switchesPoint = false := by
    rw [hcycle]
    decide +kernel
  have hdispatch : s.dispatches = true := by
    rw [Rb.dispatches, hctl, hcycle]
    decide +kernel
  have hmode : s.ctl.modeHover = false ∧ s.ctl.modeLr = true := by
    rw [hctl]
    decide +kernel
  have hfree : moveBlocked s = false := by
    rw [moveBlocked, hctl]
    decide +kernel
  have hentered : s.entered = some .runLr := by
    simp [Rb.entered, hmode, hdue, hfree]
  have hpos : s.here.pos = ⟨5, 30, 25⟩ := by
    have hsite : s.here.pos = (s.sight.site s.ctl.currentPoint).1 := rfl
    rw [hsite, hfirst, hcell]
    norm_num [Pos.cast]
  simp only [hswitch, hdispatch, hentered, Bool.false_eq_true, if_false, if_true,
    Option.bind_some, figureCall, hfirst, hpos, reduceCtorEq, false_and] at hfigure
  exact hfigure

/-- `target_z_base` of `run_ud`. -/
def Rb.targetZBase (m : MathH K) (s : Rb K) : K :=
  s.here.pos.z + 8 * (2 * smoothSCurve m
    ((s.motion.udTrajStep * interpStepsModeUd + s.motion.udInterpCount : Nat) / (udStrokes : Nat)) - 1)

omit [IsStrictOrderedRing K] in
theorem motionTarget_runUd (m : MathH K) (z : K) (s : Rb K) : motionTarget m z s .runUd =
    clampCoordinates { s.here.pos with z := s.targetZBase m + z } := rfl

theorem targetZBase_eq (env : Env K) (as : List (Stage K)) :
    (Runs.exec (stage env) boot as).targetZBase env.math =
      (Runs.exec (stage env) boot as).here.pos.z + udHeight env.math (strokes env as).upDown := by
  have hcount : (Runs.exec (stage env) boot as).motion.udTrajStep * interpStepsModeUd +
      (Runs.exec (stage env) boot as).motion.udInterpCount = (strokes env as).upDown % udStrokes :=
    (drawn_strokes env as).upDown
  rw [Rb.targetZBase, moveRatio_eq, hcount]
  rfl

end

/-! ## The up-down figure is a saw tooth -/

/-- The angle of an up-down stroke, on the half circle. -/
noncomputable def udAngle (k : Nat) : ℝ := Real.pi * ((k : ℝ) / 24)

theorem udHeight_real (n : Nat) : udHeight realMath n = -(8 * Real.cos (udAngle (n % udStrokes))) := rfl

theorem udAngle_mem {k : Nat} (hk : k ≤ 24) : udAngle k ∈ Set.Icc 0 Real.pi := by
  have hle : (k : ℝ) / 24 ≤ 1 := by
    rw [div_le_one (by norm_num)]
    exact_mod_cast hk
  exact ⟨by unfold udAngle; positivity, mul_le_of_le_one_right Real.pi_pos.le hle⟩

theorem udAngle_succ (k : Nat) : udAngle (k + 1) = udAngle k + Real.pi / 24 := by
  unfold udAngle
  push_cast
  ring

/-- Within the figure the cosine falls with each stroke, by the angle between two at most. -/
theorem rise_of_lt {k : Nat} (hk : k + 1 < 24) :
    Real.cos (udAngle (k + 1)) < Real.cos (udAngle k) ∧
      Real.cos (udAngle k) - Real.cos (udAngle (k + 1)) ≤ Real.pi / 24 := by
  have hpi := Real.pi_pos
  constructor
  · refine Real.strictAntiOn_cos (udAngle_mem (by omega)) (udAngle_mem (by omega)) ?_
    rw [udAngle_succ]
    linarith
  · have hdist : |udAngle k - udAngle (k + 1)| = Real.pi / 24 := by
      rw [udAngle_succ, sub_add_cancel_left, abs_neg]
      exact abs_of_pos (by positivity)
    rw [← hdist]
    exact (le_abs_self _).trans (Real.abs_cos_sub_cos_le _ _)

/-- From the last stroke to the first the cosine rises by nearly two. -/
theorem leap_of_last : 159 / 80 < Real.cos (udAngle 0) - Real.cos (udAngle 23) := by
  have hpi : Real.pi < 3.15 := Real.pi_lt_d2
  have hpos := Real.pi_pos
  have hlast : Real.cos (udAngle 23) = -Real.cos (Real.pi / 24) := by
    rw [← Real.cos_pi_sub, show Real.pi - Real.pi / 24 = udAngle 23 by unfold udAngle; ring]
  have hfirst : udAngle 0 = 0 := by
    unfold udAngle
    simp
  have hsmall : 1 - (Real.pi / 24) ^ 2 / 2 ≤ Real.cos (Real.pi / 24) := Real.one_sub_sq_div_two_le_cos
  rw [hlast, hfirst, Real.cos_zero]
  nlinarith

/-- In every run the up-down figure climbs in steps and falls back in one: each stroke is
higher than the one before, by at most a centimetre and a twentieth, except the first of the
figure, which comes more than 15.9 cm below the last. -/
theorem upDown_leaps (as : List (Stage ℝ)) :
    let s := Runs.exec (stage firmware) boot as
    let n := (strokes firmware as).upDown
    (∀ raw, OnlyCalls firmware s (.runLogic raw) (called realMath s (.runLogic raw))) ∧
    (∀ z, motionTarget realMath z s .runUd =
      clampCoordinates { s.here.pos with z := s.targetZBase realMath + z }) ∧
    s.targetZBase realMath = s.here.pos.z + udHeight realMath n ∧
      if (n + 1) % udStrokes = 0 then udHeight realMath (n + 1) < udHeight realMath n - 159 / 10
      else udHeight realMath n < udHeight realMath (n + 1) ∧
        udHeight realMath (n + 1) ≤ udHeight realMath n + 105 / 100 := by
  intro s n
  refine ⟨fun raw => onlyCalls_called s (.runLogic raw), fun z => motionTarget_runUd realMath z s,
    targetZBase_eq firmware as, ?_⟩
  rw [udHeight_real, udHeight_real]
  split
  · next hwrap =>
    have hlast : n % udStrokes = 23 := by
      simp only [udStrokes, udTrajectoryPoints, interpStepsModeUd] at *
      omega
    have hleap := leap_of_last
    rw [hwrap, hlast]
    linarith
  · next hwrap =>
    have hnext : (n + 1) % udStrokes = n % udStrokes + 1 ∧ n % udStrokes + 1 < 24 := by
      simp only [udStrokes, udTrajectoryPoints, interpStepsModeUd] at *
      omega
    obtain ⟨hfall, hsmall⟩ := rise_of_lt hnext.2
    have hpi : Real.pi < 3.15 := Real.pi_lt_d2
    rw [hnext.1]
    constructor <;> linarith

end RoboticArm
