import RoboticArm.Targets

/- The joints stored with the marked points.

   A marked point is replayed from its stored tuple, so the tuple should be what a
   successful call of `robot_arm_5dof_method2` for the coordinates of that point gave
   (`Rb.Stored`; `solved` is the record of the successful calls).

   Three places write a tuple, always from the joint globals: a mark, the height
   adjustment of a running point, and the replay of a point stored with five zero
   angles. The mark copies the globals before it calls the search, the other two after.
   `Writer` is who wrote the globals last: `RUN_ZERO` or `RUN_START`, or a call of the
   search that succeeded, with its target.

   1. `obeys_stage`: what a stage does to the globals, the record and the tuples, given
      the call it makes.
   2. `stored_of_owned`: every stored tuple is right in every state of a run in which
      each mark finds the globals written last by a successful search for the marked
      target, and each adjustment and each such replay has a search that succeeds.
   3. `markAfterZero` marks a point with the angles of the zero pose. -/
namespace RoboticArm

variable {K : Type}

/-- The coordinates and the joints of a point. -/
def Rb.cell (s : Rb K) (i : Nat) : Pos K × Joints K := ((s.points i).pos, (s.points i).j)

/-- Every marked point holds the joints a successful call for its coordinates gave. -/
def Rb.Stored (s : Rb K) : Prop := ∀ i < s.ctl.pointCount, s.cell i ∈ s.solved

/-! ## Steps that change nothing a stored tuple is judged by -/

section
variable {s t u : Rb K}

structure Same (s t : Rb K) : Prop where
  count : t.ctl.pointCount = s.ctl.pointCount
  cell : t.cell = s.cell
  arm : t.arm = s.arm
  solved : t.solved = s.solved

theorem Same.of_eq (hcount : t.ctl.pointCount = s.ctl.pointCount) (hpoints : t.points = s.points)
    (harm : t.arm = s.arm) (hsolved : t.solved = s.solved) : Same s t :=
  ⟨hcount, by unfold Rb.cell; rw [hpoints], harm, hsolved⟩

theorem Same.trans (h : Same s t) (h' : Same t u) : Same s u :=
  ⟨h'.count.trans h.count, h'.cell.trans h.cell, h'.arm.trans h.arm, h'.solved.trans h.solved⟩

theorem cell_setPoint (i : Nat) (p : SimplePoint K) :
    (s.setPoint i p).cell = Function.update s.cell i (p.pos, p.j) :=
  Function.comp_update (fun p : SimplePoint K => (p.pos, p.j)) s.points i p

theorem stored_update {solved solved' : List (Pos K × Joints K)} {cell cell' : Nat → Pos K × Joints K}
    {n n' i : Nat} {w : Pos K × Joints K} (h : ∀ k < n, cell k ∈ solved) (hgrown : solved ⊆ solved')
    (hcell : cell' = Function.update cell i w) (hothers : ∀ k < n', k ≠ i → k < n)
    (hw : i < n' → w ∈ solved') : ∀ k < n', cell' k ∈ solved' := by
  intro k hk
  rw [hcell]
  by_cases hki : k = i
  · rw [hki, Function.update_self]
    exact hw (hki ▸ hk)
  · rw [Function.update_of_ne hki]
    exact hgrown (h k (hothers k hk hki))

theorem Same.of_ground (h : t.ground = s.ground) : Same s t where
  count := congrArg Ground.count h
  cell := by
    have hcell : (fun i => (t.points i).cell) = fun i => (s.points i).cell :=
      congrArg Ground.cell h
    funext i
    have hi : (t.points i).cell = (s.points i).cell := congrFun hcell i
    simp only [SimplePoint.cell, Prod.mk.injEq] at hi
    obtain ⟨hpos, hj, -⟩ := hi
    simp only [Rb.cell, hpos, hj]
  arm := congrArg Ground.arm h
  solved := congrArg Ground.solved h

end

/-! ## What a stage does to the globals and the tuples -/

/-- The tuple a call writes: none, that of a new point, or that of a point. -/
inductive Keeps where
  | nothing
  | newPoint
  | cell (i : Nat)

def Place.keeps (c : Ctl) : Place → Keeps
  | .mark => .newPoint
  | .moveToPoint i => .cell i
  | .adjustZ => .cell c.currentPoint
  | _ => .nothing

/-- A call by what comes of it. -/
structure Deed (K : Type) where
  target : Pos K
  keeps : Keeps

def Call.deed (c : Ctl) (d : Call K) : Deed K := ⟨d.target, d.place.keeps c⟩

/-- The tuples after a call that leaves the globals as `after`. -/
def tableAfter (s : Rb K) (after : Joints K) : Option (Deed K) → Nat × (Nat → Pos K × Joints K)
  | some ⟨p, .newPoint⟩ =>
    (s.ctl.pointCount + 1, Function.update s.cell s.ctl.pointCount (p, s.arm.global))
  | some ⟨p, .cell i⟩ => (s.ctl.pointCount, Function.update s.cell i (p, after))
  | _ => (s.ctl.pointCount, s.cell)

variable [Field K] {env : Env K} {s t u : Rb K}

/-- The globals, the record and the tuples are those after this call, or as before if there
is none. -/
structure Obeys (env : Env K) (s t : Rb K) (d : Option (Deed K)) : Prop where
  arm : t.arm = d.elim s.arm fun d => (solveFor env d.target s).arm
  solved : t.solved = d.elim s.solved fun d => (solveFor env d.target s).solved
  table : (t.ctl.pointCount, t.cell) = tableAfter s t.arm.global d

theorem Same.obeys (h : Same s t) : Obeys env s t none :=
  ⟨h.arm, h.solved, by rw [h.count, h.cell]; rfl⟩

theorem Obeys.before {d : Option (Deed K)} (h : Obeys env s t d) (h' : Same t u) : Obeys env s u d :=
  ⟨h'.arm.trans h.arm, h'.solved.trans h.solved, by rw [h'.count, h'.cell, h'.arm, h.table]⟩

theorem Same.solveFor_eq (h : Same s t) (p : Pos K) :
    (solveFor env p t).arm = (solveFor env p s).arm ∧
      (solveFor env p t).solved = (solveFor env p s).solved := by
  simp only [solveFor, solution]
  rw [h.arm, h.solved]
  exact ⟨rfl, rfl⟩

theorem Obeys.after {d : Option (Deed K)} (h : Same s t) (h' : Obeys env t u d) : Obeys env s u d := by
  have htable : ∀ j, tableAfter t j d = tableAfter s j d := by
    intro j
    unfold tableAfter
    rw [h.count, h.cell, h.arm]
  refine ⟨h'.arm.trans ?_, h'.solved.trans ?_, h'.table.trans (htable _)⟩
  · cases d with
    | none => exact h.arm
    | some d => exact (h.solveFor_eq d.target).1
  · cases d with
    | none => exact h.solved
    | some d => exact (h.solveFor_eq d.target).2

/-- A call whose answer is kept in a cell. -/
theorem obeys_write {i : Nat} (q : SimplePoint K) (hj : q.j = (solveFor env q.pos s).arm.global) :
    Obeys env s ((solveFor env q.pos s).setPoint i q) (some ⟨q.pos, .cell i⟩) where
  arm := rfl
  solved := rfl
  table := by
    rw [cell_setPoint, hj]
    rfl

theorem obeys_adjustZ (dz : K) (prompt : Nat) :
    Obeys env s (adjustZ env dz prompt s)
      (some ⟨{ s.here.pos with z := s.here.pos.z + dz }, .cell s.ctl.currentPoint⟩) := by
  let p : Pos K := { s.here.pos with z := s.here.pos.z + dz }
  let j : Joints K := (solveFor env p s).arm.global
  -- the cell is written twice, with the height before the call and with the joints after it
  have hcell : (adjustZ env dz prompt s).cell =
      Function.update (Function.update s.cell s.ctl.currentPoint (p, s.here.j)) s.ctl.currentPoint
        (p, j) := by
    have hpos : (s.setPoint s.ctl.currentPoint { s.here with pos := p }).here.pos = p := by
      simp [Rb.here, Rb.setPoint]
    calc (adjustZ env dz prompt s).cell
        = Function.update (s.setPoint s.ctl.currentPoint { s.here with pos := p }).cell
            s.ctl.currentPoint
            ((s.setPoint s.ctl.currentPoint { s.here with pos := p }).here.pos, j) := cell_setPoint ..
      _ = _ := by rw [hpos, cell_setPoint]
  refine ⟨rfl, rfl, ?_⟩
  rw [hcell, Function.update_idem]
  rfl

theorem obeys_markPoint [LinearOrder K] (raw : K) :
    Obeys env s (markPoint env raw s) (some ⟨s.jog.cur, .newPoint⟩) where
  arm := rfl
  solved := rfl
  table := Prod.ext rfl (cell_setPoint s.ctl.pointCount _)

variable [LinearOrder K]

/-- A replay solves a marked point that is stored with five zero angles. -/
def replayDeed (i : Nat) (s : Rb K) : Option (Deed K) :=
  if i < s.ctl.pointCount ∧ (s.points i).j = Joints.zero then some ⟨(s.points i).pos, .cell i⟩
  else none

theorem deed_replayCall (i : Nat) (c : Ctl) : (replayCall i s).map (Call.deed c) = replayDeed i s := by
  simp only [replayCall, replayDeed]
  split <;> rfl

theorem Same.replayDeed_eq (h : Same s t) (i : Nat) : replayDeed i t = replayDeed i s := by
  have hcell := congrFun h.cell i
  have hpos : (t.points i).pos = (s.points i).pos := congrArg Prod.fst hcell
  have hj : (t.points i).j = (s.points i).j := congrArg Prod.snd hcell
  simp only [replayDeed]
  rw [h.count, hpos, hj]

theorem obeys_moveToPoint (i : Nat) : Obeys env s (moveToPoint env i s) (replayDeed i s) := by
  simp only [moveToPoint]
  by_cases hi : s.ctl.pointCount ≤ i
  · have hout : replayDeed i s = none := if_neg fun h => absurd h.1 (Nat.not_lt.2 hi)
    rw [if_pos hi, hout]
    exact Same.obeys (.of_eq rfl rfl rfl rfl)
  · rw [if_neg hi]
    by_cases hz : (s.points i).j = Joints.zero
    · have hdeed : replayDeed i s = some ⟨(s.points i).pos, .cell i⟩ :=
        if_pos ⟨Nat.lt_of_not_le hi, hz⟩
      rw [hdeed]
      simp only [hz, if_true]
      refine Obeys.before (obeys_write
        { s.points i with j := (solveFor env (s.points i).pos s).arm.global } rfl) ?_
      exact .of_eq rfl rfl rfl rfl
    · have hout : replayDeed i s = none := if_neg fun h => hz h.2
      rw [hout]
      simp only [hz, if_false]
      exact Same.obeys (.of_eq rfl rfl rfl rfl)

theorem obeys_startReturnDelay (type i : Nat) :
    Obeys env s (startReturnDelay env type i s) (replayDeed i s) := by
  have hcalled : Same s { s.note (.startReturnDelay type i) with
      ctl := { s.ctl with returnType := type } } := .of_eq rfl rfl rfl rfl
  unfold startReturnDelay
  dsimp only
  split
  · have hmove : Obeys env s _ _ := Obeys.after hcalled (obeys_moveToPoint i)
    rw [hcalled.replayDeed_eq] at hmove
    exact hmove.before (.of_eq rfl rfl rfl rfl)
  · next hi =>
    have hout : replayDeed i s = none := if_neg fun h => hi h.1
    rw [hout]
    exact Same.obeys (.of_eq rfl rfl rfl rfl)

theorem obeys_switchMode (m : Nat) : Obeys env s (switchMode env m s)
    (if s.ctl.startFlag && decide (0 < s.ctl.pointCount) then replayDeed s.ctl.currentPoint s
      else none) := by
  let s₁ : Rb K := { s.note (.switchMode m) with ctl := s.ctl.stopTimers.setMode m }
  have hset : Same s s₁ := .of_eq rfl rfl rfl rfl
  show Obeys env s (if s.ctl.startFlag && decide (0 < s.ctl.pointCount) then
      startReturnDelay env 1 s.ctl.currentPoint s₁
    else if s.ctl.startFlag then { s₁ with ctl := s₁.ctl.startTimers } else s₁) _
  by_cases hr : (s.ctl.startFlag && decide (0 < s.ctl.pointCount)) = true
  · rw [if_pos hr, if_pos hr, ← hset.replayDeed_eq]
    exact Obeys.after hset (obeys_startReturnDelay 1 s.ctl.currentPoint)
  · rw [if_neg hr, if_neg hr]
    split
    · exact Same.obeys (.of_eq rfl rfl rfl rfl)
    · exact hset.obeys

theorem obeys_nextMode (hsome : s.ctl.targetMode.isSome = true) : Obeys env s (nextMode env s)
    (if s.ctl.startFlag && decide (0 < s.ctl.pointCount) then replayDeed s.ctl.currentPoint s
      else none) := by
  have hprompt : ∀ m v, Obeys env s ((switchMode env m s).setYuyin v) _ := fun m v =>
    (obeys_switchMode m).before (.of_eq rfl rfl rfl rfl)
  generalize (if s.ctl.startFlag && decide (0 < s.ctl.pointCount) then
    replayDeed s.ctl.currentPoint s else none) = d at hprompt ⊢
  simp only [Ctl.targetMode] at hsome
  simp only [nextMode]
  split_ifs at hsome ⊢ with h1 h2 h3 h4
  · exact hprompt 2 3
  · exact hprompt 3 2
  · exact hprompt 1 5
  · exact hprompt 0 4
  · exact absurd hsome Bool.false_ne_true

theorem nextMode_of_no_target (h : s.ctl.targetMode = none) : nextMode env s = s := by
  simp only [Ctl.targetMode] at h
  simp only [nextMode]
  split_ifs at h ⊢
  rfl

theorem obeys_caseMark (raw : K) :
    Obeys env s (caseMark env raw s) ((keyCall s .mark).map (Call.deed s.ctl)) := by
  have hmarks : s.cycle.marks (checkCoordinateRange s.jog.cur) =
      (s.ctl.canMark && checkCoordinateRange s.jog.cur) := rfl
  have hremodes : s.cycle.remodes = (!s.ctl.canMark && s.ctl.canSwitch && s.ctl.targetMode.isSome &&
      s.ctl.startFlag && decide (0 < s.ctl.pointCount)) := rfl
  simp only [caseMark, keyCall]
  rw [hmarks, hremodes]
  by_cases hcan : s.ctl.canMark = true
  · rw [if_pos hcan, hcan]
    by_cases hr : checkCoordinateRange s.jog.cur = true
    · rw [if_pos hr, hr]
      exact obeys_markPoint raw
    · rw [if_neg hr, Bool.eq_false_of_not_eq_true hr]
      exact Same.obeys (.of_eq rfl rfl rfl rfl)
  · rw [if_neg hcan, Bool.eq_false_of_not_eq_true hcan]
    by_cases hs : s.ctl.canSwitch = true
    · rw [if_pos hs, hs]
      cases ht : s.ctl.targetMode with
      | none =>
        rw [nextMode_of_no_target ht]
        exact Same.obeys (.of_eq rfl rfl rfl rfl)
      | some m =>
        have hmode : Obeys env s (nextMode env s) _ := obeys_nextMode (by rw [ht]; rfl)
        simp only [Bool.false_and, Bool.not_false, Bool.true_and, Option.isSome_some,
          Bool.false_eq_true, if_false]
        split at hmode
        · next hr =>
          rw [if_pos hr, deed_replayCall]
          exact hmode
        · next hr =>
          rw [if_neg hr]
          exact hmode
    · rw [if_neg hs, Bool.eq_false_of_not_eq_true hs]
      exact Same.obeys (.of_eq rfl rfl rfl rfl)

theorem obeys_restart : Obeys env s (restart env s) (replayDeed 0 s) := by
  let s₁ : Rb K := { ignite s with
    ctl := { (ignite s).ctl with currentPoint := 0, cycleComplete := false } }
  let s₂ : Rb K := s₁.mapMarked fun p => { p with pointTimer := 0, position := 0 }
  have h₁ : Same s s₁ := .of_eq rfl rfl rfl rfl
  have hmap : s₂.ground = s₁.ground := by
    refine ground_mapMarked ?_ s₁
    intro p
    rfl
  have h₂ : Same s₁ s₂ := .of_ground hmap
  have h₃ : Same s₂ { s₂ with motion := s₂.motion.resetUd } := .of_eq rfl rfl rfl rfl
  have h := (h₁.trans h₂).trans h₃
  rw [← h.replayDeed_eq]
  exact Obeys.after h (obeys_startReturnDelay 3 0)

theorem obeys_firstStart : Obeys env s (firstStart env s) (replayDeed 0 s) := by
  have h : Same s (ignite s) := .of_eq rfl rfl rfl rfl
  rw [← h.replayDeed_eq]
  exact Obeys.after h (obeys_startReturnDelay 4 0)

theorem obeys_caseStart : Obeys env s (caseStart env s) ((keyCall s .start).map (Call.deed s.ctl)) := by
  have hrestarts : s.cycle.restarts = (decide (0 < s.ctl.pointCount) && !s.ctl.startFlag &&
      (s.ctl.cycleComplete && s.ctl.firstImuFlag2)) := rfl
  have hfirst : s.cycle.firstStarts = (decide (0 < s.ctl.pointCount) && !s.ctl.startFlag &&
      !(s.ctl.cycleComplete && s.ctl.firstImuFlag2) &&
      decide (s.ctl.currentPoint = 0 ∧ (s.points 0).pointTimer = 0)) := rfl
  have hnone : ∀ t, Same s t → Obeys env s t ((none : Option (Call K)).map (Call.deed s.ctl)) :=
    fun t h => h.obeys
  have hrestart : Obeys env s (restart env s) ((replayCall 0 s).map (Call.deed s.ctl)) := by
    rw [deed_replayCall]
    exact obeys_restart
  have hstart : Obeys env s (firstStart env s) ((replayCall 0 s).map (Call.deed s.ctl)) := by
    rw [deed_replayCall]
    exact obeys_firstStart
  simp only [caseStart, keyCall]
  rw [hrestarts, hfirst]
  by_cases hm : 0 < s.ctl.pointCount
  · rw [if_pos hm, decide_eq_true hm]
    by_cases hs : s.ctl.startFlag = true
    · rw [if_pos hs, hs]
      exact hnone _ (.of_eq rfl rfl rfl rfl)
    · rw [if_neg hs, Bool.eq_false_of_not_eq_true hs]
      by_cases hc : (s.ctl.cycleComplete && s.ctl.firstImuFlag2) = true
      · rw [if_pos hc, hc]
        exact hrestart
      · rw [if_neg hc, Bool.eq_false_of_not_eq_true hc]
        by_cases hf : s.ctl.currentPoint = 0 ∧ (s.points 0).pointTimer = 0
        · rw [if_pos hf, decide_eq_true hf]
          exact hstart
        · rw [if_neg hf, decide_eq_false hf]
          exact hnone _ (.of_eq rfl rfl rfl rfl)
  · rw [if_neg hm, decide_eq_false hm]
    exact hnone _ (.of_eq rfl rfl rfl rfl)

theorem obeys_heightKey (dz : K) (prompt : Nat) (inside : Prop) [Decidable inside] :
    Obeys env s
      (pitchOn true (if s.ctl.running then if inside then adjustZ env dz prompt s else s
        else jogBy 0 0 dz s))
      ((if s.ctl.running = true ∧ inside then
        some (Call.mk .adjustZ { s.here.pos with z := s.here.pos.z + dz }) else none).map
          (Call.deed s.ctl)) := by
  by_cases hr : s.ctl.running = true
  · rw [if_pos hr]
    by_cases hi : inside
    · rw [if_pos hi, if_pos ⟨hr, hi⟩]
      exact (obeys_adjustZ dz prompt).before (.of_eq rfl rfl rfl rfl)
    · rw [if_neg hi, if_neg fun h => hi h.2]
      exact Same.obeys (.of_eq rfl rfl rfl rfl)
  · rw [if_neg hr, if_neg fun h => hr h.1]
    exact Same.obeys (.of_eq rfl rfl rfl rfl)

/-- The key runs `RUN_ZERO` or `RUN_START`. -/
def Key.poses : Key → Bool
  | .zero | .rest => true
  | _ => false

theorem obeys_onKey (raw : K) {k : Key} (hpose : k.poses = false) (hclear : k ≠ .clear) :
    Obeys env s (onKey env raw s k) ((keyCall s k).map (Call.deed s.ctl)) := by
  cases k with
  | zUp => exact obeys_heightKey 5 6 _
  | zDown => exact obeys_heightKey (-5) 7 _
  | mark => exact obeys_caseMark raw
  | start => exact obeys_caseStart
  | timeAdd => exact (Same.of_ground (ground_runTimeAdd s)).obeys
  | timeMinus => exact (Same.of_ground (ground_runTimeMinus s)).obeys
  | clear => exact absurd rfl hclear
  | zero => exact Bool.noConfusion hpose
  | rest => exact Bool.noConfusion hpose
  | _ => exact Same.obeys (.of_eq rfl rfl rfl rfl)

/-! ## The other stages -/

theorem same_sensors (raw : K) (pitch : Option K) : Same s (sensors raw pitch s) := by
  unfold sensors
  dsimp only
  split_ifs <;> exact .of_eq rfl rfl rfl rfl

theorem same_readCompensation (raw : K) : Same s (readCompensation raw s).2 := .of_eq rfl rfl rfl rfl

omit [LinearOrder K] in
theorem obeys_solve {p : Pos K} (h : Same s t) (h' : Same (solveFor env p t) u) :
    Obeys env s u (some ⟨p, .nothing⟩) := by
  have hsolve : Obeys env t (solveFor env p t) (some ⟨p, .nothing⟩) := ⟨rfl, rfl, rfl⟩
  exact (Obeys.after h hsolve).before h'

theorem obeys_runMode (raw : K) :
    Obeys env s (runMode env raw s) ((motionCall env.math raw s).map (Call.deed s.ctl)) := by
  have hread : Same s (readCompensation raw s).2 := same_readCompensation raw
  have hposition : ∀ n, Same s (readCompensation raw
      (s.setPoint s.ctl.currentPoint { s.here with position := n })).2 := by
    intro n
    have hset : Same s (s.setPoint s.ctl.currentPoint { s.here with position := n }) :=
      .of_ground (ground_setPoint rfl)
    exact hset.trans (same_readCompensation raw)
  cases dispatch raw s with
  | hover he hr =>
    rw [hr]
    simp only [motionCall, he, runHover]
    split
    · exact obeys_solve hread (.of_eq rfl rfl rfl rfl)
    · exact hread.obeys
  | lr he hg hr =>
    rw [hr]
    simp only [motionCall, he, runLr, motionTarget, lrTargetX]
    rw [hg]
    generalize hz : (readCompensation raw s).1 = z
    have hcomp : ∀ n, (readCompensation raw
        (s.setPoint s.ctl.currentPoint { s.here with position := n })).1 = z := fun n =>
      (readCompensation_position raw s n).1.trans hz
    generalize s.here.position = n
    rcases n with _ | _ | _ | n
    · rw [← hcomp 1]
      exact obeys_solve (hposition 1) (.of_eq rfl rfl rfl rfl)
    · rw [← hcomp 2]
      exact obeys_solve (hposition 2) (.of_eq rfl rfl rfl rfl)
    · rw [← hcomp 1]
      exact obeys_solve (hposition 1) (.of_eq rfl rfl rfl rfl)
    · rw [← hcomp 0]
      exact obeys_solve (hposition 0) (.of_eq rfl rfl rfl rfl)
  | circle he hg hr =>
    rw [hr]
    simp only [motionCall, he, runCircle]
    rw [hg]
    exact obeys_solve hread (.of_eq rfl rfl rfl rfl)
  | ud he hg hr =>
    rw [hr]
    simp only [motionCall, he, runUd]
    rw [hg]
    exact obeys_solve hread (.of_eq rfl rfl rfl rfl)
  | nothing he hr =>
    rw [hr]
    simp only [motionCall, he]
    exact Same.obeys (.of_eq rfl rfl rfl rfl)

theorem obeys_runLogic (raw : K) (hfinish : s.cycle.finishes = false) : Obeys env s (runLogic env raw s)
    ((called env.math s (.runLogic raw)).map (Call.deed s.ctl)) := by
  rw [runLogic_eq]
  simp only [called]
  rw [if_neg (by rw [hfinish]; exact Bool.false_ne_true)]
  by_cases hs : s.cycle.switchesPoint = true
  · rw [if_pos hs, if_pos hs, deed_replayCall]
    have hnext : Same s { s with
        ctl := { s.ctl.stopTimers with startFlag := false, currentPoint := s.ctl.currentPoint + 1 } } :=
      .of_eq rfl rfl rfl rfl
    rw [← hnext.replayDeed_eq]
    exact Obeys.after hnext (obeys_startReturnDelay 5 (s.ctl.currentPoint + 1))
  · rw [if_neg hs, if_neg hs]
    by_cases hr : s.ctl.running = true
    · have hdispatches : s.dispatches = true := by
        have hnot : s.cycle.pointDue = false := by
          by_contra hdue
          simp only [Cycle.finishes, Cycle.switchesPoint, Bool.eq_true_of_not_eq_false hdue,
            Bool.true_and, decide_eq_true_eq, decide_eq_false_iff_not] at hfinish hs
          omega
        simp [Rb.dispatches, hr, hnot]
      rw [if_pos hr, if_pos hdispatches]
      exact obeys_runMode raw
    · have hdispatches : ¬s.dispatches = true := by
        simp [Rb.dispatches, hr]
      rw [if_neg hr, if_neg hdispatches]
      exact Same.obeys (.of_eq rfl rfl rfl rfl)

theorem obeys_manual :
    Obeys env s (manual env s) ((called env.math s .manual).map (Call.deed s.ctl)) := by
  simp only [manual, called]
  by_cases hmoved : (s.jog.moved && !s.ctl.startFlag) = true
  · rw [if_pos hmoved, if_pos hmoved]
    split_ifs <;> exact obeys_solve (.of_eq rfl rfl rfl rfl) (.of_eq rfl rfl rfl rfl)
  · rw [if_neg hmoved, if_neg hmoved]
    exact Same.obeys (.of_eq rfl rfl rfl rfl)

/-- The stage runs `RUN_ZERO` or `RUN_START`. -/
def poses (s : Rb K) : Stage K → Bool
  | .lcd b _ => (lcdKey b).poses
  | .ir b _ => (irKey b).poses
  | .runLogic _ => s.cycle.finishes
  | _ => false

/-- What a step from `s` to `t` that makes the call `c` does to the globals, the record and
the tuples. -/
inductive Handled (env : Env K) (s t : Rb K) (pose : Bool) (c : Option (Call K)) : Prop where
  | pose (hpose : pose = true) (solved : t.solved = s.solved)
      (count : t.ctl.pointCount = s.ctl.pointCount) (cell : t.cell = s.cell)
  | clear (hpose : pose = false) (hcall : c = none) (arm : t.arm = s.arm) (solved : t.solved = s.solved)
      (count : t.ctl.pointCount = 0)
  | obeys (hpose : pose = false) (h : Obeys env s t (c.map (Call.deed s.ctl)))

theorem handled_onKey (raw : K) (k : Key) :
    Handled env s (onKey env raw s k) k.poses (keyCall s k) := by
  cases hpose : k.poses with
  | true =>
    cases k with
    | zero => exact .pose rfl rfl rfl rfl
    | rest => exact .pose rfl rfl rfl rfl
    | _ => exact Bool.noConfusion hpose
  | false =>
    by_cases hclear : k = .clear
    · rw [hclear]
      exact .clear rfl rfl rfl rfl rfl
    · exact .obeys rfl (obeys_onKey raw hpose hclear)

theorem calls_stage (env : Env K) (s : Rb K) (a : Stage K) :
    Handled env s (stage env s a) (poses s a) (called env.math s a) := by
  cases a with
  | lcd b raw => exact handled_onKey raw (lcdKey b)
  | ir b raw => exact handled_onKey raw (irKey b)
  | returnDelay => exact .obeys rfl (Same.of_ground (ground_returnDelay s)).obeys
  | runLogic raw =>
    cases hfinish : s.cycle.finishes with
    | true =>
      have hend : runLogic env raw s =
          finishCycle { s with ctl := { s.ctl with currentPoint := s.ctl.currentPoint + 1 } } := by
        rw [runLogic_eq, if_pos hfinish]
      show Handled env s (runLogic env raw s) s.cycle.finishes _
      rw [hend]
      exact .pose hfinish rfl rfl rfl
    | false => exact .obeys hfinish (obeys_runLogic raw hfinish)
  | sensors raw pitch => exact .obeys rfl (same_sensors raw pitch).obeys
  | manual => exact .obeys rfl obeys_manual
  | tick => exact .obeys rfl (Same.of_ground (ground_tick s)).obeys

/-! ## Who wrote the globals -/

/-- Who wrote the joint globals last. -/
inductive Writer (K : Type) where
  | powerOn
  | pose
  | search (target : Pos K)
  deriving DecidableEq

/-- A stage that runs `RUN_ZERO` or `RUN_START` writes them, and so does one whose call of the
search succeeds. -/
def Writer.next (env : Env K) (s : Rb K) (a : Stage K) (w : Writer K) : Writer K :=
  if poses s a then .pose
  else
    match called env.math s a with
    | some c => if (solution env c.target s).isSome then .search c.target else w
    | none => w

/-- The program, and who wrote the joint globals last. -/
structure Traced (K : Type) where
  rb : Rb K
  writer : Writer K

omit [LinearOrder K] in
def Traced.boot : Traced K := ⟨RoboticArm.boot, .powerOn⟩

def tracedStage (env : Env K) (s : Traced K) (a : Stage K) : Traced K :=
  ⟨stage env s.rb a, s.writer.next env s.rb a⟩

/-- A mark finds the globals written last by a successful search for its target; the search
of an adjustment of a marked point, and of a replay, succeeds. -/
def Call.Owned (env : Env K) (s : Traced K) (c : Call K) : Prop :=
  match c.place with
  | .mark => s.writer = .search c.target
  | .adjustZ =>
    s.rb.ctl.currentPoint < s.rb.ctl.pointCount → (solution env c.target s.rb).isSome = true
  | .moveToPoint _ => (solution env c.target s.rb).isSome = true
  | _ => True

def Owned (env : Env K) (s : Traced K) (a : Stage K) : Prop :=
  ∀ c ∈ called env.math s.rb a, c.Owned env s

instance decidableOwned (env : Env K) (s : Traced K) (a : Stage K) : Decidable (Owned env s a) := by
  unfold Owned
  have : DecidablePred (Call.Owned env s) := by
    rintro ⟨place, target⟩
    unfold Call.Owned
    cases place <;> dsimp only <;> infer_instance
  infer_instance

/-- The record bears out who wrote the globals. -/
structure Traced.Sound (s : Traced K) : Prop where
  attested : ∀ p, s.writer = .search p → (p, s.rb.arm.global) ∈ s.rb.solved
  stored : s.rb.Stored

omit [LinearOrder K] in
theorem solved_subset_solveFor (p : Pos K) : s.solved ⊆ (solveFor env p s).solved :=
  List.subset_append_right _ _

omit [LinearOrder K] in
/-- A call that succeeds is on record with the globals it leaves. -/
theorem mem_solved_solveFor {p : Pos K} (h : (solution env p s).isSome = true) :
    (p, (solveFor env p s).arm.global) ∈ (solveFor env p s).solved := by
  obtain ⟨j, hj⟩ := Option.isSome_iff_exists.1 h
  rw [global_solveFor, hj]
  simp only [solveFor, hj]
  exact List.mem_cons_self

theorem attested_stage {s : Traced K} (h : s.Sound) (a : Stage K) (p : Pos K)
    (hp : (tracedStage env s a).writer = .search p) :
    (p, (tracedStage env s a).rb.arm.global) ∈ (tracedStage env s a).rb.solved := by
  have hwriter : s.writer.next env s.rb a = .search p := hp
  show (p, (stage env s.rb a).arm.global) ∈ (stage env s.rb a).solved
  rw [Writer.next] at hwriter
  cases calls_stage env s.rb a with
  | pose hpose solved count cell =>
    rw [if_pos hpose] at hwriter
    cases hwriter
  | clear hpose hcall arm solved count =>
    rw [if_neg (by rw [hpose]; exact Bool.false_ne_true), hcall] at hwriter
    rw [arm, solved]
    exact h.attested p hwriter
  | obeys hpose hobeys =>
    rw [if_neg (by rw [hpose]; exact Bool.false_ne_true)] at hwriter
    rw [hobeys.arm, hobeys.solved]
    cases hcall : called env.math s.rb a with
    | none =>
      rw [hcall] at hwriter
      exact h.attested p hwriter
    | some c =>
      rw [hcall] at hwriter
      dsimp only at hwriter
      show (p, (solveFor env c.target s.rb).arm.global) ∈ (solveFor env c.target s.rb).solved
      split at hwriter
      · next hsome =>
        obtain rfl := Writer.search.inj hwriter
        exact mem_solved_solveFor hsome
      · next hnone =>
        have hfail : solution env c.target s.rb = none := by
          rwa [Bool.not_eq_true, Option.isSome_eq_false_iff, Option.isNone_iff_eq_none] at hnone
        rw [global_solveFor, hfail]
        exact solved_subset_solveFor _ (h.attested p hwriter)

omit [LinearOrder K] in
theorem stored_call {s : Traced K} (h : s.Sound) {c : Call K} (howned : c.Owned env s)
    (hobeys : Obeys env s.rb t (some (c.deed s.rb.ctl))) : t.Stored := by
  obtain ⟨harm, hsolved, htable⟩ := hobeys
  have hglobal := congrArg Arm.global harm
  have hgrown : s.rb.solved ⊆ t.solved := by
    rw [hsolved]
    exact solved_subset_solveFor c.target
  have hfound : (solution env c.target s.rb).isSome = true → (c.target, t.arm.global) ∈ t.solved := by
    intro hsome
    rw [hsolved, hglobal]
    exact mem_solved_solveFor hsome
  obtain ⟨place, target⟩ := c
  cases place with
  | mark =>
    obtain ⟨hcount, hcell⟩ := Prod.mk.inj htable
    refine stored_update h.stored hgrown hcell ?_ fun _ => hgrown (h.attested target howned)
    intro k hk hne
    rw [hcount] at hk
    exact Nat.lt_of_le_of_ne (Nat.lt_succ_iff.1 hk) hne
  | adjustZ =>
    obtain ⟨hcount, hcell⟩ := Prod.mk.inj htable
    refine stored_update h.stored hgrown hcell (fun k hk _ => hcount ▸ hk) ?_
    intro hmarked
    exact hfound (howned (hcount ▸ hmarked))
  | moveToPoint i =>
    obtain ⟨hcount, hcell⟩ := Prod.mk.inj htable
    exact stored_update h.stored hgrown hcell (fun k hk _ => hcount ▸ hk) fun _ => hfound howned
  | _ =>
    obtain ⟨hcount, hcell⟩ := Prod.mk.inj htable
    intro i hi
    rw [hcell]
    exact hgrown (h.stored i (hcount ▸ hi))

theorem stored_stage {s : Traced K} (h : s.Sound) {a : Stage K} (hok : Owned env s a) :
    (stage env s.rb a).Stored := by
  cases calls_stage env s.rb a with
  | pose hpose solved count cell =>
    intro i hi
    rw [cell, solved]
    exact h.stored i (count ▸ hi)
  | clear hpose hcall arm solved count =>
    intro i hi
    rw [count] at hi
    exact absurd hi (Nat.not_lt_zero i)
  | obeys hpose hobeys =>
    cases hcall : called env.math s.rb a with
    | none =>
      rw [hcall] at hobeys
      obtain ⟨hcount, hcell⟩ := Prod.mk.inj hobeys.table
      intro i hi
      rw [hcell, hobeys.solved]
      exact h.stored i (hcount ▸ hi)
    | some c =>
      rw [hcall] at hobeys
      exact stored_call h (hok c hcall) hobeys

theorem sound_tracedStage (s : Traced K) (a : Stage K) (h : s.Sound) (hok : Owned env s a) :
    (tracedStage env s a).Sound :=
  ⟨attested_stage h a, stored_stage h hok⟩

/-! ## Runs -/

omit [LinearOrder K] in
theorem sound_tracedBoot : (Traced.boot : Traced K).Sound where
  attested := by
    intro p hp
    cases hp
  stored := fun _ h => absurd h (Nat.not_lt_zero _)

/-- In every run in which each mark finds the joint globals written last by a successful search
for its target, and the search of each height adjustment of a marked point and of each replay
succeeds, every marked point holds, after every stage, the joints that a successful call for
its coordinates gave. -/
theorem stored_of_owned {env : Env K} {as : List (Step K)}
    (h : Runs.Along (Owned env) (tracedStage env) Traced.boot (as.flatMap Step.stages)) :
    Throughout (fun s a => (stage env s a).Stored) env as := by
  have hstored : Runs.Along (fun s a => (stage env s.rb a).Stored) (tracedStage env) Traced.boot
      (as.flatMap Step.stages) :=
    Runs.along_inv (Q := fun s => s.rb.Stored) (fun _ hs => hs.stored) sound_tracedStage
      sound_tracedBoot h
  have hsame : Runs.Along (fun s a => (stage env s.rb a).Stored) (tracedStage env) Traced.boot
      (as.flatMap Step.stages) ↔
        Runs.Along (fun s a => (stage env s a).Stored) (stage env) boot
          ((as.flatMap Step.stages).map id) := by
    apply Runs.along_sim id (R := fun s t => s.rb = t)
    · rintro s t a rfl
      rfl
    · rintro s t a rfl
      exact Iff.rfl
    · rfl
  rw [List.map_id] at hsame
  exact hsame.1 hstored

/-- The arm is jogged, and the jog target marked. -/
theorem stored_of_owned_markJogged :
    Throughout (fun s a => (stage answering s a).Stored) answering [press 0xf3, press 0xfb] :=
  stored_of_owned (by decide +kernel)

/-- Some call for `p` gives the joints `j`. -/
def Produced (env : Env K) (p : Pos K) (j : Joints K) : Prop :=
  ∃ a best, env.solve a p.x p.y p.z = some best ∧ toDegrees env.math best = j

omit [LinearOrder K] in
theorem produced_solveFor {p : Pos K} (h : ∀ w ∈ s.solved, Produced env w.1 w.2) :
    ∀ w ∈ (solveFor env p s).solved, Produced env w.1 w.2 := by
  intro w hw
  simp only [solveFor, List.mem_append, Option.mem_toList, Option.map_eq_some_iff] at hw
  rcases hw with ⟨j, hj, rfl⟩ | hold
  · obtain ⟨best, hbest, hdeg⟩ := Option.map_eq_some_iff.1 hj
    exact ⟨s.arm, best, hbest, hdeg⟩
  · exact h w hold

theorem produced_of_solved (env : Env K) (as : List (Stage K)) :
    ∀ w ∈ (Runs.exec (stage env) boot as).solved, Produced env w.1 w.2 := by
  have hstep : ∀ (s : Rb K) (a : Stage K), (∀ w ∈ s.solved, Produced env w.1 w.2) →
      ∀ w ∈ (stage env s a).solved, Produced env w.1 w.2 := by
    intro s a h
    cases calls_stage env s a with
    | pose hpose solved count cell =>
      rw [solved]
      exact h
    | clear hpose hcall arm solved count =>
      rw [solved]
      exact h
    | obeys hpose hobeys =>
      rw [hobeys.solved]
      cases called env.math s a with
      | none => exact h
      | some c => exact produced_solveFor h
  exact Runs.exec_inv hstep as fun w hw => absurd hw List.not_mem_nil

/-! ## A mark of the zero pose -/

/-- An iteration with one LCD key, when the key leaves the arm stopped at the jog target. -/
theorem exec_press (b : UInt8)
    (hdue : (lcdSwitch env b 0 s).ctl.returnDue = false)
    (hrun : (lcdSwitch env b 0 s).ctl.running = false)
    (hmoved : (lcdSwitch env b 0 s).jog.moved = false) :
    Runs.exec (stage env) s (press b).stages = sensors 0 none (lcdSwitch env b 0 s) := by
  have hreturn : returnDelay (lcdSwitch env b 0 s) = lcdSwitch env b 0 s := by
    simp only [returnDelay]
    rw [hdue]
    rfl
  have hlogic : runLogic env 0 (lcdSwitch env b 0 s) = lcdSwitch env b 0 s := by
    simp only [runLogic]
    rw [hrun]
    rfl
  have hjog : (sensors 0 none (lcdSwitch env b 0 s)).jog = (lcdSwitch env b 0 s).jog :=
    jog_stage env (lcdSwitch env b 0 s) (.sensors 0 none)
  calc Runs.exec (stage env) s (press b).stages
      = manual env (sensors 0 none (runLogic env 0 (returnDelay (lcdSwitch env b 0 s)))) := rfl
    _ = manual env (sensors 0 none (lcdSwitch env b 0 s)) := by rw [hreturn, hlogic]
    _ = sensors 0 none (lcdSwitch env b 0 s) := by
      simp only [manual]
      rw [hjog, hmoved]
      rfl

variable [IsStrictOrderedRing K]

theorem run_press (as : List (Step K)) (b : UInt8)
    (h : let c := (Runs.exec Session.move (Session.boot : Session ℤ) (moves as)).move (.key (lcdKey b))
      c.cycle.ctl.returnDue = false ∧ c.cycle.ctl.running = false ∧ c.jog.moved = false) :
    run env (as ++ [press b]) = sensors 0 none (lcdSwitch env b 0 (run env as)) := by
  obtain ⟨hdue, hrun, hmoved⟩ := h
  have hsession : (lcdSwitch env b 0 (run env as)).session = ((Runs.exec Session.move
      (Session.boot : Session ℤ) (moves as)).move (.key (lcdKey b))).cast := by
    have hbefore := session_exec env session_boot (as.flatMap Step.stages)
    rw [← run_eq_stages] at hbefore
    exact session_stage_cast env _ _ (.lcd b 0) hbefore
  have hctl := ctl_of_session hsession
  have hjog : (lcdSwitch env b 0 (run env as)).jog = _ := congrArg Session.jog hsession
  have hstep : run env (as ++ [press b]) = Runs.exec (stage env) (run env as) (press b).stages :=
    Runs.exec_append (step env) boot as [press b]
  rw [hstep]
  refine exec_press b ?_ ?_ ?_
  · rw [hctl]
    exact hdue
  · rw [hctl]
    exact hrun
  · rw [hjog]
    exact (cast_moved _).trans hmoved

/-- The arm is jogged, driven to the zero pose, and the jog target marked. -/
noncomputable def markAfterZero : List (Step ℝ) := [press 0xf3, press 0xf9, press 0xfb]

theorem azimuth_pos {X Y : ℝ} (hY : 0 < Y + 10) : 0 < azimuth realMath X Y := by
  have harg : 0 < Complex.arg ⟨X, Y + 10⟩ := by
    have h0 : 0 ≤ Complex.arg ⟨X, Y + 10⟩ := Complex.arg_nonneg_iff.2 hY.le
    have hne : Complex.arg ⟨X, Y + 10⟩ ≠ 0 := by
      intro h
      exact absurd (Complex.arg_eq_zero_iff.1 h).2 hY.ne'
    exact lt_of_le_of_ne h0 hne.symm
  show 0 < if Real.pi < Complex.arg ⟨X, Y + 10⟩ then Real.pi
    else if Complex.arg ⟨X, Y + 10⟩ < 0 then 0 else Complex.arg ⟨X, Y + 10⟩
  split_ifs with h1 h2
  · exact Real.pi_pos
  · exact absurd h2 (not_lt.2 harg.le)
  · exact harg

theorem j1_ne_zero_of_produced {p : Pos ℝ} {j : Joints ℝ} (hy : 0 < p.y + 10)
    (h : Produced firmware p j) : j.j1 ≠ 0 := by
  obtain ⟨a, best, hbest, rfl⟩ := h
  obtain ⟨c, -, -, rfl⟩ := search_sound hbest
  have hpos : 0 < azimuth realMath p.x p.y := azimuth_pos hy
  show azimuth realMath p.x p.y * 180 / Real.pi ≠ 0
  have hpi := Real.pi_pos
  positivity

/-- The first two keys: the arm stands at the target (5, 30, 25) in the zero pose. -/
theorem zero_pose_before_mark : let s := run firmware [press 0xf3, press 0xf9]
    s.ctl.canMark = true ∧ s.ctl.pointCount = 0 ∧ s.jog.cur = ⟨5, 30, 25⟩ ∧
      s.arm.global = ⟨0, -10, 95, 45, 60⟩ := by
  intro s
  have hzero : s = sensors 0 none (caseZero (run firmware [press 0xf3])) :=
    run_press [press 0xf3] 0xf9 (by decide +kernel)
  have hsession := session_exec firmware session_boot
    (([press 0xf3, press 0xf9] : List (Step ℝ)).flatMap Step.stages)
  rw [← run_eq_stages] at hsession
  have hctl : s.ctl = _ := ctl_of_session hsession
  have hjog : s.jog = _ := congrArg Session.jog hsession
  refine ⟨?_, ?_, ?_, ?_⟩
  · rw [hctl]
    decide +kernel
  · rw [hctl]
    decide +kernel
  · have hcur : (Runs.exec Session.move (Session.boot : Session ℤ)
        (moves ([press 0xf3, press 0xf9] : List (Step ℝ)))).jog.cur = ⟨5, 30, 25⟩ := by
      decide +kernel
    rw [hjog]
    refine (congrArg Pos.cast hcur).trans ?_
    simp [Pos.cast]
  · rw [hzero, (same_sensors 0 none).arm]
    rfl

/-- The mark stores the angles of the zero pose, which no call for the target gives. -/
theorem not_stored_markAfterZero : ¬ (run firmware markAfterZero).Stored := by
  obtain ⟨hmarks, hcount, hcur, hglobal⟩ := zero_pose_before_mark
  have hmark : run firmware markAfterZero =
      sensors 0 none (lcdSwitch firmware 0xfb 0 (run firmware [press 0xf3, press 0xf9])) :=
    run_press [press 0xf3, press 0xf9] 0xfb (by decide +kernel)
  have hproduced := produced_of_solved firmware (markAfterZero.flatMap Step.stages)
  rw [← run_eq_stages] at hproduced
  generalize run firmware [press 0xf3, press 0xf9] = s at *
  generalize run firmware markAfterZero = t at *
  have hpoint : lcdSwitch firmware 0xfb 0 s = markPoint firmware 0 s := by
    have hinside : checkCoordinateRange s.jog.cur = true := by
      rw [hcur]
      norm_num [checkCoordinateRange, xMin, xMax, yMin, yMax, zMin, zMax]
    show caseMark firmware 0 s = _
    simp only [caseMark]
    rw [hmarks, hinside]
    rfl
  have hsame : Same (markPoint firmware 0 s) t := by
    rw [hmark, hpoint]
    exact same_sensors 0 none
  have hcell : t.cell 0 = (s.jog.cur, s.arm.global) := by
    have hwrite : (markPoint firmware 0 s).cell =
        Function.update s.cell s.ctl.pointCount (s.jog.cur, s.arm.global) := cell_setPoint ..
    rw [hsame.cell, hwrite, hcount, Function.update_self]
  intro h
  have hmem : t.cell 0 ∈ t.solved := by
    apply h 0
    rw [hsame.count]
    exact Nat.succ_pos _
  have hanswer := hproduced _ hmem
  rw [hcell, hcur, hglobal] at hanswer
  exact j1_ne_zero_of_produced (by norm_num) hanswer rfl

end RoboticArm
