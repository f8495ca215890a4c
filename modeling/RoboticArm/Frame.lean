import RoboticArm.Loop

/- What the handlers leave alone.

   Most handlers decide what runs and touch nothing else. Two parts of the state say
   how much: `Ground` is left alone by the tick, by the completion of a return and by
   the keys that change durations; `Scene`, a part of it, also by the handlers that may
   call the joint search for a point and keep the joints (the start key, the mode change
   and the point switch). A result about a field of either reads it off the lemma for
   the handler here. -/
namespace RoboticArm

/-- The number of marked points, the jog target, the coordinates, joints and baseline of
every cell, the state of the search, of the distance filter and of the compensation, and
the calls on record. -/
structure Ground (K : Type) where
  count : Nat
  jog : Jog K
  cell : Nat → Pos K × Joints K × K
  arm : Arm K
  tof : Tof K
  comp : Comp K
  solved : List (Pos K × Joints K)

/-- The jog target, the coordinates and baseline of every cell, the distance filter and
the compensation. -/
structure Scene (K : Type) where
  jog : Jog K
  site : Nat → Pos K × K
  tof : Tof K
  comp : Comp K

section
variable {K : Type}

def SimplePoint.cell (p : SimplePoint K) : Pos K × Joints K × K := (p.pos, p.j, p.jiuliBaseline)

def Rb.ground (s : Rb K) : Ground K :=
  ⟨s.ctl.pointCount, s.jog, fun i => (s.points i).cell, s.arm, s.tof, s.comp, s.solved⟩

def Ground.scene (g : Ground K) : Scene K :=
  ⟨g.jog, fun i => ((g.cell i).1, (g.cell i).2.2), g.tof, g.comp⟩

def Rb.scene (s : Rb K) : Scene K := s.ground.scene

theorem point_update {B : Type} (f : SimplePoint K → B) {i : Nat} {p : SimplePoint K}
    {points : Nat → SimplePoint K} (h : f p = f (points i)) :
    (fun k => f (Function.update points i p k)) = fun k => f (points k) := by
  have hwrite := Function.comp_update f points i p
  rw [h] at hwrite
  exact hwrite.trans (Function.update_eq_self i (f ∘ points))

theorem ground_setPoint {i : Nat} {p : SimplePoint K} {s : Rb K}
    (h : p.cell = (s.points i).cell) : (s.setPoint i p).ground = s.ground := by
  simp only [Rb.ground, Rb.setPoint, point_update SimplePoint.cell h]

theorem ground_mapMarked {f : SimplePoint K → SimplePoint K} (hf : ∀ p, (f p).cell = p.cell)
    (s : Rb K) : (s.mapMarked f).ground = s.ground := by
  simp only [Rb.ground, Rb.mapMarked, Ground.mk.injEq, and_true, true_and]
  funext k
  split
  · exact hf _
  · rfl

theorem ground_mapDuration (f : Nat → Nat) (d : Nat) (s : Rb K) :
    (({ s with ctl := { s.ctl with pointDuration := d } } : Rb K).mapMarked
      fun p => { p with pointDuration := f p.pointDuration }).ground = s.ground := by
  refine ground_mapMarked ?_ { s with ctl := { s.ctl with pointDuration := d } }
  intro p
  rfl

theorem ground_runTimeAdd (s : Rb K) : (runTimeAdd s).ground = s.ground := by
  unfold runTimeAdd
  split
  · exact ground_mapDuration (fun d => u32 (d + 60000)) _ s
  · rfl

theorem ground_runTimeMinus (s : Rb K) : (runTimeMinus s).ground = s.ground := by
  unfold runTimeMinus
  split
  · exact ground_mapDuration (fun d => u32 (d + 2 ^ 32 - 60000)) _ s
  · rfl

theorem ground_tick (s : Rb K) : (tim3IrqHandler s).ground = s.ground := by
  have hpoint : ∀ t : Rb K, (tickPoint t).ground = t.ground := by
    intro t
    simp only [tickPoint]
    split
    · exact ground_setPoint rfl
    · rfl
  have hreturn : ∀ t : Rb K, (tickReturn t).ground = t.ground := by
    intro t
    simp only [tickReturn]
    split_ifs <;> rfl
  have hflame : ∀ t : Rb K, (tickFlame t).ground = t.ground := by
    intro t
    simp only [tickFlame]
    split_ifs <;> rfl
  have h100 : ∀ t : Rb K, (tick100ms t).ground = t.ground := by
    intro t
    simp only [tick100ms]
    split <;> rfl
  simp only [tim3IrqHandler]
  rw [hpoint, hreturn]
  exact (hflame _).trans (h100 _)

variable [Field K]

theorem ground_returnDelay (s : Rb K) : (returnDelay s).ground = s.ground := by
  have hcomplete : ∀ t : Rb K, (completeReturn t).ground = t.ground := by
    intro t
    simp only [completeReturn]
    split
    · exact ground_setPoint (s := t) rfl
    · rfl
    · rfl
    · rfl
    · exact ground_setPoint (s := t) rfl
    · rfl
  simp only [returnDelay]
  split
  · exact hcomplete _
  · rfl

variable [LinearOrder K] (env : Env K)

theorem scene_moveToPoint (i : Nat) (s : Rb K) : (moveToPoint env i s).scene = s.scene := by
  simp only [moveToPoint]
  split
  · rfl
  · split
    · -- the joints are stored, with the coordinates and the baseline kept
      simp only [Rb.scene, Rb.ground, Ground.scene, Rb.setPoint, Rb.send, solveFor, SimplePoint.cell,
        Scene.mk.injEq, and_true, true_and]
      exact point_update (fun p => (p.pos, p.jiuliBaseline)) rfl
    · rfl

theorem scene_startReturnDelay (type i : Nat) (s : Rb K) :
    (startReturnDelay env type i s).scene = s.scene := by
  simp only [startReturnDelay]
  split
  · exact scene_moveToPoint env i _
  · rfl

theorem scene_switchMode (m : Nat) (s : Rb K) : (switchMode env m s).scene = s.scene := by
  simp only [switchMode]
  split
  · exact scene_startReturnDelay env 1 _ _
  · split <;> rfl

theorem scene_nextMode (s : Rb K) : (nextMode env s).scene = s.scene := by
  simp only [nextMode]
  split_ifs
  · exact scene_switchMode env 2 s
  · exact scene_switchMode env 3 s
  · exact scene_switchMode env 1 s
  · exact scene_switchMode env 0 s
  · rfl

theorem scene_caseStart (s : Rb K) : (caseStart env s).scene = s.scene := by
  have hrestart : (restart env s).scene = s.scene := by
    let s₁ : Rb K := { ignite s with
      ctl := { (ignite s).ctl with currentPoint := 0, cycleComplete := false } }
    have hmap : (s₁.mapMarked fun p => { p with pointTimer := 0, position := 0 }).ground =
        s₁.ground := by
      refine ground_mapMarked ?_ s₁
      intro p
      rfl
    simp only [restart]
    rw [scene_startReturnDelay]
    exact congrArg Ground.scene hmap
  simp only [caseStart]
  split_ifs
  · rfl
  · exact hrestart
  · exact scene_startReturnDelay env 4 0 (ignite s)
  · rfl
  · rfl

end

end RoboticArm
