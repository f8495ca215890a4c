import RoboticArm.Cycle
import Mathlib.Analysis.SpecialFunctions.Complex.Arg
import Mathlib.Analysis.SpecialFunctions.Trigonometric.Basic

/- The firmware over the reals, and how a given run of it is computed.

   `firmware` is the control program linked with the true trigonometric functions
   and with the grid search of `arm.c`. Its jog target starts at whole numbers and
   moves by whole numbers, so cycle and jog target are followed exactly by
   `Session`, which is computed over the integers (`cycle_firmware`). -/
namespace RoboticArm

/-- The mathematical functions, exactly. -/
noncomputable def realMath : MathH ℝ where
  pi := Real.pi
  sin := Real.sin
  cos := Real.cos
  sqrt := Real.sqrt
  atan2 := fun y x => Complex.arg ⟨x, y⟩

/-- The control program with exact arithmetic and the search of `arm.c`. -/
noncomputable def firmware : Env ℝ := ⟨realMath, search realMath⟩

/-- A control program that can be computed, with a search that always answers. -/
def answering : Env ℚ where
  math := ⟨22 / 7, fun _ => 0, fun _ => 1, fun _ => 30, fun _ _ => 1⟩
  solve _ x y z := some ⟨x, y, z, 0, 0⟩

/-! ## Sessions -/

/-- The cycle together with the jog target it tests. -/
structure Session (R : Type) where
  cycle : Cycle
  jog : Jog R

section
variable {R : Type} [Ring R] [LinearOrder R]

def Session.move (s : Session R) (m : Move) : Session R :=
  ⟨s.cycle.move (checkCoordinateRange s.jog.cur) s.jog.moved m, s.jog.next s.cycle.ctl m⟩

def Session.boot : Session R := ⟨Cycle.boot, Jog.boot⟩

end

def Rb.session {K : Type} (s : Rb K) : Session K := ⟨s.cycle, s.jog⟩

theorem session_stage {K : Type} [Field K] [LinearOrder K] (env : Env K) (s : Rb K) (a : Stage K) :
    (stage env s a).session = s.session.move a.move := by
  show Session.mk (stage env s a).cycle (stage env s a).jog = _
  rw [cycle_stage, jog_stage]
  rfl

/-! ## From the integers to any number type -/

section
variable {K : Type} [Ring K]

def Pos.cast (p : Pos ℤ) : Pos K := ⟨p.x, p.y, p.z⟩

def Jog.cast (j : Jog ℤ) : Jog K := ⟨j.cur.cast, j.prev.cast⟩

def Session.cast (s : Session ℤ) : Session K := ⟨s.cycle, s.jog.cast⟩

theorem cast_boot : (Session.boot : Session ℤ).cast = (Session.boot : Session K) := by
  simp [Session.cast, Session.boot, Jog.cast, Jog.boot, Pos.cast]

theorem session_boot {K : Type} [Field K] : (boot : Rb K).session = (Session.boot : Session ℤ).cast :=
  cast_boot.symm

theorem cycle_of_session {K : Type} [Field K] {s : Rb K} {c : Session ℤ} (h : s.session = c.cast) :
    s.cycle = c.cycle :=
  congrArg Session.cycle h

theorem ctl_of_session {K : Type} [Field K] {s : Rb K} {c : Session ℤ} (h : s.session = c.cast) :
    s.ctl = c.cycle.ctl :=
  congrArg (fun s : Session K => s.cycle.ctl) h

variable [LinearOrder K] [IsStrictOrderedRing K]

theorem cast_clampTo (lo hi v : ℤ) : ((clampTo lo hi v : ℤ) : K) = clampTo (lo : K) hi v := by
  unfold clampTo
  dsimp only
  by_cases hlo : v < lo
  · simp only [hlo, Int.cast_lt, if_true]
    split <;> rfl
  · simp only [hlo, Int.cast_lt, if_false]
    split <;> rfl

theorem cast_clampCoordinates (p : Pos ℤ) :
    (clampCoordinates p).cast = clampCoordinates (p.cast : Pos K) := by
  simp only [clampCoordinates, Pos.cast]
  simp only [cast_clampTo]
  simp [xMin, xMax, yMin, yMax, zMin, zMax]

theorem cast_move (dx dy dz : ℤ) (j : Jog ℤ) :
    (j.move dx dy dz).cast = (j.cast : Jog K).move (dx : K) (dy : K) (dz : K) := by
  simp only [Jog.move, Jog.cast]
  simp only [cast_clampCoordinates]
  simp [Pos.cast]

theorem cast_checkCoordinateRange (p : Pos ℤ) :
    checkCoordinateRange (p.cast : Pos K) = checkCoordinateRange p := by
  simp only [checkCoordinateRange]
  congr 2
  simp only [Pos.cast, xMin, xMax, yMin, yMax, zMin, zMax]
  norm_cast

theorem cast_moved (j : Jog ℤ) : (j.cast : Jog K).moved = j.moved := by
  simp only [Jog.moved, Jog.cast, Pos.cast]
  simp

theorem cast_next (c : Ctl) (j : Jog ℤ) (m : Move) :
    (j.next c m).cast = (j.cast : Jog K).next c m := by
  have hz : (if c.running then j else j.move 0 0 5).cast =
      if c.running then (j.cast : Jog K) else j.cast.move 0 0 5 := by
    rw [apply_ite Jog.cast, cast_move]
    simp
  have hz' : (if c.running then j else j.move 0 0 (-5)).cast =
      if c.running then (j.cast : Jog K) else j.cast.move 0 0 (-5) := by
    rw [apply_ite Jog.cast, cast_move]
    simp
  cases m with
  | key k =>
    cases k with
    | zUp => exact hz
    | zDown => exact hz'
    | xDec => simpa [Jog.next] using cast_move (K := K) (-5) 0 0 j
    | xInc => simpa [Jog.next] using cast_move (K := K) 5 0 0 j
    | yInc => simpa [Jog.next] using cast_move (K := K) 0 5 0 j
    | yDec => simpa [Jog.next] using cast_move (K := K) 0 (-5) 0 j
    | _ => rfl
  | manual =>
    show (if j.moved && !c.startFlag then { j with prev := j.cur } else j : Jog ℤ).cast = _
    rw [apply_ite Jog.cast, ← cast_moved (K := K)]
    rfl
  | _ => rfl

theorem cast_sessionMove (s : Session ℤ) (m : Move) :
    (s.move m).cast = (s.cast : Session K).move m := by
  show Session.mk (s.move m).cycle (s.jog.next s.cycle.ctl m).cast =
    Session.mk
      (s.cycle.move (checkCoordinateRange (s.jog.cur.cast : Pos K)) (s.jog.cast : Jog K).moved m) _
  rw [cast_next, cast_checkCoordinateRange, cast_moved]
  rfl

end

/-! ## Runs -/

section
variable {K : Type} [Field K] [LinearOrder K] [IsStrictOrderedRing K] (env : Env K)

theorem session_stage_cast (t : Rb K) (c : Session ℤ) (a : Stage K) (h : t.session = c.cast) :
    (stage env t a).session = (c.move a.move).cast := by
  rw [session_stage, h, cast_sessionMove]

/-- A run of the control program, followed over the integers. -/
theorem session_exec {s : Rb K} {c : Session ℤ} (h : s.session = c.cast) (as : List (Stage K)) :
    (Runs.exec (stage env) s as).session = (Runs.exec Session.move c (as.map Stage.move)).cast :=
  Runs.exec_sim Stage.move (session_stage_cast env) as h

/-- A condition on the stages of a run that only looks at the cycle, checked over the
integers. -/
theorem along_iff (ok : Cycle → Move → Prop) {s : Rb K} {c : Session ℤ} (h : s.session = c.cast)
    (as : List (Stage K)) :
    Runs.Along (fun s a => ok s.cycle a.move) (stage env) s as ↔
      Runs.Along (fun s m => ok s.cycle m) Session.move c (as.map Stage.move) := by
  have hok : ∀ (t : Rb K) (c : Session ℤ) (a : Stage K), t.session = c.cast →
      (ok t.cycle a.move ↔ ok c.cycle a.move) := by
    intro t c a h
    rw [cycle_of_session h]
  exact Runs.along_sim Stage.move (session_stage_cast env) hok as h

/-- The moves of a sequence of steps. -/
def moves (as : List (Step K)) : List Move := (as.flatMap Step.stages).map Stage.move

theorem cycle_exec (as : List (Stage K)) : (Runs.exec (stage env) boot as).cycle =
    (Runs.exec Session.move (Session.boot : Session ℤ) (as.map Stage.move)).cycle :=
  cycle_of_session (session_exec env session_boot as)

theorem cycle_run (as : List (Step K)) :
    (run env as).cycle = (Runs.exec Session.move (Session.boot : Session ℤ) (moves as)).cycle := by
  have hrun : run env as = Runs.exec (stage env) boot (as.flatMap Step.stages) :=
    (Runs.exec_flatMap (stage env) Step.stages boot as).symm
  rw [hrun]
  exact cycle_exec env _

theorem cycle_run_append (as bs : List (Step K)) :
    (run env (as ++ bs)).cycle =
      (Runs.exec Session.move (Runs.exec Session.move (Session.boot : Session ℤ) (moves as))
        (moves bs)).cycle := by
  rw [cycle_run, moves, List.flatMap_append, List.map_append, Runs.exec_append]
  rfl

theorem throughout_iff (ok : Cycle → Move → Prop) (as : List (Step K)) :
    Throughout (fun s a => ok s.cycle a.move) env as ↔
      Runs.Along (fun s m => ok s.cycle m) Session.move (Session.boot : Session ℤ) (moves as) :=
  along_iff env ok session_boot _

end

/-! ## Scripts -/

section
variable {K : Type} [Zero K]

/-- An iteration with one LCD key and no sensor reading; `idle` has no key. -/
def press (b : UInt8) : Step K := .iteration ⟨b, 0, 0, 0, 0, 0, none⟩

def idle : Step K := press 0

def ticks (n : Nat) : List (Step K) := List.replicate n .tick

end

/-- One point is marked and its cycle started. -/
noncomputable def startOne : List (Step ℝ) :=
  [press 0xf3, press 0xfb, press 0xfc] ++ ticks 60 ++ [idle]

/-- Two points are marked, for two minutes each, and treated until the first is done. -/
noncomputable def goOn : List (Step ℝ) :=
  [press 0xf3, press 0xfb, press 0xf3, press 0xfb] ++ List.replicate 5 (press 0xfe) ++ [press 0xfc] ++
    ticks 60 ++ [idle] ++ ticks 1200 ++ [idle]

end RoboticArm
