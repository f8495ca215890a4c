import RoboticArm.Hover
import RoboticArm.Targets
import RoboticArm.Workspace

/- What the positioning motors were told last.

   Five routines solve for a target and command the motors by the joint globals, each with
   a list of commands of its own. The joints of a solution belong together: the search may
   change all of them from one target to the next.

   1. `WholeArm`: the last commands of motors 1, 2, 3 and 5 are one solution. A list with a
      command for each of them settles it, whatever was sent before (`WholeArm.append`).
   2. `commandsWhole_stage_iff`: a stage commands the whole arm unless it is a left-right
      move with a solution, which has no command for motor 5. What that motor was told before
      stays (`wholeArm_runLr_iff`).
   3. `commandsWhole_iff`: the same for a run. `sideways` is a run with such a move. -/
namespace RoboticArm

section
variable {K : Type} [Field K]

/-- The motor a command drives, and the angle. -/
def Cmd.drive : Cmd K → Option (Nat × K)
  | .controlMotor angle id => some (id, angle)
  | .controlMotorNew angle id _ _ => some (id, angle)
  | .canBldcPosControl angle motorId => some (motorId, angle)
  | .writeBit _ _ => none
  | .lcdSendTask _ _ _ _ => none

/-- The last angle a motor was told, in a list of commands with the newest first. -/
def lastAngle (id : Nat) (cs : List (Cmd K)) : Option K := (cs.filterMap Cmd.drive).lookup id

/-- The positioning motors were last told the joints of `q`. -/
structure WholeArm (q : Joints K) (cs : List (Cmd K)) : Prop where
  motor1 : lastAngle 1 cs = some (90 - q.j1)
  motor2 : lastAngle 2 cs = some q.j2
  motor3 : lastAngle 3 cs = some q.j3
  motor5 : lastAngle 5 cs = some q.j4

omit [Field K] in
theorem lastAngle_append (id : Nat) (cs ds : List (Cmd K)) :
    lastAngle id (cs ++ ds) = (lastAngle id cs).or (lastAngle id ds) := by
  simp only [lastAngle, List.filterMap_append]
  exact List.lookup_append

omit [Field K] in
theorem lastAngle_append_of_eq {id : Nat} {angle : K} {cs : List (Cmd K)}
    (h : lastAngle id cs = some angle) (ds : List (Cmd K)) : lastAngle id (cs ++ ds) = some angle := by
  rw [lastAngle_append, h]
  rfl

theorem WholeArm.append {q : Joints K} {cs : List (Cmd K)} (h : WholeArm q cs) (ds : List (Cmd K)) :
    WholeArm q (cs ++ ds) where
  motor1 := lastAngle_append_of_eq h.motor1 ds
  motor2 := lastAngle_append_of_eq h.motor2 ds
  motor3 := lastAngle_append_of_eq h.motor3 ds
  motor5 := lastAngle_append_of_eq h.motor5 ds

/-- The five routines that solve for a target in order to move there. -/
def Place.moves : Place → Bool
  | .runHover | .runLr | .runCircle | .runUd | .manual => true
  | .mark | .adjustZ | .moveToPoint _ => false

/-! ## What each routine sends -/

variable [LinearOrder K] {env : Env K} {raw : K} {s : Rb K} {q : Joints K}

omit [LinearOrder K] in
theorem global_of_solution {p : Pos K} (h : solution env p s = some q) :
    (solveFor env p s).arm.global = q := by
  rw [global_solveFor, h]
  rfl

/-- From `s` to `t` all four motors were told the solution `q`, so it is what they were told
last. -/
structure Arrives (q : Joints K) (s t : Rb K) : Prop where
  global : t.arm.global = q
  sent : ∃ cs, t.cmds = cs ++ s.cmds ∧ WholeArm q cs
  last : WholeArm q t.cmds

omit [LinearOrder K] in
theorem Arrives.of_sent {q : Joints K} {s t : Rb K} {cs : List (Cmd K)} (hg : t.arm.global = q)
    (hc : t.cmds = cs ++ s.cmds) (hw : WholeArm q cs) : Arrives q s t :=
  ⟨hg, ⟨cs, hc, hw⟩, hc ▸ hw.append s.cmds⟩

theorem arrives_runHover (hz : 1 / 100 < |(readCompensation raw s).1|)
    (h : solution env (motionTarget env.math (readCompensation raw s).1 s .runHover) s = some q) :
    Arrives q s (runHover env raw s) := by
  have hg := global_of_solution (s := (readCompensation raw s).2) h
  simp only [runHover]
  rw [if_pos hz]
  subst hg
  refine .of_sent rfl rfl ?_
  constructor <;> rfl

theorem arrives_runCircle (hg : (!s.motion.circleMoveFlag || moveBlocked s) = false)
    (h : solution env (motionTarget env.math (readCompensation raw s).1 s .runCircle) s = some q) :
    Arrives q s (runCircle env raw s) := by
  have hq := global_of_solution (s := (readCompensation raw s).2) h
  simp only [runCircle]
  rw [hg]
  subst hq
  refine .of_sent rfl rfl ?_
  constructor <;> rfl

theorem arrives_runUd (hg : (!s.motion.udMoveFlag || moveBlocked s) = false)
    (h : solution env (motionTarget env.math (readCompensation raw s).1 s .runUd) s = some q) :
    Arrives q s (runUd env raw s) := by
  have hq := global_of_solution (s := (readCompensation raw s).2) h
  simp only [runUd]
  rw [hg]
  subst hq
  refine .of_sent rfl rfl ?_
  constructor <;> rfl

theorem arrives_manual (hm : (s.jog.moved && !s.ctl.startFlag) = true)
    (h : solution env s.jog.cur s = some q) : Arrives q s (manual env s) := by
  have hq := global_of_solution h
  simp only [manual]
  rw [if_pos hm]
  subst hq
  split_ifs <;> exact .of_sent rfl rfl (by constructor <;> rfl)

/-- A left-right move has no command for motor 5. -/
theorem cmds_runLr (hg : (!s.motion.lrMoveFlag || moveBlocked s) = false) :
    (runLr env raw s).cmds = [.canBldcPosControl (runLr env raw s).arm.global.j3 3,
      .canBldcPosControl (runLr env raw s).arm.global.j2 2,
      .controlMotorNew (90 - (runLr env raw s).arm.global.j1) 1 2500 220] ++ s.cmds := by
  simp only [runLr]
  rw [hg]
  rfl

theorem global_runLr (hg : (!s.motion.lrMoveFlag || moveBlocked s) = false)
    (h : solution env (motionTarget env.math (readCompensation raw s).1 s .runLr) s = some q) :
    (runLr env raw s).arm.global = q := by
  simp only [runLr]
  rw [hg]
  refine global_of_solution ?_
  rw [← h]
  refine congrArg (fun p => solution env p s) ?_
  simp only [motionTarget, lrTargetX]
  rw [(readCompensation_position raw s _).1]
  generalize s.here.position = n
  rcases n with _ | _ | _ | n <;> rfl

/-- After one the motors were told its solution last only if motor 5 happened to be there. -/
theorem wholeArm_runLr_iff (hg : (!s.motion.lrMoveFlag || moveBlocked s) = false)
    (h : solution env (motionTarget env.math (readCompensation raw s).1 s .runLr) s = some q) :
    WholeArm q (runLr env raw s).cmds ↔ lastAngle 5 s.cmds = some q.j4 := by
  rw [cmds_runLr hg, global_runLr hg h]
  exact ⟨fun hw => hw.motor5, fun h5 => ⟨rfl, rfl, rfl, h5⟩⟩

theorem not_arrives_runLr (hg : (!s.motion.lrMoveFlag || moveBlocked s) = false) :
    ¬ Arrives q s (runLr env raw s) := by
  intro h
  obtain ⟨cs, hcs, hw⟩ := h.sent
  rw [cmds_runLr hg] at hcs
  rw [← List.append_cancel_right hcs] at hw
  exact Option.some_ne_none q.j4 hw.motor5.symm

/-! ## The routine behind a call -/

/-- The routine that makes a call in order to move. -/
inductive Routine (env : Env K) (s : Rb K) : Stage K → Call K → Prop where
  | hover (raw : K) (hz : 1 / 100 < |(readCompensation raw s).1|)
      (hr : runLogic env raw s = runHover env raw s) :
      Routine env s (.runLogic raw)
        ⟨.runHover, motionTarget env.math (readCompensation raw s).1 s .runHover⟩
  | lr (raw : K) (hg : (!s.motion.lrMoveFlag || moveBlocked s) = false)
      (hr : runLogic env raw s = runLr env raw s) :
      Routine env s (.runLogic raw) ⟨.runLr, motionTarget env.math (readCompensation raw s).1 s .runLr⟩
  | circle (raw : K) (hg : (!s.motion.circleMoveFlag || moveBlocked s) = false)
      (hr : runLogic env raw s = runCircle env raw s) :
      Routine env s (.runLogic raw)
        ⟨.runCircle, motionTarget env.math (readCompensation raw s).1 s .runCircle⟩
  | ud (raw : K) (hg : (!s.motion.udMoveFlag || moveBlocked s) = false)
      (hr : runLogic env raw s = runUd env raw s) :
      Routine env s (.runLogic raw) ⟨.runUd, motionTarget env.math (readCompensation raw s).1 s .runUd⟩
  | manual (hm : (s.jog.moved && !s.ctl.startFlag) = true) : Routine env s .manual ⟨.manual, s.jog.cur⟩

theorem moves_replayCall {i : Nat} {c : Call K} (h : replayCall i s = some c) :
    c.place.moves = false := by
  simp only [replayCall] at h
  split at h
  · cases h
    rfl
  · exact absurd h (by simp)

theorem moves_keyCall {k : Key} {c : Call K} (h : keyCall s k = some c) : c.place.moves = false := by
  cases k with
  | zUp =>
    simp only [keyCall] at h
    split at h
    · cases h
      rfl
    · exact absurd h (by simp)
  | zDown =>
    simp only [keyCall] at h
    split at h
    · cases h
      rfl
    · exact absurd h (by simp)
  | mark =>
    simp only [keyCall] at h
    split_ifs at h
    · cases h
      rfl
    · exact moves_replayCall h
  | start =>
    simp only [keyCall] at h
    split at h
    · exact moves_replayCall h
    · exact absurd h (by simp)
  | _ => exact absurd h (by simp [keyCall])

theorem routine_of_motionCall {c : Call K} (hd : s.dispatches = true)
    (hc : motionCall env.math raw s = some c) : Routine env s (.runLogic raw) c := by
  have hrun : runLogic env raw s = runMode env raw s := runLogic_of_dispatches hd
  simp only [motionCall] at hc
  cases dispatch raw s with
  | hover he hr =>
    simp only [he] at hc
    split at hc
    · next hz =>
      cases hc
      exact .hover raw hz (hrun.trans (hr env))
    · exact absurd hc (by simp)
  | lr he hg hr =>
    simp only [he] at hc
    cases hc
    exact .lr raw hg (hrun.trans (hr env))
  | circle he hg hr =>
    simp only [he] at hc
    cases hc
    exact .circle raw hg (hrun.trans (hr env))
  | ud he hg hr =>
    simp only [he] at hc
    cases hc
    exact .ud raw hg (hrun.trans (hr env))
  | nothing he hr =>
    simp only [he] at hc
    exact absurd hc (by simp)

theorem routine_of_called {a : Stage K} {c : Call K} (hc : called env.math s a = some c)
    (hm : c.place.moves = true) : Routine env s a c := by
  cases a with
  | lcd b raw => exact absurd ((moves_keyCall hc).symm.trans hm) Bool.false_ne_true
  | ir b raw => exact absurd ((moves_keyCall hc).symm.trans hm) Bool.false_ne_true
  | runLogic raw =>
    simp only [called] at hc
    split_ifs at hc with _ hd
    · exact absurd ((moves_replayCall hc).symm.trans hm) Bool.false_ne_true
    · exact routine_of_motionCall hd hc
  | manual =>
    simp only [called] at hc
    split at hc
    · next hmoved =>
      cases hc
      exact .manual hmoved
    · exact absurd hc (by simp)
  | _ => exact absurd hc (by simp [called])

/-! ## Runs -/

/-- A stage that solves for a target in order to move there tells all four motors. -/
def CommandsWhole (env : Env K) (s : Rb K) (a : Stage K) : Prop :=
  ∀ c q, called env.math s a = some c → c.place.moves = true → solution env c.target s = some q →
    Arrives q s (stage env s a)

/-- A left-right move for whose target the search finds a solution. -/
def SolvesSideways (env : Env K) (s : Rb K) (a : Stage K) : Prop :=
  ∃ p, called env.math s a = some ⟨.runLr, p⟩ ∧ (solution env p s).isSome = true

theorem commandsWhole_stage_iff (env : Env K) (s : Rb K) (a : Stage K) :
    CommandsWhole env s a ↔ ¬ SolvesSideways env s a := by
  constructor
  · rintro h ⟨p, hc, hsome⟩
    obtain ⟨q, hq⟩ := Option.isSome_iff_exists.1 hsome
    have harrives : Arrives q s (stage env s a) := h _ q hc rfl hq
    cases routine_of_called hc rfl with
    | lr raw hg hr =>
      refine not_arrives_runLr hg (?_ : Arrives q s (runLr env raw s))
      rw [← hr]
      exact harrives
  · intro hno c q hc hm hq
    cases routine_of_called hc hm with
    | hover raw hz hr =>
      show Arrives q s (runLogic env raw s)
      rw [hr]
      exact arrives_runHover hz hq
    | lr raw hg hr => exact absurd ⟨_, hc, Option.isSome_iff_exists.2 ⟨q, hq⟩⟩ hno
    | circle raw hg hr =>
      show Arrives q s (runLogic env raw s)
      rw [hr]
      exact arrives_runCircle hg hq
    | ud raw hg hr =>
      show Arrives q s (runLogic env raw s)
      rw [hr]
      exact arrives_runUd hg hq
    | manual hmoved => exact arrives_manual hmoved hq

/-- In a run of stages in any order, from power-on, every stage that solves for a target in
order to move there commands the whole arm if and only if none of them is a left-right move
with a solution. -/
theorem commandsWhole_iff (env : Env K) (as : List (Stage K)) :
    Runs.Along (CommandsWhole env) (stage env) boot as ↔
      Runs.Along (fun s a => ¬ SolvesSideways env s a) (stage env) boot as :=
  Runs.along_congr (commandsWhole_stage_iff env)

/-! ## The timer of the left-right mode -/

/-- What the timer of the left-right mode reads and writes. -/
structure Beat where
  running : Bool
  acc : Nat
  due : Bool

def Rb.beat (s : Rb K) : Beat := ⟨s.ctl.timerRunningLr, s.isr.accLr, s.motion.lrMoveFlag⟩

omit [Field K] [LinearOrder K] in
theorem due_beat (s : Rb K) : s.beat.due = s.motion.lrMoveFlag := rfl

def Beat.tick (b : Beat) : Beat :=
  let lr := modeTimer b.running b.acc lrMoveInterval
  ⟨b.running, lr.1, b.due || lr.2⟩

omit [Field K] [LinearOrder K] in
theorem beat_tick (s : Rb K) : (tim3IrqHandler s).beat = s.beat.tick := by
  have hpoint : ∀ t : Rb K, (tickPoint t).beat = t.beat := by
    intro t
    simp only [tickPoint]
    split <;> rfl
  have hreturn : ∀ t : Rb K, (tickReturn t).beat = t.beat := by
    intro t
    simp only [tickReturn]
    split_ifs <;> rfl
  have hmodes : ∀ t : Rb K, (tickModes t).beat = t.beat.tick := fun _ => rfl
  have hflame : ∀ t : Rb K, (tickFlame t).beat = t.beat := by
    intro t
    simp only [tickFlame]
    split_ifs <;> rfl
  have h100 : ∀ t : Rb K, (tick100ms t).beat = t.beat := by
    intro t
    simp only [tick100ms]
    split <;> rfl
  simp only [tim3IrqHandler]
  rw [hpoint, hreturn, hmodes]
  exact congrArg Beat.tick ((hflame _).trans (h100 _))

theorem beat_ticks (env : Env K) (n : Nat) (s : Rb K) :
    (Runs.exec (stage env) s (List.replicate n .tick)).beat = Beat.tick^[n] s.beat := by
  induction n generalizing s with
  | zero => rfl
  | succ n ih =>
    calc (Runs.exec (stage env) s (List.replicate (n + 1) .tick)).beat
        = Beat.tick^[n] (tim3IrqHandler s).beat := ih (tim3IrqHandler s)
      _ = Beat.tick^[n + 1] s.beat := by rw [beat_tick, Function.iterate_succ_apply]

/-- A move is due at the latest when the period has passed with the timer running. -/
theorem Beat.due_iterate : ∀ {n : Nat} {b : Beat}, b.running = true →
    b.due = true ∨ 0 < n ∧ lrMoveInterval ≤ b.acc + 100 * n → (Beat.tick^[n] b).due = true
  | 0, _, _, h => h.resolve_right fun hn => absurd hn.1 (Nat.lt_irrefl 0)
  | n + 1, b, hr, h => by
    rw [Function.iterate_succ_apply]
    apply Beat.due_iterate (b := b.tick) hr
    rcases h with hdue | ⟨-, hn⟩
    · left
      simp [Beat.tick, hdue]
    · by_cases hfire : lrMoveInterval ≤ b.acc + 100
      · left
        simp [Beat.tick, modeTimer, hr, hfire]
      · right
        have hacc : b.tick.acc = b.acc + 100 := by simp [Beat.tick, modeTimer, hr, hfire]
        rw [hacc]
        omega

theorem lrMoveFlag_of_ticks (env : Env K) {s : Rb K} (hr : s.ctl.timerRunningLr = true) :
    (Runs.exec (stage env) s (List.replicate 12 .tick)).motion.lrMoveFlag = true := by
  have hlong : lrMoveInterval ≤ s.beat.acc + 100 * 12 := by
    rw [show lrMoveInterval = 1200 from rfl]
    omega
  rw [← due_beat, beat_ticks]
  exact Beat.due_iterate hr (Or.inr ⟨by decide, hlong⟩)

theorem exec_still (env : Env K) {s : Rb K} (h : s.ctl.returnDue = false) :
    Runs.exec (stage env) s [.lcd 0 0, .ir 0 0, .returnDelay] = s := by
  show returnDelay s = s
  simp only [returnDelay, h, Bool.false_eq_true, if_false]

theorem site_of_marks (env : Env K) {s : Rb K}
    (h : s.cycle.marks (checkCoordinateRange s.jog.cur) = true) (raw : K) :
    ((onKey env raw s .mark).sight.site s.ctl.pointCount).1 = s.jog.cur := by
  rw [sight_onKey]
  simp only [keySight, h, if_true, Function.update_self]

end

/-! ## A left-right move -/

/-- One point is run, the mode is changed to left-right, and the arm has returned to the point. -/
noncomputable def toSideways : List (Step ℝ) :=
  [press 0xfc] ++ ticks 60 ++ [idle, press 0xfb] ++ ticks 60 ++ [idle]

/-- The first left-right move is made when it is due. -/
noncomputable def sideways : List (Stage ℝ) :=
  ([press 0xf3, press 0xfb] ++ toSideways ++ ticks 12 ++ [idle]).flatMap Step.stages

/-- After the mark of the point, up to the arrival. -/
noncomputable def afterMark : List (Stage ℝ) :=
  [.ir 0 0, .returnDelay, .runLogic 0, .sensors 0 none, .manual] ++ toSideways.flatMap Step.stages

set_option maxRecDepth 2000 in
theorem sideways_eq : sideways =
    (press 0xf3 : Step ℝ).stages ++ .lcd 0xfb 0 :: (afterMark ++ List.replicate 12 .tick) ++
      ([.lcd 0 0, .ir 0 0, .returnDelay] ++ .runLogic 0 :: [.sensors 0 none, .manual]) := by
  rfl

/-- A point that is marked after the first jog key stays where it is while no cell is written. -/
theorem site_firstMark (as : List (Stage ℝ))
    (hk : Runs.Along (fun s m => KeepsTable s.cycle m) Session.move
      (Runs.exec Session.move (Session.boot : Session ℤ)
        (((press 0xf3 : Step ℝ).stages ++ [Stage.lcd 0xfb 0]).map Stage.move)) (as.map Stage.move)) :
    ((Runs.exec (stage firmware) boot
      ((press 0xf3 : Step ℝ).stages ++ .lcd 0xfb 0 :: as)).sight.site 0).1 =
        (⟨5, 30, 25⟩ : Pos ℤ).cast := by
  obtain ⟨hmarks, hcount, hjog⟩ := marks_firstJog
  have hcell := site_of_marks firmware hmarks 0
  rw [hcount, hjog] at hcell
  have hsession := session_exec firmware session_boot ((press 0xf3 : Step ℝ).stages ++ [.lcd 0xfb 0])
  rw [← along_iff firmware KeepsTable hsession, Runs.exec_append, Runs.exec_cons, Runs.exec_nil] at hk
  rw [Runs.exec_append, Runs.exec_cons, site_exec_of_keeps hk]
  exact hcell

theorem isSome_solution {p : Pos ℝ} (hbox : InBox p) (hy : p.y ≤ 30) (s : Rb ℝ) :
    (solution firmware p s).isSome = true := by
  have hx : -25 ≤ p.x ∧ p.x ≤ 25 := by simpa [xMin, xMax] using hbox.x
  have hy' : 10 ≤ p.y ∧ p.y ≤ 41 := by simpa [yMin, yMax] using hbox.y
  have hz : 10 ≤ p.z ∧ p.z ≤ 50 := by simpa [zMin, zMax] using hbox.z
  have hreach : neededSq p ≤ armLength ^ 2 := by
    rw [armLength_eq]
    simp only [neededSq, P, A5, A1]
    nlinarith [hx.1, hx.2, hy'.1, hz.1, hz.2]
  rw [solution, Option.isSome_map]
  exact search_isSome.2 (exists_passing hx hy' hz hreach)

/-- In a running cycle in the left-right mode, with the period passed, at a marked point no
further ahead than 30, the next move has a solution. -/
theorem solvesSideways_of_due {s : Rb ℝ} (hrun : s.ctl.running = true)
    (hpoint : s.cycle.pointDue = false)
    (hmode : s.ctl.modeHover = false ∧ s.ctl.modeLr = true) (hreturn : s.ctl.returnInProgress = false)
    (hdue : s.motion.lrMoveFlag = true) (hboxed : s.Boxed)
    (hmarked : s.ctl.currentPoint < s.ctl.pointCount)
    (hy : (s.sight.site s.ctl.currentPoint).1.y ≤ 30) (raw : ℝ) :
    SolvesSideways firmware s (.runLogic raw) := by
  have hgo : s.ctl.startFlag = true ∧ s.ctl.cycleComplete = false := by
    simp only [Ctl.running, Bool.and_eq_true, Bool.not_eq_true'] at hrun
    exact hrun.1
  have hentered : s.entered = some .runLr := by
    simp [Rb.entered, moveBlocked, hmode, hdue, hreturn, hgo]
  have hdispatch : s.dispatches = true := by simp [Rb.dispatches, hrun, hpoint]
  have hswitch : s.cycle.switchesPoint = false := by simp [Cycle.switchesPoint, hpoint]
  let p : Pos ℝ := motionTarget realMath (readCompensation raw s).1 s .runLr
  have hcall : called realMath s (.runLogic raw) = some ⟨.runLr, p⟩ := by
    simp [called, motionCall, hswitch, hdispatch, hentered, p]
  have hbox : InBox p := inBox_motionTarget hboxed hmarked realMath _ .runLr
  exact ⟨p, hcall, isSome_solution hbox hy s⟩

theorem lrMoveFlag_sideways : (Runs.exec (stage firmware) boot ((press 0xf3 : Step ℝ).stages ++
    .lcd 0xfb 0 :: (afterMark ++ List.replicate 12 .tick))).motion.lrMoveFlag = true := by
  have hsession := session_exec firmware session_boot
    ((press 0xf3 : Step ℝ).stages ++ .lcd 0xfb 0 :: afterMark)
  rw [← List.cons_append, ← List.append_assoc, Runs.exec_append]
  apply lrMoveFlag_of_ticks
  rw [ctl_of_session hsession]
  decide +kernel

/-- The left-right move has a solution, and no command for motor 5. -/
theorem not_commandsWhole_sideways :
    ¬ Runs.Along (CommandsWhole firmware) (stage firmware) boot sideways := by
  rw [Runs.along_congr (commandsWhole_stage_iff firmware), sideways_eq, Runs.along_append]
  rintro ⟨-, hmove⟩
  rw [Runs.along_append] at hmove
  obtain ⟨-, hlast, -⟩ := hmove
  have hboxed := boxed_stages firmware ((press 0xf3 : Step ℝ).stages ++
    .lcd 0xfb 0 :: (afterMark ++ List.replicate 12 .tick))
  have hsession := session_exec firmware session_boot ((press 0xf3 : Step ℝ).stages ++
    .lcd 0xfb 0 :: (afterMark ++ List.replicate 12 .tick))
  have hcell := site_firstMark (afterMark ++ List.replicate 12 .tick) (by decide +kernel)
  have hdue := lrMoveFlag_sideways
  generalize Runs.exec (stage firmware) boot ((press 0xf3 : Step ℝ).stages ++
    .lcd 0xfb 0 :: (afterMark ++ List.replicate 12 .tick)) = s at hlast hboxed hsession hcell hdue
  have hctl := ctl_of_session hsession
  have hcycle := cycle_of_session hsession
  have hstill : s.ctl.returnDue = false := by
    rw [hctl]
    decide +kernel
  have hfirst : s.ctl.currentPoint = 0 := by
    rw [hctl]
    decide +kernel
  have hhere : (s.sight.site s.ctl.currentPoint).1.y ≤ 30 := by
    rw [hfirst, hcell]
    norm_num [Pos.cast]
  rw [exec_still firmware hstill] at hlast
  apply hlast
  apply solvesSideways_of_due _ _ _ _ hdue hboxed _ hhere
  any_goals rw [hctl]
  any_goals rw [hcycle]
  all_goals decide +kernel

end RoboticArm
