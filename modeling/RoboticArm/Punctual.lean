import RoboticArm.Durations
import RoboticArm.Itinerary
import RoboticArm.Pause

/- A launched treatment that is left alone keeps a timetable.

   To the clock a treatment is a round of stops: six seconds on the way to each point,
   its duration at it, the points in order. The main loop looks at the flags and timers
   that the tick handler sets once in an iteration, so how late it may be depends on how
   many ticks pass between two iterations and on nothing else.

   1. `itinerary` is the round a state is on, and `Shows` says at which place of it a
      state is. Ticks are waiting (`Shows.ticks`), the completion of a return is arrival
      (`Shows.returnDelay`), the run logic is departure (`Shows.runLogic`), and no other
      stage matters unless a key starts, clears, marks or changes the durations
      (`Shows.other`).
   2. `shows_round`: so some ticks and an iteration are one pass of the round.
   3. `treatment_on_time`: the treatment reaches no point early and none later than the
      gaps between iterations explain, and completes. -/
namespace RoboticArm

open Itinerary

/-! ## The round of a treatment -/

/-- The keys that begin, interrupt or reshape a treatment. -/
def Key.steers : Key → Bool
  | .mark | .start | .timeAdd | .timeMinus | .clear => true
  | _ => false

/-- The round of the marked points, in ticks of 100 ms. -/
def Cycle.itinerary (c : Cycle) : Plan :=
  ⟨c.ctl.pointCount, returnDelayMs / 100, fun i => c.duration i / 100⟩

/-- What a point may count without wrapping, in ticks. -/
def countable : Nat := 40000000

namespace Cycle

variable {c : Cycle}

/-- The arm is on its way to point `i`, and `r` ticks have passed since it left. -/
structure OnTheWay (c : Cycle) (i r : Nat) : Prop where
  stopped : c.ctl.startFlag = false
  unfinished : c.ctl.cycleComplete = false
  current : c.ctl.currentPoint = i
  pending : c.ctl.returnInProgress = true
  starts : startsArm c.ctl.returnType = true
  fresh : c.ctl.returnType ≠ 5 → c.timer i = 0
  counting : c.ctl.returnDelayFlag = false → c.accReturn = 100 * r ∧ r < 60
  expired : c.ctl.returnDelayFlag = true → 60 ≤ r

/-- The arm treats point `i`, and has done so for `t` ticks. -/
structure AtPoint (c : Cycle) (i t : Nat) : Prop where
  running : c.ctl.startFlag = true
  unfinished : c.ctl.cycleComplete = false
  current : c.ctl.currentPoint = i
  idle : c.ctl.returnInProgress = false
  counted : c.timer i = 100 * t
  rested : 0 < t → c.accReturn = 0

structure Finished (c : Cycle) : Prop where
  stopped : c.ctl.startFlag = false
  complete : c.ctl.cycleComplete = true
  current : c.ctl.currentPoint = c.ctl.pointCount
  idle : c.ctl.returnInProgress = false

/-- The cycle is at this place of its round. -/
def At (c : Cycle) : Itinerary.Place → Prop
  | .travelling i r => c.OnTheWay i r
  | .staying i t => c.AtPoint i t
  | .done => c.Finished

/-- The cycle is on the round `p`, at the place `x`. -/
structure Shows (p : Plan) (c : Cycle) (x : Itinerary.Place) : Prop where
  round : c.itinerary = p
  whole : ∀ i < p.stops, c.duration i = 100 * p.stay i
  place : c.At x

/-! ## Ticks -/

theorem OnTheWay.tick {i r : Nat} (h : c.OnTheWay i r) : c.tick.OnTheWay i (r + 1) := by
  have hrest : c.ctl.running = false := by simp [Ctl.running, h.stopped]
  have hret : c.ret.tick =
      if returnDelayMs ≤ c.accReturn + 100 then ⟨true, true, c.ctl.returnType, 0⟩
      else { c.ret with acc := c.accReturn + 100 } := if_pos h.pending
  rw [tick_eq, hrest, hret]
  split
  · next hover =>
    refine ⟨h.stopped, h.unfinished, h.current, h.pending, h.starts, h.fresh,
      fun hflag => absurd hflag.symm Bool.false_ne_true, fun _ => ?_⟩
    cases hflag : c.ctl.returnDelayFlag with
    | true =>
      have hr := h.expired hflag
      omega
    | false =>
      obtain ⟨hacc, hr⟩ := h.counting hflag
      simp only [returnDelayMs] at hover
      omega
  · next hmore =>
    refine ⟨h.stopped, h.unfinished, h.current, h.pending, h.starts, h.fresh, fun hflag => ?_,
      fun hflag => ?_⟩
    · obtain ⟨hacc, hr⟩ := h.counting hflag
      simp only [returnDelayMs] at hmore
      show c.accReturn + 100 = 100 * (r + 1) ∧ r + 1 < 60
      omega
    · exact Nat.le_succ_of_le (h.expired hflag)

theorem AtPoint.tick {i t : Nat} (h : c.AtPoint i t) (hcount : 0 < c.ctl.pointCount)
    (ht : t < countable) : c.tick.AtPoint i (t + 1) := by
  have hrun : c.ctl.running = true := by simp [Ctl.running, h.running, h.unfinished, hcount]
  have hret : c.ret.tick = { c.ret with acc := 0 } := by
    have hidle : c.ret.inProgress = false := h.idle
    simp [Return.tick, hidle]
  rw [tick_eq, hrun, hret]
  refine ⟨h.running, h.unfinished, h.current, h.idle, ?_, fun _ => rfl⟩
  show Function.update c.timer c.ctl.currentPoint (u32 (c.timer c.ctl.currentPoint + 100)) i = _
  rw [h.current, Function.update_self, h.counted, u32_of_lt (by simp only [countable] at ht; omega)]
  rfl

theorem Finished.tick (h : c.Finished) : c.tick.Finished := by
  rw [tick_eq]
  exact ⟨h.stopped, h.complete, h.current, h.idle⟩

/-- The ticks a point has counted so far. -/
def counted : Itinerary.Place → Nat
  | .staying _ t => t
  | _ => 0

theorem counted_wait (m : Nat) (x : Itinerary.Place) : counted (x.wait m) ≤ counted x + m := by
  cases x <;> simp [Itinerary.Place.wait, counted]

theorem Shows.tick {p : Plan} {x : Itinerary.Place} (h : c.Shows p x) (hstops : 0 < p.stops)
    (hx : counted x < countable) : c.tick.Shows p (x.wait 1) := by
  have hround : c.tick.itinerary = c.itinerary := by rw [tick_eq]; rfl
  have hdur : c.tick.duration = c.duration := congrArg Durations.point (durations_tick c)
  have hcount : c.ctl.pointCount = p.stops := congrArg Plan.stops h.round
  refine ⟨hround.trans h.round, ?_, ?_⟩
  · rw [hdur]
    exact h.whole
  · cases x with
    | travelling i r => exact OnTheWay.tick h.place
    | staying i t => exact AtPoint.tick h.place (hcount ▸ hstops) hx
    | done => exact Finished.tick h.place

theorem Shows.ticks {p : Plan} {x : Itinerary.Place} (hstops : 0 < p.stops) :
    ∀ {m : Nat}, c.Shows p x → counted x + m ≤ countable →
      (Cycle.tick^[m] c).Shows p (x.wait m)
  | 0, h, _ => by
    rw [x.wait_zero]
    exact h
  | m + 1, h, hx => by
    have hlast := Shows.ticks hstops (m := m) h (by omega)
    have hbelow := counted_wait m x
    rw [Function.iterate_succ_apply', x.wait_succ]
    exact hlast.tick hstops (by omega)

/-! ## Arrival -/

theorem OnTheWay.returnDelay {i r : Nat} (h : c.OnTheWay i r) :
    c.returnDelay.At (if 60 ≤ r then .staying i 0 else .travelling i r) := by
  have hdue : c.ctl.returnDue = c.ctl.returnDelayFlag := by simp [Ctl.returnDue, h.pending]
  cases hflag : c.ctl.returnDelayFlag with
  | false =>
    obtain ⟨hacc, hr⟩ := h.counting hflag
    rw [hflag] at hdue
    rw [if_neg (by omega), Cycle.returnDelay, if_neg (by simp [hdue])]
    exact h
  | true =>
    rw [hflag] at hdue
    have hcourse := course_returnDelay c true
    have hret := ret_returnDelay c
    have htimer := timer_returnDelay c true
    simp only [nextCourse, nextReturn, nextTimer, hdue, h.starts, Bool.and_self, Bool.true_and,
      if_true] at hcourse hret htimer
    rw [if_pos (h.expired hflag)]
    refine ⟨congrArg Course.start hcourse, (congrArg Course.complete hcourse).trans h.unfinished,
      (congrArg Course.current hcourse).trans h.current, congrArg Return.inProgress hret, ?_,
      fun hpos => absurd hpos (Nat.lt_irrefl 0)⟩
    rw [htimer]
    split
    · show Function.update c.timer c.ctl.currentPoint 0 i = 0
      rw [h.current]
      exact Function.update_self ..
    · next h5 => exact h.fresh (by simpa using h5)

theorem Shows.returnDelay {p : Plan} {x : Itinerary.Place} (h : c.Shows p x) (htravel : p.travel = 60) :
    c.returnDelay.Shows p (p.arrive x) := by
  have hdur : c.returnDelay.duration = c.duration := congrArg Durations.point (durations_returnDelay c)
  have hcourse := course_returnDelay c true
  have hcount : c.returnDelay.ctl.pointCount = c.ctl.pointCount := by
    refine (congrArg Course.count hcourse).trans ?_
    simp only [nextCourse]
    split <;> rfl
  have hround : c.returnDelay.itinerary = c.itinerary := by simp only [itinerary, hdur, hcount]
  have hidle : c.ctl.returnInProgress = false → c.returnDelay = c := by
    intro hno
    rw [Cycle.returnDelay, if_neg (by simp [Ctl.returnDue, hno])]
  refine ⟨hround.trans h.round, ?_, ?_⟩
  · rw [hdur]
    exact h.whole
  · cases x with
    | travelling i r =>
      rw [Plan.arrive, htravel]
      exact OnTheWay.returnDelay h.place
    | staying i t =>
      rw [hidle (AtPoint.idle h.place)]
      exact h.place
    | done =>
      rw [hidle (Finished.idle h.place)]
      exact h.place

/-! ## Departure -/

theorem pointDue_of_stopped (h : c.ctl.startFlag = false) : c.pointDue = false := by
  simp [pointDue, Ctl.running, h]

theorem runLogic_of_not_due (h : c.pointDue = false) : c.runLogic = c := by
  rw [Cycle.runLogic, if_neg (by simp [h])]

theorem AtPoint.depart {i t : Nat} (h : c.AtPoint i t) (hdue : c.pointDue = true) (ht : 0 < t)
    (hi : i < c.ctl.pointCount) :
    c.runLogic.At (if i + 1 < c.ctl.pointCount then .travelling (i + 1) 0 else .done) := by
  have hcourse := course_runLogic c
  have hret := ret_runLogic c
  simp only [runCourse, nextReturn] at hcourse hret
  by_cases hmore : i + 1 < c.ctl.pointCount
  · have hswitch : c.switchesPoint = true := by
      simp only [switchesPoint, hdue, Bool.true_and, decide_eq_true_eq, h.current]
      exact hmore
    have hfin : c.finishes = false := by
      simp only [finishes, hdue, Bool.true_and, decide_eq_false_iff_not, h.current]
      omega
    rw [hswitch, hfin] at hcourse
    rw [hswitch] at hret
    rw [if_pos hmore]
    have htype : c.runLogic.ctl.returnType = 5 := congrArg Return.type hret
    have hacc : c.runLogic.accReturn = c.accReturn := congrArg Return.acc hret
    refine ⟨congrArg Course.start hcourse, (congrArg Course.complete hcourse).trans h.unfinished, ?_,
      congrArg Return.inProgress hret, ?_, fun hno => absurd htype hno, fun _ => ?_, fun hflag => ?_⟩
    · exact (congrArg Course.current hcourse).trans (congrArg (· + 1) h.current)
    · rw [htype]
      rfl
    -- the delay counts from zero, since the accumulator was at rest during the stay
    · rw [hacc, h.rested ht]
      exact ⟨rfl, by decide⟩
    · exact absurd ((congrArg Return.flag hret).symm.trans hflag) (by simp [Return.call])
  · have hfin : c.finishes = true := by
      simp only [finishes, hdue, Bool.true_and, decide_eq_true_eq, h.current]
      omega
    rw [hfin] at hcourse
    rw [finishes_of_not_switchesPoint hfin] at hret
    rw [if_neg hmore]
    refine ⟨congrArg Course.start hcourse, congrArg Course.complete hcourse, ?_,
      (congrArg Return.inProgress hret).trans h.idle⟩
    calc c.runLogic.ctl.currentPoint = c.ctl.currentPoint + 1 := congrArg Course.current hcourse
      _ = c.ctl.pointCount := by rw [h.current]; omega
      _ = c.runLogic.ctl.pointCount := (congrArg Course.count hcourse).symm

theorem Shows.runLogic {p : Plan} {x : Itinerary.Place} (h : c.Shows p x)
    (hstop : ∀ i t, x = .staying i t → i < p.stops) (hstay : ∀ i < p.stops, 0 < p.stay i) :
    c.runLogic.Shows p (p.leave x) := by
  have hdur : c.runLogic.duration = c.duration := congrArg Durations.point (durations_runLogic c)
  have hcount : c.runLogic.ctl.pointCount = c.ctl.pointCount := by
    refine (congrArg Course.count (course_runLogic c)).trans ?_
    simp only [runCourse]
    split_ifs <;> rfl
  have hround : c.runLogic.itinerary = c.itinerary := by simp only [itinerary, hdur, hcount]
  have hstops : c.ctl.pointCount = p.stops := congrArg Plan.stops h.round
  refine ⟨hround.trans h.round, ?_, ?_⟩
  · rw [hdur]
    exact h.whole
  · cases x with
    | travelling i r =>
      rw [runLogic_of_not_due (pointDue_of_stopped (OnTheWay.stopped h.place))]
      exact h.place
    | done =>
      rw [runLogic_of_not_due (pointDue_of_stopped (Finished.stopped h.place))]
      exact h.place
    | staying i t =>
      have hat : c.AtPoint i t := h.place
      have hi : i < p.stops := hstop i t rfl
      have hdue : c.pointDue = decide (p.stay i ≤ t) := by
        have hrun : c.ctl.running = true := by
          simp [Ctl.running, hat.running, hat.unfinished, hstops, Nat.zero_lt_of_lt hi]
        simp only [pointDue, hrun, Bool.true_and, hat.current, h.whole i hi, hat.counted]
        congr 1
        simp
      rw [Plan.leave, ← hstops]
      by_cases htime : p.stay i ≤ t
      · rw [decide_eq_true htime] at hdue
        rw [if_pos htime]
        exact hat.depart hdue (lt_of_lt_of_le (hstay i hi) htime) (hstops ▸ hi)
      · rw [decide_eq_false htime] at hdue
        rw [if_neg htime, runLogic_of_not_due hdue]
        exact hat

/-! ## The other stages -/

theorem onKey_of_not_steers (r : Bool) (c : Cycle) {k : Key} (hk : k.steers = false) :
    c.onKey r k = c := by
  cases k <;> first | rfl | exact absurd hk (by decide)

theorem Shows.manual {p : Plan} {x : Itinerary.Place} (v : Bool) (h : c.Shows p x) :
    (c.manual v).Shows p x := by
  unfold Cycle.manual
  split
  · refine ⟨h.round, h.whole, ?_⟩
    cases x with
    | travelling i r => exact { (show c.OnTheWay i r from h.place) with }
    | staying i t => exact { (show c.AtPoint i t from h.place) with }
    | done => exact { (show c.Finished from h.place) with }
  · exact h

theorem acc_nextReturn (c : Cycle) {m : Move} (hm : m ≠ .tick) :
    (c.nextReturn m).acc = c.accReturn := by
  cases m with
  | key k =>
    cases k with
    | mark => exact (apply_ite Return.acc _ _ _).trans (ite_self _)
    | start =>
      simp only [nextReturn]
      split_ifs <;> rfl
    | _ => rfl
  | returnDelay | runLogic => exact (apply_ite Return.acc _ _ _).trans (ite_self _)
  | tick => exact absurd rfl hm
  | _ => rfl

/-- The accumulator of the return delay counts whole ticks. -/
theorem accReturn_whole {K : Type} [Field K] [LinearOrder K] (env : Env K) (as : List (Step K)) :
    (run env as).cycle.accReturn % 100 = 0 := by
  refine run_inv (P := fun c => c.accReturn % 100 = 0) ?_ rfl
  intro r v c m _ h _
  have hret : (c.move r v m).accReturn = (c.nextReturn m).acc := congrArg Return.acc (ret_move r v c m)
  rw [hret]
  by_cases hm : m = .tick
  · rw [hm, nextReturn, Return.tick]
    split_ifs
    · rfl
    · show (c.accReturn + 100) % 100 = 0
      omega
    · rfl
  · rw [acc_nextReturn c hm]
    exact h

/-- A pending launch is the way to the first point. -/
theorem shows_of_launch (h : c.Inv) (hacc : c.accReturn % 100 = 0)
    (hpend : c.ctl.returnInProgress = true) (hflag : c.ctl.returnDelayFlag = false)
    (hl : c.ctl.returnType = 3 ∨ c.ctl.returnType = 4) :
    c.Shows c.itinerary (.travelling 0 (c.accReturn / 100)) := by
  have hlaunch := h.launch hpend hl
  have hlt := h.acc_lt
  obtain ⟨_, _, hminutes⟩ := h.duration_ok
  refine ⟨rfl, ?_, hlaunch.stopped, hlaunch.unfinished, hlaunch.current, hpend, ?_,
    fun _ => hlaunch.fresh, fun _ => ?_, fun hover => absurd (hflag.symm.trans hover) (by simp)⟩
  · intro i hi
    show c.duration i = 100 * (c.duration i / 100)
    rw [h.durations i hi]
    omega
  · rcases hl with ht | ht <;> simp [startsArm, ht]
  · simp only [returnDelayMs] at hlt
    omega

end Cycle

/-! ## Runs -/

/-- Some ticks, and then an iteration. -/
structure Gap (K : Type) where
  ticks : Nat
  input : Input K

section
variable {K : Type}

def Gap.steps (g : Gap K) : List (Step K) := RoboticArm.ticks g.ticks ++ [.iteration g.input]

/-- Neither key of the iteration steers the treatment. -/
def Gap.quiet (g : Gap K) : Bool := !(lcdKey g.input.lcd).steers && !(irKey g.input.ir).steers

def Gap.elapsed (gaps : List (Gap K)) : Nat := (gaps.map Gap.ticks).sum

variable [Field K] [LinearOrder K] {env : Env K}

/-- Some ticks and an iteration are one pass of the round. -/
theorem shows_gap {p : Plan} {x : Itinerary.Place} {s : Rb K} {g : Gap K} {slack τ : Nat}
    (h : s.cycle.Shows p x) (hx : OnTime p slack τ x) (htravel : p.travel = 60)
    (hstay : ∀ i < p.stops, 0 < p.stay i) (hstops : 0 < p.stops)
    (hcount : Cycle.counted x + g.ticks ≤ countable) (hquiet : g.quiet = true) :
    (Runs.exec (step env) s g.steps).cycle.Shows p (p.pass x g.ticks) := by
  simp only [Gap.quiet, Bool.and_eq_true, Bool.not_eq_true'] at hquiet
  obtain ⟨hlcd, hir⟩ := hquiet
  have hticks := h.ticks hstops hcount
  rw [← cycle_ticks] at hticks
  have hstop : ∀ i t, p.arrive (x.wait g.ticks) = .staying i t → i < p.stops := by
    intro i t he
    cases x with
    | travelling j r =>
      simp only [Itinerary.Place.wait, Plan.arrive] at he
      split at he
      · obtain ⟨rfl, _⟩ := Itinerary.Place.staying.inj he
        exact hx.1
      · exact Itinerary.Place.noConfusion he
    | staying j r =>
      obtain ⟨rfl, _⟩ := Itinerary.Place.staying.inj he
      exact hx.1
    | done => exact Itinerary.Place.noConfusion he
  rw [Gap.steps, Runs.exec_append]
  generalize Runs.exec (step env) s (ticks g.ticks) = t at hticks
  show (Runs.exec (stage env) t (Step.iteration g.input).stages).cycle.Shows p _
  simp only [Step.stages, Runs.exec_cons, Runs.exec_nil, cycle_stage, Stage.move, Cycle.move,
    Cycle.onKey_of_not_steers _ _ hlcd, Cycle.onKey_of_not_steers _ _ hir]
  exact ((hticks.returnDelay htravel).runLogic hstop hstay).manual _

theorem counted_le {p : Plan} {x : Itinerary.Place} {slack τ : Nat} (h : OnTime p slack τ x)
    (hlong : ∀ i < p.stops, p.stay i ≤ 6000) : Cycle.counted x ≤ 6000 := by
  cases x with
  | staying i t => exact h.2.1.le.trans (hlong i h.1)
  | _ => exact Nat.zero_le _

theorem shows_gaps {p : Plan} {slack : Nat} (htravel : p.travel = 60)
    (hstay : ∀ i < p.stops, 0 < p.stay i) (hlong : ∀ i < p.stops, p.stay i ≤ 6000)
    (hstops : 0 < p.stops) (hslack : 6001 + slack ≤ countable) :
    ∀ {gaps : List (Gap K)} {s : Rb K} {x : Itinerary.Place} {τ : Nat}, s.cycle.Shows p x →
      OnTime p slack τ x → (∀ g ∈ gaps, g.quiet = true ∧ g.ticks ≤ slack + 1) →
      (Runs.exec (step env) s (gaps.flatMap Gap.steps)).cycle.Shows p
        (Runs.exec p.pass x (gaps.map Gap.ticks))
  | [], _, _, _, h, _, _ => h
  | g :: gaps, s, x, τ, h, hx, hgaps => by
    obtain ⟨hquiet, hgap⟩ := hgaps g List.mem_cons_self
    -- a place that is on time has not counted so much that the timer could wrap
    have hbelow := counted_le hx hlong
    have hcount : Cycle.counted x + g.ticks ≤ countable := by omega
    have hnext : (Runs.exec (step env) s g.steps).cycle.Shows p (p.pass x g.ticks) :=
      shows_gap h hx htravel hstay hstops hcount hquiet
    have hontime := onTime_pass (by omega) hstay hx hgap
    rw [List.flatMap_cons, Runs.exec_append]
    exact shows_gaps htravel hstay hlong hstops hslack hnext hontime
      fun k hk => hgaps k (List.mem_cons_of_mem g hk)

/-- `u` follows the launch in `s`, `τ` ticks after the arm left for the first point, with
iterations that come at most `slack` ticks late. -/
structure OnSchedule (s u : Rb K) (slack τ : Nat) : Prop where
  count : u.ctl.pointCount = s.ctl.pointCount
  current : u.ctl.currentPoint ≤ s.ctl.pointCount
  complete : u.ctl.cycleComplete = true ↔ u.ctl.currentPoint = s.ctl.pointCount
  notEarly : u.ctl.currentPoint * (60 + s.ctl.pointDuration / 100) ≤ τ
  notLate : u.ctl.currentPoint < s.ctl.pointCount →
    τ < (u.ctl.currentPoint + 1) * (60 + s.ctl.pointDuration / 100 + 2 * slack)

/-- What a place of the round says about the state that shows it. -/
theorem place_of_shows {p : Plan} {x : Itinerary.Place} {c : Cycle} {slack τ : Nat} (h : c.Shows p x)
    (hx : OnTime p slack τ x) :
    c.ctl.currentPoint = p.stop x ∧ (c.ctl.cycleComplete = true ↔ p.stop x = p.stops) := by
  have hcount : c.ctl.pointCount = p.stops := congrArg Plan.stops h.round
  cases x with
  | travelling i r =>
    have hat : c.OnTheWay i r := h.place
    refine ⟨hat.current, iff_of_false ?_ (Nat.ne_of_lt hx.1)⟩
    simp [hat.unfinished]
  | staying i t =>
    have hat : c.AtPoint i t := h.place
    refine ⟨hat.current, iff_of_false ?_ (Nat.ne_of_lt hx.1)⟩
    simp [hat.unfinished]
  | done =>
    have hat : c.Finished := h.place
    exact ⟨hat.current.trans hcount, iff_of_true hat.complete rfl⟩

/-- A launched treatment that is left alone is on schedule after every gap between
iterations: it comes to no point before the delays and durations up to there have passed,
and, with at most `slack + 1` ticks in a gap, to none later than `slack` ticks for each of
them, up to completion behind the last point. -/
theorem treatment_on_time {pre : List (Step K)} {gaps : List (Gap K)} {slack : Nat}
    (hpend : (run env pre).ctl.returnInProgress = true)
    (hflag : (run env pre).ctl.returnDelayFlag = false)
    (hl : (run env pre).ctl.returnType = 3 ∨ (run env pre).ctl.returnType = 4)
    (hgaps : ∀ g ∈ gaps, g.quiet = true ∧ g.ticks ≤ slack + 1) (hslack : 6001 + slack ≤ countable) :
    OnSchedule (run env pre) (run env (pre ++ gaps.flatMap Gap.steps)) slack
      ((run env pre).isr.accReturn / 100 + Gap.elapsed gaps) := by
  have hinv := inv_run env pre
  have hshows := Cycle.shows_of_launch hinv (Cycle.accReturn_whole env pre) hpend hflag hl
  let p := (run env pre).cycle.itinerary
  let d := (run env pre).ctl.pointDuration / 100
  have hstay : ∀ i < p.stops, p.stay i = d := fun i hi => congrArg (· / 100) (hinv.durations i hi)
  have hmin : 120000 ≤ (run env pre).ctl.pointDuration := hinv.duration_ok.1
  have hmax : (run env pre).ctl.pointDuration ≤ 600000 := hinv.duration_ok.2.1
  have hshort : ∀ i < p.stops, 0 < p.stay i := fun i hi => by
    rw [hstay i hi]
    exact Nat.div_pos (by omega) (by decide)
  have hlong : ∀ i < p.stops, p.stay i ≤ 6000 := fun i hi => by
    rw [hstay i hi]
    exact Nat.div_le_of_le_mul hmax
  have hstops : 0 < p.stops := (hinv.launch hpend hl).marked
  have hstart : OnTime p slack ((run env pre).isr.accReturn / 100)
      (.travelling 0 ((run env pre).isr.accReturn / 100)) := by
    have hacc : (run env pre).isr.accReturn < 6000 := hinv.acc_lt
    refine ⟨hstops, ?_, Nat.le_of_eq (Nat.zero_add _), Nat.le_of_eq (Nat.zero_add _).symm⟩
    show (run env pre).isr.accReturn / 100 < 60
    omega
  have hrun : run env (pre ++ gaps.flatMap Gap.steps) =
      Runs.exec (step env) (run env pre) (gaps.flatMap Gap.steps) := Runs.exec_append _ _ _ _
  have hticks : ∀ m ∈ gaps.map Gap.ticks, m ≤ slack + 1 := by
    intro m hm
    obtain ⟨g, hg, rfl⟩ := List.mem_map.1 hm
    exact (hgaps g hg).2
  let y := Runs.exec p.pass (.travelling 0 ((run env pre).isr.accReturn / 100)) (gaps.map Gap.ticks)
  have hend : OnTime p slack ((run env pre).isr.accReturn / 100 + Gap.elapsed gaps) y :=
    onTime_exec (show 0 < 60 by decide) hshort hstart hticks
  have hy : (run env (pre ++ gaps.flatMap Gap.steps)).cycle.Shows p y := by
    rw [hrun]
    exact shows_gaps rfl hshort hlong hstops hslack hshows hstart hgaps
  obtain ⟨hstop, hdone⟩ := place_of_shows hy hend
  obtain ⟨hle, hearly, hlate⟩ := reached hend
  have hcurrent : (run env (pre ++ gaps.flatMap Gap.steps)).ctl.currentPoint = p.stop y := hstop
  refine ⟨congrArg Plan.stops hy.round, hcurrent.trans_le hle, ?_, ?_, ?_⟩
  · rw [hcurrent]
    exact hdone
  · rw [hcurrent]
    exact (Plan.early_eq hstay hle) ▸ hearly
  · rw [hcurrent]
    intro hlt
    exact (Plan.late_eq hstay hlt) ▸ hlate hlt

end

/-! ## Two points of two minutes -/

/-- Two points of two minutes are marked and their launch is under way. -/
noncomputable def launchTwo : List (Step ℝ) :=
  [press 0xf3, press 0xfb, press 0xf3, press 0xfb] ++ List.replicate 5 (press 0xfe) ++ [press 0xfc]

/-- An iteration without a key after each of `n` ticks. -/
noncomputable def everyTick (n : Nat) : List (Gap ℝ) := List.replicate n ⟨1, 0, 0, 0, 0, 0, 0, none⟩

set_option maxRecDepth 100000 in
theorem ctl_launchTwo : (run firmware launchTwo).cycle.ctl.returnInProgress = true ∧
    (run firmware launchTwo).cycle.ctl.returnDelayFlag = false ∧
    (run firmware launchTwo).cycle.ctl.returnType = 4 ∧
    (run firmware launchTwo).cycle.ctl.pointCount = 2 ∧
    (run firmware launchTwo).cycle.ctl.pointDuration = 120000 ∧
    (run firmware launchTwo).cycle.accReturn = 0 := by
  rw [cycle_run]
  decide +kernel

/-- With an iteration after every tick, the 1260th leads to the second point, and the 2520th
completes the treatment. -/
theorem treatment_on_time_launchTwo :
    (run firmware (launchTwo ++ (everyTick 1260).flatMap Gap.steps)).ctl.currentPoint = 1 ∧
      (run firmware (launchTwo ++ (everyTick 2519).flatMap Gap.steps)).ctl.cycleComplete = false ∧
      (run firmware (launchTwo ++ (everyTick 2520).flatMap Gap.steps)).ctl.cycleComplete = true := by
  obtain ⟨hpend, hflag, htype, hcount, hduration, hacc⟩ := ctl_launchTwo
  have hsum : ∀ n, Gap.elapsed (everyTick n) = n := by
    intro n
    simp [Gap.elapsed, everyTick]
  have hquiet : ∀ n, ∀ g ∈ everyTick n, g.quiet = true ∧ g.ticks ≤ 0 + 1 := by
    intro n g hg
    rw [List.eq_of_mem_replicate hg]
    exact ⟨by decide, Nat.le_refl _⟩
  have hschedule : ∀ n, OnSchedule (run firmware launchTwo)
      (run firmware (launchTwo ++ (everyTick n).flatMap Gap.steps)) 0
      ((run firmware launchTwo).isr.accReturn / 100 + Gap.elapsed (everyTick n)) := fun n =>
    treatment_on_time hpend hflag (Or.inr htype) (hquiet n) (by decide)
  have hacc' : (run firmware launchTwo).isr.accReturn = 0 := hacc
  have hcount' : (run firmware launchTwo).ctl.pointCount = 2 := hcount
  have hduration' : (run firmware launchTwo).ctl.pointDuration = 120000 := hduration
  refine ⟨?_, ?_, ?_⟩
  · have h := hschedule 1260
    have hearly := h.notEarly
    have hlate := h.notLate
    have hle := h.current
    rw [hsum, hacc', hduration'] at hearly hlate
    rw [hcount'] at hlate hle
    omega
  · have h := hschedule 2519
    have hearly := h.notEarly
    rw [hsum, hacc', hduration'] at hearly
    have hno : ¬ (run firmware (launchTwo ++ (everyTick 2519).flatMap Gap.steps)).ctl.cycleComplete =
        true := by
      rw [h.complete, hcount']
      omega
    exact Bool.eq_false_of_not_eq_true hno
  · have h := hschedule 2520
    have hlate := h.notLate
    have hle := h.current
    rw [h.complete]
    rw [hsum, hacc', hcount', hduration'] at *
    omega

end RoboticArm
