import RoboticArm.Cycle

/- What holds of the cycle in every state of every run.

   1. `Cycle.Inv` is the invariant: the marked points and their durations, the
      timers ahead of the current point, and what a pending return of each type
      is waiting for.
   2. `Inv.move` keeps it, one lemma for each function of the cycle. The only
      move that needs to know its place in the iteration is the run logic: it is
      entered with no return due, because the completion stage has just run
      (`paced_steps`).
   3. `inv_run`: it holds after every run, and before every stage of one. -/
namespace RoboticArm

namespace Cycle

/-- A launch is pending: the arm is on its way to the first point, stopped, with
nothing treated yet and marking closed. -/
structure Launching (c : Cycle) : Prop where
  current : c.ctl.currentPoint = 0
  marked : 0 < c.ctl.pointCount
  stopped : c.ctl.startFlag = false
  unfinished : c.ctl.cycleComplete = false
  fresh : c.timer 0 = 0
  closed : c.ctl.bijiFlag = false

/-- A point switch is pending: the arm is on its way to a marked point, which has
not been treated for longer than the delay has run. -/
structure Switching (c : Cycle) : Prop where
  marked : c.ctl.currentPoint < c.ctl.pointCount
  unfinished : c.ctl.cycleComplete = false
  fresh : c.ctl.returnDelayFlag = false → c.timer c.ctl.currentPoint ≤ c.accReturn

/-- A duration the keys can set: two to ten whole minutes. -/
def DurationOk (d : Nat) : Prop := 120000 ≤ d ∧ d ≤ 600000 ∧ d % 60000 = 0

structure Inv (c : Cycle) : Prop where
  count_le : c.ctl.pointCount ≤ maxPoints
  acc_lt : c.accReturn < returnDelayMs
  duration_ok : DurationOk c.ctl.pointDuration
  durations : ∀ i < c.ctl.pointCount, c.duration i = c.ctl.pointDuration
  ahead : ∀ i, c.ctl.currentPoint < i → i < c.ctl.pointCount → c.timer i = 0
  jogged : c.ctl.cycleComplete = true ∨ 0 < c.ctl.pointCount → c.ctl.firstImuFlag2 = true
  running : c.ctl.startFlag = true → c.ctl.cycleComplete = false ∧ 0 < c.ctl.pointCount
  launch : c.ctl.returnInProgress = true → c.ctl.returnType = 3 ∨ c.ctl.returnType = 4 → c.Launching
  switch : c.ctl.returnInProgress = true → c.ctl.returnType = 5 → c.Switching

theorem inv_boot : boot.Inv := by
  constructor <;> simp [boot, Ctl.boot, DurationOk, maxPoints, returnDelayMs]

variable {c : Cycle}

theorem Inv.pauseRun (h : c.Inv) : c.pauseRun.Inv where
  count_le := h.count_le
  acc_lt := h.acc_lt
  duration_ok := h.duration_ok
  durations := h.durations
  ahead := h.ahead
  jogged := h.jogged
  running := by simp [Cycle.pauseRun]
  launch hp ht := { h.launch hp ht with stopped := rfl }
  switch hp ht := { h.switch hp ht with }

theorem Inv.mapDuration {f : Nat → Nat} (h : c.Inv) (hf : DurationOk (f c.ctl.pointDuration)) :
    (c.mapDuration f).Inv where
  count_le := h.count_le
  acc_lt := h.acc_lt
  duration_ok := hf
  durations i hi := by
    calc (if i < c.ctl.pointCount then f (c.duration i) else c.duration i)
        = f (c.duration i) := if_pos hi
      _ = f c.ctl.pointDuration := congrArg f (h.durations i hi)
  ahead := h.ahead
  jogged := h.jogged
  running := h.running
  launch hp ht := { h.launch hp ht with }
  switch hp ht := { h.switch hp ht with }

theorem Inv.timeAdd (h : c.Inv) : c.timeAdd.Inv := by
  simp only [Cycle.timeAdd]
  split
  · next hlt =>
    have hok : DurationOk (u32 (c.ctl.pointDuration + 60000)) := by
      obtain ⟨hmin, hmax, hmod⟩ := h.duration_ok
      simp only [pointDurationMax] at hlt
      rw [u32_of_lt (by omega)]
      exact ⟨by omega, by omega, by omega⟩
    exact h.mapDuration (f := fun d => u32 (d + 60000)) hok
  · exact h

theorem Inv.timeMinus (h : c.Inv) : c.timeMinus.Inv := by
  unfold Cycle.timeMinus
  split
  · next hlt =>
    have hok : DurationOk (u32 (c.ctl.pointDuration + 2 ^ 32 - 60000)) := by
      obtain ⟨hmin, hmax, hmod⟩ := h.duration_ok
      simp only [pointDurationMin] at hlt
      rw [u32_sub (by omega) (by omega)]
      exact ⟨by omega, by omega, by omega⟩
    exact h.mapDuration (f := fun d => u32 (d + 2 ^ 32 - 60000)) hok
  · exact h

/-- A call of `start_return_delay` may ask for a launch only where one is due,
and for a point switch only to a fresh marked point. -/
theorem Inv.startReturnDelay {type i : Nat} (h : c.Inv)
    (hlaunch : type = 3 ∨ type = 4 → c.Launching)
    (hswitch : type = 5 → c.ctl.currentPoint < c.ctl.pointCount ∧ c.ctl.cycleComplete = false ∧
      c.timer c.ctl.currentPoint = 0) : (c.startReturnDelay type i).Inv where
  count_le := h.count_le
  acc_lt := h.acc_lt
  duration_ok := h.duration_ok
  durations := h.durations
  ahead := h.ahead
  jogged := h.jogged
  running := h.running
  launch _ ht := { hlaunch ht with }
  switch _ ht := by
    obtain ⟨hm, hu, hz⟩ := hswitch ht
    exact ⟨hm, hu, fun _ => hz ▸ Nat.zero_le _⟩

theorem Inv.setMode (m : Nat) (h : c.Inv) :
    ({ c.note (.switchMode m) with ctl := c.ctl.stopTimers.setMode m } : Cycle).Inv where
  count_le := h.count_le
  acc_lt := h.acc_lt
  duration_ok := h.duration_ok
  durations := h.durations
  ahead := h.ahead
  jogged := h.jogged
  running := h.running
  launch hp ht := { h.launch hp ht with }
  switch hp ht := { h.switch hp ht with }

theorem Inv.startTimers (h : c.Inv) : ({ c with ctl := c.ctl.startTimers } : Cycle).Inv where
  count_le := h.count_le
  acc_lt := h.acc_lt
  duration_ok := h.duration_ok
  durations := h.durations
  ahead := h.ahead
  jogged := h.jogged
  running := h.running
  launch hp ht := { h.launch hp ht with }
  switch hp ht := { h.switch hp ht with }

theorem Inv.switchMode (m : Nat) (h : c.Inv) : (c.switchMode m).Inv := by
  unfold Cycle.switchMode
  dsimp only
  split_ifs
  · exact (h.setMode m).startReturnDelay (by omega) (by omega)
  · exact (h.setMode m).startTimers
  · exact h.setMode m

theorem Inv.nextMode (h : c.Inv) : c.nextMode.Inv := by
  simp only [Cycle.nextMode]
  split_ifs
  · exact h.switchMode 2
  · exact h.switchMode 3
  · exact h.switchMode 1
  · exact h.switchMode 0
  · exact h

theorem Inv.markPoint (h : c.Inv) (hopen : c.ctl.canMark = true) : c.markPoint.Inv := by
  obtain ⟨⟨⟨hstop, hfree⟩, hjog⟩, hbiji⟩ :
      ((c.ctl.startFlag = false ∧ c.ctl.pointCount < maxPoints) ∧ c.ctl.firstImuFlag2 = true) ∧
        c.ctl.bijiFlag = true := by
    simpa [Ctl.canMark] using hopen
  exact
    { count_le := hfree
      acc_lt := h.acc_lt
      duration_ok := h.duration_ok
      durations := by
        intro i hi
        show Function.update c.duration c.ctl.pointCount c.ctl.pointDuration i = c.ctl.pointDuration
        by_cases he : i = c.ctl.pointCount
        · subst he
          exact Function.update_self ..
        · rw [Function.update_of_ne he]
          exact h.durations i (lt_of_le_of_ne (Nat.le_of_lt_succ hi) he)
      ahead := by
        intro i hcur hi
        show Function.update c.timer c.ctl.pointCount 0 i = 0
        by_cases he : i = c.ctl.pointCount
        · subst he
          exact Function.update_self ..
        · rw [Function.update_of_ne he]
          exact h.ahead i hcur (lt_of_le_of_ne (Nat.le_of_lt_succ hi) he)
      jogged := fun _ => hjog
      running := fun hr => absurd (hstop.symm.trans hr) (by simp)
      -- a launch closes marking, so none is pending while a mark is made
      launch := fun hp ht => absurd (hbiji.symm.trans (h.launch hp ht).closed) (by simp)
      switch := by
        intro hp ht
        have hs := h.switch hp ht
        refine ⟨Nat.lt_succ_of_lt hs.marked, hs.unfinished, ?_⟩
        intro hflag
        show Function.update c.timer c.ctl.pointCount 0 c.ctl.currentPoint ≤ c.accReturn
        rw [Function.update_of_ne (Nat.ne_of_lt hs.marked)]
        exact hs.fresh hflag }

theorem Inv.markKey (r : Bool) (h : c.Inv) : (c.markKey r).Inv := by
  simp only [Cycle.markKey]
  split_ifs with hmark
  · exact h.markPoint hmark
  · exact h
  · exact h.nextMode
  · exact h

theorem Inv.ignite (h : c.Inv) : c.ignite.Inv where
  count_le := h.count_le
  acc_lt := h.acc_lt
  duration_ok := h.duration_ok
  durations := h.durations
  ahead := h.ahead
  jogged := h.jogged
  running := h.running
  launch hp ht := { h.launch hp ht with closed := rfl }
  switch hp ht := { h.switch hp ht with }

theorem Inv.firstStart (h : c.Inv) (hm : 0 < c.ctl.pointCount) (hs : c.ctl.startFlag = false)
    (hu : c.ctl.cycleComplete = false) (hc : c.ctl.currentPoint = 0) (hz : c.timer 0 = 0) :
    c.firstStart.Inv :=
  h.ignite.startReturnDelay (fun _ => ⟨hc, hm, hs, hu, hz, rfl⟩) (by omega)

theorem Inv.restart (h : c.Inv) (hm : 0 < c.ctl.pointCount) (hs : c.ctl.startFlag = false) :
    c.restart.Inv := by
  let c₁ : Cycle := { c.ignite with
    ctl := { c.ignite.ctl with currentPoint := 0, cycleComplete := false }
    timer := fun i => if i < c.ctl.pointCount then 0 else c.timer i }
  have hlaunch : c₁.Launching := ⟨rfl, hm, hs, rfl, if_pos hm, rfl⟩
  have h₁ : c₁.Inv :=
    { count_le := h.count_le
      acc_lt := h.acc_lt
      duration_ok := h.duration_ok
      durations := h.durations
      ahead := fun i _ hi => if_pos hi
      jogged := fun _ => h.jogged (Or.inr hm)
      running := fun hr => absurd (hs.symm.trans hr) (by simp)
      launch := fun _ _ => hlaunch
      switch := fun _ _ => ⟨hm, rfl, fun _ => (if_pos hm).trans_le (Nat.zero_le _)⟩ }
  exact h₁.startReturnDelay (fun _ => hlaunch) (by omega)

theorem Inv.resumeRun (h : c.Inv) (hm : 0 < c.ctl.pointCount) (hu : c.ctl.cycleComplete = false)
    (hbegun : ¬ (c.ctl.currentPoint = 0 ∧ c.timer 0 = 0)) : c.resumeRun.Inv where
  count_le := h.count_le
  acc_lt := h.acc_lt
  duration_ok := h.duration_ok
  durations := h.durations
  ahead := h.ahead
  jogged := h.jogged
  running _ := ⟨hu, hm⟩
  launch hp ht := absurd ⟨(h.launch hp ht).current, (h.launch hp ht).fresh⟩ hbegun
  switch hp ht := { h.switch hp ht with }

theorem Inv.complete_of_not_restart (h : c.Inv) (hm : 0 < c.ctl.pointCount)
    (hr : ¬ (c.ctl.cycleComplete && c.ctl.firstImuFlag2) = true) : c.ctl.cycleComplete = false := by
  have hjog := h.jogged (Or.inr hm)
  simpa [hjog] using hr

theorem Inv.startKey (h : c.Inv) : c.startKey.Inv := by
  simp only [Cycle.startKey]
  split_ifs with hm hs hr hf
  · exact h.pauseRun
  · exact h.restart hm (by simpa using hs)
  · exact h.firstStart hm (by simpa using hs) (h.complete_of_not_restart hm hr) hf.1 hf.2
  · exact h.resumeRun hm (h.complete_of_not_restart hm hr) hf
  · exact h

theorem Inv.clear (h : c.Inv) : c.clear.Inv := by
  constructor
  case acc_lt => exact h.acc_lt
  case duration_ok => exact h.duration_ok
  case jogged =>
    intro hc
    exact h.jogged (hc.imp_right fun h0 => absurd h0 (Nat.lt_irrefl 0))
  all_goals simp [Cycle.clear]

theorem Inv.onKey (r : Bool) (k : Key) (h : c.Inv) : (c.onKey r k).Inv := by
  cases k with
  | mark => exact h.markKey r
  | start => exact h.startKey
  | timeAdd => exact h.timeAdd
  | timeMinus => exact h.timeMinus
  | clear => exact h.clear
  | _ => exact h

theorem Inv.manual (v : Bool) (h : c.Inv) : (c.manual v).Inv := by
  simp only [Cycle.manual]
  split
  · exact
      { count_le := h.count_le
        acc_lt := h.acc_lt
        duration_ok := h.duration_ok
        durations := h.durations
        ahead := h.ahead
        jogged := fun _ => rfl
        running := h.running
        launch := fun hp ht => { h.launch hp ht with }
        switch := fun hp ht => { h.switch hp ht with } }
  · exact h

theorem returnDue_returnDelay (c : Cycle) : c.returnDelay.ctl.returnDue = false := by
  simp only [Cycle.returnDelay]
  split
  · dsimp only
    simp only [completeReturn]
    split <;> rfl
  · next h => simpa using h

/-- A completed return: the points and their progress are as they were, except that
the current point may start over, and no return is pending. -/
theorem Inv.completed (h : c.Inv) {d : Ctl} {t : Nat → Nat} {g : Gpio} {l : List Ev}
    (hpoints : d.currentPoint = c.ctl.currentPoint ∧ d.pointCount = c.ctl.pointCount ∧
      d.pointDuration = c.ctl.pointDuration)
    (hflags : d.cycleComplete = c.ctl.cycleComplete ∧ d.firstImuFlag2 = c.ctl.firstImuFlag2 ∧
      d.returnInProgress = false)
    (hstart : d.startFlag = true → c.ctl.cycleComplete = false ∧ 0 < c.ctl.pointCount)
    (htimer : ∀ i, c.ctl.currentPoint < i → t i = c.timer i) :
    ({ c with ctl := d, timer := t, gpio := g, log := l } : Cycle).Inv := by
  obtain ⟨hcur, hcount, hdur⟩ := hpoints
  obtain ⟨hcomplete, himu, hidle⟩ := hflags
  constructor
  case acc_lt => exact h.acc_lt
  all_goals simp only [hcur, hcount, hdur, hcomplete, himu, hidle]
  case count_le => exact h.count_le
  case duration_ok => exact h.duration_ok
  case durations => exact h.durations
  case ahead =>
    intro i hi hm
    rw [htimer i hi]
    exact h.ahead i hi hm
  case jogged => exact h.jogged
  case running => exact hstart
  case launch => exact fun hp => absurd hp (by simp)
  case switch => exact fun hp => absurd hp (by simp)

theorem Inv.returnDelay (h : c.Inv) : c.returnDelay.Inv := by
  unfold Cycle.returnDelay
  split
  · next hdue =>
    have hpend : c.ctl.returnInProgress = true := by
      simp only [Ctl.returnDue, Bool.and_eq_true] at hdue
      exact hdue.1
    dsimp only
    unfold completeReturn
    split
    · exact h.completed ⟨rfl, rfl, rfl⟩ ⟨rfl, rfl, rfl⟩ h.running fun _ _ => rfl
    · exact h.completed ⟨rfl, rfl, rfl⟩ ⟨rfl, rfl, rfl⟩ h.running fun _ _ => rfl
    · next ht =>
      have hl := h.launch hpend (Or.inl ht)
      exact h.completed ⟨rfl, rfl, rfl⟩ ⟨rfl, rfl, rfl⟩ (fun _ => ⟨hl.unfinished, hl.marked⟩)
        fun _ _ => rfl
    · next ht =>
      have hl := h.launch hpend (Or.inr ht)
      exact h.completed ⟨rfl, rfl, rfl⟩ ⟨rfl, rfl, rfl⟩ (fun _ => ⟨hl.unfinished, hl.marked⟩)
        fun _ _ => rfl
    · next ht =>
      have hs := h.switch hpend ht
      exact h.completed ⟨rfl, rfl, rfl⟩ ⟨rfl, rfl, rfl⟩
        (fun _ => ⟨hs.unfinished, Nat.zero_lt_of_lt hs.marked⟩)
        fun i hi => Function.update_of_ne (Nat.ne_of_gt hi) 0 c.timer
    · exact h.completed ⟨rfl, rfl, rfl⟩ ⟨rfl, rfl, rfl⟩ h.running fun _ _ => rfl
  · exact h

theorem running_of_pointDue (hp : c.pointDue = true) :
    c.ctl.startFlag = true ∧ c.ctl.cycleComplete = false ∧ 0 < c.ctl.pointCount ∧
      c.duration c.ctl.currentPoint ≤ c.timer c.ctl.currentPoint := by
  simpa [pointDue, Ctl.running, and_assoc] using hp

/-- With no return due, a point whose time is up is not one a pending return is
waiting for: a launch is pending only while the arm is stopped, and the delay of a
point switch is shorter than any duration. -/
theorem Inv.no_return_of_pointDue (h : c.Inv) (hdue : c.ctl.returnDue = false)
    (hp : c.pointDue = true) (hpend : c.ctl.returnInProgress = true) :
    ¬ (c.ctl.returnType = 3 ∨ c.ctl.returnType = 4) ∧ c.ctl.returnType ≠ 5 := by
  obtain ⟨hstart, _, _, htime⟩ := running_of_pointDue hp
  constructor
  · intro ht
    have hstop := (h.launch hpend ht).stopped
    exact absurd (hstop.symm.trans hstart) (by simp)
  · intro ht
    have hs := h.switch hpend ht
    have hflag : c.ctl.returnDelayFlag = false := by
      simpa [Ctl.returnDue, hpend] using hdue
    have hshort : c.timer c.ctl.currentPoint < returnDelayMs :=
      (hs.fresh hflag).trans_lt h.acc_lt
    have hlong : 120000 ≤ c.duration c.ctl.currentPoint := by
      rw [h.durations _ hs.marked]
      exact h.duration_ok.1
    simp only [returnDelayMs] at hshort
    omega

theorem Inv.finishCycle (h : c.Inv) (hm : 0 < c.ctl.pointCount)
    (hidle : c.ctl.returnInProgress = true →
      ¬ (c.ctl.returnType = 3 ∨ c.ctl.returnType = 4) ∧ c.ctl.returnType ≠ 5) :
    c.finishCycle.Inv where
  count_le := h.count_le
  acc_lt := h.acc_lt
  duration_ok := h.duration_ok
  durations := h.durations
  ahead := h.ahead
  jogged _ := h.jogged (Or.inr hm)
  running hr := absurd hr (by simp [Cycle.finishCycle])
  launch hp ht := absurd ht (hidle hp).1
  switch hp ht := absurd ht (hidle hp).2

theorem Inv.advance (h : c.Inv) (hm : 0 < c.ctl.pointCount)
    (hidle : c.ctl.returnInProgress = true →
      ¬ (c.ctl.returnType = 3 ∨ c.ctl.returnType = 4) ∧ c.ctl.returnType ≠ 5) :
    ({ c with ctl := { c.ctl with currentPoint := c.ctl.currentPoint + 1 } } : Cycle).Inv where
  count_le := h.count_le
  acc_lt := h.acc_lt
  duration_ok := h.duration_ok
  durations := h.durations
  ahead i hi := h.ahead i (Nat.lt_of_succ_lt hi)
  jogged _ := h.jogged (Or.inr hm)
  running := h.running
  launch hp ht := absurd ht (hidle hp).1
  switch hp ht := absurd ht (hidle hp).2

theorem Inv.switchPoint (h : c.Inv) (hu : c.ctl.cycleComplete = false)
    (hm : c.ctl.currentPoint < c.ctl.pointCount) (hz : c.timer c.ctl.currentPoint = 0)
    (hidle : c.ctl.returnInProgress = true → ¬ (c.ctl.returnType = 3 ∨ c.ctl.returnType = 4)) :
    c.switchPoint.Inv := by
  have h₁ : ({ c with ctl := { c.ctl.stopTimers with startFlag := false } } : Cycle).Inv :=
    { count_le := h.count_le
      acc_lt := h.acc_lt
      duration_ok := h.duration_ok
      durations := h.durations
      ahead := h.ahead
      jogged := h.jogged
      running := fun hr => absurd hr (by simp)
      launch := fun hp ht => absurd ht (hidle hp)
      switch := fun hp ht => { h.switch hp ht with } }
  exact h₁.startReturnDelay (by omega) fun _ => ⟨hm, hu, hz⟩

theorem Inv.runLogic (h : c.Inv) (hdue : c.ctl.returnDue = false) : c.runLogic.Inv := by
  unfold Cycle.runLogic
  split
  · next hp =>
    obtain ⟨_, hu, hm, _⟩ := running_of_pointDue hp
    have hidle := h.no_return_of_pointDue hdue hp
    have hnext := h.advance hm hidle
    dsimp only
    split
    · exact hnext.finishCycle hm hidle
    · next hlt =>
      have hmarked : c.ctl.currentPoint + 1 < c.ctl.pointCount := by omega
      exact hnext.switchPoint hu hmarked (h.ahead _ (Nat.lt_succ_self _) hmarked)
        fun hpend => (hidle hpend).1
  · exact h

theorem Inv.tickFlame (h : c.Inv) : c.tickFlame.Inv := by
  simp only [Cycle.tickFlame]
  split_ifs
  · exact
      { h with
        launch := fun hp ht => { h.launch hp ht with }
        switch := fun hp ht => { h.switch hp ht with } }
  · exact
      { h with
        launch := fun hp ht => { h.launch hp ht with }
        switch := fun hp ht => { h.switch hp ht with } }
  · exact h

/-- After the return delay has counted, it is 100 ms ahead of the timer of a point
that is being switched to. -/
theorem Inv.tickReturn (h : c.Inv) : c.tickReturn.Inv ∧
    (c.tickReturn.ctl.returnInProgress = true → c.tickReturn.ctl.returnType = 5 →
      c.tickReturn.ctl.returnDelayFlag = false →
      c.tickReturn.timer c.tickReturn.ctl.currentPoint + 100 ≤ c.tickReturn.accReturn) := by
  simp only [Cycle.tickReturn]
  split_ifs with hp hx
  · refine ⟨?_, fun _ _ hf => absurd hf (by simp)⟩
    exact
      { h with
        acc_lt := by simp [returnDelayMs]
        launch := fun hp ht => { h.launch hp ht with }
        switch := fun hp ht => ⟨(h.switch hp ht).marked, (h.switch hp ht).unfinished, by simp⟩ }
  · refine ⟨?_, fun hp ht hf => Nat.add_le_add_right ((h.switch hp ht).fresh hf) 100⟩
    exact
      { h with
        acc_lt := Nat.lt_of_not_le hx
        launch := fun hp ht => { h.launch hp ht with }
        switch := fun hp ht => ⟨(h.switch hp ht).marked, (h.switch hp ht).unfinished,
          fun hf => Nat.le_add_right_of_le ((h.switch hp ht).fresh hf)⟩ }
  · refine ⟨?_, fun h1 => absurd h1 hp⟩
    exact
      { h with
        acc_lt := by simp [returnDelayMs]
        launch := fun h1 => absurd h1 hp
        switch := fun h1 => absurd h1 hp }

theorem Inv.tickPoint (h : c.Inv)
    (hahead : c.ctl.returnInProgress = true → c.ctl.returnType = 5 → c.ctl.returnDelayFlag = false →
      c.timer c.ctl.currentPoint + 100 ≤ c.accReturn) : c.tickPoint.Inv := by
  simp only [Cycle.tickPoint]
  split
  · next hr =>
    have hstart : c.ctl.startFlag = true := by
      simp only [Ctl.running, Bool.and_eq_true] at hr
      exact hr.1.1
    exact
      { h with
        ahead := by
          intro i hi hm
          calc Function.update c.timer c.ctl.currentPoint _ i
              = c.timer i := Function.update_of_ne (Nat.ne_of_gt hi) _ _
            _ = 0 := h.ahead i hi hm
        launch := fun hp ht => absurd ((h.launch hp ht).stopped.symm.trans hstart) (by simp)
        switch := by
          intro hp ht
          refine ⟨(h.switch hp ht).marked, (h.switch hp ht).unfinished, ?_⟩
          intro hf
          calc Function.update c.timer c.ctl.currentPoint _ c.ctl.currentPoint
              = u32 (c.timer c.ctl.currentPoint + 100) := Function.update_self ..
            _ ≤ c.timer c.ctl.currentPoint + 100 := u32_le _
            _ ≤ c.accReturn := hahead hp ht hf }
  · exact h

theorem Inv.tick (h : c.Inv) : c.tick.Inv := by
  have hnote : (c.note .tick).Inv :=
    { h with
      launch := fun hp ht => { h.launch hp ht with }
      switch := fun hp ht => { h.switch hp ht with } }
  obtain ⟨hret, hahead⟩ := hnote.tickFlame.tickReturn
  exact hret.tickPoint hahead

/-- Every move keeps the invariant; the run logic, when it is entered with no return due. -/
theorem Inv.move (r v : Bool) (m : Move) (h : c.Inv) (hpace : m = .runLogic → c.ctl.returnDue = false) :
    (c.move r v m).Inv := by
  cases m with
  | key k => exact h.onKey r k
  | returnDelay => exact h.returnDelay
  | runLogic => exact h.runLogic (hpace rfl)
  | sensors => exact h
  | manual => exact h.manual v
  | tick => exact h.tick

end Cycle

/-! ## Runs -/

section
variable {K : Type} [Field K] [LinearOrder K]

/-- The run logic is entered with no return due. -/
def Paced (s : Rb K) (a : Stage K) : Prop := a.move = .runLogic → s.ctl.returnDue = false

theorem paced_steps (env : Env K) :
    ∀ (as : List (Step K)) (s : Rb K), Runs.Along Paced (stage env) s (as.flatMap Step.stages)
  | [], _ => trivial
  | a :: as, s => by
    rw [List.flatMap_cons, Runs.along_append]
    refine ⟨?_, paced_steps env as _⟩
    cases a with
    | tick => exact ⟨nofun, trivial⟩
    | iteration i =>
      refine ⟨nofun, nofun, nofun, fun _ => ?_, nofun, nofun, trivial⟩
      show (stage env _ .returnDelay).cycle.ctl.returnDue = false
      rw [cycle_stage]
      exact Cycle.returnDue_returnDelay _

theorem run_eq_stages (env : Env K) (as : List (Step K)) :
    run env as = Runs.exec (stage env) boot (as.flatMap Step.stages) :=
  (Runs.exec_flatMap (stage env) Step.stages boot as).symm

theorem inv_stage (env : Env K) {s : Rb K} {a : Stage K} (h : s.cycle.Inv) (hp : Paced s a) :
    (stage env s a).cycle.Inv := by
  rw [cycle_stage]
  exact h.move _ _ _ hp

theorem inv_stages (env : Env K) {as : List (Step K)} {pre post : List (Stage K)}
    (h : as.flatMap Step.stages = pre ++ post) : (Runs.exec (stage env) boot pre).cycle.Inv := by
  have hpaced := paced_steps env as boot
  rw [h, Runs.along_append] at hpaced
  exact Runs.exec_inv_along (P := fun s : Rb K => s.cycle.Inv) (fun s a hs hp => inv_stage env hs hp)
    Cycle.inv_boot hpaced.1

theorem inv_run (env : Env K) (as : List (Step K)) : (run env as).cycle.Inv := by
  rw [run_eq_stages]
  exact inv_stages env (List.append_nil _).symm

theorem run_inv_along {P : Cycle → Prop} (ok : Cycle → Move → Prop) (hboot : P Cycle.boot)
    (hmove : ∀ r v c m, c.Inv → P c → ok c m → (m = .runLogic → c.ctl.returnDue = false) →
      P (c.move r v m))
    {env : Env K} {as : List (Step K)} (h : Throughout (fun s a => ok s.cycle a.move) env as) :
    P (run env as).cycle := by
  have hstage : ∀ (s : Rb K) (a : Stage K), s.cycle.Inv ∧ P s.cycle →
      Paced s a ∧ ok s.cycle a.move → (stage env s a).cycle.Inv ∧ P (stage env s a).cycle := by
    rintro s a ⟨hinv, hP⟩ ⟨hpace, hok⟩
    refine ⟨inv_stage env hinv hpace, ?_⟩
    rw [cycle_stage]
    exact hmove _ _ _ _ hinv hP hok hpace
  rw [run_eq_stages]
  have hboot' : (boot : Rb K).cycle.Inv ∧ P (boot : Rb K).cycle := ⟨Cycle.inv_boot, hboot⟩
  exact (Runs.exec_inv_along hstage hboot' (Runs.along_and.2 ⟨paced_steps env as boot, h⟩)).2

theorem run_inv {P : Cycle → Prop} {env : Env K} {as : List (Step K)}
    (hmove : ∀ r v c m, c.Inv → P c → (m = .runLogic → c.ctl.returnDue = false) → P (c.move r v m))
    (hboot : P Cycle.boot) : P (run env as).cycle := by
  apply run_inv_along (fun _ _ => True) hboot (fun r v c m hinv h _ => hmove r v c m hinv h)
  exact Runs.along_of_forall fun _ _ => trivial

theorem throughout_initial {ok : Rb K → Stage K → Prop} {env : Env K} {as pre : List (Step K)}
    (h : Throughout ok env as) (hpre : pre <+: as) : Throughout ok env pre := by
  obtain ⟨post, rfl⟩ := hpre
  simp only [Throughout] at h
  rw [List.flatMap_append, Runs.along_append] at h
  exact h.1

end

end RoboticArm
