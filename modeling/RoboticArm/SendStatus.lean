import RoboticArm.Stepper

/- What `CAN_Send_Msg` reports of a message.

   The polling loop ends at the first poll that sees `CAN_TxStatus_Ok`, or at the poll with
   `i == 0xFFF`, whose status is read and then not looked at: the function reports failure
   whenever the counter has reached the bound.

   `Polls` is the loop as the source has it, one turn at a time, over any sequence of
   statuses; the sends are `CAN_Send_Msg` and `CAN_Send_Position_Mode` with the statuses
   their polls see as a parameter (`canSendMsg_eq`, `canSendPositionMode_eq`).

   1. `exists_polls`, `Polls.unique`: the loop ends, in one way.
   2. `truthful_iff`: a poll saw success exactly where the function reports it, except
      where the first success is seen at the poll with the bound.
   3. `sends_truthful_iff`: for the sends, and for the second frame of a position command.
   4. `lastPoll` is a register that shows success at that poll.

   Correspondence (C ↔ Lean):
     `while (status != Ok && i < bound) i++`   ↔ `Polls`
     the statuses a send polls                 ↔ `polledBy` -/
namespace RoboticArm

/-! ## The polling loop -/

/-- From the counter `i`, the loop is left with the counter `j`. -/
inductive Polls (bound : Nat) (status : Nat → UInt8) : Nat → Nat → Prop
  | stop {i : Nat} : ¬ (status i ≠ txStatusOk ∧ i < bound) → Polls bound status i i
  | turn {i j : Nat} : status i ≠ txStatusOk ∧ i < bound → Polls bound status (i + 1) j →
      Polls bound status i j

section
variable {bound : Nat} {status : Nat → UInt8} {i j : Nat}

theorem exists_polls (bound : Nat) (status : Nat → UInt8) (i : Nat) :
    ∃ j, Polls bound status i j := by
  induction hleft : bound - i generalizing i with
  | zero =>
    refine ⟨i, .stop ?_⟩
    rintro ⟨-, hlt⟩
    omega
  | succ left ih =>
    by_cases hturn : status i ≠ txStatusOk ∧ i < bound
    · obtain ⟨j, hj⟩ := ih (i + 1) (by omega)
      exact ⟨j, .turn hturn hj⟩
    · exact ⟨i, .stop hturn⟩

theorem Polls.unique (h : Polls bound status i j) : ∀ {k}, Polls bound status i k → k = j := by
  induction h with
  | stop hstop =>
    intro k hk
    cases hk with
    | stop _ => rfl
    | turn hturn _ => exact absurd hturn hstop
  | turn hturn _ ih =>
    intro k hk
    cases hk with
    | stop hstop => exact absurd hturn hstop
    | turn _ hk => exact ih hk

theorem Polls.le (h : Polls bound status i j) (hi : i ≤ bound) : i ≤ j ∧ j ≤ bound := by
  induction h with
  | stop _ => exact ⟨le_rfl, hi⟩
  | turn hturn _ ih =>
    obtain ⟨hle, hbound⟩ := ih hturn.2
    exact ⟨by omega, hbound⟩

theorem Polls.pending (h : Polls bound status i j) {k : Nat} (hik : i ≤ k) (hkj : k < j) :
    status k ≠ txStatusOk := by
  induction h with
  | stop _ => omega
  | turn hturn _ ih =>
    rcases Nat.eq_or_lt_of_le hik with rfl | hlt
    · exact hturn.1
    · exact ih hlt hkj

theorem Polls.exit (h : Polls bound status i j) : status j = txStatusOk ∨ bound ≤ j := by
  induction h with
  | stop hstop =>
    by_contra hno
    simp only [not_or, not_le] at hno
    exact hstop hno
  | turn _ _ ih => exact ih

/-- The counter is below the bound exactly where a poll saw success, unless the first to see
it is the one at the bound. -/
theorem truthful_iff (h : Polls bound status 0 j) :
    ((j ≠ bound ↔ ∃ k ≤ j, status k = txStatusOk) ↔
      status bound ≠ txStatusOk ∨ ∃ k < bound, status k = txStatusOk) := by
  have hle := (h.le (Nat.zero_le bound)).2
  rcases Nat.lt_or_eq_of_le hle with hlt | rfl
  · have hok : status j = txStatusOk := h.exit.resolve_right (Nat.not_le.2 hlt)
    refine iff_of_true ?_ (Or.inr ⟨j, hlt, hok⟩)
    exact iff_of_true (Nat.ne_of_lt hlt) ⟨j, le_rfl, hok⟩
  · have hpending : ¬ ∃ k < j, status k = txStatusOk := by
      rintro ⟨k, hk, hok⟩
      exact h.pending (Nat.zero_le k) hk hok
    constructor
    · intro htruth
      left
      intro hok
      exact htruth.2 ⟨j, le_rfl, hok⟩ rfl
    · rintro (hno | hyes)
      · refine iff_of_false (fun hne => hne rfl) ?_
        rintro ⟨k, hk, hok⟩
        rcases Nat.lt_or_eq_of_le hk with hlt | rfl
        · exact hpending ⟨k, hlt, hok⟩
        · exact hno hok
      · exact absurd hyes hpending

end

/-! ## The sends, over the statuses they poll -/

/-- The turns left when the status is that of success, or 0, and the moment after. -/
def waitOn (status : Nat → UInt8) : Nat → Nat → Nat × Nat
  | 0, n => (0, n + 1)
  | left + 1, n => if status n ≠ txStatusOk then waitOn status left (n + 1) else (left + 1, n + 1)

/-- The message `CAN_Send_Msg` makes of its arguments. -/
def sentMsg (junk : CanTxMsg) (msg : Nat → UInt8) (len isstd : UInt8) (id : UInt32) : CanTxMsg :=
  let m :=
    if isstd = 1 then { junk with stdId := id, ide := 0 } else { junk with extId := id, ide := 4 }
  let m := { m with rtr := 0, dlc := len }
  { m with data := copyBytes m.data msg 0 0 len.toNat }

section
variable (status : UInt8 → Nat → UInt8) (tstatr : Nat → UInt32)

/-- `CAN_Send_Msg`; a poll of mailbox `b` at moment `n` sees `status b n`. -/
def canSendMsgOn (junk : CanTxMsg) (msg : Nat → UInt8) (len isstd : UInt8) (id : UInt32) (c : Can) :
    UInt8 × Can :=
  let r := canTransmit tstatr (sentMsg junk msg len isstd id) c
  let w := waitOn (status r.1) 0xfff r.2.moment
  (if w.1 = 0 then 1 else 0, { r.2 with moment := w.2 })

/-- The statuses the polls of a send see, in order. -/
def polledBy (junk : CanTxMsg) (msg : Nat → UInt8) (len isstd : UInt8) (id : UInt32) (c : Can)
    (k : Nat) : UInt8 :=
  let r := canTransmit tstatr (sentMsg junk msg len isstd id) c
  status r.1 (r.2.moment + k)

/-- The first send of `CAN_Send_Position_Mode`. -/
def firstSendOn (junk : Junk) (a : PositionMode) (c : Can) : UInt8 × Can :=
  canSendMsgOn status tstatr junk.first (a.firstData junk.frameData) 8 0 a.address c

/-- `CAN_Send_Position_Mode`. -/
def canSendPositionModeOn (junk : Junk) (a : PositionMode) (c : Can) : UInt8 × Can :=
  let r := firstSendOn status tstatr junk a c
  if r.1 ≠ 0 then (1, r.2)
  else
    let frameData := a.secondData (a.firstData junk.frameData)
    let r := canSendMsgOn status tstatr junk.second frameData 5 0 (a.address + 1) r.2
    if r.1 ≠ 0 then (1, r.2) else (0, r.2)

end

section
variable (tstatr : Nat → UInt32)

/-- The statuses `CAN_TransmitStatus` reads off the register. -/
def registerStatus (b : UInt8) (n : Nat) : UInt8 := canTransmitStatus (tstatr n) b

theorem waitLoop_eq (b : UInt8) (left : Nat) :
    ∀ n, waitLoop tstatr b left n = waitOn (registerStatus tstatr b) left n := by
  induction left with
  | zero => exact fun _ => rfl
  | succ left ih =>
    intro n
    rw [waitLoop, waitOn, ih]
    rfl

theorem canSendMsg_eq (junk : CanTxMsg) (msg : Nat → UInt8) (len isstd : UInt8) (id : UInt32)
    (c : Can) :
    canSendMsg tstatr junk msg len isstd id c =
      canSendMsgOn (registerStatus tstatr) tstatr junk msg len isstd id c := by
  rw [canSendMsg, canSendMsgOn]
  simp only [waitLoop_eq]
  rfl

theorem canSendPositionMode_eq (junk : Junk) (a : PositionMode) (c : Can) :
    canSendPositionMode tstatr junk a c =
      canSendPositionModeOn (registerStatus tstatr) tstatr junk a c := by
  rw [canSendPositionMode, canSendPositionModeOn, firstSend, firstSendOn]
  simp only [canSendMsg_eq]

end

/-- The loop of a send, by the counter with which it is left. -/
theorem waitOn_of_polls (bound : Nat) (status : Nat → UInt8) (n : Nat) {i j : Nat}
    (h : Polls bound (fun k => status (n + k)) i j) (hi : i ≤ bound) :
    waitOn status (bound - i) (n + i) = (bound - j, n + j + 1) := by
  induction h with
  | @stop i hstop =>
    rcases Nat.lt_or_eq_of_le hi with hlt | rfl
    · obtain ⟨left, hleft⟩ : ∃ left, bound - i = left + 1 := ⟨bound - i - 1, by omega⟩
      have hok : ¬ status (n + i) ≠ txStatusOk := fun hno => hstop ⟨hno, hlt⟩
      rw [hleft, waitOn, if_neg hok]
    · rw [Nat.sub_self, waitOn]
  | @turn i j hturn _ ih =>
    obtain ⟨left, hleft⟩ : ∃ left, bound - i = left + 1 := by
      have hlt := hturn.2
      exact ⟨bound - i - 1, by omega⟩
    have hnext : left = bound - (i + 1) := by omega
    have hpending : status (n + i) ≠ txStatusOk := hturn.1
    rw [hleft, waitOn, if_pos hpending, hnext]
    exact ih hturn.2

section
variable (status : UInt8 → Nat → UInt8) (tstatr : Nat → UInt32)

theorem canSendMsgOn_eq_zero (junk : CanTxMsg) (msg : Nat → UInt8) (len isstd : UInt8) (id : UInt32)
    (c : Can) {j : Nat} (h : Polls 0xfff (polledBy status tstatr junk msg len isstd id c) 0 j) :
    (canSendMsgOn status tstatr junk msg len isstd id c).1 = 0 ↔ j ≠ 0xfff := by
  have hwait := waitOn_of_polls 0xfff _ _ h (Nat.zero_le _)
  have hle := (h.le (Nat.zero_le _)).2
  have hleft : (waitOn (status (canTransmit tstatr (sentMsg junk msg len isstd id) c).1) 0xfff
      (canTransmit tstatr (sentMsg junk msg len isstd id) c).2.moment).1 = 0xfff - j :=
    congrArg Prod.fst hwait
  rw [canSendMsgOn]
  dsimp only
  rw [hleft]
  split
  · exact iff_of_false (by decide) (by omega)
  · exact iff_of_true rfl (by omega)

theorem send_truthful_iff (junk : CanTxMsg) (msg : Nat → UInt8) (len isstd : UInt8) (id : UInt32)
    (c : Can) {j : Nat} (h : Polls 0xfff (polledBy status tstatr junk msg len isstd id c) 0 j) :
    (((canSendMsgOn status tstatr junk msg len isstd id c).1 = 0 ↔
        ∃ k ≤ j, polledBy status tstatr junk msg len isstd id c k = txStatusOk) ↔
      polledBy status tstatr junk msg len isstd id c 0xfff ≠ txStatusOk ∨
        ∃ k < 0xfff, polledBy status tstatr junk msg len isstd id c k = txStatusOk) := by
  rw [canSendMsgOn_eq_zero status tstatr junk msg len isstd id c h]
  exact truthful_iff h

theorem moment_canSendMsgOn (junk : CanTxMsg) (msg : Nat → UInt8) (len isstd : UInt8) (id : UInt32)
    (c : Can) : c.moment < (canSendMsgOn status tstatr junk msg len isstd id c).2.moment := by
  have hfree : c.moment ≤ (canTransmit tstatr (sentMsg junk msg len isstd id) c).2.moment := by
    have hlook : c.moment ≤ (freeMailbox tstatr c.moment).2 := by
      simp only [freeMailbox]
      split_ifs <;> omega
    simp only [canTransmit]
    split
    · exact hlook
    · exact hlook
  obtain ⟨j, hj⟩ := exists_polls 0xfff (polledBy status tstatr junk msg len isstd id c) 0
  have hwait := waitOn_of_polls 0xfff _ _ hj (Nat.zero_le _)
  have hmoment : (canSendMsgOn status tstatr junk msg len isstd id c).2.moment =
      (canTransmit tstatr (sentMsg junk msg len isstd id) c).2.moment + j + 1 :=
    congrArg Prod.snd hwait
  rw [hmoment]
  omega

/-- The position command leaves the bus as its first send does. -/
def Withheld (junk : Junk) (a : PositionMode) (c : Can) : Prop :=
  (canSendPositionModeOn status tstatr junk a c).2 = (firstSendOn status tstatr junk a c).2

/-- A position command whose first send reports failure ends there, and any other makes its
second send. -/
theorem withheld_iff (junk : Junk) (a : PositionMode) (c : Can) :
    Withheld status tstatr junk a c ↔ (firstSendOn status tstatr junk a c).1 ≠ 0 := by
  rw [Withheld, canSendPositionModeOn]
  dsimp only
  split
  · next hfailed => exact iff_of_true rfl hfailed
  · next hsent =>
    refine iff_of_false ?_ hsent
    intro hsame
    have hlater := moment_canSendMsgOn status tstatr junk.second
      (a.secondData (a.firstData junk.frameData)) 5 0 (a.address + 1)
      (firstSendOn status tstatr junk a c).2
    have hmoment := congrArg Can.moment hsame
    split at hmoment
    · exact absurd hmoment (Nat.ne_of_gt hlater)
    · exact absurd hmoment (Nat.ne_of_gt hlater)

/-- The statuses the first send of a position command polls. -/
def firstPolled (junk : Junk) (a : PositionMode) (c : Can) : Nat → UInt8 :=
  polledBy status tstatr junk.first (a.firstData junk.frameData) 8 0 a.address c

/-- The second frame is withheld only where no poll saw the first one succeed, except where
the first success is seen at the bound. -/
theorem withheld_truthful_iff (junk : Junk) (a : PositionMode) (c : Can) {j : Nat}
    (h : Polls 0xfff (firstPolled status tstatr junk a c) 0 j) :
    (Withheld status tstatr junk a c →
        ∀ k ≤ j, firstPolled status tstatr junk a c k ≠ txStatusOk) ↔
      firstPolled status tstatr junk a c 0xfff ≠ txStatusOk ∨
        ∃ k < 0xfff, firstPolled status tstatr junk a c k = txStatusOk := by
  rw [withheld_iff]
  have hsend := send_truthful_iff status tstatr junk.first
      (a.firstData junk.frameData) 8 0 a.address c h
  have hzero := canSendMsgOn_eq_zero status tstatr junk.first (a.firstData junk.frameData) 8 0
    a.address c h
  refine Iff.trans ?_ hsend
  constructor
  · intro hwithheld
    constructor
    · intro hsent
      -- the loop was left below the bound, so at a success
      exact ⟨j, le_rfl, h.exit.resolve_right fun hle => hzero.1 hsent (le_antisymm
        (h.le (Nat.zero_le _)).2 hle)⟩
    · rintro ⟨k, hk, hok⟩
      by_contra hfailed
      exact hwithheld hfailed k hk hok
  · intro htruth hfailed k hk hok
    exact hfailed (htruth.2 ⟨k, hk, hok⟩)

/-- The polling loop of every send ends, in one way. What the send reports is then true, and
the second frame of a position command withheld only for a first one that no poll saw
succeed, exactly when the first success is not seen at the poll with the bound. With the
statuses of the register these are the sends of the firmware. -/
theorem sends_truthful_iff :
    (∀ junk msg len isstd id c, canSendMsg tstatr junk msg len isstd id c =
      canSendMsgOn (registerStatus tstatr) tstatr junk msg len isstd id c) ∧
    (∀ junk a c, canSendPositionMode tstatr junk a c =
      canSendPositionModeOn (registerStatus tstatr) tstatr junk a c) ∧
    (∀ (junk : CanTxMsg) (msg : Nat → UInt8) (len isstd : UInt8) (id : UInt32) (c : Can),
      let poll := polledBy status tstatr junk msg len isstd id c
      ∃ j, Polls 0xfff poll 0 j ∧ (∀ j', Polls 0xfff poll 0 j' → j' = j) ∧
        (((canSendMsgOn status tstatr junk msg len isstd id c).1 = 0 ↔ ∃ k ≤ j, poll k = txStatusOk) ↔
          poll 0xfff ≠ txStatusOk ∨ ∃ k < 0xfff, poll k = txStatusOk)) ∧
    ∀ (junk : Junk) (a : PositionMode) (c : Can),
      let poll := firstPolled status tstatr junk a c
      ∃ j, Polls 0xfff poll 0 j ∧ (∀ j', Polls 0xfff poll 0 j' → j' = j) ∧
        ((Withheld status tstatr junk a c → ∀ k ≤ j, poll k ≠ txStatusOk) ↔
          poll 0xfff ≠ txStatusOk ∨ ∃ k < 0xfff, poll k = txStatusOk) := by
  refine ⟨canSendMsg_eq tstatr, canSendPositionMode_eq tstatr, ?_, ?_⟩
  · intro junk msg len isstd id c poll
    obtain ⟨j, hj⟩ := exists_polls 0xfff poll 0
    exact ⟨j, hj, fun _ h => hj.unique h, send_truthful_iff status tstatr junk msg len isstd id c hj⟩
  · intro junk a c poll
    obtain ⟨j, hj⟩ := exists_polls 0xfff poll 0
    exact ⟨j, hj, fun _ h => hj.unique h, withheld_truthful_iff status tstatr junk a c hj⟩

end

/-! ## A success at the bound -/

/-- A register that gives mailbox 0 at the first look, and shows its message sent from the
4096th poll on. -/
def lastPoll (n : Nat) : UInt32 :=
  if n = 0 then 0x04000000 else if n < 4096 then 0 else 0x04000003

def oneTurn : PositionMode := ⟨0x100, 0, 100, 0, 3200, 1, 0⟩

theorem firstPolled_lastPoll (k : Nat) :
    firstPolled (registerStatus lastPoll) lastPoll noJunk oneTurn .reset k =
    if k < 0xfff then txStatusPending else txStatusOk := by
  have hgiven : ∀ m : CanTxMsg, (canTransmit lastPoll m .reset).1 = 0 ∧
      (canTransmit lastPoll m .reset).2.moment = 1 := fun _ => ⟨rfl, rfl⟩
  obtain ⟨hbox, hmoment⟩ :=
    hgiven (sentMsg noJunk.first (oneTurn.firstData noJunk.frameData) 8 0 oneTurn.address)
  simp only [firstPolled, polledBy, registerStatus, hbox, hmoment, lastPoll]
  rw [if_neg (by omega)]
  by_cases hk : k < 0xfff
  · rw [if_pos (by omega), if_pos hk]
    rfl
  · rw [if_neg (by omega), if_neg hk]
    rfl

/-- The 4096th poll sees the frame sent, and the send reports failure: the second frame is
withheld. -/
theorem not_truthful_lastPoll :
    ∃ j, Polls 0xfff (firstPolled (registerStatus lastPoll) lastPoll noJunk oneTurn .reset) 0 j ∧
      ¬ ((firstSend lastPoll noJunk oneTurn .reset).1 = 0 ↔
        ∃ k ≤ j, firstPolled (registerStatus lastPoll) lastPoll noJunk oneTurn .reset k = txStatusOk) ∧
      ¬ (Withheld (registerStatus lastPoll) lastPoll noJunk oneTurn .reset → ∀ k ≤ j,
        firstPolled (registerStatus lastPoll) lastPoll noJunk oneTurn .reset k ≠ txStatusOk) := by
  obtain ⟨j, hj⟩ :=
    exists_polls 0xfff (firstPolled (registerStatus lastPoll) lastPoll noJunk oneTurn .reset) 0
  have hsend : firstSend lastPoll noJunk oneTurn .reset =
      firstSendOn (registerStatus lastPoll) lastPoll noJunk oneTurn .reset :=
        canSendMsg_eq _ _ _ _ _ _ _
  have hlate : ¬ (firstPolled (registerStatus lastPoll) lastPoll noJunk oneTurn .reset 0xfff ≠
        txStatusOk ∨
      ∃ k < 0xfff, firstPolled (registerStatus lastPoll) lastPoll noJunk oneTurn .reset k =
        txStatusOk) := by
    rintro (hno | ⟨k, hk, hok⟩)
    · exact hno (firstPolled_lastPoll 0xfff)
    · rw [firstPolled_lastPoll, if_pos hk] at hok
      exact absurd hok (by decide)
  refine ⟨j, hj, ?_, ?_⟩
  · rw [hsend]
    exact mt (send_truthful_iff _ _ _ _ _ _ _ _ hj).1 hlate
  · exact mt (withheld_truthful_iff _ _ _ _ _ hj).1 hlate

end RoboticArm
