import Mathlib.Algebra.Order.Field.Basic
import Mathlib.Algebra.Order.AbsoluteValue.Basic
import Mathlib.Data.Rat.Cast.Order
import Mathlib.Tactic.Ring

/- The inverse kinematics of `arm.c`, over any ordered field.

   `robot_arm_5dof_method2` walks a grid of joint triples `(J2, J3, J4)`, keeps
   those whose height and horizontal reach are within `tolerance` of the target
   and, among them, the one that moves the joints least. `search` is that walk,
   in the loop order of the source; `robotArm5dofMethod2` is the update of the
   joint globals and of the search's own statics from its result.

   Floats are exact numbers here, and the library functions (`fast_sin_cos`,
   `atan2f`, `sqrtf`, the constant `M_PI`) are the fields of a `MathH`.

   Correspondence (C ↔ Lean):
     `fast_sin_cos`, `atan2f`, `sqrtf`, `M_PI`   ↔ `MathH`
     `J1_global` .. `J5_global`                  ↔ `Arm.global` (degrees)
     `prev_J1` .. `prev_J5`, `first_run`         ↔ `Arm.prev` (radians), `Arm.firstRun`
     the three nested `for` loops                ↔ `grid`
     the loop body                               ↔ `consider` -/
namespace RoboticArm

/-! The numerals that several modules write, each with one proof for all of them. -/

scoped instance atLeastTwo_two : Nat.AtLeastTwo 2 := ⟨by decide⟩
scoped instance atLeastTwo_three : Nat.AtLeastTwo 3 := ⟨by decide⟩
scoped instance atLeastTwo_four : Nat.AtLeastTwo 4 := ⟨by decide⟩
scoped instance atLeastTwo_five : Nat.AtLeastTwo 5 := ⟨by decide⟩
scoped instance atLeastTwo_eight : Nat.AtLeastTwo 8 := ⟨by decide⟩
scoped instance atLeastTwo_ten : Nat.AtLeastTwo 10 := ⟨by decide⟩
scoped instance atLeastTwo_twentyFour : Nat.AtLeastTwo 24 := ⟨by decide⟩
scoped instance atLeastTwo_twentyFive : Nat.AtLeastTwo 25 := ⟨by decide⟩
scoped instance atLeastTwo_thirty : Nat.AtLeastTwo 30 := ⟨by decide⟩
scoped instance atLeastTwo_thirtyTwo : Nat.AtLeastTwo 32 := ⟨by decide⟩
scoped instance atLeastTwo_fortyFive : Nat.AtLeastTwo 45 := ⟨by decide⟩
scoped instance atLeastTwo_fifty : Nat.AtLeastTwo 50 := ⟨by decide⟩
scoped instance atLeastTwo_ninety : Nat.AtLeastTwo 90 := ⟨by decide⟩
scoped instance atLeastTwo_ninetyEight : Nat.AtLeastTwo 98 := ⟨by decide⟩
scoped instance atLeastTwo_hundred : Nat.AtLeastTwo 100 := ⟨by decide⟩
scoped instance atLeastTwo_hundredFifteen : Nat.AtLeastTwo 115 := ⟨by decide⟩
scoped instance atLeastTwo_hundredTwenty : Nat.AtLeastTwo 120 := ⟨by decide⟩
scoped instance atLeastTwo_hundredFifty : Nat.AtLeastTwo 150 := ⟨by decide⟩
scoped instance atLeastTwo_hundredSeventy : Nat.AtLeastTwo 170 := ⟨by decide⟩
scoped instance atLeastTwo_hundredEighty : Nat.AtLeastTwo 180 := ⟨by decide⟩
scoped instance atLeastTwo_twoHundredFortyFive : Nat.AtLeastTwo 245 := ⟨by decide⟩
scoped instance atLeastTwo_threeHundredSixty : Nat.AtLeastTwo 360 := ⟨by decide⟩
scoped instance atLeastTwo_word : Nat.AtLeastTwo 32768 := ⟨by decide⟩
scoped instance atLeastTwo_tenMillion : Nat.AtLeastTwo 10000000 := ⟨by decide⟩
scoped instance atLeastTwo_piDigits : Nat.AtLeastTwo 31415926 := ⟨by decide⟩

/-- The mathematical functions the firmware links against. -/
structure MathH (K : Type) where
  pi : K
  sin : K → K
  cos : K → K
  sqrt : K → K
  atan2 : K → K → K

/-- One value for each of the five joints. -/
structure Joints (K : Type) where
  j1 : K
  j2 : K
  j3 : K
  j4 : K
  j5 : K
  deriving DecidableEq, Repr

/-- The globals of `arm.c` and the statics of its search. -/
structure Arm (K : Type) where
  global : Joints K
  prev : Joints K
  firstRun : Bool
  deriving DecidableEq, Repr

section
variable {K : Type} [Field K]

/-! Link lengths and search parameters. -/

def A1 : K := 16
def A2 : K := 24
def A3 : K := 35
def A4 : K := 25 / 2
def A5 : K := 19 / 2
def P : K := 10
def tolerance : K := 1
def buChang : K := 1 / 10

def Joints.zero : Joints K := ⟨0, 0, 0, 0, 0⟩

/-- Power-on values. -/
def Arm.boot : Arm K := ⟨Joints.zero, Joints.zero, true⟩

/-- Radians to the degrees the motors are commanded in; joint 5 is mounted 15° off. -/
def toDegrees (m : MathH K) (q : Joints K) : Joints K :=
  ⟨q.j1 * 180 / m.pi, q.j2 * 180 / m.pi, q.j3 * 180 / m.pi, q.j4 * 180 / m.pi,
   q.j5 * 180 / m.pi - 15⟩

/-- `cur_height` of a grid triple. -/
def curHeight (m : MathH K) (J2 J3 J4 : K) : K :=
  A1 + A2 * m.cos J2 + A3 * m.cos (J2 + J3) + A4 * m.cos (J2 + J3 + J4) - A5

/-- `cur_horizontal` of a grid triple. -/
def curHorizontal (m : MathH K) (J2 J3 J4 : K) : K :=
  A2 * m.sin J2 + A3 * m.sin (J2 + J3) + A4 * m.sin (J2 + J3 + J4)

def targetHeight (Z : K) : K := Z + A5

def horizontalDistance (m : MathH K) (X Y : K) : K := m.sqrt ((X + P) * (X + P) + Y * Y)

end

section
variable {K : Type} [Field K] [LinearOrder K]

/-- `J1`: the azimuth, limited to `[0, π]`. -/
def azimuth (m : MathH K) (X Y : K) : K :=
  let J1 := m.atan2 (Y + P) X
  if m.pi < J1 then m.pi else if J1 < 0 then 0 else J1

/-- `J5`: what is left to point the tool down, limited to `[0, 3π/4]`. -/
def wrist (m : MathH K) (J2 J3 J4 : K) : K :=
  let J5 := m.pi - (J2 + J3 + J4)
  if J5 < 0 then 0 else if 3 * m.pi / 4 < J5 then 3 * m.pi / 4 else J5

/-- The values `for (v = start; v < stop; v += step)` gives its variable, for at
most `n` rounds. -/
def loopValues (stop step : K) : Nat → K → List K
  | 0, _ => []
  | n + 1, v => if v < stop then v :: loopValues stop step n (v + step) else []

/-- Rounds enough for every loop of the search (`grid_complete`). -/
def rounds : Nat := 40

/-- The joint triples of the three nested loops, in loop order. -/
def grid (m : MathH K) : List (K × K × K) :=
  (loopValues (m.pi / 2) buChang rounds (-m.pi / 2)).flatMap fun J2 =>
    (loopValues m.pi buChang rounds 0).flatMap fun J3 =>
      (loopValues (115 * m.pi / 180) buChang rounds 0).map fun J4 => (J2, J3, J4)

/-- Both residuals are inside the tolerance. -/
def passes (m : MathH K) (X Y Z : K) (c : K × K × K) : Prop :=
  |curHeight m c.1 c.2.1 c.2.2 - targetHeight Z| < tolerance ∧
    |horizontalDistance m X Y - curHorizontal m c.1 c.2.1 c.2.2| < tolerance

instance (m : MathH K) (X Y Z : K) (c : K × K × K) : Decidable (passes m X Y Z c) :=
  inferInstanceAs (Decidable (_ ∧ _))

/-- The five joints of a grid triple. -/
def jointsOf (m : MathH K) (X Y : K) (c : K × K × K) : Joints K :=
  ⟨azimuth m X Y, c.1, c.2.1, c.2.2, wrist m c.1 c.2.1 c.2.2⟩

/-- `motion_amplitude`: how far the joints move, from zero on the first run. -/
def motionAmplitude (a : Arm K) (q : Joints K) : K :=
  if a.firstRun then |q.j1| + |q.j2| + |q.j3| + |q.j4| + |q.j5|
  else |q.j1 - a.prev.j1| + |q.j2 - a.prev.j2| + |q.j3 - a.prev.j3| + |q.j4 - a.prev.j4| +
    |q.j5 - a.prev.j5|

/-- The running best of the search: `best_motion` (`none` is `INFINITY`), the
best joints and `solution_count`. -/
structure Best (K : Type) where
  motion : Option K
  joints : Joints K
  count : Nat

def Best.init : Best K := ⟨none, Joints.zero, 0⟩

/-- `motion < best_motion`, with `none` for the initial `INFINITY`. -/
def better (motion : K) : Option K → Bool
  | none => true
  | some best => decide (motion < best)

/-- The loop body. -/
def consider (m : MathH K) (a : Arm K) (X Y Z : K) (b : Best K) (c : K × K × K) : Best K :=
  if passes m X Y Z c then
    if better (motionAmplitude a (jointsOf m X Y c)) b.motion then
      ⟨some (motionAmplitude a (jointsOf m X Y c)), jointsOf m X Y c, b.count + 1⟩
    else { b with count := b.count + 1 }
  else b

def bestOf (m : MathH K) (a : Arm K) (X Y Z : K) : Best K :=
  (grid m).foldl (consider m a X Y Z) Best.init

/-- The whole search: the best joints in radians, if some triple passed. -/
def search (m : MathH K) (a : Arm K) (X Y Z : K) : Option (Joints K) :=
  if 0 < (bestOf m a X Y Z).count then some (bestOf m a X Y Z).joints else none

/-- The result update of `robot_arm_5dof_method2`, for any search: on success the
globals and the statics follow the result, otherwise nothing changes. -/
def robotArm5dofMethod2 (m : MathH K) (solve : Arm K → K → K → K → Option (Joints K))
    (X Y Z : K) (a : Arm K) : Arm K :=
  match solve a X Y Z with
  | some best => ⟨toDegrees m best, best, false⟩
  | none => a

/-! ## Lemmas about the search -/

theorem count_consider (m : MathH K) (a : Arm K) (X Y Z : K) (b : Best K) (c : K × K × K) :
    (consider m a X Y Z b c).count = b.count + if passes m X Y Z c then 1 else 0 := by
  simp only [consider]
  split
  · split <;> rfl
  · rfl

theorem count_foldl (m : MathH K) (a : Arm K) (X Y Z : K) :
    ∀ (cs : List (K × K × K)) (b : Best K),
    (cs.foldl (consider m a X Y Z) b).count = b.count + cs.countP (passes m X Y Z ·)
  | [], b => by simp
  | c :: cs, b => by
    rw [List.foldl_cons, count_foldl m a X Y Z cs, count_consider, List.countP_cons]
    simp only [decide_eq_true_eq]
    omega

/-- The search succeeds exactly when some grid triple passes both tests. -/
theorem search_isSome {m : MathH K} {a : Arm K} {X Y Z : K} :
    (search m a X Y Z).isSome = true ↔ ∃ c ∈ grid m, passes m X Y Z c := by
  have hc : 0 < (bestOf m a X Y Z).count ↔ ∃ c ∈ grid m, passes m X Y Z c := by
    rw [bestOf, count_foldl, show (Best.init : Best K).count = 0 from rfl, Nat.zero_add,
      List.countP_pos_iff]
    simp
  rw [← hc]
  simp only [search]
  split
  · next h => simp [h]
  · next h => simp [h]

/-- What a running best holds: nothing before the first passing triple, then the
joints of one of the passing triples. -/
def Best.Sound (m : MathH K) (X Y Z : K) (cs : List (K × K × K)) (b : Best K) : Prop :=
  (b.motion = none → b.count = 0) ∧
    (b.motion ≠ none → ∃ c ∈ cs, passes m X Y Z c ∧ b.joints = jointsOf m X Y c)

theorem sound_consider {m : MathH K} {a : Arm K} {X Y Z : K} {cs : List (K × K × K)} {b : Best K}
    {c : K × K × K} (hc : c ∈ cs) (h : b.Sound m X Y Z cs) :
    (consider m a X Y Z b c).Sound m X Y Z cs := by
  simp only [consider]
  split
  · next hp =>
    split
    · exact ⟨by simp, fun _ => ⟨c, hc, hp, rfl⟩⟩
    · next hb =>
      have hsome : b.motion ≠ none := by
        intro hn
        rw [hn] at hb
        exact hb rfl
      exact ⟨fun hn => absurd hn hsome, h.2⟩
  · exact h

theorem sound_foldl {m : MathH K} {a : Arm K} {X Y Z : K} {cs : List (K × K × K)} :
    ∀ (ds : List (K × K × K)) (b : Best K), (∀ d ∈ ds, d ∈ cs) → b.Sound m X Y Z cs →
    (ds.foldl (consider m a X Y Z) b).Sound m X Y Z cs
  | [], _, _, h => h
  | d :: ds, _, hd, h =>
    sound_foldl ds _ (fun x hx => hd x (List.mem_cons_of_mem d hx))
      (sound_consider (hd d List.mem_cons_self) h)

/-- What the search accepts are the joints of a grid triple that passes both tests. -/
theorem search_sound {m : MathH K} {a : Arm K} {X Y Z : K} {q : Joints K}
    (h : search m a X Y Z = some q) :
    ∃ c ∈ grid m, passes m X Y Z c ∧ q = jointsOf m X Y c := by
  have hs : (bestOf m a X Y Z).Sound m X Y Z (grid m) :=
    sound_foldl (grid m) Best.init (fun _ hd => hd) ⟨fun _ => rfl, fun hn => absurd rfl hn⟩
  simp only [search] at h
  split at h
  · next hpos =>
    have hsome : (bestOf m a X Y Z).motion ≠ none := by
      intro hn
      rw [hs.1 hn] at hpos
      exact absurd hpos (Nat.lt_irrefl 0)
    obtain ⟨c, hc, hp, hj⟩ := hs.2 hsome
    exact ⟨c, hc, hp, (Option.some.inj h).symm.trans hj⟩
  · exact absurd h (by simp)

/-! ## Lemmas about the loops -/

theorem mem_loopValues {stop step : K} : ∀ (n i : Nat) (v : K), i < n →
    (∀ j ≤ i, v + j * step < stop) → v + i * step ∈ loopValues stop step n v
  | 0, _, _, h, _ => absurd h (Nat.not_lt_zero _)
  | n + 1, 0, v, _, hlt => by
    have h0 : v < stop := by simpa using hlt 0 (Nat.le_refl 0)
    simp [loopValues, h0]
  | n + 1, i + 1, v, h, hlt => by
    have h0 : v < stop := by simpa using hlt 0 (Nat.zero_le _)
    have hrest : ∀ j ≤ i, v + step + j * step < stop := by
      intro j hj
      have := hlt (j + 1) (Nat.succ_le_succ hj)
      rw [show v + step + j * step = v + ((j + 1 : Nat) : K) * step by push_cast; ring]
      exact this
    have hmem := mem_loopValues n i (v + step) (by omega) hrest
    have heq : v + ((i + 1 : Nat) : K) * step = v + step + i * step := by push_cast; ring
    rw [heq, loopValues, if_pos h0]
    exact List.mem_cons_of_mem v hmem

/-- A loop that reaches its bound within `n` rounds needs no more of them. -/
theorem loopValues_eq_of_le {stop step : K} : ∀ {n k : Nat} {v : K}, stop ≤ v + n * step → n ≤ k →
    loopValues stop step k v = loopValues stop step n v
  | 0, k, v, hstop, _ => by
    have hv : ¬ v < stop := by simpa using hstop
    cases k with
    | zero => rfl
    | succ k => simp [loopValues, hv]
  | n + 1, k + 1, v, hstop, hle => by
    have hrest : stop ≤ v + step + n * step := by
      calc stop ≤ v + (n + 1 : Nat) * step := hstop
        _ = v + step + n * step := by push_cast; ring
    simp only [loopValues, loopValues_eq_of_le hrest (Nat.le_of_succ_le_succ hle)]

end

end RoboticArm
