import RoboticArm.Arm
import RoboticArm.Stepper
import Mathlib.Algebra.Order.Floor.Ring
import Mathlib.Algebra.Order.Archimedean.Real.Basic
import Mathlib.Tactic.Linarith
import Mathlib.Tactic.NormNum

/- The joint limits in front of the stepper motors.

   `Control_Motor` and `Control_Motor_new` take an angle to a command: the sign is taken
   off, the limits are applied, the angle is scaled to pulses and cut off, and the sign
   comes back in the direction byte. The limits are written for signed angles but see the
   absolute value, so that the lower one never applies and a negative angle is held by
   the upper one.

   `limitLaw_iff` says of any motor and limits when the pulses are nevertheless those of
   the clamped angle: as long as what is left of the angle is less than a pulse past the
   lower limit. `limits_enforced_iff` is the list of the limited motors:

     `Control_Motor`      1   -100 .. 100    at every angle
     `Control_Motor`      5   -100 .. 120    above -100.00125 degrees
     `Control_Motor`      6   -100 .. 120    above -100.000125 degrees
     `Control_Motor_new`  6    -30 .. 150    above -30.000375 degrees

   Correspondence (C ↔ Lean):
     `angle_to_pulse_i`, `direction_i`, `address`   ↔ `Motor`, `motor1` .. `motor6`
     `if (angle>hi)angle=hi; if(angle<lo)angle=lo;` ↔ `limit`
     `Control_Motor`, `Control_Motor_new`           ↔ `controlMotor`, `controlMotorNew` -/
namespace RoboticArm

/-! ## The commands -/

section
variable {K : Type} [Field K] [LinearOrder K] [FloorRing K]

/-- The cast of a non-negative number to `uint32_t`; all those below stay under `2 ^ 32`, unless
the motor has no limit. -/
def toU32 (x : K) : UInt32 := UInt32.ofNat ⌊x⌋₊

end

/-- The pulses of 90 degrees, the direction byte of positive angles and the address of a motor. -/
structure Motor (K : Type) where
  angleToPulse : K
  direction : UInt8
  address : UInt32

section
variable {K : Type} [Field K] [LinearOrder K]

def motor1 : Motor K := ⟨245 * 50 * 32, 1, 0x100⟩
def motor4 : Motor K := ⟨50 * 50 * 32, 1, 0x400⟩
def motor5 : Motor K := ⟨30 * 50 * 32, 0, 0x500⟩
def motor6 : Motor K := ⟨100 * 50 * 32, 0, 0x600⟩

def limit (lo hi angle : K) : K :=
  let angle := if hi < angle then hi else angle
  if angle < lo then lo else angle

/-- `if(angle < 0) angle = -angle;` -/
def unsigned (angle : K) : K := if angle < 0 then -angle else angle

variable [FloorRing K]

/-- The command for an angle whose sign is that of `angleOri`. -/
def Motor.command (m : Motor K) (angleOri angle : K) (speed : UInt16) (acceleration : UInt8) :
    PositionMode where
  address := m.address
  direction := if angleOri < 0 then if m.direction = 0 then 1 else 0 else m.direction
  speed := speed
  acceleration := acceleration
  pulseCount := toU32 (angle * m.angleToPulse / 90)
  positionMode := 1
  syncMode := 0

def motorCommand (angle : K) (id : UInt8) : Option PositionMode :=
  if id = 1 then some (motor1.command angle (limit (-100) 100 (unsigned angle)) 2000 200)
  else if id = 4 then some (motor4.command angle (unsigned angle) 1500 100)
  else if id = 5 then some (motor5.command angle (limit (-100) 120 (unsigned angle)) 600 100)
  else if id = 6 then some (motor6.command angle (limit (-100) 120 (unsigned angle)) 2000 200)
  else none

/-- `speed` is cut to 16 bits by the call. -/
def motorCommandNew (angle : K) (id : UInt8) (speed : UInt32) (acceleration : UInt8) :
    Option PositionMode :=
  if id = 1 then some (motor1.command angle (unsigned angle) speed.toUInt16 acceleration)
  else if id = 4 then some (motor4.command angle (unsigned angle) speed.toUInt16 acceleration)
  else if id = 5 then some (motor5.command angle (unsigned angle) speed.toUInt16 acceleration)
  else if id = 6 then
    some (motor6.command angle (limit (-30) 150 (unsigned angle)) speed.toUInt16 acceleration)
  else none

/-- A command, if there is one, goes out on the bus. -/
def sendCommand (tstatr : Nat → UInt32) (junk : Junk) (c : Can) : Option PositionMode → Can
  | none => c
  | some a => (canSendPositionMode tstatr junk a c).2

def controlMotor (tstatr : Nat → UInt32) (junk : Junk) (angle : K) (id : UInt8) (c : Can) : Can :=
  sendCommand tstatr junk c (motorCommand angle id)

def controlMotorNew (tstatr : Nat → UInt32) (junk : Junk) (angle : K) (id : UInt8) (speed : UInt32)
    (acceleration : UInt8) (c : Can) : Can :=
  sendCommand tstatr junk c (motorCommandNew angle id speed acceleration)

end

/-! ## The law -/

/-- The pulses of a command, negative against the direction of positive angles. -/
def signedPulses (positive : UInt8) (a : PositionMode) : ℤ :=
  if a.direction = positive then a.pulseCount.toNat else -a.pulseCount.toNat

/-- What is left of a number when its fractional part is cut off. -/
noncomputable def trunc (x : ℝ) : ℤ := if x < 0 then ⌈x⌉ else ⌊x⌋

/-- A command is sent, with the pulses of the clamped angle. -/
def LimitLaw (m : Motor ℝ) (lo hi angle : ℝ) (a : Option PositionMode) : Prop :=
  ∃ command, a = some command ∧
    signedPulses m.direction command = trunc (max lo (min hi angle) * m.angleToPulse / 90)

theorem trunc_of_nonneg {x : ℝ} (hx : 0 ≤ x) : trunc x = (⌊x⌋₊ : ℤ) := by
  rw [trunc, if_neg (not_lt.2 hx), Int.natCast_floor_eq_floor hx]

theorem trunc_neg {x : ℝ} (hx : 0 ≤ x) : trunc (-x) = -(⌊x⌋₊ : ℤ) := by
  rcases hx.eq_or_lt with rfl | hpos
  · simp [trunc]
  · rw [trunc, if_pos (neg_lt_zero.2 hpos), Int.ceil_neg, Int.natCast_floor_eq_floor hx]

/-- Two caps leave the same whole number exactly as long as the higher one leaves less than
one more than the lower. -/
theorem floor_min_eq_iff {x l u : ℝ} (hl : 0 ≤ l) (hle : l ≤ u) :
    ⌊min x u⌋₊ = ⌊min x l⌋₊ ↔ min x u < ⌊l⌋₊ + 1 := by
  constructor
  · intro heq
    calc min x u < ⌊min x u⌋₊ + 1 := Nat.lt_floor_add_one _
      _ = ⌊min x l⌋₊ + 1 := by rw [heq]
      _ ≤ ⌊l⌋₊ + 1 := by
        have hmono : ⌊min x l⌋₊ ≤ ⌊l⌋₊ := Nat.floor_mono (min_le_right x l)
        exact_mod_cast Nat.succ_le_succ hmono
  · intro hlt
    by_cases hx : x ≤ l
    · rw [min_eq_left hx, min_eq_left (hx.trans hle)]
    · have hlx : l ≤ min x u := le_min (le_of_not_ge hx) hle
      rw [min_eq_right (le_of_not_ge hx)]
      apply Nat.le_antisymm
      · have hfloor : ⌊min x u⌋₊ < ⌊l⌋₊ + 1 := by
          rw [Nat.floor_lt (hl.trans hlx)]
          exact_mod_cast hlt
        exact Nat.le_of_lt_succ hfloor
      · exact Nat.floor_mono hlx

theorem unsigned_eq (angle : ℝ) : unsigned angle = |angle| := by
  rw [unsigned]
  split
  · next h => exact (abs_of_neg h).symm
  · next h => exact (abs_of_nonneg (not_lt.1 h)).symm

theorem limit_unsigned {lo hi : ℝ} (hlo : lo ≤ 0) (hhi : 0 ≤ hi) (angle : ℝ) :
    limit lo hi (unsigned angle) = min |angle| hi := by
  rw [unsigned_eq, limit]
  by_cases h : hi < |angle|
  · rw [if_pos h, if_neg (not_lt.2 (hlo.trans hhi)), min_eq_right h.le]
  · rw [if_neg h, if_neg (not_lt.2 (hlo.trans (abs_nonneg angle))), min_eq_left (not_lt.1 h)]

theorem toNat_toU32 {x : ℝ} (hx : 0 ≤ x) (hlt : x < 2 ^ 32) : (toU32 x).toNat = ⌊x⌋₊ := by
  have hfloor : ⌊x⌋₊ < 2 ^ 32 := by
    rw [Nat.floor_lt hx]
    exact_mod_cast hlt
  exact UInt32.toNat_ofNat_of_lt' hfloor

section
variable {m : Motor ℝ} {angle w : ℝ} {speed : UInt16} {acceleration : UInt8}

theorem signedPulses_command (hdir : m.direction = 0 ∨ m.direction = 1)
    (hw : 0 ≤ w * m.angleToPulse / 90) (hfit : w * m.angleToPulse / 90 < 2 ^ 32) :
    signedPulses m.direction (m.command angle w speed acceleration) =
      if angle < 0 then -(⌊w * m.angleToPulse / 90⌋₊ : ℤ) else ⌊w * m.angleToPulse / 90⌋₊ := by
  have hpulse : (m.command angle w speed acceleration).pulseCount.toNat = ⌊w * m.angleToPulse / 90⌋₊ :=
    toNat_toU32 hw hfit
  rw [signedPulses, hpulse]
  by_cases hneg : angle < 0
  · have hother : (m.command angle w speed acceleration).direction ≠ m.direction := by
      simp only [Motor.command, if_pos hneg]
      rcases hdir with h | h <;> rw [h] <;> decide
    rw [if_pos hneg, if_neg hother]
  · have hsame : (m.command angle w speed acceleration).direction = m.direction := by
      simp only [Motor.command, if_neg hneg]
    rw [if_neg hneg, if_pos hsame]

/-- The law holds of limits `lo .. hi` exactly when what is left of a negative angle is less than
a pulse past the lower limit. -/
theorem limitLaw_iff (hdir : m.direction = 0 ∨ m.direction = 1) (hk : 0 < m.angleToPulse) {lo hi : ℝ}
    (hlo : lo ≤ 0) (hle : -lo ≤ hi) (hfit : hi * m.angleToPulse / 90 < 2 ^ 32) :
    LimitLaw m lo hi angle (some (m.command angle (limit lo hi (unsigned angle)) speed acceleration)) ↔
      min (-angle) hi * m.angleToPulse / 90 < ⌊-lo * m.angleToPulse / 90⌋₊ + 1 := by
  have hhi : 0 ≤ hi := (neg_nonneg.2 hlo).trans hle
  have hscale : ∀ {x : ℝ}, 0 ≤ x → 0 ≤ x * m.angleToPulse / 90 := by
    intro x hx
    exact div_nonneg (mul_nonneg hx hk.le) (by norm_num)
  have hmono : ∀ {x y : ℝ}, x ≤ y → x * m.angleToPulse / 90 ≤ y * m.angleToPulse / 90 := by
    intro x y hxy
    exact div_le_div_of_nonneg_right (mul_le_mul_of_nonneg_right hxy hk.le) (by norm_num)
  have hmin : ∀ x y : ℝ, min x y * m.angleToPulse / 90 =
      min (x * m.angleToPulse / 90) (y * m.angleToPulse / 90) := by
    intro x y
    rw [min_mul_of_nonneg x y hk.le, min_div_div_right (by norm_num)]
  have hw : 0 ≤ min |angle| hi := le_min (abs_nonneg angle) hhi
  have hlaw : LimitLaw m lo hi angle
        (some (m.command angle (limit lo hi (unsigned angle)) speed acceleration)) ↔
      (if angle < 0 then -(⌊min |angle| hi * m.angleToPulse / 90⌋₊ : ℤ)
        else ⌊min |angle| hi * m.angleToPulse / 90⌋₊) =
        trunc (max lo (min hi angle) * m.angleToPulse / 90) := by
    rw [limit_unsigned hlo hhi, ← signedPulses_command hdir (hscale hw)
      ((hmono (min_le_right |angle| hi)).trans_lt hfit)]
    exact ⟨fun ⟨c, hc, hp⟩ => Option.some.inj hc ▸ hp, fun hp => ⟨_, rfl, hp⟩⟩
  rw [hlaw]
  by_cases hneg : angle < 0
  · -- what is cut off is cut off from the absolute value
    have hclamp : max lo (min hi angle) = -min (-angle) (-lo) := by
      rw [min_eq_right (hneg.le.trans hhi), ← max_neg_neg, neg_neg, neg_neg, max_comm]
    have hcut : 0 ≤ min (-angle) (-lo) := le_min (neg_nonneg.2 hneg.le) (neg_nonneg.2 hlo)
    rw [if_pos hneg, abs_of_neg hneg, hclamp, neg_mul, neg_div, trunc_neg (hscale hcut), neg_inj,
      Nat.cast_inj, hmin, hmin]
    exact floor_min_eq_iff (hscale (neg_nonneg.2 hlo)) (hmono hle)
  · have hnonneg : 0 ≤ angle := not_lt.1 hneg
    have hclamp : max lo (min hi angle) = min |angle| hi := by
      rw [abs_of_nonneg hnonneg, min_comm, max_eq_right (hlo.trans (le_min hnonneg hhi))]
    rw [if_neg hneg, hclamp, trunc_of_nonneg (hscale hw)]
    refine iff_of_true rfl ?_
    calc min (-angle) hi * m.angleToPulse / 90
        ≤ 0 * m.angleToPulse / 90 := hmono ((min_le_left _ _).trans (neg_nonpos.2 hnonneg))
      _ = 0 := by rw [zero_mul, zero_div]
      _ < ⌊-lo * m.angleToPulse / 90⌋₊ + 1 := Nat.cast_add_one_pos _

theorem limitLaw_pulse_iff (hdir : m.direction = 0 ∨ m.direction = 1) (hk : 0 < m.angleToPulse)
    {lo hi : ℝ} (hlo : lo ≤ 0) (hle : -lo ≤ hi) (hfit : hi * m.angleToPulse / 90 < 2 ^ 32) {n : ℕ}
    (hn : n ≤ -lo * m.angleToPulse / 90 ∧ -lo * m.angleToPulse / 90 < n + 1)
    (hhi : (n + 1) * 90 / m.angleToPulse ≤ hi) :
    LimitLaw m lo hi angle (some (m.command angle (limit lo hi (unsigned angle)) speed acceleration)) ↔
      -((n + 1) * 90 / m.angleToPulse) < angle := by
  have hpulses : 0 ≤ -lo * m.angleToPulse / 90 := n.cast_nonneg.trans hn.1
  have hfloor : ⌊-lo * m.angleToPulse / 90⌋₊ = n := (Nat.floor_eq_iff hpulses).2 hn
  rw [limitLaw_iff hdir hk hlo hle hfit, hfloor, div_lt_iff₀ (by norm_num), ← lt_div_iff₀ hk,
    min_lt_iff, or_iff_left (not_lt.2 hhi)]
  exact neg_lt

theorem motorCommand_one : motorCommand angle 1 =
    some (motor1.command angle (limit (-100) 100 (unsigned angle)) 2000 200) := rfl

theorem motorCommand_five : motorCommand angle 5 =
    some (motor5.command angle (limit (-100) 120 (unsigned angle)) 600 100) := rfl

theorem motorCommand_six : motorCommand angle 6 =
    some (motor6.command angle (limit (-100) 120 (unsigned angle)) 2000 200) := rfl

theorem motorCommandNew_six {speed : UInt32} : motorCommandNew angle 6 speed acceleration =
    some (motor6.command angle (limit (-30) 150 (unsigned angle)) speed.toUInt16 acceleration) := rfl

end

/-! ## The motors -/

theorem limitLaw_motor1 (angle : ℝ) : LimitLaw motor1 (-100) 100 angle (motorCommand angle 1) := by
  rw [motorCommand_one, limitLaw_iff (Or.inr rfl) (by norm_num [motor1]) (by norm_num) (by norm_num)
    (by norm_num [motor1])]
  -- the upper limit is that of the other side
  have hle : min (-angle) 100 * (motor1 : Motor ℝ).angleToPulse / 90 ≤
      -(-100) * (motor1 : Motor ℝ).angleToPulse / 90 := by
    have hmin : min (-angle) 100 ≤ (100 : ℝ) := min_le_right _ _
    simp only [motor1]
    linarith
  exact hle.trans_lt (Nat.lt_floor_add_one _)

theorem limitLaw_motor5_iff (angle : ℝ) :
    LimitLaw motor5 (-100) 120 angle (motorCommand angle 5) ↔ -(53334 * 90 / 48000) < angle := by
  have hpulse : (((53333 : ℕ) : ℝ) + 1) * 90 / (motor5 : Motor ℝ).angleToPulse =
      53334 * 90 / 48000 := by
    norm_num [motor5]
  rw [motorCommand_five, ← hpulse]
  exact limitLaw_pulse_iff (Or.inl rfl) (by norm_num [motor5]) (by norm_num) (by norm_num)
    (by norm_num [motor5]) (by norm_num [motor5]) (by norm_num [motor5])

theorem limitLaw_motor6_iff (angle : ℝ) :
    LimitLaw motor6 (-100) 120 angle (motorCommand angle 6) ↔ -(177778 * 90 / 160000) < angle := by
  have hpulse : (((177777 : ℕ) : ℝ) + 1) * 90 / (motor6 : Motor ℝ).angleToPulse =
      177778 * 90 / 160000 := by
    norm_num [motor6]
  rw [motorCommand_six, ← hpulse]
  exact limitLaw_pulse_iff (Or.inl rfl) (by norm_num [motor6]) (by norm_num) (by norm_num)
    (by norm_num [motor6]) (by norm_num [motor6]) (by norm_num [motor6])

theorem limitLaw_new_iff (angle : ℝ) (speed : UInt32) (acceleration : UInt8) :
    LimitLaw motor6 (-30) 150 angle (motorCommandNew angle 6 speed acceleration) ↔
      -(53334 * 90 / 160000) < angle := by
  have hpulse : (((53333 : ℕ) : ℝ) + 1) * 90 / (motor6 : Motor ℝ).angleToPulse =
      53334 * 90 / 160000 := by
    norm_num [motor6]
  rw [motorCommandNew_six, ← hpulse]
  exact limitLaw_pulse_iff (Or.inl rfl) (by norm_num [motor6]) (by norm_num) (by norm_num)
    (by norm_num [motor6]) (by norm_num [motor6]) (by norm_num [motor6])

/-- The limits of motor 1 hold at every angle, the lower ones of the others only up to a part
of a pulse. -/
theorem limits_enforced_iff (angle : ℝ) (speed : UInt32) (acceleration : UInt8) :
    LimitLaw motor1 (-100) 100 angle (motorCommand angle 1) ∧
      (LimitLaw motor5 (-100) 120 angle (motorCommand angle 5) ↔ -(53334 * 90 / 48000) < angle) ∧
      (LimitLaw motor6 (-100) 120 angle (motorCommand angle 6) ↔ -(177778 * 90 / 160000) < angle) ∧
      (LimitLaw motor6 (-30) 150 angle (motorCommandNew angle 6 speed acceleration) ↔
        -(53334 * 90 / 160000) < angle) :=
  ⟨limitLaw_motor1 angle, limitLaw_motor5_iff angle, limitLaw_motor6_iff angle,
    limitLaw_new_iff angle speed acceleration⟩

/-- At -120 degrees the three commands go past their lower limits. -/
theorem not_limitLaw_below : ¬ LimitLaw motor5 (-100) 120 (-120) (motorCommand (-120 : ℝ) 5) ∧
    ¬ LimitLaw motor6 (-100) 120 (-120) (motorCommand (-120 : ℝ) 6) ∧
    ¬ LimitLaw motor6 (-30) 150 (-120) (motorCommandNew (-120 : ℝ) 6 220 0) := by
  rw [limitLaw_motor5_iff, limitLaw_motor6_iff, limitLaw_new_iff]
  norm_num

end RoboticArm
