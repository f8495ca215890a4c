import RoboticArm.Burn
import RoboticArm.Panel
import RoboticArm.Replay

/- The indicator: what `RGB_RUN` sends to the WS2812B on PA1, and what the LED shows.

   `ws2812_write_byte` sends eight pulses, the most significant bit first, a long one for a 1
   and a short one for a 0; `WS2812B_WriteColor` sends green, red and blue in this order, and
   a low level of 280 us or more before them ends the data sent earlier. The LED takes a bit
   from the length of each high level and shows the 24 bits it has when the line stays low.
   The delays are the ones the code waits for: no interrupt stretches them here. `Lit` is the
   whole control program with the LED on its line.

   What is proved, for every sequence of stages of the program and ticks:
     1. `pixel_follows`: the LED always shows the colour the program wrote last;
     2. `breathes`: in a breathing mode it shows a triangle wave of its own count of ticks,
        28 ticks long, which no other mode in between disturbs;
     3. `blinks`: in a blinking mode, from the fifth tick on, it shows the colour of the mode
        for five ticks and is dark for five.

   Correspondence (C ↔ Lean):
     `ws2812_write_byte`, `WS2812B_WriteColor` ↔ `ws2812WriteByte`, `writeColor`
     `WS2812B_Reset`                           ↔ the low level `us280`
     the writes in `RGB_RUN` and `RGB_huxi`    ↔ `rgbRunWave` -/
namespace RoboticArm

/-! ## The line -/

/-- How long the line keeps a level: the waits of `ws2812_write_byte` and `WS2812B_Reset`, or
until the next call. -/
inductive Span where
  | ns320
  | ns850
  | us280
  | rest
  deriving DecidableEq, Repr

/-- The levels of the line, one after another. -/
abbrev Wave := List (Bool × Span)

/-- The loop of `ws2812_write_byte`, for `n` bits. -/
def writeBits : Nat → UInt8 → Wave
  | 0, _ => []
  | n + 1, dat =>
    (if dat &&& 0x80 = 0x80 then [(true, .ns850), (false, .ns320)]
      else [(true, .ns320), (false, .ns850)]) ++ writeBits n (dat <<< 1)

def ws2812WriteByte (dat : UInt8) : Wave := writeBits 8 dat

def writeColor (cR cG cB : UInt8) : Wave :=
  ws2812WriteByte cG ++ ws2812WriteByte cR ++ ws2812WriteByte cB

/-- `WS2812B_Reset` and `WS2812B_WriteColor`, and the line until the next call. -/
def wave (color : Nat × Nat × Nat) : Wave :=
  (false, .us280) :: (writeColor (UInt8.ofNat color.1) (UInt8.ofNat color.2.1)
    (UInt8.ofNat color.2.2) ++ [(false, .rest)])

/-- What a call of `RGB_RUN` sends. Every branch of `RGB_huxi` writes. -/
def rgbRunWave (l : Led) : Wave :=
  if l.rgbLedMode = 4 then wave (rgbHuxi true l).color
  else if l.rgbLedMode = 6 then wave (rgbHuxi false l).color
  else
    (if l.accLed + 100 = 500 then (blinkColor l.rgbLedMode).elim [] wave else []) ++
      if l.accLed + 100 = 1000 then wave (0, 0, 0) else []

/-! ## The LED -/

/-- The bits since the line last stayed low, and the red, green and blue that are shown. -/
structure Pixel where
  bits : List Bool
  color : Nat × Nat × Nat

def value (bits : List Bool) : Nat := bits.foldl (fun v b => 2 * v + b.toNat) 0

/-- The line stays low: 24 bits are green, red and blue. -/
def Pixel.latch (p : Pixel) : Pixel :=
  if 24 ≤ p.bits.length then
    ⟨[], value ((p.bits.drop 8).take 8), value (p.bits.take 8), value ((p.bits.drop 16).take 8)⟩
  else { p with bits := [] }

def pixelStep (p : Pixel) : Bool × Span → Pixel
  | (true, d) => { p with bits := p.bits ++ [decide (d ≠ .ns320)] }
  | (false, d) => if d = .us280 ∨ d = .rest then p.latch else p

/-- `GPIO_Init2812` leaves the line high, and the LED is dark. -/
def Pixel.boot : Pixel := pixelStep ⟨[], 0, 0, 0⟩ (true, .rest)

/-! ## One colour -/

theorem pixelStep_low {d : Span} (p : Pixel) (hd : d = .us280 ∨ d = .rest) :
    pixelStep p (false, d) = p.latch := by
  simp only [pixelStep]
  exact if_pos hd

/-- The bits that the loop sends. -/
def bitsOf : Nat → UInt8 → List Bool
  | 0, _ => []
  | n + 1, dat => decide (dat &&& 0x80 = 0x80) :: bitsOf n (dat <<< 1)

theorem length_bitsOf (n : Nat) (dat : UInt8) : (bitsOf n dat).length = n := by
  induction n generalizing dat with
  | zero => rfl
  | succ n ih => rw [bitsOf, List.length_cons, ih]

theorem value_bitsOf (dat : UInt8) : value (bitsOf 8 dat) = dat.toNat := by
  have hall : ∀ b : Fin 256, value (bitsOf 8 (UInt8.ofNat b.val)) = b.val := by decide +kernel
  have hdat := hall ⟨dat.toNat, dat.toNat_lt⟩
  rw [UInt8.ofNat_toNat] at hdat
  exact hdat

theorem exec_writeBits (n : Nat) (dat : UInt8) (p : Pixel) :
    Runs.exec pixelStep p (writeBits n dat) = { p with bits := p.bits ++ bitsOf n dat } := by
  induction n generalizing dat p with
  | zero =>
    rw [bitsOf, List.append_nil]
    rfl
  | succ n ih =>
    rw [writeBits, Runs.exec_append, ih, bitsOf]
    by_cases hbit : dat &&& 0x80 = 0x80
    · rw [if_pos hbit, decide_eq_true hbit, List.append_cons p.bits]
      rfl
    · rw [if_neg hbit, decide_eq_false hbit, List.append_cons p.bits]
      rfl

/-- Whatever the LED has seen before, short of a whole colour, it shows the colour that is
written. -/
theorem exec_wave {p : Pixel} (hbits : p.bits.length < 24) (color : Nat × Nat × Nat) :
    Runs.exec pixelStep p (wave color) = ⟨[], color.1 % 256, color.2.1 % 256, color.2.2 % 256⟩ := by
  let g := bitsOf 8 (UInt8.ofNat color.2.1)
  let r := bitsOf 8 (UInt8.ofNat color.1)
  let b := bitsOf 8 (UInt8.ofNat color.2.2)
  have hreset : pixelStep p (false, .us280) = ⟨[], p.color⟩ := by
    rw [pixelStep_low p (Or.inl rfl), Pixel.latch, if_neg (Nat.not_le_of_lt hbits)]
  have hcolor : Runs.exec pixelStep ⟨[], p.color⟩ (writeColor (UInt8.ofNat color.1)
      (UInt8.ofNat color.2.1) (UInt8.ofNat color.2.2)) = ⟨g ++ (r ++ b), p.color⟩ := by
    simp only [writeColor, ws2812WriteByte, Runs.exec_append, exec_writeBits, List.nil_append,
      List.append_assoc, g, r, b]
  have hg : g.length = 8 := length_bitsOf 8 _
  have hr : r.length = 8 := length_bitsOf 8 _
  have hb : b.length = 8 := length_bitsOf 8 _
  have hlatch : pixelStep ⟨g ++ (r ++ b), p.color⟩ (false, .rest) =
      ⟨[], value r, value g, value b⟩ := by
    have hlength : 24 ≤ (g ++ (r ++ b)).length := by
      rw [List.length_append, List.length_append, hg, hr, hb]
    have htail : (g ++ (r ++ b)).drop 8 = r ++ b := List.drop_left' hg
    have hlast : (g ++ (r ++ b)).drop 16 = b := by
      rw [← List.append_assoc]
      exact List.drop_left' (by rw [List.length_append, hg, hr])
    rw [pixelStep_low _ (Or.inr rfl), Pixel.latch, if_pos hlength]
    dsimp only
    rw [htail, hlast, List.take_left' hg, List.take_left' hr, List.take_of_length_le hb.le]
  rw [wave, Runs.exec_cons, hreset, Runs.exec_append, hcolor, Runs.exec_cons, Runs.exec_nil, hlatch,
    value_bitsOf, value_bitsOf, value_bitsOf, UInt8.toNat_ofNat', UInt8.toNat_ofNat',
    UInt8.toNat_ofNat']

/-! ## A call of `RGB_RUN` -/

/-- The LED is at the beginning of a colour and shows the last one. -/
structure Shows (p : Pixel) (l : Led) : Prop where
  bits : p.bits.length < 24
  color : p.color = l.color

theorem Shows.write {p : Pixel} (hbits : p.bits.length < 24) {l : Led} {color : Nat × Nat × Nat}
    (hl : l.color = color) (hbyte : color.1 < 256 ∧ color.2.1 < 256 ∧ color.2.2 < 256) :
    Shows (Runs.exec pixelStep p (wave color)) l := by
  obtain ⟨hr, hg, hb⟩ := hbyte
  rw [exec_wave hbits, Nat.mod_eq_of_lt hr, Nat.mod_eq_of_lt hg, Nat.mod_eq_of_lt hb]
  exact ⟨Nat.zero_lt_succ 23, hl.symm⟩

theorem byte_rgbHuxi (mode : Bool) (l : Led) : (rgbHuxi mode l).color.1 < 256 ∧
    (rgbHuxi mode l).color.2.1 < 256 ∧ (rgbHuxi mode l).color.2.2 < 256 := by
  simp only [rgbHuxi]
  split
  · cases mode
    · exact ⟨by simp only [Bool.false_eq_true, if_false]; omega,
        by simp only [Bool.false_eq_true, if_false]; omega,
        by simp only [Bool.false_eq_true, if_false]; omega⟩
    · exact ⟨by simp only [if_true]; omega, by simp only [if_true]; omega, Nat.zero_lt_succ 255⟩
  · cases mode
    · exact ⟨Nat.mod_lt _ (by decide), Nat.mod_lt _ (by decide), Nat.mod_lt _ (by decide)⟩
    · exact ⟨Nat.mod_lt _ (by decide), Nat.mod_lt _ (by decide), Nat.zero_lt_succ 255⟩

theorem byte_blinkColor {m : Nat} {color : Nat × Nat × Nat} (h : blinkColor m = some color) :
    color.1 < 256 ∧ color.2.1 < 256 ∧ color.2.2 < 256 := by
  unfold blinkColor at h
  split at h <;> cases h
  all_goals decide

theorem color_rgbRun_blink {l : Led} (h4 : l.rgbLedMode ≠ 4) (h6 : l.rgbLedMode ≠ 6) :
    (rgbRun l).color =
      if l.accLed + 100 = 1000 then (0, 0, 0)
      else if l.accLed + 100 = 500 then (blinkColor l.rgbLedMode).getD l.color
      else l.color := by
  simp only [rgbRun, if_neg h4, if_neg h6]
  split_ifs <;> rfl

theorem Shows.rgbRun {p : Pixel} {l : Led} (h : Shows p l) :
    Shows (Runs.exec pixelStep p (rgbRunWave l)) (rgbRun l) := by
  unfold rgbRunWave
  by_cases h4 : l.rgbLedMode = 4
  · rw [if_pos h4]
    exact Shows.write h.bits (by rw [RoboticArm.rgbRun, if_pos h4]) (byte_rgbHuxi true l)
  rw [if_neg h4]
  by_cases h6 : l.rgbLedMode = 6
  · rw [if_pos h6]
    exact Shows.write h.bits (by rw [RoboticArm.rgbRun, if_neg h4, if_pos h6]) (byte_rgbHuxi false l)
  rw [if_neg h6]
  have hcolor := color_rgbRun_blink h4 h6
  by_cases hoff : l.accLed + 100 = 1000
  · rw [if_pos hoff] at hcolor ⊢
    rw [if_neg (by omega), List.nil_append]
    exact Shows.write h.bits hcolor (by decide)
  rw [if_neg hoff] at hcolor ⊢
  rw [List.append_nil]
  by_cases hon : l.accLed + 100 = 500
  · rw [if_pos hon] at hcolor ⊢
    cases hmode : blinkColor l.rgbLedMode with
    | some color =>
      rw [hmode, Option.getD_some] at hcolor
      exact Shows.write h.bits hcolor (byte_blinkColor hmode)
    | none =>
      rw [hmode, Option.getD_none] at hcolor
      exact ⟨h.bits, h.color.trans hcolor.symm⟩
  · rw [if_neg hon] at hcolor ⊢
    exact ⟨h.bits, h.color.trans hcolor.symm⟩

/-! ## The whole program -/

/-- The control program with the LED on its line. -/
structure Lit (K : Type) where
  rb : Rb K
  pixel : Pixel

section
variable {K : Type} [Field K] [LinearOrder K]

/-- A stage of the program. Only the tick writes to the line. -/
def litStage (env : Env K) (s : Lit K) (a : Stage K) : Lit K where
  rb := stage env s.rb a
  pixel := Runs.exec pixelStep s.pixel (if a.move = .tick then rgbRunWave s.rb.led else [])

omit [LinearOrder K] in
/-- Power-on. -/
def Lit.boot : Lit K := ⟨RoboticArm.boot, Pixel.boot⟩

theorem exec_lit_rb (env : Env K) (s : Lit K) (as : List (Stage K)) :
    (Runs.exec (litStage env) s as).rb = Runs.exec (stage env) s.rb as := by
  induction as generalizing s with
  | nil => rfl
  | cons a as ih => exact ih (litStage env s a)

/-- What no stage but the tick changes. -/
def Led.idle (l : Led) : Nat × Nat × Nat × Nat × Nat := (l.accLed, l.jici, l.color)

theorem idle_updateRangeStatus (p : Pos K) (l : Led) : (updateRangeStatus p l).idle = l.idle := by
  unfold updateRangeStatus
  dsimp only
  split_ifs <;> rfl

theorem idle_nextLed (c : Cycle) (j : Jog K) (l : Led) {m : Move} (hm : m ≠ .tick) :
    (nextLed c j l m).idle = l.idle := by
  have hrange : ∀ p : Pos K, (updateRangeStatus p l).idle = l.idle :=
    fun p => idle_updateRangeStatus p l
  cases m with
  | key k =>
    cases k <;> simp only [nextLed]
    all_goals first
      | rfl
      | exact hrange _
      | split_ifs <;> first | rfl | exact hrange _
  | runLogic =>
    simp only [nextLed]
    split <;> rfl
  | manual =>
    simp only [nextLed]
    split_ifs <;> rfl
  | tick => exact absurd rfl hm
  | returnDelay => rfl
  | sensors => rfl

theorem idle_stage (env : Env K) (s : Rb K) {a : Stage K} (ha : a.move ≠ .tick) :
    (stage env s a).led.idle = s.led.idle := by
  rw [led_stage]
  exact idle_nextLed s.cycle s.jog s.led ha

theorem led_tick (env : Env K) (s : Rb K) {a : Stage K} (ha : a.move = .tick) :
    (stage env s a).led = rgbRun s.led := by
  rw [led_stage, ha]
  rfl

theorem shows_litStage (env : Env K) {s : Lit K} (h : Shows s.pixel s.rb.led) (a : Stage K) :
    Shows (litStage env s a).pixel (litStage env s a).rb.led := by
  unfold litStage
  dsimp only
  by_cases ha : a.move = .tick
  · rw [if_pos ha, led_tick env s.rb ha]
    exact h.rgbRun
  · rw [if_neg ha]
    have hcolor : (stage env s.rb a).led.color = s.rb.led.color :=
      congrArg (fun i => i.2.2) (idle_stage env s.rb ha)
    exact ⟨h.bits, h.color.trans hcolor.symm⟩

theorem shows_exec (env : Env K) (as : List (Stage K)) :
    Shows (Runs.exec (litStage env) Lit.boot as).pixel (Runs.exec (litStage env) Lit.boot as).rb.led :=
  Runs.exec_inv (P := fun s : Lit K => Shows s.pixel s.rb.led) (fun _ a h => shows_litStage env h a) as
    ⟨show 1 < 24 by decide, rfl⟩

theorem color_exec (env : Env K) (as : List (Stage K)) :
    (Runs.exec (litStage env) Lit.boot as).pixel.color = (Runs.exec (stage env) boot as).led.color := by
  rw [(shows_exec env as).color, exec_lit_rb]
  rfl

/-- The LED shows the colour that was written last, whatever the program has been doing, and
is ready for a whole colour. -/
theorem pixel_follows (env : Env K) (as : List (Stage K)) :
    (Runs.exec (litStage env) Lit.boot as).pixel.color = (Runs.exec (stage env) boot as).led.color ∧
      (Runs.exec (litStage env) Lit.boot as).pixel.bits.length < 24 :=
  ⟨color_exec env as, (shows_exec env as).bits⟩

/-! ## Breathing -/

/-- The ticks of a run that find a breathing mode. -/
def breaths (env : Env K) : Rb K → List (Stage K) → Nat
  | _, [] => 0
  | s, a :: as =>
    (if a.move = .tick ∧ (s.led.rgbLedMode = 4 ∨ s.led.rgbLedMode = 6) then 1 else 0) +
      breaths env (stage env s a) as

theorem jici_rgbRun {l : Led} {n : Nat} (h : l.jici = n % 28 + 1) : (rgbRun l).jici =
    (n + if l.rgbLedMode = 4 ∨ l.rgbLedMode = 6 then 1 else 0) % 28 + 1 := by
  have hhuxi : ∀ mode, (rgbHuxi mode l).jici = (n + 1) % 28 + 1 := by
    intro mode
    simp only [rgbHuxi, h]
    split_ifs
    all_goals
      dsimp only
      omega
  by_cases h4 : l.rgbLedMode = 4
  · rw [rgbRun, if_pos h4, if_pos (Or.inl h4)]
    exact hhuxi true
  by_cases h6 : l.rgbLedMode = 6
  · rw [rgbRun, if_neg h4, if_pos h6, if_pos (Or.inr h6)]
    exact hhuxi false
  rw [if_neg (not_or.2 ⟨h4, h6⟩), Nat.add_zero]
  simp only [rgbRun, if_neg h4, if_neg h6]
  split_ifs
  all_goals exact h

theorem jici_exec (env : Env K) (as : List (Stage K)) {s : Rb K} {n : Nat}
    (h : s.led.jici = n % 28 + 1) :
    (Runs.exec (stage env) s as).led.jici = (n + breaths env s as) % 28 + 1 := by
  induction as generalizing s n with
  | nil => exact h
  | cons a as ih =>
    rw [Runs.exec_cons, breaths, ← Nat.add_assoc]
    apply ih
    by_cases ha : a.move = .tick
    · rw [led_tick env s ha, jici_rgbRun h]
      simp only [ha, true_and]
    · rw [if_neg (fun hc => ha hc.1)]
      exact (congrArg (fun i => i.2.1) (idle_stage env s ha)).trans h

/-- The wave: up in steps from 1 to 15, and down again. -/
def crest (n : Nat) : Nat := min (n % 28 + 2) (28 - n % 28)

theorem color_rgbHuxi {l : Led} {n : Nat} (h : l.jici = n % 28 + 1) (mode : Bool) :
    (rgbHuxi mode l).color =
      if mode then (crest n * 10, crest n * 6, 0) else (crest n * 10, crest n * 10, crest n * 10) := by
  have hn : n % 28 < 28 := Nat.mod_lt n (by decide)
  have hjici : (n % 28 + 1 + 1) % 256 = n % 28 + 2 := by omega
  simp only [rgbHuxi, h, hjici]
  by_cases hup : n % 28 + 2 ≤ 15
  · have hcrest : crest n = n % 28 + 2 := by
      unfold crest
      omega
    rw [if_pos hup, hcrest]
  · have hcrest : crest n = 28 - n % 28 := by
      unfold crest
      omega
    have hlarge : (150 + 256 - (n % 28 + 2 - 15) * 10 % 256) % 256 = crest n * 10 := by omega
    have hsmall : (90 + 256 - (n % 28 + 2 - 15) * 6 % 256) % 256 = crest n * 6 := by omega
    rw [if_neg hup, hlarge, hsmall]

/-- A tick in a breathing mode shows the wave where the earlier ticks in one have left it. -/
theorem breathes (env : Env K) (as : List (Stage K))
    (hmode : (Runs.exec (stage env) boot as).led.rgbLedMode = 4 ∨
      (Runs.exec (stage env) boot as).led.rgbLedMode = 6) :
    (Runs.exec (litStage env) Lit.boot (as ++ [.tick])).pixel.color =
      let t := crest (breaths env boot as)
      if (Runs.exec (stage env) boot as).led.rgbLedMode = 4 then (t * 10, t * 6, 0)
      else (t * 10, t * 10, t * 10) := by
  have hjici := jici_exec env as (show (boot : Rb K).led.jici = 0 % 28 + 1 from rfl)
  rw [Nat.zero_add] at hjici
  rw [color_exec, Runs.exec_append, Runs.exec_cons, Runs.exec_nil, led_tick env _ rfl, rgbRun]
  rcases hmode with h4 | h6
  · rw [if_pos h4, if_pos h4, color_rgbHuxi hjici, if_pos rfl]
  · rw [if_neg (by omega), if_pos h6, if_neg (by omega), color_rgbHuxi hjici, if_neg Bool.false_ne_true]

end

theorem breathes_secondTick : (Runs.exec (stage firmware) boot [.tick]).led.rgbLedMode = 6 ∧
    (Runs.exec (litStage firmware) Lit.boot ([.tick] ++ [.tick])).pixel.color = (30, 30, 30) := by
  have hled : (Runs.exec (stage firmware) boot [.tick]).led = rgbRun Led.boot :=
    led_tick firmware boot (a := .tick) rfl
  have hmode : (Runs.exec (stage firmware) boot [.tick]).led.rgbLedMode = 6 := by
    rw [hled]
    rfl
  refine ⟨hmode, ?_⟩
  rw [breathes firmware [.tick] (Or.inr hmode), hmode]
  rfl

section
variable {K : Type} [Field K] [LinearOrder K]

/-! ## Blinking -/

/-- The counter stands at `k` tenths of a second, and from the first change of the light on the
colour is that of its half of the period. -/
structure Blinking (c : Nat × Nat × Nat) (k n : Nat) (l : Led) : Prop where
  lt : k < 10
  acc : l.accLed = 100 * k
  color : k % 5 < n → l.color = if 5 ≤ k then c else (0, 0, 0)

theorem accLed_rgbRun_blink {l : Led} (h4 : l.rgbLedMode ≠ 4) (h6 : l.rgbLedMode ≠ 6) :
    (rgbRun l).accLed = if l.accLed + 100 = 1000 then 0 else l.accLed + 100 := by
  simp only [rgbRun, if_neg h4, if_neg h6]
  split_ifs <;> rfl

/-- The counter of a run stands at a whole tenth of a second below one second. -/
theorem accLed_exec (env : Env K) (as : List (Stage K)) :
    ∃ k < 10, (Runs.exec (stage env) boot as).led.accLed = 100 * k := by
  refine Runs.exec_inv (P := fun s : Rb K => ∃ k < 10, s.led.accLed = 100 * k) ?_ as
    ⟨0, by decide, rfl⟩
  rintro s a ⟨k, hk, hacc⟩
  by_cases ha : a.move = .tick
  · rw [led_tick env s ha]
    by_cases h4 : s.led.rgbLedMode = 4
    · rw [rgbRun, if_pos h4]
      exact ⟨k, hk, (apply_ite Led.accLed _ _ _).trans ((ite_self _).trans hacc)⟩
    by_cases h6 : s.led.rgbLedMode = 6
    · rw [rgbRun, if_neg h4, if_pos h6]
      exact ⟨k, hk, (apply_ite Led.accLed _ _ _).trans ((ite_self _).trans hacc)⟩
    rw [accLed_rgbRun_blink h4 h6, hacc]
    by_cases hend : k = 9
    · exact ⟨0, by decide, if_pos (by omega)⟩
    · exact ⟨k + 1, by omega, by rw [if_neg (by omega)]; ring⟩
  · have hidle : (stage env s a).led.accLed = s.led.accLed :=
      congrArg (fun i => i.1) (idle_stage env s ha)
    exact ⟨k, hk, hidle.trans hacc⟩

theorem Blinking.rgbRun {c : Nat × Nat × Nat} {k n m : Nat} {l : Led} (h : Blinking c k n l)
    (hm : blinkColor m = some c) (hmode : l.rgbLedMode = m) :
    Blinking c ((k + 1) % 10) (n + 1) (rgbRun l) := by
  have h4 : l.rgbLedMode ≠ 4 := by
    rintro heq
    rw [← hmode, heq] at hm
    exact absurd hm nofun
  have h6 : l.rgbLedMode ≠ 6 := by
    rintro heq
    rw [← hmode, heq] at hm
    exact absurd hm nofun
  have hk := h.lt
  have hacc := h.acc
  refine ⟨Nat.mod_lt _ (by decide), ?_, ?_⟩
  · rw [accLed_rgbRun_blink h4 h6]
    split <;> omega
  · intro hchanged
    rw [color_rgbRun_blink h4 h6, hmode, hm, Option.getD_some]
    -- the light goes off with the tenth tick and on with the fifth
    by_cases hoff : k = 9
    · rw [if_pos (by omega), if_neg (by omega)]
    by_cases hon : k = 4
    · rw [if_neg (by omega), if_pos (by omega), if_pos (by omega)]
    · rw [if_neg (by omega), if_neg (by omega), h.color (by omega)]
      by_cases hhalf : 5 ≤ k
      · rw [if_pos hhalf, if_pos (by omega)]
      · rw [if_neg hhalf, if_neg (by omega)]

theorem Blinking.exec {c : Nat × Nat × Nat} {k n m : Nat} (env : Env K) (hm : blinkColor m = some c)
    (as : List (Stage K)) {s : Rb K} (h : Blinking c k n s.led)
    (hmode : Runs.Along (fun t a => a.move = .tick → t.led.rgbLedMode = m) (stage env) s as) :
    Blinking c ((k + ticksIn as) % 10) (n + ticksIn as) (Runs.exec (stage env) s as).led := by
  induction as generalizing s k n with
  | nil =>
    have hk : (k + 0) % 10 = k := Nat.mod_eq_of_lt h.lt
    show Blinking c ((k + 0) % 10) n s.led
    rw [hk]
    exact h
  | cons a as ih =>
    have hcount : ticksIn (a :: as) = ticksIn as + if a.move = .tick then 1 else 0 := by
      rw [ticksIn, List.map_cons, List.count_cons, ← ticksIn]
      simp only [beq_iff_eq]
    rw [Runs.exec_cons, hcount]
    by_cases ha : a.move = .tick
    · have hnext : Blinking c ((k + 1) % 10) (n + 1) (stage env s a).led := by
        rw [led_tick env s ha]
        exact h.rgbRun hm (hmode.1 ha)
      have hrest := ih hnext hmode.2
      rw [if_pos ha]
      have hphase : ((k + 1) % 10 + ticksIn as) % 10 = (k + (ticksIn as + 1)) % 10 := by omega
      have hsince : n + 1 + ticksIn as = n + (ticksIn as + 1) := by omega
      rw [hphase, hsince] at hrest
      exact hrest
    · have hidle := idle_stage env s ha
      have hnext : Blinking c k n (stage env s a).led :=
        ⟨h.lt, (congrArg (fun i => i.1) hidle).trans h.acc,
          fun hn => (congrArg (fun i => i.2.2) hidle).trans (h.color hn)⟩
      rw [if_neg ha, Nat.add_zero]
      exact ih hnext hmode.2

/-- While every tick finds a blinking mode, the LED shows its colour for five ticks and is dark
for five, from the fifth tick on. -/
theorem blinks (env : Env K) {m : Nat} {c : Nat × Nat × Nat} (hm : blinkColor m = some c)
    (pre as : List (Stage K))
    (hmode : Runs.Along (fun s a => a.move = .tick → s.led.rgbLedMode = m) (stage env)
      (Runs.exec (stage env) boot pre) as) :
    ∃ k, ∀ part, part <+: as → 5 ≤ ticksIn part →
      (Runs.exec (litStage env) Lit.boot (pre ++ part)).pixel.color =
        if 5 ≤ (k + ticksIn part) % 10 then c else (0, 0, 0) := by
  obtain ⟨k, hk, hacc⟩ := accLed_exec env pre
  refine ⟨k, ?_⟩
  rintro part ⟨rest, rfl⟩ hticks
  have hstart : Blinking c k 0 (Runs.exec (stage env) boot pre).led :=
    ⟨hk, hacc, fun hn => absurd hn (Nat.not_lt_zero _)⟩
  have hend := hstart.exec env hm part (Runs.along_append.1 hmode).1
  rw [color_exec, Runs.exec_append]
  apply hend.color
  omega

theorem mode_rgbRun {l : Led} (h7 : l.rgbLedMode ≠ 7) : (rgbRun l).rgbLedMode = l.rgbLedMode := by
  unfold rgbRun rgbHuxi
  dsimp only
  rw [if_neg h7]
  split_ifs <;> rfl

theorem along_ticks (env : Env K) {m : Nat} (h7 : m ≠ 7) (n : Nat) {s : Rb K}
    (h : s.led.rgbLedMode = m) :
    Runs.Along (fun s a => a.move = .tick → s.led.rgbLedMode = m) (stage env) s
      (List.replicate n .tick) := by
  induction n generalizing s with
  | zero => trivial
  | succ n ih =>
    refine ⟨fun _ => h, ih ?_⟩
    rw [led_tick env s rfl, mode_rgbRun (by rw [h]; exact h7), h]

end

/-- Green after a jog. -/
theorem blinks_jogged : ∃ k, ∀ part, part <+: List.replicate 20 (Stage.tick (K := ℝ)) →
    5 ≤ ticksIn part →
    (Runs.exec (litStage firmware) Lit.boot ([.lcd 0xf3 0, .manual] ++ part)).pixel.color =
      if 5 ≤ (k + ticksIn part) % 10 then (0, 50, 0) else (0, 0, 0) := by
  let s : Rb ℝ := stage firmware boot (.lcd 0xf3 0)
  have hmove : (Stage.lcd (K := ℝ) 0xf3 0).move = .key .xInc := rfl
  have hjog : s.jog = ⟨⟨5, 30, 25⟩, ⟨0, 30, 25⟩⟩ := by
    rw [jog_stage, hmove]
    norm_num [boot, Jog.next, Jog.boot, Jog.move, clampCoordinates, clampTo, xMin, xMax, yMin, yMax,
      zMin, zMax]
  have hled : s.led = Led.boot := by
    rw [led_stage, hmove]
    norm_num [boot, nextLed, Jog.boot, Jog.move, clampCoordinates, clampTo, updateRangeStatus,
      checkCoordinateRange, xMin, xMax, yMin, yMax, zMin, zMax]
    exact fun hflag => absurd hflag Bool.false_ne_true
  have hmode : (Runs.exec (stage firmware) boot [.lcd 0xf3 0, .manual]).led.rgbLedMode = 1 := by
    show (stage firmware s .manual).led.rgbLedMode = 1
    have hmoved : s.jog.moved = true := by
      rw [hjog]
      norm_num [Jog.moved]
    have hstart : s.cycle.ctl.startFlag = false := rfl
    rw [led_stage, hled]
    simp [Stage.move, nextLed, hmoved, hstart, Led.boot, Led.paint]
  exact blinks firmware (m := 1) rfl _ _ (along_ticks firmware (by decide) 20 hmode)

end RoboticArm
