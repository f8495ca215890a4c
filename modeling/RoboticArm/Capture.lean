import RoboticArm.Distance
import RoboticArm.Runs
import Mathlib.Data.List.Infix

/- The hand-over of a distance frame, interrupt by interrupt.

   The handler of USART2 fills `rx_buffer_uart2` while `frame_ready` is 0 and sets it with
   the thirteenth byte; `new_tof` scans the buffer and then releases it in three
   statements: the length, the flag, and the clearing of the cells. A byte may arrive
   between any two of them. Bytes that arrive while the flag is set are dropped, and
   those that arrive after it is released are stored; what arrives before the cells are
   cleared is stored and then lost.

   1. `inv_captureStep`: the length stays within the frame whatever the interleaving.
   2. `frames_intact`: if no byte but 0 is stored between the release and the clearing,
      every frame that is scanned is 13 consecutive bytes of the stream.
   3. `byteBeforeClear` stores one there.

   Correspondence (C ↔ Lean):
     `USART2_IRQHandler`                        ↔ `usart2IrqHandler`
     the statements of `new_tof`, in order      ↔ `TofStmt`, `TofStmt.exec` -/
namespace RoboticArm

/-- One byte. -/
def usart2IrqHandler (receivedChar : UInt8) (u : Uart2) : Uart2 :=
  if u.frameReady = false then
    { rxBuffer := Function.update u.rxBuffer u.rxLen receivedChar
      rxLen := u.rxLen + 1
      frameReady := decide (13 ≤ u.rxLen + 1) }
  else u

/-- Where the main loop is in `new_tof`: the test of `frame_ready` (also where it is while it
does something else), the scan, and the three statements that release the buffer. -/
inductive TofStmt where
  | test
  | scan
  | rxLenZero
  | frameReadyZero
  | memset
  deriving DecidableEq, Repr

/-- The statement at hand, and where it leads. -/
def TofStmt.exec (u : Uart2) : TofStmt → Uart2 × TofStmt
  | .test => (u, if u.frameReady then .scan else .test)
  | .scan => (u, .rxLenZero)
  | .rxLenZero => ({ u with rxLen := 0 }, .frameReadyZero)
  | .frameReadyZero => ({ u with frameReady := false }, .memset)
  | .memset => ({ u with rxBuffer := fun i => if i < 60 then 0 else u.rxBuffer i }, .test)

/-- The receive side, the statement that is next, and all bytes that arrived, in order. -/
structure Capture where
  uart : Uart2
  stmt : TofStmt
  arrived : List UInt8

inductive CaptureAct where
  | byte (b : UInt8)
  | main
  deriving DecidableEq, Repr

def captureStep (s : Capture) : CaptureAct → Capture
  | .byte b => { s with uart := usart2IrqHandler b s.uart, arrived := s.arrived ++ [b] }
  | .main =>
    let r := s.stmt.exec s.uart
    { s with uart := r.1, stmt := r.2 }

def Capture.boot : Capture := ⟨⟨fun _ => 0, 0, false⟩, .test, []⟩

theorem exec_newTof (K : Type) [Field K] {s : Capture} (h : s.stmt = .test)
    (hready : s.uart.frameReady = true) :
    Runs.exec captureStep s [.main, .main, .main, .main, .main] =
      { s with uart := (newTof (K := K) s.uart).2 } := by
  simp only [Runs.exec_cons, Runs.exec_nil, captureStep, h, TofStmt.exec, hready, if_pos, newTof]
  rfl

/-! ## The length -/

/-- The flag is set when the frame is whole, and stays set until it is released. -/
structure Capture.Inv (s : Capture) : Prop where
  filling : s.uart.frameReady = false → s.uart.rxLen < 13
  whole : s.uart.frameReady = true → s.stmt ≠ .frameReadyZero → s.uart.rxLen = 13
  zero : s.stmt = .frameReadyZero → s.uart.rxLen = 0
  held : s.stmt = .scan ∨ s.stmt = .rxLenZero ∨ s.stmt = .frameReadyZero → s.uart.frameReady = true

theorem Capture.Inv.rxLen_le {s : Capture} (h : s.Inv) : s.uart.rxLen ≤ 13 := by
  cases hready : s.uart.frameReady
  · exact Nat.le_of_lt (h.filling hready)
  · by_cases hzero : s.stmt = .frameReadyZero
    · rw [h.zero hzero]
      exact Nat.zero_le 13
    · exact Nat.le_of_eq (h.whole hready hzero)

theorem inv_captureBoot : Capture.boot.Inv := by
  constructor <;> simp [Capture.boot]

theorem inv_byte {s : Capture} (b : UInt8) (h : s.Inv) : (captureStep s (.byte b)).Inv := by
  cases hready : s.uart.frameReady
  · have hlt := h.filling hready
    have hnot : ¬ (s.stmt = .scan ∨ s.stmt = .rxLenZero ∨ s.stmt = .frameReadyZero) := by
      intro hheld
      exact absurd (hready.symm.trans (h.held hheld)) Bool.false_ne_true
    have huart : (captureStep s (.byte b)).uart =
        ⟨Function.update s.uart.rxBuffer s.uart.rxLen b, s.uart.rxLen + 1,
          decide (13 ≤ s.uart.rxLen + 1)⟩ := by
      simp only [captureStep, usart2IrqHandler, hready, if_true]
    refine ⟨?_, ?_, fun hz => absurd (Or.inr (Or.inr hz)) hnot, fun hheld => absurd hheld hnot⟩
    · intro hr
      rw [huart] at hr ⊢
      exact Nat.lt_of_not_le (of_decide_eq_false hr)
    · intro hr _
      rw [huart] at hr ⊢
      exact Nat.le_antisymm hlt (of_decide_eq_true hr)
  · have hsame : (captureStep s (.byte b)).uart = s.uart := by
      simp [captureStep, usart2IrqHandler, hready]
    constructor
    · rw [hsame]
      exact h.filling
    · rw [hsame]
      exact h.whole
    · rw [hsame]
      exact h.zero
    · rw [hsame]
      exact h.held

theorem inv_main {s : Capture} (h : s.Inv) : (captureStep s .main).Inv := by
  obtain ⟨u, stmt, arrived⟩ := s
  cases stmt with
  | test =>
    cases hready : u.frameReady
    · have hstay : captureStep ⟨u, .test, arrived⟩ .main = ⟨u, .test, arrived⟩ := by
        simp [captureStep, TofStmt.exec, hready]
      rw [hstay]
      exact h
    · have hscan : captureStep ⟨u, .test, arrived⟩ .main = ⟨u, .scan, arrived⟩ := by
        simp [captureStep, TofStmt.exec, hready]
      have hlen : u.rxLen = 13 := h.whole hready (by simp)
      rw [hscan]
      constructor <;> simp [hready, hlen]
  | scan =>
    have hready : u.frameReady = true := h.held (Or.inl rfl)
    have hlen : u.rxLen = 13 := h.whole hready (by simp)
    have hstep : captureStep ⟨u, .scan, arrived⟩ .main = ⟨u, .rxLenZero, arrived⟩ := rfl
    rw [hstep]
    constructor <;> simp [hready, hlen]
  | rxLenZero =>
    have hready : u.frameReady = true := h.held (Or.inr (Or.inl rfl))
    have hstep : captureStep ⟨u, .rxLenZero, arrived⟩ .main =
        ⟨{ u with rxLen := 0 }, .frameReadyZero, arrived⟩ := rfl
    rw [hstep]
    constructor <;> simp [hready]
  | frameReadyZero =>
    have hzero : u.rxLen = 0 := h.zero rfl
    have hstep : captureStep ⟨u, .frameReadyZero, arrived⟩ .main =
        ⟨{ u with frameReady := false }, .memset, arrived⟩ := rfl
    rw [hstep]
    constructor <;> simp [hzero]
  | memset =>
    have hfilling := h.filling
    have hwhole : u.frameReady = true → u.rxLen = 13 := fun hr => h.whole hr (by simp)
    have hstep : captureStep ⟨u, .memset, arrived⟩ .main =
        ⟨{ u with rxBuffer := fun i => if i < 60 then 0 else u.rxBuffer i }, .test, arrived⟩ := rfl
    rw [hstep]
    constructor
    · exact hfilling
    · exact fun hr _ => hwhole hr
    · simp
    · simp

theorem inv_captureStep (s : Capture) (a : CaptureAct) (h : s.Inv) : (captureStep s a).Inv := by
  cases a with
  | byte b => exact inv_byte b h
  | main => exact inv_main h

/-! ## The contents -/

/-- No byte but 0 is stored between the release of the buffer and its clearing. -/
def NoByteLost (s : Capture) : CaptureAct → Prop
  | .byte b => s.stmt = .memset → s.uart.frameReady = false → b = 0
  | .main => True

instance (s : Capture) : ∀ a, Decidable (NoByteLost s a)
  | .byte _ => inferInstanceAs (Decidable (_ → _ → _))
  | .main => inferInstanceAs (Decidable True)

/-- The first `n` cells. -/
def firstCells (buf : Nat → UInt8) (n : Nat) : List UInt8 := (List.range n).map buf

theorem firstCells_congr {x y : Nat → UInt8} {n : Nat} (h : ∀ i < n, x i = y i) :
    firstCells x n = firstCells y n :=
  List.map_congr_left fun i hi => h i (List.mem_range.1 hi)

theorem firstCells_update (buf : Nat → UInt8) (n : Nat) (b : UInt8) :
    firstCells (Function.update buf n b) (n + 1) = firstCells buf n ++ [b] := by
  have hold : firstCells (Function.update buf n b) n = firstCells buf n :=
    firstCells_congr fun i hi => Function.update_of_ne (Nat.ne_of_lt hi) b buf
  rw [firstCells, List.range_succ, List.map_append, ← firstCells, hold]
  simp

/-- What the buffer holds once it is cleared, if it is being released. -/
def Capture.contents (s : Capture) : Nat → UInt8 :=
  if s.stmt = .memset then fun _ => 0 else s.uart.rxBuffer

/-- The bytes of the frame are the last ones that arrived, and no others were dropped among them;
the cells behind them are clear. -/
structure Capture.Held (s : Capture) : Prop where
  filling : s.uart.frameReady = false → firstCells s.contents s.uart.rxLen <:+ s.arrived
  whole : s.uart.frameReady = true → firstCells s.contents 13 <:+: s.arrived
  clear : ∀ i, s.uart.rxLen ≤ i → i < 60 → s.contents i = 0

/-- The 13 cells are consecutive bytes of the stream, and the cells behind them are clear. -/
def Capture.Intact (s : Capture) : Prop :=
  firstCells s.uart.rxBuffer 13 <:+: s.arrived ∧ Framed s.uart.rxBuffer

/-- Between the statement that sets the length to 0 and the release nothing is claimed. -/
def Capture.Sound (s : Capture) : Prop := s.Inv ∧ (s.stmt ≠ .frameReadyZero → s.Held)

theorem held_byte {s : Capture} (b : UInt8) (hinv : s.Inv) (h : s.Held)
    (hok : NoByteLost s (.byte b)) : (captureStep s (.byte b)).Held := by
  cases hready : s.uart.frameReady
  · have hcontents : (captureStep s (.byte b)).contents =
        Function.update s.contents s.uart.rxLen b := by
      by_cases hstmt : s.stmt = .memset
      · -- a 0 that is stored is there after the clearing, too
        have hzero : b = 0 := hok hstmt hready
        have hclear : s.contents = fun _ => 0 := if_pos hstmt
        have hafter : (captureStep s (.byte b)).contents = fun _ => 0 := if_pos hstmt
        rw [hafter, hclear, hzero]
        exact (Function.update_eq_self s.uart.rxLen fun _ => (0 : UInt8)).symm
      · simp [captureStep, Capture.contents, hstmt, usart2IrqHandler, hready]
    have hlen : (captureStep s (.byte b)).uart.rxLen = s.uart.rxLen + 1 := by
      simp [captureStep, usart2IrqHandler, hready]
    have hlt := hinv.filling hready
    have hsuffix : firstCells (captureStep s (.byte b)).contents (s.uart.rxLen + 1) <:+
        s.arrived ++ [b] := by
      obtain ⟨older, holder⟩ := h.filling hready
      rw [hcontents, firstCells_update, ← holder]
      exact ⟨older, (List.append_assoc older _ [b]).symm⟩
    refine ⟨fun _ => hlen.symm ▸ hsuffix, ?_, ?_⟩
    · intro hwhole
      have hge : 13 ≤ s.uart.rxLen + 1 := by
        simpa [captureStep, usart2IrqHandler, hready] using hwhole
      rw [show s.uart.rxLen + 1 = 13 by omega] at hsuffix
      exact hsuffix.isInfix
    · intro i hi hlast
      rw [hlen] at hi
      rw [hcontents, Function.update_of_ne (by omega)]
      exact h.clear i (by omega) hlast
  · -- the byte is dropped
    have hsame : captureStep s (.byte b) = { s with arrived := s.arrived ++ [b] } := by
      simp [captureStep, usart2IrqHandler, hready]
    rw [hsame]
    refine ⟨fun hr => Bool.noConfusion (hready.symm.trans hr), ?_, h.clear⟩
    intro hr
    exact (h.whole hr).trans (List.prefix_append _ _).isInfix

theorem Capture.Held.of_eq {s t : Capture} (h : s.Held) (huart : t.uart = s.uart)
    (hcontents : t.contents = s.contents) (harrived : t.arrived = s.arrived) : t.Held := by
  constructor
  · rw [huart, hcontents, harrived]
    exact h.filling
  · rw [huart, hcontents, harrived]
    exact h.whole
  · rw [huart, hcontents]
    exact h.clear

theorem held_main {s : Capture} (hinv : s.Inv) (h : s.stmt ≠ .frameReadyZero → s.Held)
    (hstmt : (captureStep s .main).stmt ≠ .frameReadyZero) : (captureStep s .main).Held := by
  obtain ⟨u, stmt, arrived⟩ := s
  cases stmt with
  | test =>
    have hheld := h (by simp)
    cases hready : u.frameReady
    · refine hheld.of_eq rfl ?_ rfl
      simp [Capture.contents, captureStep, TofStmt.exec, hready]
    · refine hheld.of_eq rfl ?_ rfl
      simp [Capture.contents, captureStep, TofStmt.exec, hready]
  | scan => exact (h (by simp)).of_eq rfl rfl rfl
  | rxLenZero => exact absurd rfl hstmt
  | frameReadyZero =>
    -- the buffer is released: nothing has been stored yet
    have hzero : u.rxLen = 0 := hinv.zero rfl
    have hstep : captureStep ⟨u, .frameReadyZero, arrived⟩ .main =
        ⟨{ u with frameReady := false }, .memset, arrived⟩ := rfl
    rw [hstep]
    refine ⟨?_, fun hr => Bool.noConfusion hr, fun _ _ _ => rfl⟩
    intro _
    show firstCells _ u.rxLen <:+ arrived
    rw [hzero]
    exact List.nil_suffix
  | memset =>
    have hheld := h (by simp)
    have hcells : ∀ n ≤ 13, firstCells (fun i => if i < 60 then 0 else u.rxBuffer i) n =
        firstCells (fun _ => 0) n := by
      intro n hn
      exact firstCells_congr fun i hi => if_pos (by omega)
    constructor
    · intro hr
      show firstCells (fun i => if i < 60 then 0 else u.rxBuffer i) u.rxLen <:+ arrived
      rw [hcells u.rxLen (Nat.le_of_lt (hinv.filling hr))]
      exact hheld.filling hr
    · intro hr
      show firstCells (fun i => if i < 60 then 0 else u.rxBuffer i) 13 <:+: arrived
      rw [hcells 13 (Nat.le_refl 13)]
      exact hheld.whole hr
    · intro i _ hlast
      exact if_pos hlast

theorem sound_captureStep (s : Capture) (a : CaptureAct) (h : s.Sound) (hok : NoByteLost s a) :
    (captureStep s a).Sound := by
  refine ⟨inv_captureStep s a h.1, ?_⟩
  intro hstmt
  cases a with
  | byte b => exact held_byte b h.1 (h.2 hstmt) hok
  | main => exact held_main h.1 h.2 hstmt

theorem sound_captureBoot : Capture.boot.Sound :=
  ⟨inv_captureBoot, fun _ => ⟨fun _ => List.nil_suffix, fun hr => Bool.noConfusion hr,
    fun _ _ _ => rfl⟩⟩

theorem Capture.Sound.intact {s : Capture} (h : s.Sound) (hscan : s.stmt = .scan) : s.Intact := by
  have hready : s.uart.frameReady = true := h.1.held (Or.inl hscan)
  have hlen : s.uart.rxLen = 13 := h.1.whole hready (by simp [hscan])
  have hheld : s.Held := h.2 (by simp [hscan])
  have hcontents : s.contents = s.uart.rxBuffer := if_neg (by simp [hscan])
  refine ⟨hcontents ▸ hheld.whole hready, ?_⟩
  intro i hlo hhi
  rw [← hcontents]
  exact hheld.clear i (hlen.symm ▸ hlo) hhi

/-! ## Runs -/

/-- The length stays within the frame in every run. In a run in which no byte is lost between the
release and the clearing, every frame that is scanned is 13 consecutive bytes of the stream. With no
byte in between, the statements are `new_tof`. -/
theorem frames_intact (K : Type) [Field K] (as : List CaptureAct) :
    (∀ pre, pre <+: as → (Runs.exec captureStep Capture.boot pre).uart.rxLen ≤ 13) ∧
      (Runs.Along NoByteLost captureStep Capture.boot as →
        ∀ pre, pre <+: as → (Runs.exec captureStep Capture.boot pre).stmt = .scan →
          (Runs.exec captureStep Capture.boot pre).Intact) ∧
      ∀ s : Capture, s.stmt = .test → s.uart.frameReady = true →
        Runs.exec captureStep s [.main, .main, .main, .main, .main] =
          { s with uart := (newTof (K := K) s.uart).2 } := by
  refine ⟨?_, ?_, fun s hstmt hready => exec_newTof K hstmt hready⟩
  · intro pre _
    exact (Runs.exec_inv inv_captureStep pre inv_captureBoot).rxLen_le
  · intro hok pre hpre hscan
    obtain ⟨rest, rfl⟩ := hpre
    have hsound : (Runs.exec captureStep Capture.boot pre).Sound :=
      Runs.exec_inv_along sound_captureStep sound_captureBoot (Runs.along_append.1 hok).1
    exact hsound.intact hscan

/-- The first `n` bytes of a stream of packets. -/
def packetBytes (n : Nat) : List CaptureAct :=
  (List.range n).map fun i => .byte ([0x01, 0x03, 0x02, 0x01, 0xF4, 0xB8, 0x53].getD (i % 7) 0)

theorem frames_intact_once :
    (Runs.exec captureStep Capture.boot (packetBytes 13 ++ [.main])).Intact :=
  (frames_intact ℚ (packetBytes 13 ++ [.main])).2.1 (by decide) _ (List.prefix_refl _) (by decide)

/-- A first frame is scanned; the first byte of the next arrives between the release of the
buffer and its clearing. -/
def byteBeforeClear : List CaptureAct :=
  packetBytes 13 ++ [.main, .main, .main, .main, .byte 0x53, .main] ++ packetBytes 12 ++ [.main]

/-- It is scanned as 0. -/
theorem not_intact_byteBeforeClear :
    (Runs.exec captureStep Capture.boot byteBeforeClear).stmt = .scan ∧
      ¬ (Runs.exec captureStep Capture.boot byteBeforeClear).Intact := by
  refine ⟨by decide, ?_⟩
  rintro ⟨hin, -⟩
  exact absurd hin (by decide)

end RoboticArm
