import RoboticArm.OneSlot
import RoboticArm.Runs

/- The two key slots between the interrupts and the main loop.

   `lcd_cmd` is stored by `USART3_IRQHandler`, `ir_command` by `IR_EXTI_Callback`;
   the main loop takes keys out of both. `Mail` is the main loop at one of its
   statements (`Pc`), with the two slots; a step is one statement of the main loop or
   a store, so a run is any interleaving. The handlers and the rest of the loop touch
   neither slot: a step there goes on (`again`) or leaves.

   `LCD_ReceiveTask` tests, copies and clears in three statements; `ir_command` is
   read by the `switch` and cleared after the whole of it. A key stored in between is
   erased unseen.

   What is proved:
     1. `mail_lossless`: the slots lose no key in a run in which no store falls between
        the read of its slot and the clear.
     2. `mail_lossless_iff`: and in a run that has come back to the head of the loop
        they lose none only then.

   Correspondence (C ↔ Lean):
     `switch (lcd_cmd)` .. `lcd_cmd = 0x00`    ↔ `Pc.prompt`, `.test`, `.copy`, `.clearLcd`
     `switch (cmd)` and its handlers           ↔ `Pc.switchLcd`, `.lcdBody`
     `switch (ir_command)` and its handlers    ↔ `Pc.switchIr`, `.irBody`
     `ir_command = 0`                          ↔ `Pc.clearIr` -/
namespace RoboticArm

/-- The statement the main loop is about to run. -/
inductive Pc where
  | prompt
  | test
  | copy
  | clearLcd
  | switchLcd
  | lcdBody
  | switchIr
  | irBody
  | clearIr
  | rest
  deriving DecidableEq, Repr

/-- The main loop with `lcd_cmd`, `ir_command` and `return_cmd`, which becomes `cmd`, and
the keys the two switches have dispatched, newest first. -/
structure Mail where
  pc : Pc
  lcdCmd : OneSlot.Cell UInt8
  irCommand : OneSlot.Cell UInt8
  cmd : Option (Nat × UInt8)
  lcdDone : List (Nat × UInt8)
  irDone : List (Nat × UInt8)

def Mail.boot : Mail := ⟨.prompt, OneSlot.Cell.empty, OneSlot.Cell.empty, none, [], []⟩

/-- The byte in the slot. -/
def slotByte (s : OneSlot.Cell UInt8) : UInt8 := s.content.elim 0 Prod.snd

/-- One statement of the main loop. -/
def mainStep (again : Bool) (s : Mail) : Mail :=
  match s.pc with
  | .prompt => { s with pc := .test }
  | .test =>
    if slotByte s.lcdCmd ≠ 0 then { s with pc := .copy } else { s with cmd := none, pc := .switchLcd }
  | .copy =>
    { s with lcdCmd := OneSlot.step s.lcdCmd .read, cmd := s.lcdCmd.content, pc := .clearLcd }
  | .clearLcd => { s with lcdCmd := OneSlot.step s.lcdCmd .clear, pc := .switchLcd }
  | .switchLcd => { s with lcdDone := s.cmd.toList ++ s.lcdDone, cmd := none, pc := .lcdBody }
  | .lcdBody => if again then s else { s with pc := .switchIr }
  | .switchIr =>
    { s with
      irCommand := OneSlot.step s.irCommand .read
      irDone := s.irCommand.content.toList ++ s.irDone
      pc := .irBody }
  | .irBody => if again then s else { s with pc := .clearIr }
  | .clearIr => { s with irCommand := OneSlot.step s.irCommand .clear, pc := .rest }
  | .rest => if again then s else { s with pc := .prompt }

inductive MailAct where
  | main (again : Bool)
  | storeLcd (b : UInt8)
  | storeIr (b : UInt8)
  deriving DecidableEq, Repr

def mailStep (s : Mail) : MailAct → Mail
  | .main again => mainStep again s
  | .storeLcd b => { s with lcdCmd := OneSlot.step s.lcdCmd (.store b) }
  | .storeIr b => { s with irCommand := OneSlot.step s.irCommand (.store b) }

/-! ## The main loop as a reader of each slot -/

/-- What a step is to `lcd_cmd`. -/
def lcdAct (s : Mail) : MailAct → OneSlot.Act UInt8
  | .main _ => if s.pc = .copy then .read else if s.pc = .clearLcd then .clear else .other
  | .storeLcd b => .store b
  | .storeIr _ => .other

/-- What a step is to `ir_command`. -/
def irAct (s : Mail) : MailAct → OneSlot.Act UInt8
  | .main _ => if s.pc = .switchIr then .read else if s.pc = .clearIr then .clear else .other
  | .storeLcd _ => .other
  | .storeIr b => .store b

theorem mailStep_lcdCmd (s : Mail) (a : MailAct) :
    (mailStep s a).lcdCmd = OneSlot.step s.lcdCmd (lcdAct s a) := by
  cases a with
  | storeLcd b => rfl
  | storeIr b => rfl
  | main again =>
    obtain ⟨pc, lcd, ir, cmd, lcdDone, irDone⟩ := s
    cases pc <;> simp only [mailStep, mainStep, lcdAct] <;> first | rfl | (split <;> rfl)

theorem mailStep_irCommand (s : Mail) (a : MailAct) :
    (mailStep s a).irCommand = OneSlot.step s.irCommand (irAct s a) := by
  cases a with
  | storeLcd b => rfl
  | storeIr b => rfl
  | main again =>
    obtain ⟨pc, lcd, ir, cmd, lcdDone, irDone⟩ := s
    cases pc <;> simp only [mailStep, mainStep, irAct] <;> first | rfl | (split <;> rfl)

/-- Where the main loop is decides whether it has read a slot and not cleared it yet. -/
structure Placed (s : Mail) : Prop where
  lcd : s.lcdCmd.reading = decide (s.pc = .clearLcd)
  ir : s.irCommand.reading = decide (s.pc = .irBody ∨ s.pc = .clearIr)

theorem placed_boot : Placed Mail.boot where
  lcd := rfl
  ir := rfl

theorem placed_step (s : Mail) (a : MailAct) (h : Placed s) : Placed (mailStep s a) := by
  obtain ⟨hlcd, hir⟩ := h
  cases a with
  | storeLcd b => exact ⟨hlcd, hir⟩
  | storeIr b => exact ⟨hlcd, hir⟩
  | main again =>
    obtain ⟨pc, lcd, ir, cmd, lcdDone, irDone⟩ := s
    cases pc with
    | test =>
      simp only [mailStep, mainStep]
      split
      · exact ⟨hlcd, hir⟩
      · exact ⟨hlcd, hir⟩
    | lcdBody => cases again <;> exact ⟨hlcd, hir⟩
    | irBody => cases again <;> exact ⟨hlcd, hir⟩
    | rest => cases again <;> exact ⟨hlcd, hir⟩
    | prompt => exact ⟨hlcd, hir⟩
    | copy => exact ⟨rfl, hir⟩
    | clearLcd => exact ⟨rfl, hir⟩
    | switchLcd => exact ⟨hlcd, hir⟩
    | switchIr => exact ⟨hlcd, rfl⟩
    | clearIr => exact ⟨hlcd, rfl⟩

theorem disciplined_lcd {s : Mail} (h : Placed s) (a : MailAct) :
    OneSlot.Disciplined s.lcdCmd (lcdAct s a) := by
  cases a with
  | storeLcd b => trivial
  | storeIr b => trivial
  | main again =>
    have hreading := h.lcd
    simp only [lcdAct]
    split
    · next hcopy =>
      rw [hcopy] at hreading
      exact hreading
    · split
      · next hclear =>
        rw [hclear] at hreading
        exact hreading
      · trivial

theorem disciplined_ir {s : Mail} (h : Placed s) (a : MailAct) :
    OneSlot.Disciplined s.irCommand (irAct s a) := by
  cases a with
  | storeLcd b => trivial
  | storeIr b => trivial
  | main again =>
    have hreading := h.ir
    simp only [irAct]
    split
    · next hswitch =>
      rw [hswitch] at hreading
      exact hreading
    · split
      · next hclear =>
        rw [hclear] at hreading
        exact hreading
      · trivial

/-! ## Runs -/

/-- No store falls between the read of its slot and the clear. -/
def Undisturbed (s : Mail) : MailAct → Prop
  | .main _ => True
  | .storeLcd _ => s.pc ≠ .clearLcd
  | .storeIr _ => s.pc ≠ .irBody ∧ s.pc ≠ .clearIr

instance decidableUndisturbed (s : Mail) : ∀ a, Decidable (Undisturbed s a)
  | .main _ => .isTrue trivial
  | .storeLcd _ => inferInstanceAs (Decidable (_ ≠ _))
  | .storeIr _ => inferInstanceAs (Decidable (_ ∧ _))

theorem undisturbed_iff {s : Mail} (h : Placed s) (a : MailAct) :
    Undisturbed s a ↔
      OneSlot.Clean s.lcdCmd (lcdAct s a) ∧ OneSlot.Clean s.irCommand (irAct s a) := by
  cases a with
  | main again =>
    simp only [Undisturbed, lcdAct, irAct]
    split_ifs <;> exact ⟨fun _ => ⟨trivial, trivial⟩, fun _ => trivial⟩
  | storeLcd b =>
    simp only [Undisturbed, lcdAct, irAct, OneSlot.Clean, h.lcd, and_true, decide_eq_false_iff_not,
      ne_eq]
  | storeIr b =>
    simp only [Undisturbed, lcdAct, irAct, OneSlot.Clean, h.ir, true_and, decide_eq_false_iff_not,
      not_or, ne_eq]

/-- No key is lost in either slot. -/
structure Mail.Lossless (s : Mail) : Prop where
  lcd : OneSlot.NoLoss s.lcdCmd
  ir : OneSlot.NoLoss s.irCommand

/-- What every run keeps. -/
structure Mail.Sound (s : Mail) : Prop where
  placed : Placed s
  lcd : OneSlot.Numbered s.lcdCmd
  ir : OneSlot.Numbered s.irCommand

theorem sound_boot : Mail.boot.Sound where
  placed := placed_boot
  lcd := OneSlot.numbered_empty
  ir := OneSlot.numbered_empty

theorem sound_step (s : Mail) (a : MailAct) (h : s.Sound) : (mailStep s a).Sound where
  placed := placed_step s a h.placed
  lcd := by
    rw [mailStep_lcdCmd]
    exact OneSlot.numbered_step h.lcd _
  ir := by
    rw [mailStep_irCommand]
    exact OneSlot.numbered_step h.ir _

theorem sound_run (as : List MailAct) : (Runs.exec mailStep Mail.boot as).Sound :=
  Runs.exec_inv sound_step as sound_boot

/-- What an undisturbed run keeps. -/
structure Mail.Kept (s : Mail) : Prop where
  placed : Placed s
  lcd : OneSlot.Kept s.lcdCmd
  ir : OneSlot.Kept s.irCommand

theorem kept_boot : Mail.boot.Kept where
  placed := placed_boot
  lcd := OneSlot.kept_empty
  ir := OneSlot.kept_empty

theorem kept_mailStep (s : Mail) (a : MailAct) (h : s.Kept) (hok : Undisturbed s a) :
    (mailStep s a).Kept := by
  obtain ⟨hlcd, hir⟩ := (undisturbed_iff h.placed a).1 hok
  refine ⟨placed_step s a h.placed, ?_, ?_⟩
  · rw [mailStep_lcdCmd]
    exact OneSlot.kept_step h.lcd (disciplined_lcd h.placed a) hlcd
  · rw [mailStep_irCommand]
    exact OneSlot.kept_step h.ir (disciplined_ir h.placed a) hir

theorem mail_lossless {as : List MailAct} (h : Runs.Along Undisturbed mailStep Mail.boot as) :
    (Runs.exec mailStep Mail.boot as).Lossless := by
  have hkept : (Runs.exec mailStep Mail.boot as).Kept :=
    Runs.exec_inv_along kept_mailStep kept_boot h
  exact ⟨hkept.lcd.noLoss, hkept.ir.noLoss⟩

/-- A store made under the reader of either slot. -/
def Mail.Doomed (s : Mail) : Prop := OneSlot.Doomed s.lcdCmd ∨ OneSlot.Doomed s.irCommand

theorem doomed_mailStep (s : Mail) (a : MailAct) (h : s.Sound ∧ s.Doomed) :
    (mailStep s a).Sound ∧ (mailStep s a).Doomed := by
  obtain ⟨hsound, hdoomed⟩ := h
  refine ⟨sound_step s a hsound, ?_⟩
  rcases hdoomed with hlcd | hir
  · left
    rw [mailStep_lcdCmd]
    exact OneSlot.doomed_step hsound.lcd (disciplined_lcd hsound.placed a) hlcd
  · right
    rw [mailStep_irCommand]
    exact OneSlot.doomed_step hsound.ir (disciplined_ir hsound.placed a) hir

theorem doomed_of_disturbed {s : Mail} (h : s.Sound) {a : MailAct} (hbad : ¬Undisturbed s a) :
    (mailStep s a).Doomed := by
  cases a with
  | main again => exact absurd trivial hbad
  | storeLcd b =>
    left
    have hpc : s.pc = .clearLcd := not_not.1 hbad
    have hreading : s.lcdCmd.reading = true := by rw [h.placed.lcd, hpc]; rfl
    exact OneSlot.doomed_store h.lcd hreading b
  | storeIr b =>
    right
    have hpc : s.pc = .irBody ∨ s.pc = .clearIr := by
      by_contra hout
      exact hbad (not_or.1 hout)
    have hreading : s.irCommand.reading = true := by rw [h.placed.ir, decide_eq_true hpc]
    exact OneSlot.doomed_store h.ir hreading b

theorem Mail.Doomed.not_lossless {s : Mail} (h : s.Doomed) (hplaced : Placed s)
    (hpc : s.pc = .prompt) : ¬s.Lossless := by
  intro hlaw
  rcases h with hlcd | hir
  · exact hlcd.not_noLoss (by rw [hplaced.lcd, hpc]; rfl) hlaw.lcd
  · exact hir.not_noLoss (by rw [hplaced.ir, hpc]; rfl) hlaw.ir

/-- A run that has come back to the head of the loop has lost no key exactly when no
store fell between a read and the clear. -/
theorem mail_lossless_iff {as : List MailAct}
    (hpc : (Runs.exec mailStep Mail.boot as).pc = .prompt) :
    (Runs.exec mailStep Mail.boot as).Lossless ↔
      Runs.Along Undisturbed mailStep Mail.boot as := by
  refine ⟨?_, mail_lossless⟩
  intro hlossless
  apply Runs.along_of_split
  intro pre a post hsplit
  by_contra hbad
  have hsound := sound_run pre
  have hafter := Runs.exec_inv doomed_mailStep post
    ⟨sound_step _ a hsound, doomed_of_disturbed hsound hbad⟩
  rw [← Runs.exec_cons mailStep, ← Runs.exec_append, ← hsplit] at hafter
  obtain ⟨hend, hdoomed⟩ := hafter
  exact hdoomed.not_lossless hend.placed hpc hlossless

/-! ## What is taken is dispatched -/

/-- The two statements that have a key in hand. -/
def Pc.holdsKey : Pc → Bool
  | .clearLcd => true
  | .switchLcd => true
  | _ => false

/-- The keys taken are those the two switches have dispatched, and the LCD key in hand. -/
structure Dispatches (s : Mail) : Prop where
  lcd : s.lcdCmd.taken = (s.cmd.toList ++ s.lcdDone).map Prod.fst
  ir : s.irCommand.taken = s.irDone.map Prod.fst
  hand : s.pc.holdsKey = false → s.cmd = none

theorem dispatches_boot : Dispatches Mail.boot where
  lcd := rfl
  ir := rfl
  hand := fun _ => rfl

theorem taken_read (s : OneSlot.Cell UInt8) :
    (OneSlot.step s .read).taken = s.content.toList.map Prod.fst ++ s.taken := by
  cases hcontent : s.content <;> simp [OneSlot.step, OneSlot.Cell.held, hcontent]

theorem Dispatches.goto {s : Mail} (h : Dispatches s) (hempty : s.cmd = none) (pc : Pc) :
    Dispatches { s with pc := pc } := ⟨h.lcd, h.ir, fun _ => hempty⟩

theorem dispatches_step (s : Mail) (a : MailAct) (h : Dispatches s) : Dispatches (mailStep s a) := by
  cases a with
  | storeLcd b => exact ⟨h.lcd, h.ir, h.hand⟩
  | storeIr b => exact ⟨h.lcd, h.ir, h.hand⟩
  | main again =>
    obtain ⟨pc, lcd, ir, cmd, lcdDone, irDone⟩ := s
    have hlcd : lcd.taken = (cmd.toList ++ lcdDone).map Prod.fst := h.lcd
    have hir : ir.taken = irDone.map Prod.fst := h.ir
    cases pc with
    | prompt => exact h.goto (h.hand rfl) .test
    | test =>
      have hempty : cmd = none := h.hand rfl
      simp only [mailStep, mainStep]
      split
      · exact h.goto hempty .copy
      · rw [hempty] at hlcd
        exact ⟨hlcd, hir, fun _ => rfl⟩
    | copy =>
      have hempty : cmd = none := h.hand rfl
      rw [hempty, Option.toList_none, List.nil_append] at hlcd
      refine ⟨?_, hir, fun hpc => Bool.noConfusion hpc⟩
      simp only [mailStep, mainStep, taken_read, hlcd, List.map_append]
    | clearLcd => exact ⟨hlcd, hir, fun hpc => Bool.noConfusion hpc⟩
    | switchLcd => exact ⟨hlcd, hir, fun _ => rfl⟩
    | lcdBody =>
      cases again with
      | true => exact h
      | false => exact h.goto (h.hand rfl) .switchIr
    | switchIr =>
      refine ⟨hlcd, ?_, fun _ => h.hand rfl⟩
      simp only [mailStep, mainStep, taken_read, hir, List.map_append]
    | irBody =>
      cases again with
      | true => exact h
      | false => exact h.goto (h.hand rfl) .clearIr
    | clearIr => exact ⟨hlcd, hir, fun _ => h.hand rfl⟩
    | rest =>
      cases again with
      | true => exact h
      | false => exact h.goto (h.hand rfl) .prompt

theorem dispatches_run (as : List MailAct) : Dispatches (Runs.exec mailStep Mail.boot as) :=
  Runs.exec_inv dispatches_step as dispatches_boot

/-- No key is lost in any state of a run in which no store falls between the read of its
slot and the clear; back at the head of the loop none is lost only then, and what was
taken is what the switches dispatched. -/
theorem noKeyLost_iff (as : List MailAct) :
    (Runs.Along Undisturbed mailStep Mail.boot as →
      ∀ pre, pre <+: as → (Runs.exec mailStep Mail.boot pre).Lossless) ∧
    ((Runs.exec mailStep Mail.boot as).pc = .prompt →
      ((Runs.exec mailStep Mail.boot as).Lossless ↔
        Runs.Along Undisturbed mailStep Mail.boot as) ∧
      (Runs.exec mailStep Mail.boot as).lcdCmd.taken =
        (Runs.exec mailStep Mail.boot as).lcdDone.map Prod.fst ∧
      (Runs.exec mailStep Mail.boot as).irCommand.taken =
        (Runs.exec mailStep Mail.boot as).irDone.map Prod.fst) := by
  constructor
  · rintro h pre ⟨post, rfl⟩
    exact mail_lossless (Runs.along_append.1 h).1
  · intro hpc
    have hdispatched := dispatches_run as
    have hempty := hdispatched.hand (by rw [hpc]; rfl)
    have hlcd := hdispatched.lcd
    rw [hempty] at hlcd
    exact ⟨mail_lossless_iff hpc, hlcd, hdispatched.ir⟩

/-- One pass of the loop that takes a key of each slot. -/
def keyOfEach : List MailAct :=
  [.storeLcd 0xf1, .main false, .main false, .storeIr 0x5d, .main false, .main false, .main false,
    .main true, .main false, .main false, .main true, .main false, .main false, .main true, .main false]

theorem noKeyLost_iff_keyOfEach :
    (Runs.exec mailStep Mail.boot keyOfEach).Lossless ∧
      (Runs.exec mailStep Mail.boot keyOfEach).lcdCmd.taken.length = 1 ∧
      (Runs.exec mailStep Mail.boot keyOfEach).irCommand.taken.length = 1 ∧
      (Runs.exec mailStep Mail.boot keyOfEach).lcdDone = [(0, 0xf1)] ∧
      (Runs.exec mailStep Mail.boot keyOfEach).irDone = [(0, 0x5d)] := by
  have hback := (noKeyLost_iff keyOfEach).2 (by decide)
  refine ⟨hback.1.2 (by decide), ?_, ?_, by decide, by decide⟩
  · rw [hback.2.1]
    decide
  · rw [hback.2.2]
    decide

/-- The Z-up key of the remote arrives while the start key is being handled. -/
def keyInHandler : List MailAct :=
  [.storeIr 0x45, .main false, .main false, .main false, .main false, .main false, .main true,
    .storeIr 0x47, .main false, .main false]

/-- It is erased, and was never dispatched. -/
theorem not_lossless_keyInHandler : ¬(Runs.exec mailStep Mail.boot keyInHandler).Lossless := by
  intro h
  have hmem := h.ir.erased 1 (by decide)
  exact absurd hmem (by decide)

end RoboticArm
