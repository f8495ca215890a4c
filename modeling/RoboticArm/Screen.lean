import RoboticArm.Decimal
import RoboticArm.Runs

/- The display: what `LCD_SendTask` sends over USART3, and what the display makes of it.

   For each of the twelve numbers `n0` .. `n11` the task prints an assignment such as
   `page0.n3.val=42`, puts three bytes 0xFF behind it and hands both to `UART_SendBytes`,
   which writes a byte whenever the data register is empty and waits at the end until the
   last one is on the line. The numbers are `uint32_t` and printed with `%d`, so the display
   gets them as signed ones. `Port` is the transmitter with the task: data register, shift
   register and line, moved by the hardware at any time.

   What is proved:
     1. `length_dataFrame_le`: no assignment is cut off by `snprintf`, and each fits into
        `send_buffer` with its end;
     2. `display_follows`: over every interleaving of the task with the transmitter, the
        display has at any time carried out the assignments of some first channels, with
        their values, and all twelve once the task has returned.

   Correspondence (C ↔ Lean):
     `snprintf(data_frame, ...)`, `send_buffer` ↔ `dataFrame`, `sendBuffer`
     the loop of `LCD_SendTask`                 ↔ `Port.task`
     `UART_SendBytes`                           ↔ `Port.sendBytes`
     `USART_FLAG_TXE`, `USART_FLAG_TC`          ↔ `Port.txe`, `Port.tc` -/
namespace RoboticArm

open Decimal

def ascii (text : List Char) : List UInt8 := text.map fun c => UInt8.ofNat c.toNat

/-! ## The task -/

/-- What `"page0.n%d.val=%d"` prints. -/
def assignment (i : Nat) (value : UInt32) : List UInt8 :=
  ascii ['p', 'a', 'g', 'e', '0', '.', 'n'] ++ printInt i ++ ascii ['.', 'v', 'a', 'l', '='] ++
    printInt value.toInt32.toInt

/-- `data_frame`, up to its end: `snprintf` writes at most 31 characters. -/
def dataFrame (i : Nat) (value : UInt32) : List UInt8 := (assignment i value).take 31

/-- `send_buffer` with its `len + 3` bytes. -/
def sendBuffer (i : Nat) (value : UInt32) : List UInt8 := dataFrame i value ++ [0xFF, 0xFF, 0xFF]

/-- USART3 with its two registers, the bytes it has sent, the rest of the call of
`UART_SendBytes` and the channels whose call is still to come. -/
structure Port where
  dataRegister : Option UInt8
  shiftRegister : Option UInt8
  line : List UInt8
  pData : List UInt8
  channels : List Nat

inductive PortAct where
  | cpu
  | load
  | shifted
  deriving DecidableEq, Repr

namespace Port

/-- The data register is empty. -/
def txe (s : Port) : Bool := s.dataRegister.isNone

/-- The last byte is on the line. -/
def tc (s : Port) : Bool := s.dataRegister.isNone && s.shiftRegister.isNone

/-- One poll of a flag in `UART_SendBytes`, with what follows when it is set. -/
def sendBytes (s : Port) : Port :=
  match s.pData with
  | b :: rest => if s.txe then { s with dataRegister := some b, pData := rest } else s
  | [] => s

/-- The processor: the call of `UART_SendBytes`, and behind it the next round of the loop. -/
def task (n : Nat → UInt32) (s : Port) : Port :=
  -- the call returns when the last byte has left, and the loop goes on
  match s.pData, s.channels with
  | [], i :: rest => if s.tc then { s with pData := sendBuffer i (n i), channels := rest } else s
  | _, _ => s.sendBytes

/-- `LCD_SendTask` is called. -/
def boot : Port := ⟨none, none, [], [], List.range 12⟩

/-- The last call has returned. -/
def Returned (s : Port) : Prop := s.channels = [] ∧ s.pData = [] ∧ s.tc = true

end Port

/-- The processor polls, the data register moves to the shift register, or the shift register
has sent its byte. -/
def portStep (n : Nat → UInt32) (s : Port) : PortAct → Port
  | .cpu => s.task n
  | .load =>
    if s.shiftRegister.isNone then { s with dataRegister := none, shiftRegister := s.dataRegister }
    else s
  | .shifted => { s with shiftRegister := none, line := s.line ++ s.shiftRegister.toList }

/-! ## The display -/

/-- The text of the command that is being received, the end bytes behind it, and the commands
that are complete. -/
structure Display where
  text : List UInt8
  ends : Nat
  commands : List (List UInt8)

def Display.boot : Display := ⟨[], 0, []⟩

/-- Three bytes 0xFF end a command. -/
def displayStep (s : Display) (b : UInt8) : Display :=
  if b = 0xFF then
    if s.ends = 2 then ⟨[], 0, s.commands ++ [s.text]⟩ else { s with ends := s.ends + 1 }
  else { s with text := s.text ++ [b], ends := 0 }

/-- The text behind `head`, if it begins so. -/
def strip (head text : List UInt8) : Option (List UInt8) :=
  if head <+: text then some (text.drop head.length) else none

/-- The channel and the value of an assignment. -/
def readAssignment (text : List UInt8) : Option (Nat × Int) := do
  let text ← strip (ascii ['p', 'a', 'g', 'e', '0', '.', 'n']) text
  let (i, text) := read 0 text
  let text ← strip (ascii ['.', 'v', 'a', 'l', '=']) text
  let (value, text) := readInt text
  if text = [] then some (i, value) else none

/-- The assignments the display has carried out. -/
def Display.assigned (s : Display) : List (Option (Nat × Int)) := s.commands.map readAssignment

/-! ## One assignment -/

section
variable {i : Nat} (value : UInt32)

theorem natAbs_toInt32_lt : value.toInt32.toInt.natAbs < 10 ^ 10 := by
  have hlo : -2147483648 ≤ value.toInt32.toInt := Int32.le_toInt _
  have hhi : value.toInt32.toInt < 2147483648 := Int32.toInt_lt _
  omega

theorem length_assignment_le (hi : i < 12) : (assignment i value).length ≤ 26 := by
  have hchannel : (printInt i).length ≤ 2 + 1 := length_printInt_le (by decide) (by omega)
  have hvalue : (printInt value.toInt32.toInt).length ≤ 10 + 1 :=
    length_printInt_le (by decide) (natAbs_toInt32_lt value)
  have hhead : (ascii ['p', 'a', 'g', 'e', '0', '.', 'n']).length = 7 := rfl
  have hmiddle : (ascii ['.', 'v', 'a', 'l', '=']).length = 5 := rfl
  rw [assignment, List.length_append, List.length_append, List.length_append, hhead, hmiddle]
  omega

theorem dataFrame_eq (hi : i < 12) : dataFrame i value = assignment i value :=
  List.take_of_length_le (Nat.le_trans (length_assignment_le value hi) (by decide))

/-- An assignment fits into `data_frame` with its end, and into `send_buffer` with three bytes
more. -/
theorem length_dataFrame_le (hi : i < 12) :
    (assignment i value).length + 1 ≤ 32 ∧ (sendBuffer i value).length ≤ 40 := by
  have hlength := length_assignment_le value hi
  refine ⟨by omega, ?_⟩
  rw [sendBuffer, dataFrame_eq value hi, List.length_append]
  show _ + 3 ≤ 40
  omega

theorem mem_assignment_lt {b : UInt8} (hb : b ∈ assignment i value) : b < 0x80 := by
  have hhead : (ascii ['p', 'a', 'g', 'e', '0', '.', 'n']).all (· < 0x80) = true := by decide
  have hmiddle : (ascii ['.', 'v', 'a', 'l', '=']).all (· < 0x80) = true := by decide
  simp only [assignment, List.mem_append, or_assoc] at hb
  rcases hb with hb | hb | hb | hb
  · exact of_decide_eq_true (List.all_eq_true.1 hhead b hb)
  · exact lt_of_mem_printInt hb
  · exact of_decide_eq_true (List.all_eq_true.1 hmiddle b hb)
  · exact lt_of_mem_printInt hb

theorem ne_end_of_mem (hi : i < 12) {b : UInt8} (hb : b ∈ dataFrame i value) : b ≠ 0xFF := by
  rw [dataFrame_eq value hi] at hb
  rintro rfl
  exact absurd (mem_assignment_lt value hb) (by decide)

theorem strip_append (head text : List UInt8) : strip head (head ++ text) = some text := by
  rw [strip, if_pos (List.prefix_append head text), List.drop_left]

theorem readAssignment_dataFrame (hi : i < 12) :
    readAssignment (dataFrame i value) = some (i, value.toInt32.toInt) := by
  have hmiddle : Ends (ascii ['.', 'v', 'a', 'l', '='] ++ printInt value.toInt32.toInt) := by
    intro b hb
    cases hb
    rfl
  have hend : Ends [] := fun b hb => nomatch hb
  have hvalue := readInt_printInt value.toInt32.toInt hend
  rw [List.append_nil] at hvalue
  rw [dataFrame_eq value hi, assignment, List.append_assoc, List.append_assoc, readAssignment,
    strip_append, printInt_natCast, Option.bind_eq_bind, Option.bind_some, read_print i hmiddle]
  dsimp only
  rw [strip_append, Option.bind_some, hvalue]
  exact if_pos rfl

end

/-! ## What the display has carried out -/

section
variable {s : Display} {text : List UInt8}

theorem exec_display_text (htext : ∀ b ∈ text, b ≠ 0xFF) (hends : s.ends = 0) :
    Runs.exec displayStep s text = { s with text := s.text ++ text } := by
  induction text generalizing s with
  | nil =>
    rw [List.append_nil]
    rfl
  | cons b text ih =>
    have hb : displayStep s b = { s with text := s.text ++ [b], ends := 0 } :=
      if_neg (htext b List.mem_cons_self)
    rw [Runs.exec_cons, hb, ih (fun c hc => htext c (List.mem_cons_of_mem b hc)) rfl, hends]
    dsimp only
    rw [List.append_assoc, List.singleton_append]

theorem exec_display_command (htext : ∀ b ∈ text, b ≠ 0xFF) (c : List (List UInt8)) :
    Runs.exec displayStep ⟨[], 0, c⟩ (text ++ [0xFF, 0xFF, 0xFF]) = ⟨[], 0, c ++ [text]⟩ := by
  rw [Runs.exec_append, exec_display_text htext rfl, List.nil_append]
  rfl

theorem commands_of_part (htext : ∀ b ∈ text, b ≠ 0xFF) (c : List (List UInt8)) {part : List UInt8}
    (hpart : part <+: text ++ [0xFF, 0xFF, 0xFF]) (hshort : part.length < text.length + 3) :
    (Runs.exec displayStep ⟨[], 0, c⟩ part).commands = c := by
  rcases Nat.lt_or_ge part.length text.length with hlt | hge
  · have hin : part <+: text := List.prefix_of_prefix_length_le hpart (List.prefix_append _ _) hlt.le
    rw [exec_display_text (fun b hb => htext b (hin.subset hb)) rfl]
  · obtain ⟨ends, rfl⟩ : text <+: part :=
      List.prefix_of_prefix_length_le (List.prefix_append _ _) hpart hge
    have hends : ends <+: [0xFF, 0xFF, 0xFF] := (List.prefix_append_right_inj text).1 hpart
    have hfew : ends.length < 3 := by
      rw [List.length_append] at hshort
      omega
    rw [Runs.exec_append, exec_display_text htext rfl]
    match ends, hends, hfew with
    | [], _, _ => rfl
    | [b], h, _ =>
      obtain ⟨rfl, -⟩ := List.cons_prefix_cons.1 h
      rfl
    | [b, d], h, _ =>
      obtain ⟨rfl, hrest⟩ := List.cons_prefix_cons.1 h
      obtain ⟨rfl, -⟩ := List.cons_prefix_cons.1 hrest
      rfl

/-- Of a stream of commands, any part that has arrived carries out the first ones. -/
theorem commands_of_prefix {texts : List (List UInt8)} (htexts : ∀ t ∈ texts, ∀ b ∈ t, b ≠ 0xFF)
    (c : List (List UInt8)) {part : List UInt8}
    (hpart : part <+: texts.flatMap fun t => t ++ [0xFF, 0xFF, 0xFF]) :
    ∃ k, (Runs.exec displayStep ⟨[], 0, c⟩ part).commands = c ++ texts.take k ∧ k ≤ texts.length ∧
      ((part = texts.flatMap fun t => t ++ [0xFF, 0xFF, 0xFF]) → k = texts.length) := by
  induction texts generalizing c part with
  | nil =>
    rw [List.flatMap_nil, List.prefix_nil] at hpart
    rw [hpart]
    exact ⟨0, (List.append_nil c).symm, Nat.le_refl 0, fun _ => rfl⟩
  | cons t texts ih =>
    have htext := htexts t List.mem_cons_self
    rw [List.flatMap_cons] at hpart ⊢
    -- the first command has not arrived whole, or the rest is a part of the others
    rcases Nat.lt_or_ge part.length (t.length + 3) with hshort | hlong
    · refine ⟨0, ?_, Nat.zero_le _, ?_⟩
      · have hin : part <+: t ++ [0xFF, 0xFF, 0xFF] := by
          apply List.prefix_of_prefix_length_le hpart (List.prefix_append _ _)
          rw [List.length_append]
          exact hshort.le
        rw [commands_of_part htext c hin hshort, List.take_zero, List.append_nil]
      · intro hall
        rw [hall, List.length_append, List.length_append] at hshort
        exact absurd hshort (by simp)
    · obtain ⟨rest, rfl⟩ : t ++ [0xFF, 0xFF, 0xFF] <+: part := by
        apply List.prefix_of_prefix_length_le (List.prefix_append _ _) hpart
        rw [List.length_append]
        exact hlong
      have hrest := (List.prefix_append_right_inj _).1 hpart
      obtain ⟨k, hk, hle, hall⟩ :=
        ih (fun u hu => htexts u (List.mem_cons_of_mem t hu)) (c ++ [t]) hrest
      refine ⟨k + 1, ?_, Nat.succ_le_succ hle, ?_⟩
      · rw [Runs.exec_append, exec_display_command htext, hk, List.append_assoc]
        rfl
      · intro heq
        rw [hall (List.append_cancel_left heq), List.length_cons]

end

/-! ## What is on the line -/

/-- The bytes of all twelve assignments. -/
def stream (n : Nat → UInt32) : List UInt8 := (List.range 12).flatMap fun i => sendBuffer i (n i)

/-- What the port has sent, holds, and is still to be given. -/
def Port.all (n : Nat → UInt32) (s : Port) : List UInt8 :=
  s.line ++ (s.shiftRegister.toList ++ (s.dataRegister.toList ++
    (s.pData ++ s.channels.flatMap fun i => sendBuffer i (n i))))

section
variable {n : Nat → UInt32} {s : Port}

theorem all_sendBytes : s.sendBytes.all n = s.all n := by
  obtain ⟨dataRegister, shiftRegister, line, pData, channels⟩ := s
  cases pData with
  | nil => rfl
  | cons b rest =>
    cases dataRegister with
    | none => rfl
    | some c => rfl

theorem all_task : (s.task n).all n = s.all n := by
  obtain ⟨dataRegister, shiftRegister, line, pData, channels⟩ := s
  cases pData with
  | cons b rest => exact all_sendBytes
  | nil =>
    cases channels with
    | nil => exact all_sendBytes
    | cons i rest =>
      simp only [Port.task]
      split
      · rfl
      · rfl

/-- No byte is lost, doubled or overtaken, whatever moves when. -/
theorem all_step (a : PortAct) : (portStep n s a).all n = s.all n := by
  cases a with
  | cpu => exact all_task
  | load =>
    obtain ⟨dataRegister, shiftRegister, line, pData, channels⟩ := s
    cases shiftRegister with
    | none => rfl
    | some b => rfl
  | shifted =>
    simp only [portStep, Port.all, Option.toList_none, List.nil_append, List.append_assoc]

theorem all_run (as : List PortAct) : (Runs.exec (portStep n) Port.boot as).all n = stream n :=
  Runs.exec_inv (P := fun s => Port.all n s = stream n) (fun _ a h => (all_step a).trans h) as rfl

end

/-- At any time the display has carried out the assignments of the first channels, each with its
number as a signed one, and once the task has returned it has carried out all twelve. No assignment
is longer than the buffers. -/
theorem display_follows (n : Nat → UInt32) (as : List PortAct) :
    let s := Runs.exec (portStep n) Port.boot as
    (∃ k ≤ 12, (Runs.exec displayStep Display.boot s.line).assigned =
        (List.range k).map (fun i => some (i, (n i).toInt32.toInt)) ∧
      (s.Returned → k = 12)) ∧
    ∀ i < 12, (assignment i (n i)).length + 1 ≤ 32 ∧ (sendBuffer i (n i)).length ≤ 40 := by
  intro s
  refine ⟨?_, fun i hi => length_dataFrame_le (n i) hi⟩
  let texts : List (List UInt8) := (List.range 12).map fun i => dataFrame i (n i)
  have hlength : texts.length = 12 := by
    rw [List.length_map, List.length_range]
  have htexts : ∀ t ∈ texts, ∀ b ∈ t, b ≠ 0xFF := by
    intro t ht
    obtain ⟨i, hi, rfl⟩ := List.mem_map.1 ht
    exact fun b hb => ne_end_of_mem (n i) (List.mem_range.1 hi) hb
  have hstream : stream n = texts.flatMap fun t => t ++ [0xFF, 0xFF, 0xFF] := by
    rw [List.flatMap_map]
    rfl
  have hall : s.all n = stream n := all_run as
  have hpart : s.line <+: texts.flatMap fun t => t ++ [0xFF, 0xFF, 0xFF] := by
    rw [← hstream, ← hall]
    exact List.prefix_append _ _
  obtain ⟨k, hk, hle, hwhole⟩ := commands_of_prefix htexts [] hpart
  rw [hlength] at hle hwhole
  refine ⟨k, hle, ?_, ?_⟩
  · have htake : texts.take k = (List.range k).map fun i => dataFrame i (n i) := by
      rw [← List.map_take, List.take_range, Nat.min_eq_left hle]
    show (Runs.exec displayStep ⟨[], 0, []⟩ s.line).commands.map readAssignment = _
    rw [hk, List.nil_append, htake, List.map_map]
    apply List.map_congr_left
    intro i hi
    exact readAssignment_dataFrame (n i) (Nat.lt_of_lt_of_le (List.mem_range.1 hi) hle)
  · rintro ⟨hchannels, hdata, htc⟩
    apply hwhole
    rw [Port.tc, Bool.and_eq_true, Option.isNone_iff_eq_none, Option.isNone_iff_eq_none] at htc
    rw [← hstream, ← hall, Port.all, hchannels, hdata, htc.1, htc.2]
    simp only [Option.toList_none, List.flatMap_nil, List.append_nil]

end RoboticArm
