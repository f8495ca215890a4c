import RoboticArm.Cyclic
import RoboticArm.Runs
import RoboticArm.Uart

/- The ring of `uart_dma.c` is a queue of 1024 bytes.

   `RingBuffer.contents` reads a ring as a window of its array, oldest byte first;
   `Represents` ties it to a `Fifo` and says where the two positions stand. The
   receive position may rest at 1024, one past the end, where the send position
   wraps at once, so the two are only related modulo 1024, and the fill count alone
   tells a full ring from an empty one.

   What is proved:
     1. `represents_push`, `represents_pop`: each operation does to the ring what it
        does to the queue.
     2. `uartQueue_refines`: over any sequence of pushes of any length and of pops
        from a ring that is not empty, the bytes taken out are those the queue gives,
        and every `memcpy` stays inside both arrays. -/
namespace RoboticArm

/-! ## Copies -/

/-- A `memcpy` of `len` bytes, from `data[start]` on to `buffer[pos]` on. -/
structure Copy where
  pos : Nat
  start : Nat
  len : Nat
  deriving DecidableEq, Repr

/-- The calls of `memcpy` in `ring_buffer_push_huge`. -/
def RingBuffer.copies (len : UInt16) (r : RingBuffer) : List Copy :=
  let bufferRemainCount := ringBufferLen - r.remainCount
  let len := if bufferRemainCount < len then bufferRemainCount else len
  let bufferSize := ringBufferLen - r.recvPos
  if len ≤ bufferSize then [⟨r.recvPos.toNat, 0, len.toNat⟩]
  else
    [⟨r.recvPos.toNat, 0, bufferSize.toNat⟩, ⟨0, bufferSize.toNat, (len - bufferSize).toNat⟩]

theorem RingBuffer.pushHuge_buffer (data : Nat → UInt8) (len : UInt16) (r : RingBuffer) :
    (r.pushHuge data len).buffer =
      (r.copies len).foldl (fun b c => memcpy b c.pos data c.start c.len) r.buffer := by
  simp only [RingBuffer.pushHuge, RingBuffer.copies]
  generalize (if ringBufferLen - r.remainCount < len then _ else _ : UInt16) = n
  split
  · rw [List.foldl_cons, List.foldl_nil]
  · rw [List.foldl_cons, List.foldl_cons, List.foldl_nil]

/-- The copy writes inside the ring and reads inside the `len` bytes given. -/
def Copy.InBounds (len : Nat) (c : Copy) : Prop := c.pos + c.len ≤ 1024 ∧ c.start + c.len ≤ len

/-! ## What a ring holds -/

def RingBuffer.contents (r : RingBuffer) : List UInt8 :=
  Cyclic.window 1024 r.buffer r.sendPos.toNat r.remainCount.toNat

/-- The ring holds the queue. -/
structure RingBuffer.Represents (r : RingBuffer) (q : Fifo UInt8 1024) : Prop where
  contents : r.contents = q.items
  sendPos : r.sendPos.toNat < 1024
  recvPos : r.recvPos.toNat ≤ 1024
  positions : r.recvPos.toNat ≡ r.sendPos.toNat + r.remainCount.toNat [MOD 1024]

namespace RingBuffer.Represents

variable {r : RingBuffer} {q : Fifo UInt8 1024}

theorem count (h : r.Represents q) : r.remainCount.toNat = q.items.length := by
  rw [← h.contents, RingBuffer.contents, Cyclic.length_window]

theorem count_le (h : r.Represents q) : r.remainCount.toNat ≤ 1024 := by
  rw [h.count]
  exact q.bounded

end RingBuffer.Represents

theorem represents_boot : RingBuffer.boot.Represents Fifo.empty where
  contents := rfl
  sendPos := by decide
  recvPos := by decide
  positions := rfl

/-! ## A push -/

section
variable {r : RingBuffer} (len : UInt16)

/-- The number of bytes a push takes. -/
def RingBuffer.taken (r : RingBuffer) : Nat := min len.toNat (1024 - r.remainCount.toNat)

/-- The places up to the end of the array, from the receive position on. -/
def RingBuffer.tailRoom (r : RingBuffer) : Nat := 1024 - r.recvPos.toNat

theorem taken_le (r : RingBuffer) : r.taken len ≤ 1024 :=
  le_trans (Nat.min_le_right _ _) (Nat.sub_le _ _)

theorem tailRoom_add (h : r.recvPos.toNat ≤ 1024) : r.recvPos.toNat + r.tailRoom = 1024 :=
  Nat.add_sub_cancel' h

theorem toNat_taken (h : r.remainCount.toNat ≤ 1024) :
    (if ringBufferLen - r.remainCount < len then ringBufferLen - r.remainCount else len).toNat =
      r.taken len := by
  have hroom : (ringBufferLen - r.remainCount).toNat = 1024 - r.remainCount.toNat :=
    UInt16.toNat_sub_of_le _ _ (UInt16.le_iff_toNat_le.2 h)
  rw [RingBuffer.taken]
  split
  · next hfull =>
    have hfull' := UInt16.lt_iff_toNat_lt.1 hfull
    omega
  · next hfits =>
    have hfits' := UInt16.le_iff_toNat_le.1 (UInt16.not_lt.1 hfits)
    omega

theorem toNat_tailRoom (h : r.recvPos.toNat ≤ 1024) :
    (ringBufferLen - r.recvPos).toNat = r.tailRoom :=
  UInt16.toNat_sub_of_le _ _ (UInt16.le_iff_toNat_le.2 h)

/-- One copy where the bytes fit behind the receive position, else a second one to the start. -/
theorem copies_eq (hcount : r.remainCount.toNat ≤ 1024) (hpos : r.recvPos.toNat ≤ 1024) :
    r.copies len =
      if r.taken len ≤ r.tailRoom then [⟨r.recvPos.toNat, 0, r.taken len⟩]
      else [⟨r.recvPos.toNat, 0, r.tailRoom⟩, ⟨0, r.tailRoom, r.taken len - r.tailRoom⟩] := by
  have htaken := toNat_taken len hcount
  have htail := toNat_tailRoom hpos
  simp only [RingBuffer.copies]
  generalize (if ringBufferLen - r.remainCount < len then _ else _ : UInt16) = n at htaken ⊢
  by_cases hfits : n ≤ ringBufferLen - r.recvPos
  · have hfits' := UInt16.le_iff_toNat_le.1 hfits
    rw [if_pos hfits, if_pos (by omega), htaken]
  · have hfits' := UInt16.lt_iff_toNat_lt.1 (UInt16.not_le.1 hfits)
    rw [if_neg hfits, if_neg (by omega), htail,
      UInt16.toNat_sub_of_le _ _ (UInt16.le_iff_toNat_le.2 hfits'.le), htaken, htail]

theorem pushHuge_recvPos (data : Nat → UInt8) (hcount : r.remainCount.toNat ≤ 1024)
    (hpos : r.recvPos.toNat ≤ 1024) :
    (r.pushHuge data len).recvPos.toNat =
      if r.taken len ≤ r.tailRoom then r.recvPos.toNat + r.taken len
      else r.taken len - r.tailRoom := by
  have htaken := toNat_taken len hcount
  have htail := toNat_tailRoom hpos
  simp only [RingBuffer.pushHuge]
  generalize (if ringBufferLen - r.remainCount < len then _ else _ : UInt16) = n at htaken ⊢
  by_cases hfits : n ≤ ringBufferLen - r.recvPos
  · have hfits' := UInt16.le_iff_toNat_le.1 hfits
    rw [RingBuffer.tailRoom] at *
    rw [if_pos hfits, if_pos (by omega), UInt16.toNat_add, htaken, Nat.mod_eq_of_lt (by omega)]
  · have hfits' := UInt16.lt_iff_toNat_lt.1 (UInt16.not_le.1 hfits)
    rw [if_neg hfits, if_neg (by omega),
      UInt16.toNat_sub_of_le _ _ (UInt16.le_iff_toNat_le.2 hfits'.le), htaken, htail]

theorem pushHuge_remainCount_taken (data : Nat → UInt8) (hcount : r.remainCount.toNat ≤ 1024) :
    (r.pushHuge data len).remainCount.toNat = r.remainCount.toNat + r.taken len := by
  rw [RingBuffer.pushHuge_remainCount (UInt16.le_iff_toNat_le.2 hcount), RingBuffer.taken]
  omega

theorem pushHuge_sendPos (data : Nat → UInt8) (r : RingBuffer) :
    (r.pushHuge data len).sendPos = r.sendPos := by
  simp only [RingBuffer.pushHuge]
  generalize (if ringBufferLen - r.remainCount < len then _ else _ : UInt16) = n
  split <;> rfl

theorem copies_inBounds (hcount : r.remainCount.toNat ≤ 1024) (hpos : r.recvPos.toNat ≤ 1024) :
    ∀ c ∈ r.copies len, c.InBounds len.toNat := by
  have hlen : r.taken len ≤ len.toNat := Nat.min_le_left _ _
  have hroom : r.taken len ≤ 1024 := taken_le len r
  have htail : r.recvPos.toNat + r.tailRoom = 1024 := tailRoom_add hpos
  rw [copies_eq len hcount hpos]
  intro c hc
  split at hc
  · next hfits =>
    rw [List.mem_singleton.1 hc]
    constructor
    · dsimp only
      omega
    · dsimp only
      omega
  · next hwraps =>
    rcases List.mem_cons.1 hc with rfl | hc
    · constructor
      · exact htail.le
      · dsimp only
        omega
    · rw [List.mem_singleton.1 hc]
      constructor
      · dsimp only
        omega
      · dsimp only
        omega

theorem pushHuge_cell (data : Nat → UInt8) (hcount : r.remainCount.toNat ≤ 1024)
    (hpos : r.recvPos.toNat ≤ 1024) (j : Nat) :
    (r.pushHuge data len).buffer j =
      if j < r.taken len - r.tailRoom then data (r.tailRoom + j)
      else if r.recvPos.toNat ≤ j ∧ j < r.recvPos.toNat + min (r.taken len) r.tailRoom then
        data (j - r.recvPos.toNat)
      else r.buffer j := by
  rw [RingBuffer.pushHuge_buffer, copies_eq len hcount hpos]
  by_cases hfits : r.taken len ≤ r.tailRoom
  · rw [if_pos hfits, if_neg (by omega), Nat.min_eq_left hfits]
    simp only [List.foldl_cons, List.foldl_nil, memcpy, Nat.zero_add]
  · rw [if_neg hfits, Nat.min_eq_right (by omega)]
    simp only [List.foldl_cons, List.foldl_nil, memcpy, Nat.zero_add, Nat.zero_le, true_and,
      Nat.sub_zero]

/-- The bytes taken stand behind the receive position, going round. -/
theorem pushHuge_new (data : Nat → UInt8) (hcount : r.remainCount.toNat ≤ 1024)
    (hpos : r.recvPos.toNat ≤ 1024) {i : Nat} (hi : i < r.taken len) :
    (r.pushHuge data len).buffer ((r.recvPos.toNat + i) % 1024) = data i := by
  have htail : r.recvPos.toNat + r.tailRoom = 1024 := tailRoom_add hpos
  have hroom : r.taken len ≤ 1024 := taken_le len r
  rw [pushHuge_cell len data hcount hpos]
  by_cases hbefore : i < r.tailRoom
  · rw [Nat.mod_eq_of_lt (by omega), if_neg (by omega), if_pos (by omega), Nat.add_sub_cancel_left]
  · have hplace : (r.recvPos.toNat + i) % 1024 = i - r.tailRoom := by omega
    rw [hplace, if_pos (by omega), Nat.add_sub_cancel' (by omega)]

theorem pushHuge_old (data : Nat → UInt8) (hcount : r.remainCount.toNat ≤ 1024)
    (hpos : r.recvPos.toNat ≤ 1024) {j : Nat}
    (hj : ∀ i < r.taken len, j ≠ (r.recvPos.toNat + i) % 1024) :
    (r.pushHuge data len).buffer j = r.buffer j := by
  have htail : r.recvPos.toNat + r.tailRoom = 1024 := tailRoom_add hpos
  have hroom : r.taken len ≤ 1024 := taken_le len r
  rw [pushHuge_cell len data hcount hpos]
  have hwrapped : ¬j < r.taken len - r.tailRoom := by
    intro hlt
    exact hj (r.tailRoom + j) (by omega) (by omega)
  have hbehind : ¬(r.recvPos.toNat ≤ j ∧ j < r.recvPos.toNat + min (r.taken len) r.tailRoom) := by
    rintro ⟨hle, hlt⟩
    exact hj (j - r.recvPos.toNat) (by omega) (by omega)
  rw [if_neg hwrapped, if_neg hbehind]

end

theorem take_range (data : Nat → UInt8) (n m : Nat) :
    ((List.range n).map data).take m = (List.range (min m n)).map data := by
  rw [← List.map_take, List.take_range]

theorem contents_push {r : RingBuffer} {q : Fifo UInt8 1024} (h : r.Represents q)
    (data : Nat → UInt8) (len : UInt16) :
    (r.pushHuge data len).contents = r.contents ++ (List.range (r.taken len)).map data := by
  have hplace : ∀ i, (r.sendPos.toNat + r.remainCount.toNat + i) % 1024 =
      (r.recvPos.toNat + i) % 1024 := by
    intro i
    exact (h.positions.symm.add_right i : _)
  rw [RingBuffer.contents, pushHuge_sendPos, pushHuge_remainCount_taken len data h.count_le]
  apply Cyclic.window_write
  · have hroom : r.taken len ≤ 1024 - r.remainCount.toNat := Nat.min_le_right _ _
    have hcount := h.count_le
    omega
  · intro i hi
    rw [hplace]
    exact pushHuge_new len data h.count_le h.recvPos hi
  · intro j _ hj
    apply pushHuge_old len data h.count_le h.recvPos
    intro i hi
    rw [← hplace]
    exact hj i hi

theorem represents_push {r : RingBuffer} {q : Fifo UInt8 1024} (h : r.Represents q)
    (data : Nat → UInt8) (len : UInt16) :
    (r.pushHuge data len).Represents (q.push ((List.range len.toNat).map data)) where
  contents := by
    have hroom : q.room = 1024 - r.remainCount.toNat := by
      rw [Fifo.room, h.count]
    rw [contents_push h, h.contents, Fifo.items_push, take_range, hroom, RingBuffer.taken,
      Nat.min_comm]
  sendPos := by
    rw [pushHuge_sendPos]
    exact h.sendPos
  recvPos := by
    have htail : r.recvPos.toNat + r.tailRoom = 1024 := tailRoom_add h.recvPos
    have hroom : r.taken len ≤ 1024 := taken_le len r
    rw [pushHuge_recvPos len data h.count_le h.recvPos]
    split
    · omega
    · omega
  positions := by
    have htail : r.recvPos.toNat + r.tailRoom = 1024 := tailRoom_add h.recvPos
    have hbefore := h.positions
    rw [pushHuge_recvPos len data h.count_le h.recvPos, pushHuge_sendPos,
      pushHuge_remainCount_taken len data h.count_le]
    simp only [Nat.ModEq] at hbefore ⊢
    split
    · omega
    · omega

/-! ## A pop -/

@[simp] theorem pop_buffer (r : RingBuffer) : r.pop.2.buffer = r.buffer := by
  simp only [RingBuffer.pop]
  split <;> rfl

@[simp] theorem pop_recvPos (r : RingBuffer) : r.pop.2.recvPos = r.recvPos := by
  simp only [RingBuffer.pop]
  split <;> rfl

theorem pop_sendPos {r : RingBuffer} (h : r.sendPos.toNat < 1024) :
    r.pop.2.sendPos.toNat = (r.sendPos.toNat + 1) % 1024 := by
  have hnext : (r.sendPos + 1).toNat = r.sendPos.toNat + 1 := by
    rw [UInt16.toNat_add]
    exact Nat.mod_eq_of_lt (Nat.lt_trans (Nat.succ_lt_succ h) (by decide))
  simp only [RingBuffer.pop]
  split
  · next hend =>
    have hend' : 1024 ≤ (r.sendPos + 1).toNat := UInt16.le_iff_toNat_le.1 hend
    rw [show r.sendPos.toNat + 1 = 1024 by omega]
    rfl
  · next hin =>
    have hin' : (r.sendPos + 1).toNat < 1024 := UInt16.lt_iff_toNat_lt.1 (UInt16.not_le.1 hin)
    rw [hnext, Nat.mod_eq_of_lt (by omega)]

theorem toNat_pop_remainCount {r : RingBuffer} (h : 0 < r.remainCount) :
    r.pop.2.remainCount.toNat = r.remainCount.toNat - 1 := by
  have hpos : 0 < r.remainCount.toNat := UInt16.lt_iff_toNat_lt.1 h
  have hone : (1 : UInt16) ≤ r.remainCount := UInt16.le_iff_toNat_le.2 (by exact hpos)
  rw [RingBuffer.pop_remainCount, UInt16.toNat_sub_of_le _ _ hone]
  rfl

theorem contents_pop {r : RingBuffer} (hsend : r.sendPos.toNat < 1024) (h : 0 < r.remainCount) :
    r.contents = r.pop.1 :: r.pop.2.contents := by
  have hpos : 0 < r.remainCount.toNat := UInt16.lt_iff_toNat_lt.1 h
  obtain ⟨n, hn⟩ : ∃ n, r.remainCount.toNat = n + 1 := ⟨r.remainCount.toNat - 1, by omega⟩
  have hwrap : (r.sendPos.toNat + 1) % 1024 ≡ r.sendPos.toNat + 1 [MOD 1024] := Nat.mod_modEq _ _
  rw [RingBuffer.contents, RingBuffer.contents, pop_buffer, pop_sendPos hsend,
    toNat_pop_remainCount h, hn, Nat.add_sub_cancel, Cyclic.window_succ,
    Cyclic.window_modEq hwrap, Nat.mod_eq_of_lt hsend]
  rfl

theorem represents_pop {r : RingBuffer} {q : Fifo UInt8 1024} (h : r.Represents q)
    (hpos : 0 < r.remainCount) : r.pop.2.Represents q.rest ∧ q.items.head? = some r.pop.1 := by
  have hitems : q.items = r.pop.1 :: r.pop.2.contents := by
    rw [← h.contents, contents_pop h.sendPos hpos]
  refine ⟨?_, by rw [hitems, List.head?_cons]⟩
  constructor
  · rw [Fifo.items_rest, hitems, List.tail_cons]
  · rw [pop_sendPos h.sendPos]
    exact Nat.mod_lt _ (by decide)
  · rw [pop_recvPos]
    exact h.recvPos
  · have hbefore := h.positions
    have hcount : 0 < r.remainCount.toNat := UInt16.lt_iff_toNat_lt.1 hpos
    rw [pop_recvPos, pop_sendPos h.sendPos, toNat_pop_remainCount hpos]
    simp only [Nat.ModEq] at hbefore ⊢
    omega

/-! ## Any sequence of operations -/

inductive UartOp where
  | push (data : Nat → UInt8) (len : UInt16)
  | pop

/-- One operation on the ring; the bytes taken out are collected, oldest first. -/
def ringStep (s : RingBuffer × List UInt8) : UartOp → RingBuffer × List UInt8
  | .push data len => (s.1.pushHuge data len, s.2)
  | .pop => (s.1.pop.2, s.2 ++ [s.1.pop.1])

/-- The same operation on the queue. -/
def fifoStep (s : Fifo UInt8 1024 × List UInt8) : UartOp → Fifo UInt8 1024 × List UInt8
  | .push data len => (s.1.push ((List.range len.toNat).map data), s.2)
  | .pop => (s.1.rest, s.2 ++ s.1.items.head?.toList)

/-- `while (ring_buffer.RemainCount > 0)` guards every pop. -/
def PopReady (s : RingBuffer × List UInt8) : UartOp → Prop
  | .push _ _ => True
  | .pop => 0 < s.1.remainCount

instance decidablePopReady (s : RingBuffer × List UInt8) : ∀ a, Decidable (PopReady s a)
  | .push _ _ => .isTrue trivial
  | .pop => inferInstanceAs (Decidable (0 < s.1.remainCount))

/-- The ring and the queue, with what has been taken out of each. -/
def Refines (s : RingBuffer × List UInt8) (t : Fifo UInt8 1024 × List UInt8) : Prop :=
  s.1.Represents t.1 ∧ s.2 = t.2

theorem refines_step {s : RingBuffer × List UInt8} {t : Fifo UInt8 1024 × List UInt8} (a : UartOp)
    (h : Refines s t) (hready : PopReady s a) : Refines (ringStep s a) (fifoStep t a) := by
  obtain ⟨hring, hout⟩ := h
  cases a with
  | push data len => exact ⟨represents_push hring data len, hout⟩
  | pop =>
    obtain ⟨hrest, hhead⟩ := represents_pop hring hready
    refine ⟨hrest, ?_⟩
    simp only [ringStep, fifoStep, hhead, Option.toList_some, hout]

theorem refines_run {ops : List UartOp}
    (h : Runs.Along PopReady ringStep (RingBuffer.boot, []) ops) :
    Refines (Runs.exec ringStep (RingBuffer.boot, []) ops)
      (Runs.exec fifoStep (Fifo.empty, []) ops) := by
  have hboot : Refines (RingBuffer.boot, []) (Fifo.empty, []) := ⟨represents_boot, rfl⟩
  have hrun : Refines (Runs.exec ringStep (RingBuffer.boot, []) ops)
      (Runs.exec fifoStep (Fifo.empty, []) (ops.map id)) :=
    Runs.exec_sim_along id (fun _ _ a => refines_step a) hboot h
  rw [List.map_id] at hrun
  exact hrun

/-- Over any sequence of pushes, and of pops from a ring that is not empty, the ring is
the queue: it holds the queue's bytes, gives out the queue's bytes, appends of a push
what there is room for, and copies inside its array only. -/
theorem uartQueue_refines (ops : List UartOp)
    (h : Runs.Along PopReady ringStep (RingBuffer.boot, []) ops) :
    let s := Runs.exec ringStep (RingBuffer.boot, []) ops
    let t := Runs.exec fifoStep (Fifo.empty, []) ops
    s.1.contents = t.1.items ∧ s.2 = t.2 ∧
      s.1.remainCount.toNat = t.1.items.length ∧
      s.1.sendPos.toNat < 1024 ∧ s.1.recvPos.toNat ≤ 1024 ∧
      s.1.recvPos.toNat ≡ s.1.sendPos.toNat + s.1.remainCount.toNat [MOD 1024] ∧
      (∀ data len,
        (s.1.pushHuge data len).contents = s.1.contents ++
          (List.range (min len.toNat (1024 - s.1.remainCount.toNat))).map data) ∧
      (0 < s.1.remainCount → s.1.contents = s.1.pop.1 :: s.1.pop.2.contents) ∧
      ∀ data len,
        (s.1.pushHuge data len).buffer =
            (s.1.copies len).foldl (fun b c => memcpy b c.pos data c.start c.len) s.1.buffer ∧
          ∀ c ∈ s.1.copies len, c.InBounds len.toNat := by
  obtain ⟨hring, hout⟩ := refines_run h
  refine ⟨hring.contents, hout, hring.count, hring.sendPos, hring.recvPos, hring.positions,
    ?_, ?_, ?_⟩
  · intro data len
    exact contents_push hring data len
  · intro hpos
    exact contents_pop hring.sendPos hpos
  · intro data len
    exact ⟨RingBuffer.pushHuge_buffer data len _, copies_inBounds len hring.count_le hring.recvPos⟩

/-- Three bytes in, one out. -/
def threeThenOne : List UartOp := [.push (fun i => UInt8.ofNat (i + 7)) 3, .pop]

theorem along_threeThenOne : Runs.Along PopReady ringStep (RingBuffer.boot, []) threeThenOne := by
  decide

theorem uartQueue_refines_threeThenOne :
    (Runs.exec ringStep (RingBuffer.boot, []) threeThenOne).1.contents = [8, 9] ∧
      (Runs.exec ringStep (RingBuffer.boot, []) threeThenOne).2 = [7] := by
  obtain ⟨hcontents, hout, -⟩ := uartQueue_refines threeThenOne along_threeThenOne
  exact ⟨hcontents.trans rfl, hout.trans rfl⟩

end RoboticArm
