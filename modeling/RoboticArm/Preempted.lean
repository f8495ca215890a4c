import RoboticArm.UartQueue

/- A pop of the ring that the handlers preempt.

   `ring_buffer_pop` runs in the main loop, `ring_buffer_push_huge` in the handlers of
   USART1 and of its channel, which come in between any two accesses. Of what a pop does,
   `ring_buffer.RemainCount--` reads the count and writes it back, and a push writes the
   same count: here the pop is five steps, the decrement being a load and a store, and a
   push of any length comes between any two.

   What is proved:
     1. `accounted_iff`: in every state of a run each byte that a push took is given out,
        about to be given out, or in the ring, in order, exactly when every store of the
        decrement finds the count that was loaded. A push that takes bytes between the two
        is what breaks it, and the bytes it took are lost.
     2. `exec_pop`: with no push in between the five steps are `RingBuffer.pop`.

   Correspondence (C ↔ Lean):
     `while (ring_buffer.RemainCount > 0)`, `data = buffer[SendPos]` ↔ `PopPc.test`
     `ring_buffer.SendPos++`                                         ↔ `PopPc.advance`
     `if (ring_buffer.SendPos >= RING_BUFFER_LEN) ...`               ↔ `PopPc.wrap`
     `ring_buffer.RemainCount--`                                     ↔ `PopPc.load`, `PopPc.store` -/
namespace RoboticArm

inductive PopPc where
  | test
  | advance
  | wrap
  | load
  | store
  deriving DecidableEq, Repr

/-- The ring, the main loop with its local `data` and the register of the decrement, the bytes
given out and the bytes that pushes took. -/
structure Popper where
  ring : RingBuffer
  pc : PopPc
  data : UInt8
  loaded : UInt16
  given : List UInt8
  accepted : List UInt8

def Popper.boot : Popper := ⟨RingBuffer.boot, .test, 0, 0, [], []⟩

inductive PopAct where
  | main
  | push (data : Nat → UInt8) (len : UInt16)

namespace Popper

/-- One access of the main loop. -/
def main (s : Popper) : Popper :=
  match s.pc with
  | .test =>
    if 0 < s.ring.remainCount then
      { s with data := s.ring.buffer s.ring.sendPos.toNat, pc := .advance }
    else s
  | .advance => { s with ring := { s.ring with sendPos := s.ring.sendPos + 1 }, pc := .wrap }
  | .wrap =>
    { s with
      ring := if ringBufferLen ≤ s.ring.sendPos then { s.ring with sendPos := 0 } else s.ring
      pc := .load }
  | .load => { s with loaded := s.ring.remainCount, pc := .store }
  | .store =>
    { s with
      ring := { s.ring with remainCount := s.loaded - 1 }
      given := s.given ++ [s.data]
      pc := .test }

def push (data : Nat → UInt8) (len : UInt16) (s : Popper) : Popper :=
  { s with
    ring := s.ring.pushHuge data len
    accepted := s.accepted ++ (List.range (s.ring.taken len)).map data }

/-- The place of the oldest byte that is not read yet. -/
def front (s : Popper) : Nat :=
  match s.pc with
  | .advance => s.ring.sendPos.toNat + 1
  | _ => s.ring.sendPos.toNat

/-- The byte that is read and not given out yet. -/
def held (s : Popper) : List UInt8 :=
  match s.pc with
  | .test => []
  | _ => [s.data]

/-- The number of bytes that are not read yet, by the count. -/
def left (s : Popper) : Nat :=
  match s.pc with
  | .test => s.ring.remainCount.toNat
  | _ => s.ring.remainCount.toNat - 1

def unread (s : Popper) : List UInt8 := Cyclic.window 1024 s.ring.buffer s.front s.left

/-- Every byte that a push took is in one place, once, and they are in order. -/
def Accounted (s : Popper) : Prop := s.given ++ s.held ++ s.unread = s.accepted

/-- The positions and the count belong together. -/
structure Sound (s : Popper) : Prop where
  recvPos : s.ring.recvPos.toNat ≤ 1024
  sendPos : s.ring.sendPos.toNat < 1024 ∨ s.pc = .wrap ∧ s.ring.sendPos.toNat = 1024
  count : s.ring.remainCount.toNat ≤ 1024
  counted : s.pc = .test ∨ 0 < s.ring.remainCount.toNat
  positions : s.ring.recvPos.toNat ≡ s.front + s.left [MOD 1024]

end Popper

def popStep (s : Popper) : PopAct → Popper
  | .main => s.main
  | .push data len => s.push data len

/-- The store of the decrement finds the count that was loaded. -/
def Uncontended (s : Popper) : PopAct → Prop
  | .main => s.pc = .store → s.loaded = s.ring.remainCount
  | .push _ _ => True

/-! ## A push -/

namespace Popper

variable {s : Popper}

/-- The position is behind the array between its step and the test of its end only. -/
theorem Sound.sendPos_lt (h : s.Sound) (hpc : s.pc ≠ .wrap) : s.ring.sendPos.toNat < 1024 :=
  h.sendPos.resolve_right fun hwrap => hpc hwrap.1

theorem Sound.sendPos_le (h : s.Sound) : s.ring.sendPos.toNat ≤ 1024 := by
  rcases h.sendPos with hlt | ⟨-, heq⟩
  · exact hlt.le
  · exact heq.le

theorem Sound.count_pos (h : s.Sound) (hpc : s.pc ≠ .test) : 0 < s.ring.remainCount.toNat :=
  h.counted.resolve_left hpc

theorem left_add_taken (h : s.Sound) (len : UInt16) : s.left + s.ring.taken len ≤ 1024 := by
  have hcount := h.count
  have hroom : s.ring.taken len ≤ 1024 - s.ring.remainCount.toNat := Nat.min_le_right _ _
  have hleft : s.left ≤ s.ring.remainCount.toNat := by
    unfold left
    split
    · exact Nat.le_refl _
    · exact Nat.sub_le _ 1
  omega

theorem front_push (data : Nat → UInt8) (len : UInt16) (s : Popper) :
    (s.push data len).front = s.front := by
  unfold front push
  dsimp only
  rw [pushHuge_sendPos]

theorem left_push (h : s.Sound) (data : Nat → UInt8) (len : UInt16) :
    (s.push data len).left = s.left + s.ring.taken len := by
  have hcount := pushHuge_remainCount_taken len data h.count
  unfold left push
  dsimp only
  rw [hcount]
  split
  · rfl
  · next hpc =>
    have hpos := h.count_pos hpc
    omega

theorem unread_push (h : s.Sound) (data : Nat → UInt8) (len : UInt16) :
    (s.push data len).unread = s.unread ++ (List.range (s.ring.taken len)).map data := by
  have hplace : ∀ i, (s.front + s.left + i) % 1024 = (s.ring.recvPos.toNat + i) % 1024 := by
    intro i
    exact (h.positions.symm.add_right i : _)
  rw [unread, front_push, left_push h]
  apply Cyclic.window_write (left_add_taken h len)
  · intro i hi
    rw [hplace]
    exact pushHuge_new len data h.count h.recvPos hi
  · intro j _ hj
    apply pushHuge_old len data h.count h.recvPos
    intro i hi
    rw [← hplace]
    exact hj i hi

theorem Sound.push (h : s.Sound) (data : Nat → UInt8) (len : UInt16) : (s.push data len).Sound := by
  have hleft := left_push h data len
  have hfront := front_push data len s
  have htail : s.ring.recvPos.toNat + s.ring.tailRoom = 1024 := tailRoom_add h.recvPos
  have hroom : s.ring.taken len ≤ 1024 := taken_le len s.ring
  have hrecv := pushHuge_recvPos len data h.count h.recvPos
  have hcount := pushHuge_remainCount_taken len data h.count
  have hfits : s.ring.taken len ≤ 1024 - s.ring.remainCount.toNat := Nat.min_le_right _ _
  have hbound := h.count
  constructor
  · show (s.ring.pushHuge data len).recvPos.toNat ≤ 1024
    rw [hrecv]
    split
    · omega
    · omega
  · show (s.ring.pushHuge data len).sendPos.toNat < 1024 ∨
      _ ∧ (s.ring.pushHuge data len).sendPos.toNat = 1024
    rw [pushHuge_sendPos]
    exact h.sendPos
  · show (s.ring.pushHuge data len).remainCount.toNat ≤ 1024
    omega
  · rcases h.counted with hpc | hpos
    · exact Or.inl hpc
    · right
      show 0 < (s.ring.pushHuge data len).remainCount.toNat
      omega
  · have hbefore := h.positions
    rw [hleft, hfront]
    show (s.ring.pushHuge data len).recvPos.toNat ≡ _ [MOD 1024]
    rw [hrecv]
    simp only [Nat.ModEq] at hbefore ⊢
    split
    · omega
    · omega

theorem accounted_push (h : s.Sound) (hacc : s.Accounted) (data : Nat → UInt8) (len : UInt16) :
    (s.push data len).Accounted := by
  have hold : s.given ++ s.held ++ s.unread = s.accepted := hacc
  show s.given ++ s.held ++ (s.push data len).unread = s.accepted ++ _
  rw [unread_push h, ← List.append_assoc, hold]

/-! ## A step of the main loop -/

theorem accounted_test (h : s.Sound) (hpc : s.pc = .test) : s.main.Accounted ↔ s.Accounted := by
  obtain ⟨ring, pc, data, loaded, given, accepted⟩ := s
  cases hpc
  by_cases hpos : 0 < ring.remainCount
  · have hsend : ring.sendPos.toNat < 1024 := h.sendPos_lt fun hpc => nomatch hpc
    have hnat : 0 < ring.remainCount.toNat := UInt16.lt_iff_toNat_lt.1 hpos
    obtain ⟨n, hn⟩ : ∃ n, ring.remainCount.toNat = n + 1 := ⟨ring.remainCount.toNat - 1, by omega⟩
    have hread : Cyclic.window 1024 ring.buffer ring.sendPos.toNat ring.remainCount.toNat =
        ring.buffer ring.sendPos.toNat ::
          Cyclic.window 1024 ring.buffer (ring.sendPos.toNat + 1) (ring.remainCount.toNat - 1) := by
      rw [hn, Cyclic.window_succ, Nat.mod_eq_of_lt hsend, Nat.add_sub_cancel]
    simp only [main, Accounted, held, unread, front, left, if_pos hpos, hread, List.append_assoc,
      List.nil_append, List.singleton_append]
  · simp only [main, if_neg hpos]

theorem toNat_advance {n : UInt16} (h : n.toNat < 1024) : (n + 1).toNat = n.toNat + 1 := by
  rw [UInt16.toNat_add]
  exact Nat.mod_eq_of_lt (Nat.lt_trans (Nat.succ_lt_succ h) (by decide))

/-- The position that goes round at the end of the array stands for the same place. -/
theorem sendPos_wrap {r : RingBuffer} (h : r.sendPos.toNat ≤ 1024) :
    let t := if ringBufferLen ≤ r.sendPos then { r with sendPos := 0 } else r
    t.sendPos.toNat < 1024 ∧ t.sendPos.toNat ≡ r.sendPos.toNat [MOD 1024] ∧
      t = { r with sendPos := t.sendPos } := by
  dsimp only
  split
  · next hend =>
    have hend' : 1024 ≤ r.sendPos.toNat := UInt16.le_iff_toNat_le.1 hend
    refine ⟨Nat.succ_pos 1023, ?_, rfl⟩
    show 0 ≡ r.sendPos.toNat [MOD 1024]
    rw [Nat.le_antisymm h hend']
    rfl
  · next hin =>
    exact ⟨UInt16.lt_iff_toNat_lt.1 (UInt16.not_le.1 hin), Nat.ModEq.refl _, rfl⟩

theorem toNat_pred {n : UInt16} (h : 0 < n.toNat) : (n - 1).toNat = n.toNat - 1 := by
  have hone : (1 : UInt16) ≤ n := UInt16.le_iff_toNat_le.2 h
  rw [UInt16.toNat_sub_of_le _ _ hone]
  rfl

theorem accounted_quiet (h : s.Sound) (hpc : s.pc ≠ .store) : s.main.Accounted ↔ s.Accounted := by
  obtain ⟨ring, pc, data, loaded, given, accepted⟩ := s
  cases pc with
  | test => exact accounted_test h rfl
  | advance =>
    have hsend : ring.sendPos.toNat < 1024 := h.sendPos_lt fun hpc => nomatch hpc
    simp only [main, Accounted, held, unread, front, left, toNat_advance hsend]
  | wrap =>
    obtain ⟨-, hplace, hring⟩ := sendPos_wrap h.sendPos_le
    have hread : Cyclic.window 1024 ring.buffer
        (if ringBufferLen ≤ ring.sendPos then { ring with sendPos := 0 } else ring).sendPos.toNat
        (ring.remainCount.toNat - 1) =
        Cyclic.window 1024 ring.buffer ring.sendPos.toNat (ring.remainCount.toNat - 1) :=
      Cyclic.window_modEq hplace _ _
    simp only [main, Accounted, held, unread, front, left]
    rw [hring]
    dsimp only
    rw [hread]
  | load => exact Iff.rfl
  | store => exact absurd rfl hpc

/-- The store gives the byte out, and leaves the others in their place exactly when it finds the
count that was loaded. -/
theorem accounted_store (h : s.Sound) (hacc : s.Accounted) (hpc : s.pc = .store) :
    s.main.Accounted ↔ s.loaded = s.ring.remainCount := by
  obtain ⟨ring, pc, data, loaded, given, accepted⟩ := s
  cases hpc
  have hpos : 0 < ring.remainCount.toNat := h.count_pos fun hpc => nomatch hpc
  have hold : given ++ [data] ++
      Cyclic.window 1024 ring.buffer ring.sendPos.toNat (ring.remainCount.toNat - 1) = accepted := hacc
  show given ++ [data] ++ [] ++
    Cyclic.window 1024 ring.buffer ring.sendPos.toNat (loaded - 1).toNat = accepted ↔ _
  rw [List.append_nil, ← hold, List.append_cancel_left_eq]
  constructor
  -- the windows begin at one place, so they are equal only if they are of one length
  · intro heq
    have hlen := congrArg List.length heq
    rw [Cyclic.length_window, Cyclic.length_window, ← toNat_pred hpos] at hlen
    exact (UInt16.sub_left_inj 1).1 (UInt16.toNat_inj.1 hlen)
  · intro heq
    have hfound : loaded = ring.remainCount := heq
    rw [hfound, toNat_pred hpos]

theorem Sound.main (h : s.Sound) (hstore : s.pc = .store → s.loaded = s.ring.remainCount) :
    s.main.Sound := by
  obtain ⟨ring, pc, data, loaded, given, accepted⟩ := s
  have hpositions := h.positions
  cases pc with
  | test =>
    have hsend : ring.sendPos.toNat < 1024 := h.sendPos_lt fun hpc => nomatch hpc
    by_cases hpos : 0 < ring.remainCount
    · have hnat : 0 < ring.remainCount.toNat := UInt16.lt_iff_toNat_lt.1 hpos
      simp only [Popper.main, if_pos hpos]
      refine ⟨h.recvPos, Or.inl hsend, h.count, Or.inr hnat, ?_⟩
      have hsum : ring.sendPos.toNat + 1 + (ring.remainCount.toNat - 1) =
          ring.sendPos.toNat + ring.remainCount.toNat := by omega
      show ring.recvPos.toNat ≡ ring.sendPos.toNat + 1 + (ring.remainCount.toNat - 1) [MOD 1024]
      rw [hsum]
      exact hpositions
    · simp only [Popper.main, if_neg hpos]
      exact h
  | advance =>
    have hsend : ring.sendPos.toNat < 1024 := h.sendPos_lt fun hpc => nomatch hpc
    have hnext := toNat_advance hsend
    have hpos := h.count_pos fun hpc => nomatch hpc
    refine ⟨h.recvPos, ?_, h.count, Or.inr hpos, ?_⟩
    · show (ring.sendPos + 1).toNat < 1024 ∨ _ ∧ (ring.sendPos + 1).toNat = 1024
      rw [hnext]
      rcases Nat.lt_or_ge (ring.sendPos.toNat + 1) 1024 with hlt | hge
      · exact Or.inl hlt
      · exact Or.inr ⟨rfl, Nat.le_antisymm hsend hge⟩
    · show ring.recvPos.toNat ≡ (ring.sendPos + 1).toNat + (ring.remainCount.toNat - 1) [MOD 1024]
      rw [hnext]
      exact hpositions
  | wrap =>
    obtain ⟨hlt, hplace, hring⟩ := sendPos_wrap h.sendPos_le
    have hpos := h.count_pos fun hpc => nomatch hpc
    simp only [Popper.main]
    rw [hring]
    refine ⟨h.recvPos, Or.inl hlt, h.count, Or.inr hpos, ?_⟩
    exact hpositions.trans (hplace.symm.add_right _)
  | load =>
    have hsend : ring.sendPos.toNat < 1024 := h.sendPos_lt fun hpc => nomatch hpc
    have hpos := h.count_pos fun hpc => nomatch hpc
    exact ⟨h.recvPos, Or.inl hsend, h.count, Or.inr hpos, hpositions⟩
  | store =>
    have hsend : ring.sendPos.toNat < 1024 := h.sendPos_lt fun hpc => nomatch hpc
    have hpos : 0 < ring.remainCount.toNat := h.count_pos fun hpc => nomatch hpc
    -- the store takes the byte off the count that the ring still has
    have hfound : loaded = ring.remainCount := hstore rfl
    have hcount : (loaded - 1).toNat = ring.remainCount.toNat - 1 := by
      rw [hfound]
      exact toNat_pred hpos
    have hbound := h.count
    refine ⟨h.recvPos, Or.inl hsend, ?_, Or.inl rfl, ?_⟩
    · show (loaded - 1).toNat ≤ 1024
      rw [hcount]
      exact Nat.le_trans (Nat.sub_le _ 1) hbound
    · show ring.recvPos.toNat ≡ ring.sendPos.toNat + (loaded - 1).toNat [MOD 1024]
      rw [hcount]
      exact hpositions

end Popper

/-! ## The pop in one step -/

theorem exec_pop {s : Popper} (hpc : s.pc = .test) (hpos : 0 < s.ring.remainCount) :
    let t := Runs.exec popStep s (List.replicate 5 .main)
    t.ring = s.ring.pop.2 ∧ t.given = s.given ++ [s.ring.pop.1] ∧ t.pc = .test := by
  obtain ⟨ring, pc, data, loaded, given, accepted⟩ := s
  cases hpc
  have hfirst : popStep ⟨ring, .test, data, loaded, given, accepted⟩ .main =
      ⟨ring, .advance, ring.buffer ring.sendPos.toNat, loaded, given, accepted⟩ := if_pos hpos
  show let t := Runs.exec popStep (popStep _ .main) (List.replicate 4 .main)
    t.ring = _ ∧ t.given = _ ∧ t.pc = _
  rw [hfirst]
  exact ⟨rfl, rfl, rfl⟩

/-! ## Runs -/

open Popper

theorem sound_popBoot : Popper.boot.Sound :=
  ⟨by decide, Or.inl (by decide), by decide, Or.inl rfl, rfl⟩

theorem accounted_popStep {s : Popper} (h : s.Sound) (hacc : s.Accounted) (a : PopAct) :
    (popStep s a).Accounted ↔ Uncontended s a := by
  cases a with
  | main =>
    by_cases hpc : s.pc = .store
    · refine (accounted_store h hacc hpc).trans ?_
      exact ⟨fun hfound _ => hfound, fun hfound => hfound hpc⟩
    · exact iff_of_true ((accounted_quiet h hpc).2 hacc) fun hstore => absurd hstore hpc
  | push data len => exact iff_of_true (accounted_push h hacc data len) trivial

theorem sound_popStep {s : Popper} (h : s.Sound) {a : PopAct} (ha : Uncontended s a) :
    (popStep s a).Sound := by
  cases a with
  | main => exact h.main ha
  | push data len => exact h.push data len

/-- In every state of a run each byte that a push took is in one place, in order, exactly when
every store of the decrement finds the count that was loaded; five steps in a row are the pop. -/
theorem accounted_iff (as : List PopAct) :
    ((∀ pre, pre <+: as → (Runs.exec popStep Popper.boot pre).Accounted) ↔
      Runs.Along Uncontended popStep Popper.boot as) ∧
    ∀ s : Popper, s.pc = .test → 0 < s.ring.remainCount →
      let t := Runs.exec popStep s (List.replicate 5 .main)
      t.ring = s.ring.pop.2 ∧ t.given = s.given ++ [s.ring.pop.1] ∧ t.pc = .test := by
  refine ⟨?_, fun s hpc hpos => exec_pop hpc hpos⟩
  apply Runs.prefix_iff_along (P := fun s => Popper.Sound s ∧ Accounted s)
  · exact fun s h => h.2
  · rintro s a ⟨hsound, h⟩ ha
    exact ⟨sound_popStep hsound ha, (accounted_popStep hsound h a).2 ha⟩
  · rintro s a ⟨hsound, h⟩ hnext
    exact (accounted_popStep hsound h a).1 hnext
  · exact ⟨sound_popBoot, rfl⟩

end RoboticArm
