import RoboticArm.Attitude
import RoboticArm.Dma
import RoboticArm.Runs

/- The attitude sensor from the line to the angles: the receive channel, the ring and
   `get_angle` together.

   The sensor sends packets of 33 bytes with a quiet line behind each; the main loop calls
   `get_angle` whenever it comes round, also in the middle of a packet. `Reader` is what
   this amounts to: the bytes of the packet on its way, the packets that are complete, and
   the angles. A call that finds exactly one packet reads it; a call that finds none or
   more than one leaves the angles as they are, and no packet is ever found twice.

   `attitude_refines`: over every run of bytes, ends of packets and calls, the angles are
   those of the reader, as long as no fourth packet waits for a call (it would be stored
   behind `g_rx_data_buffer`). -/
namespace RoboticArm

open UsartDma

variable {K : Type}

/-! ## The line and the main program -/

/-- The receive path, and what `get_angle` works on; both see one ring. -/
structure ImuLine (K : Type) where
  dma : UsartDma
  imu : Imu K

inductive LineAct where
  | byte (b : UInt8)
  /-- The line goes quiet behind a packet with these words for angles, and the handlers run. -/
  | packet (roll pitch yaw : Int16)
  | call

section
variable [Field K]

/-- `get_angle` on the ring of the receive path. -/
def ImuLine.getAngle (s : ImuLine K) : ImuLine K :=
  let imu := RoboticArm.getAngle { s.imu with ring := s.dma.ring }
  { dma := { s.dma with ring := imu.ring }, imu := imu }

def lineStep (s : ImuLine K) : LineAct → ImuLine K
  | .byte b => { s with dma := dmaStep s.dma (.byte b) }
  | .packet _ _ _ => { s with dma := Runs.exec dmaStep s.dma [.dma1, .quiet, .usart1] }
  | .call => s.getAngle

end

/-! ## What it amounts to -/

structure Reader (K : Type) where
  current : List UInt8
  waiting : List (List UInt8 × Attitude K)
  angle : Attitude K

def readerStep [Field K] (s : Reader K) : LineAct → Reader K
  | .byte b => { s with current := s.current ++ [b] }
  | .packet roll pitch yaw =>
    { s with current := [], waiting := s.waiting ++ [(s.current, angles roll pitch yaw)] }
  | .call =>
    { s with
      waiting := []
      angle := match s.waiting with
        | [p] => p.2
        | _ => s.angle }

/-- The bytes of a packet as an array. -/
def arrayOf (p : List UInt8) (i : Nat) : UInt8 := p.getD i 0

/-- The bytes are a packet that carries the words for the angles. -/
structure Sent (p : List UInt8) (roll pitch yaw : Int16) : Prop where
  length : p.length = 33
  packet : ∃ place, Packet (arrayOf p) place ∧ WordAt (arrayOf p) (place + 2) roll ∧
    WordAt (arrayOf p) (place + 4) pitch ∧ WordAt (arrayOf p) (place + 6) yaw

/-- What the sensor does, and how often the main loop has to come round. -/
def Sends (s : Reader K) : LineAct → Prop
  | .byte _ => s.current.length < 33
  | .packet roll pitch yaw => Sent s.current roll pitch yaw ∧ s.waiting.length < 3
  | .call => True

/-! ## Draining the ring -/

theorem drain_contents : ∀ (n : Nat) {s : Imu K} {q : Fifo UInt8 1024}, s.ring.Represents q →
    s.ring.remainCount.toNat = n → s.count.toNat + n ≤ 255 →
    (∀ i < n, (drain n s).rxDataBuffer (s.count.toNat + i) = arrayOf s.ring.contents i) ∧
      (∀ j < s.count.toNat, (drain n s).rxDataBuffer j = s.rxDataBuffer j) ∧
      (∃ q', (drain n s).ring.Represents q') ∧ (drain n s).angle = s.angle
  | 0, _, q, h, _, _ => ⟨fun _ hi => absurd hi (Nat.not_lt_zero _), fun _ _ => rfl, ⟨q, h⟩, rfl⟩
  | n + 1, s, q, h, hn, hroom => by
    obtain ⟨hdrain, hrest⟩ := drain_succ hn
    have hpos : 0 < s.ring.remainCount :=
      UInt16.lt_iff_toNat_lt.2 (by rw [hn]; exact Nat.succ_pos n)
    have hpop := (represents_pop h hpos).1
    have hcount : (drainOne s).count.toNat = s.count.toNat + 1 := by
      show (s.count + 1).toNat = s.count.toNat + 1
      rw [UInt8.toNat_add]
      exact Nat.mod_eq_of_lt (by show s.count.toNat + 1 < 256; omega)
    have hcontents : s.ring.contents = s.ring.pop.1 :: (drainOne s).ring.contents :=
      contents_pop h.sendPos hpos
    obtain ⟨hnew, hold, hring, hangle⟩ :=
      drain_contents n (s := drainOne s) hpop hrest (by omega)
    have hstored : (drainOne s).rxDataBuffer s.count.toNat = s.ring.pop.1 := Function.update_self _ _ _
    rw [hdrain, hcontents]
    refine ⟨?_, ?_, hring, hangle⟩
    · intro i hi
      cases i with
      | zero =>
        rw [Nat.add_zero, hold _ (by omega), hstored]
        rfl
      | succ i =>
        have hplace : s.count.toNat + (i + 1) = (drainOne s).count.toNat + i := by omega
        rw [hplace, hnew i (by omega)]
        rfl
    · intro j hj
      rw [hold j (by omega)]
      exact Function.update_of_ne hj.ne _ _

section
variable [Field K] {s : Imu K} {q : Fifo UInt8 1024}

theorem getAngle_empty (h : s.ring.remainCount.toNat = 0) : getAngle s = s :=
  if_neg (UInt16.not_lt.2 (UInt16.le_iff_toNat_le.2 (Nat.le_of_eq h)))

theorem getAngle_angle (h : s.ring.Represents q) (hpos : 0 < s.ring.remainCount.toNat)
    (hle : s.ring.remainCount.toNat ≤ 128) :
    ∃ data : Nat → UInt8, (∀ i < s.ring.remainCount.toNat, data i = arrayOf s.ring.contents i) ∧
      (getAngle s).angle = (parseWtProtocol data s.ring.remainCount.toUInt8 s.angle).2 := by
  let s₀ : Imu K := { s with rxDataLen := s.ring.remainCount, count := 0 }
  obtain ⟨hnew, -, -, hangle⟩ := drain_contents s.ring.remainCount.toNat (s := s₀) h rfl
    (by show 0 + s.ring.remainCount.toNat ≤ 255; omega)
  have hlen : (drain s.ring.remainCount.toNat s₀).rxDataLen = s.ring.remainCount :=
    (parsed_drain s.ring.remainCount.toNat (s := s₀) rfl).1
  refine ⟨(drain s.ring.remainCount.toNat s₀).rxDataBuffer, ?_, ?_⟩
  · intro i hi
    have hcell := hnew i hi
    rwa [show s₀.count.toNat + i = i from Nat.zero_add i] at hcell
  · have hwaits : 0 < s.ring.remainCount := UInt16.lt_iff_toNat_lt.2 hpos
    rw [getAngle, if_pos hwaits]
    show (parseWtProtocol _ (drain s.ring.remainCount.toNat s₀).rxDataLen.toUInt8
      (drain s.ring.remainCount.toNat s₀).angle).2 = _
    rw [hlen, hangle]

theorem getAngle_ring (h : s.ring.Represents q) (hle : s.ring.remainCount.toNat ≤ 128) :
    (∃ q', (getAngle s).ring.Represents q') ∧ (getAngle s).ring.contents = [] := by
  refine ⟨?_, contents_of_zero (remainCount_getAngle s)⟩
  let s₀ : Imu K := { s with rxDataLen := s.ring.remainCount, count := 0 }
  obtain ⟨-, -, hring, -⟩ := drain_contents s.ring.remainCount.toNat (s := s₀) h rfl
    (by show 0 + s.ring.remainCount.toNat ≤ 255; omega)
  simp only [getAngle]
  split
  · exact hring
  · exact ⟨q, h⟩

theorem getAngle_other (h : s.ring.Represents q) (hle : s.ring.remainCount.toNat ≤ 128)
    (hne : s.ring.remainCount.toNat ≠ 33) : (getAngle s).angle = s.angle := by
  rcases Nat.eq_zero_or_pos s.ring.remainCount.toNat with hzero | hpos
  · rw [getAngle_empty hzero]
  · obtain ⟨data, -, hangle⟩ := getAngle_angle h hpos hle
    -- the parser compares the length modulo 256, and 128 bytes are waiting at most
    have hlen : s.ring.remainCount.toUInt8 ≠ 33 := by
      intro heq
      have hnat := congrArg UInt8.toNat heq
      rw [UInt16.toNat_toUInt8] at hnat
      have hmod : s.ring.remainCount.toNat % 256 = 33 := hnat
      omega
    rw [hangle, parseWtProtocol, if_pos hlen]

/-- A packet that waits alone is read. -/
theorem getAngle_packet (h : s.ring.Represents q) {roll pitch yaw : Int16}
    (hsent : Sent s.ring.contents roll pitch yaw) : (getAngle s).angle = angles roll pitch yaw := by
  obtain ⟨place, hpacket, hroll, hpitch, hyaw⟩ := hsent.packet
  have hcount : s.ring.remainCount.toNat = 33 := by
    rw [h.count, ← h.contents, hsent.length]
  obtain ⟨data, hdata, hangle⟩ := getAngle_angle h (by omega) (by omega)
  have hlen : s.ring.remainCount.toUInt8 = 33 := by
    apply UInt8.toNat_inj.1
    rw [UInt16.toNat_toUInt8, hcount]
    rfl
  have hsame : ∀ i ∈ frames, SameFrame data (arrayOf s.ring.contents) i := by
    intro i hi j hj
    apply hdata
    simp only [frames, List.mem_cons, List.not_mem_nil, or_false] at hi
    omega
  have hfound : parseFrames (arrayOf s.ring.contents) s.angle frames = (0, angles roll pitch yaw) :=
    parseFrames_found ((hpacket.angleFrame hpacket.place_mem).2 rfl)
      (hpacket.sum place hpacket.place_mem) hroll hpitch hyaw hpacket.place_mem
      fun i hi => (hpacket.angleFrame hi).1
  rw [hangle, parseWtProtocol, hlen, if_neg (not_not.2 rfl)]
  show (parseFrames data s.angle frames).2 = _
  rw [parseFrames_congr hsame, hfound]

end

/-! ## The line carries what the reader sees -/

/-- The packet on its way is in the buffer, the complete ones are in the ring. -/
structure Carries [Field K] (s : ImuLine K) (t : Reader K) : Prop where
  sound : s.dma.Sound
  tc : s.dma.tc = false
  current : s.dma.inFlight = t.current
  short : t.current.length ≤ 33
  ring : s.dma.ring.contents = (t.waiting.map Prod.fst).flatten
  packets : ∀ p ∈ t.waiting, ∃ roll pitch yaw, Sent p.1 roll pitch yaw ∧ p.2 = angles roll pitch yaw
  few : t.waiting.length ≤ 3
  angle : s.imu.angle = t.angle

section
variable [Field K] {s : ImuLine K} {t : Reader K}

theorem length_flatten_packets {l : List (List UInt8 × Attitude K)}
    (h : ∀ p ∈ l, ∃ roll pitch yaw, Sent p.1 roll pitch yaw ∧ p.2 = angles roll pitch yaw) :
    (l.map Prod.fst).flatten.length = 33 * l.length := by
  induction l with
  | nil => rfl
  | cons p l ih =>
    obtain ⟨_, _, _, hsent, -⟩ := h p List.mem_cons_self
    have hrest := ih fun r hr => h r (List.mem_cons_of_mem p hr)
    rw [List.map_cons, List.flatten_cons, List.length_append, hsent.length, hrest, List.length_cons]
    omega

namespace Carries

theorem remainCount (h : Carries s t) : s.dma.ring.remainCount.toNat = 33 * t.waiting.length := by
  obtain ⟨q, hq⟩ := h.sound.ring
  rw [hq.count, ← hq.contents, h.ring, length_flatten_packets h.packets]

theorem filled (h : Carries s t) : s.dma.filled = t.current.length := by
  rw [← h.current, inFlight, List.length_map, List.length_range]

theorem byte (h : Carries s t) (hroom : t.current.length < 33) (b : UInt8) :
    Carries { s with dma := dmaStep s.dma (.byte b) } { t with current := t.current ++ [b] } := by
  have hfilled : 128 - s.dma.cntr.toNat = t.current.length := h.filled
  have hne : s.dma.cntr ≠ 0 := by
    intro hzero
    rw [hzero] at hfilled
    exact absurd hfilled (by show ¬(128 = t.current.length); omega)
  have hlast : (s.dma.cntr == 1) = false := by
    apply beq_false_of_ne
    intro hone
    rw [hone] at hfilled
    exact absurd hfilled (by show ¬(127 = t.current.length); omega)
  constructor
  · exact h.sound.takeByte b
  · show (s.dma.takeByte b).tc = false
    rw [takeByte_of_ne hne]
    dsimp only
    rw [h.tc, hlast]
    rfl
  · show (s.dma.takeByte b).inFlight = t.current ++ [b]
    rw [inFlight_takeByte h.sound.cntr hne, h.current]
  · rw [List.length_append, List.length_singleton]
    exact hroom
  · show (s.dma.takeByte b).ring.contents = _
    rw [takeByte_of_ne hne]
    exact h.ring
  · exact h.packets
  · exact h.few
  · exact h.angle

/-- What the handlers do behind a packet. -/
theorem exec_packet (h : Carries s t) : Runs.exec dmaStep s.dma [.dma1, .quiet, .usart1] =
    { s.dma.rearm with
      ring := s.dma.ring.pushHuge (s.dma.rxBuffer s.dma.useBuffer) (rxBufferCount - s.dma.cntr)
      tc := s.dma.tc
      idle := false } := by
  have hdma : dmaStep s.dma .dma1 = s.dma := if_neg (by rw [h.tc]; exact Bool.false_ne_true)
  rw [Runs.exec_cons, hdma]
  rfl

theorem packet (h : Carries s t) {roll pitch yaw : Int16}
    (hsent : Sent t.current roll pitch yaw) (hfew : t.waiting.length < 3) :
    Carries { s with dma := Runs.exec dmaStep s.dma [.dma1, .quiet, .usart1] }
      { t with current := [], waiting := t.waiting ++ [(t.current, angles roll pitch yaw)] } := by
  have hfilled := h.filled
  have hcount := h.remainCount
  have hlength := hsent.length
  -- three packets wait at most, so the ring has room for this one
  have htaken : min (rxBufferCount - s.dma.cntr).toNat s.dma.room = s.dma.filled := by
    rw [toNat_rxlen h.sound.cntr]
    apply Nat.min_eq_left
    rw [room]
    omega
  rw [h.exec_packet]
  constructor
  · exact h.sound.handOver _ _ s.dma.tc false
  · exact h.tc
  · exact inFlight_of_start rfl
  · exact Nat.zero_le 33
  · show (s.dma.ring.pushHuge (s.dma.rxBuffer s.dma.useBuffer)
      (rxBufferCount - s.dma.cntr)).contents = _
    rw [contents_handOver h.sound, htaken, h.ring, List.map_append, List.flatten_append,
      List.map_singleton, List.flatten_singleton, ← h.sound.maddr]
    exact congrArg _ h.current
  · intro p hp
    rcases List.mem_append.1 hp with hp | hp
    · exact h.packets p hp
    · rw [List.mem_singleton.1 hp]
      exact ⟨roll, pitch, yaw, hsent, rfl⟩
  · rw [List.length_append, List.length_singleton]
    exact hfew
  · exact h.angle

/-- A call reads the packet that waits alone, and nothing otherwise. -/
theorem call (h : Carries s t) : Carries s.getAngle (readerStep t .call) := by
  obtain ⟨q, hq⟩ := h.sound.ring
  let imu : Imu K := { s.imu with ring := s.dma.ring }
  have hcount : imu.ring.remainCount.toNat = 33 * t.waiting.length := h.remainCount
  have hfew := h.few
  have hle : imu.ring.remainCount.toNat ≤ 128 := by omega
  obtain ⟨hring, hempty⟩ := getAngle_ring (s := imu) hq hle
  have hangle : (RoboticArm.getAngle imu).angle = (readerStep t .call).angle := by
    rcases hwait : t.waiting with _ | ⟨p, _ | ⟨r, rest⟩⟩
    · rw [hwait] at hcount
      rw [List.length_nil] at hcount
      rw [getAngle_other (s := imu) hq hle (by omega)]
      simp only [readerStep, hwait]
      exact h.angle
    · have hp : p ∈ t.waiting := by
        rw [hwait]
        exact List.mem_singleton_self p
      obtain ⟨roll, pitch, yaw, hsent, hvalues⟩ := h.packets p hp
      have hcontents : imu.ring.contents = p.1 := by
        show s.dma.ring.contents = p.1
        rw [h.ring, hwait, List.map_singleton, List.flatten_singleton]
      rw [← hcontents] at hsent
      rw [getAngle_packet (s := imu) hq hsent]
      simp only [readerStep, hwait]
      exact hvalues.symm
    · rw [hwait, List.length_cons, List.length_cons] at hcount
      rw [getAngle_other (s := imu) hq hle (by omega)]
      simp only [readerStep, hwait]
      exact h.angle
  constructor
  · exact ⟨hring, h.sound.cntr, h.sound.maddr⟩
  · exact h.tc
  · exact h.current
  · exact h.short
  · exact hempty
  · intro p hp
    exact absurd hp List.not_mem_nil
  · exact Nat.zero_le 3
  · exact hangle

end Carries

end

/-! ## Runs -/

section
variable [Field K]

/-- After power-up, with nothing received and the angles at zero. -/
def ImuLine.boot : ImuLine K :=
  { dma := UsartDma.boot
    imu := ⟨RingBuffer.boot, fun _ => 0, 0, 0, ⟨0, 0, 0⟩, [], []⟩ }

def Reader.boot : Reader K := ⟨[], [], ⟨0, 0, 0⟩⟩

theorem carries_boot : Carries (ImuLine.boot : ImuLine K) Reader.boot where
  sound := sound_dmaBoot
  tc := rfl
  current := rfl
  short := Nat.zero_le 33
  ring := rfl
  packets := fun _ hp => absurd hp List.not_mem_nil
  few := Nat.zero_le 3
  angle := rfl

theorem carries_step {s : ImuLine K} {t : Reader K} (h : Carries s t) {a : LineAct} (ha : Sends t a) :
    Carries (lineStep s a) (readerStep t a) := by
  cases a with
  | byte b => exact h.byte ha b
  | packet roll pitch yaw => exact h.packet ha.1 ha.2
  | call => exact h.call

/-- Over every run the angles are those of the reader: every call that finds one packet reads
it, and no other call changes them. -/
theorem attitude_refines (as : List LineAct)
    (h : Runs.Along Sends readerStep (Reader.boot : Reader K) as) :
    (Runs.exec lineStep (ImuLine.boot : ImuLine K) as).imu.angle =
      (Runs.exec readerStep (Reader.boot : Reader K) as).angle := by
  have hrun : Carries (Runs.exec lineStep (ImuLine.boot : ImuLine K) as)
      (Runs.exec readerStep Reader.boot as) := by
    have hsim := Runs.exec_sim_along (R := fun t s => Carries s t) id
      (fun _ _ _ hR ha => carries_step hR ha) carries_boot h
    rwa [List.map_id] at hsim
  exact hrun.angle

end

theorem along_bytes {s : Reader K} {l : List UInt8} (h : s.current.length + l.length ≤ 33)
    [Field K] : Runs.Along Sends readerStep s (l.map .byte) ∧
      Runs.exec readerStep s (l.map .byte) = { s with current := s.current ++ l } := by
  induction l generalizing s with
  | nil => exact ⟨trivial, by rw [List.append_nil]; rfl⟩
  | cons b l ih =>
    rw [List.length_cons] at h
    obtain ⟨halong, hexec⟩ := ih (s := { s with current := s.current ++ [b] })
      (by rw [List.length_append, List.length_singleton]; omega)
    refine ⟨⟨by show s.current.length < 33; omega, halong⟩, ?_⟩
    rw [List.map_cons, Runs.exec_cons]
    refine hexec.trans ?_
    rw [List.append_assoc, List.singleton_append]

/-- The example packet of the source, with calls in the middle and behind it. -/
def sampleRun : List LineAct :=
  ((List.range 20).map samplePacket).map .byte ++ .call ::
    (((List.range' 20 13).map samplePacket).map .byte ++
      [.packet 0x41fe 0x6f (-0xe61), .call, .byte 0x55, .call])

theorem sent_samplePacket : Sent ((List.range 33).map samplePacket) 0x41fe 0x6f (-0xe61) :=
  ⟨rfl, 22, packet_samplePacket, by decide, by decide, by decide⟩

theorem attitude_refines_sampleRun :
    (Runs.exec lineStep (ImuLine.boot : ImuLine ℚ) sampleRun).imu.angle =
      angles 0x41fe 0x6f (-0xe61) := by
  obtain ⟨hhead, hhead'⟩ := along_bytes (s := (Reader.boot : Reader ℚ))
    (l := (List.range 20).map samplePacket) (by decide)
  obtain ⟨htail, htail'⟩ := along_bytes
    (s := readerStep { (Reader.boot : Reader ℚ) with
      current := [] ++ (List.range 20).map samplePacket } .call)
    (l := (List.range' 20 13).map samplePacket) (by decide)
  have hsends : Runs.Along Sends readerStep (Reader.boot : Reader ℚ) sampleRun := by
    refine Runs.along_append.2 ⟨hhead, trivial, ?_⟩
    rw [hhead']
    refine Runs.along_append.2 ⟨htail, ?_⟩
    refine (congrArg (Runs.Along Sends readerStep · _) htail').mpr ?_
    exact ⟨⟨sent_samplePacket, Nat.succ_pos 2⟩, trivial, Nat.succ_pos 32, trivial, trivial⟩
  rw [attitude_refines sampleRun hsends]
  rfl

end RoboticArm
