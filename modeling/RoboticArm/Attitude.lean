import RoboticArm.Bytes
import RoboticArm.Imu

/- The packets of the attitude sensor: what `parse_wt_protocol` makes of a good one, and of
   one with a single damaged byte.

   A packet is three frames of 11 bytes, each with a header and the sum of its bytes; one
   of them carries the angles. `parseFrames` looks for the first frame with the header and
   type of an angle frame. A damaged byte belongs to one frame, the sum of which is then
   wrong (`calculateChecksum_damaged`), and leaves the others as they are:

   1. if the damaged frame looks like an angle frame it is rejected by its sum;
   2. if not, the angles come from the frame they came from before, or from none.

   `attitude_packets` puts the two together. An angle is a word of 16 bits times 180 / 32768,
   which single precision holds exactly. -/
namespace RoboticArm

open Bytes

/-! ## Words -/

/-- The two bytes of a word stand at `i`, the low one first. -/
def WordAt (data : Nat → UInt8) (i : Nat) (x : Int16) : Prop :=
  data i = x.toUInt16.toUInt8 ∧ data (i + 1) = (x.toUInt16 >>> 8).toUInt8

instance (data : Nat → UInt8) (i : Nat) (x : Int16) : Decidable (WordAt data i x) :=
  inferInstanceAs (Decidable (_ ∧ _))

theorem bytesToSignedShort_of_wordAt {data : Nat → UInt8} {i : Nat} {x : Int16}
    (h : WordAt data i x) : bytesToSignedShort (data i) (data (i + 1)) = x := by
  show (word16 (data (i + 1)) (data i)).toInt16 = x
  rw [h.1, h.2, word16_bytes]
  rfl

/-! ## Sums -/

variable {data : Nat → UInt8} {i k : Nat} {v : UInt8}

theorem calculateChecksum_congr {x y : Nat → UInt8} {start : Nat} : ∀ {len},
    (∀ j < len, x (start + j) = y (start + j)) →
      calculateChecksum x start len = calculateChecksum y start len
  | 0, _ => rfl
  | len + 1, h => by
    rw [calculateChecksum, calculateChecksum, h len (Nat.lt_succ_self len),
      calculateChecksum_congr fun j hj => h j (Nat.lt_succ_of_lt hj)]

theorem calculateChecksum_update {len : Nat} (hk : k < len) :
    calculateChecksum (Function.update data (i + k) v) i len =
      calculateChecksum data i len + (v - data (i + k)) := by
  induction len with
  | zero => exact absurd hk (Nat.not_lt_zero k)
  | succ len ih =>
    rw [calculateChecksum, calculateChecksum]
    rcases Nat.lt_succ_iff_lt_or_eq.1 hk with hlt | rfl
    · rw [ih hlt, Function.update_of_ne (by omega)]
      grind
    · rw [Function.update_self, calculateChecksum_congr (y := data) fun j hj =>
        Function.update_of_ne (by omega) v data]
      grind

/-- Whichever byte of a frame is damaged, its sum no longer fits. -/
theorem calculateChecksum_damaged (hk : k < 11) (hv : v ≠ data (i + k))
    (hsum : calculateChecksum data i 10 = data (i + 10)) :
    calculateChecksum (Function.update data (i + k) v) i 10 ≠
      Function.update data (i + k) v (i + 10) := by
  by_cases hlast : k = 10
  · subst hlast
    have hsame : calculateChecksum (Function.update data (i + 10) v) i 10 =
        calculateChecksum data i 10 :=
      calculateChecksum_congr fun j hj => Function.update_of_ne (by omega) v data
    rw [hsame, hsum, Function.update_self]
    exact hv.symm
  · rw [calculateChecksum_update (by omega), hsum, Function.update_of_ne (by omega)]
    intro heq
    apply hv
    grind

/-! ## Frames -/

/-- The frame at `i` has the header and the type of an angle frame. -/
def AngleFrame (data : Nat → UInt8) (i : Nat) : Prop := data i = 0x55 ∧ data (i + 1) = 0x53

instance (data : Nat → UInt8) (i : Nat) : Decidable (AngleFrame data i) :=
  inferInstanceAs (Decidable (_ ∧ _))

/-- Two buffers have the same frame at `i`. -/
def SameFrame (x y : Nat → UInt8) (i : Nat) : Prop := ∀ j < 11, x (i + j) = y (i + j)

/-- A result with the angles left alone and an error code. -/
def Rejected {K : Type} (r : UInt8 × Attitude K) (a : Attitude K) : Prop := r.1 ≠ 0 ∧ r.2 = a

theorem rejected_three {K : Type} {a : Attitude K} : Rejected (3, a) a :=
  ⟨(by decide : (3 : UInt8) ≠ 0), rfl⟩

theorem rejected_two {K : Type} {a : Attitude K} : Rejected (2, a) a :=
  ⟨(by decide : (2 : UInt8) ≠ 0), rfl⟩

section
variable {K : Type} [Field K] {x y : Nat → UInt8} {a : Attitude K} {rest : List Nat}

theorem SameFrame.angleFrame (h : SameFrame x y i) : AngleFrame x i ↔ AngleFrame y i := by
  rw [AngleFrame, AngleFrame, h 1 (by decide), show x i = y i from h 0 (by decide)]

theorem parseFrames_skip (h : ¬ AngleFrame x i) : parseFrames x a (i :: rest) = parseFrames x a rest :=
  if_neg h

theorem parseFrames_reject (h : AngleFrame x i) (hsum : calculateChecksum x i 10 ≠ x (i + 10)) :
    parseFrames x a (i :: rest) = (3, a) :=
  (if_pos h).trans (if_pos hsum)

theorem parseFrames_accept (h : AngleFrame x i) (hsum : calculateChecksum x i 10 = x (i + 10)) :
    parseFrames x a (i :: rest) =
      (0, ⟨toAngle (bytesToSignedShort (x (i + 2)) (x (i + 3))),
        toAngle (bytesToSignedShort (x (i + 4)) (x (i + 5))),
        toAngle (bytesToSignedShort (x (i + 6)) (x (i + 7)))⟩) :=
  (if_pos h).trans (if_neg (not_not.2 hsum))

theorem parseFrames_none {l : List Nat} (h : ∀ i ∈ l, ¬ AngleFrame x i) :
    parseFrames x a l = (2, a) := by
  induction l with
  | nil => rfl
  | cons i l ih =>
    rw [parseFrames_skip (h i List.mem_cons_self)]
    exact ih fun j hj => h j (List.mem_cons_of_mem i hj)

theorem parseFrames_cons_congr (h : SameFrame x y i)
    (hrest : parseFrames x a rest = parseFrames y a rest) :
    parseFrames x a (i :: rest) = parseFrames y a (i :: rest) := by
  have hsum : calculateChecksum x i 10 = calculateChecksum y i 10 :=
    calculateChecksum_congr fun j hj => h j (by omega)
  have hhead : x i = y i := h 0 (by decide)
  rw [parseFrames, parseFrames, hsum, hhead, h 1 (by decide), h 2 (by decide), h 3 (by decide),
    h 4 (by decide), h 5 (by decide), h 6 (by decide), h 7 (by decide), h 10 (by decide), hrest]

theorem parseFrames_congr {l : List Nat} (h : ∀ i ∈ l, SameFrame x y i) :
    parseFrames x a l = parseFrames y a l := by
  induction l with
  | nil => rfl
  | cons i l ih =>
    exact parseFrames_cons_congr (h i List.mem_cons_self)
      (ih fun j hj => h j (List.mem_cons_of_mem i hj))

theorem parseFrames_same {rest' : List Nat} (hangle : AngleFrame y i) (h : SameFrame x y i) :
    parseFrames x a (i :: rest) = parseFrames y a (i :: rest') := by
  have hsum : calculateChecksum x i 10 = calculateChecksum y i 10 :=
    calculateChecksum_congr fun j hj => h j (by omega)
  have hangle' : AngleFrame x i := h.angleFrame.2 hangle
  by_cases hgood : calculateChecksum y i 10 = y (i + 10)
  · rw [parseFrames_accept hangle hgood,
      parseFrames_accept hangle' (hsum.trans (hgood.trans (h 10 (by decide)).symm)),
      h 2 (by decide), h 3 (by decide), h 4 (by decide), h 5 (by decide), h 6 (by decide),
      h 7 (by decide)]
  · rw [parseFrames_reject hangle hgood, parseFrames_reject hangle']
    rw [hsum, h 10 (by decide)]
    exact hgood

/-- One of the frames is damaged, and its sum is wrong. The others are the same; at most one
of the frames was an angle frame. -/
theorem parseFrames_damaged {f : Nat} : ∀ {l : List Nat}, l.Nodup →
    (∀ i ∈ l, i ≠ f → SameFrame x y i) →
    (∀ i ∈ l, ∀ j ∈ l, AngleFrame y i → AngleFrame y j → i = j) →
    calculateChecksum x f 10 ≠ x (f + 10) →
    Rejected (parseFrames x a l) a ∨ parseFrames x a l = parseFrames y a l
  | [], _, _, _, _ => Or.inr rfl
  | i :: l, hnodup, hsame, hunique, hbad => by
    obtain ⟨hnot, hnodup'⟩ := List.nodup_cons.1 hnodup
    have hsame' : ∀ j ∈ l, j ≠ f → SameFrame x y j := fun j hj => hsame j (List.mem_cons_of_mem i hj)
    by_cases hi : i = f
    · subst hi
      have hrest : ∀ j ∈ l, SameFrame x y j := fun j hj => hsame' j hj fun heq => hnot (heq ▸ hj)
      by_cases hangle : AngleFrame x i
      · left
        rw [parseFrames_reject hangle hbad]
        exact rejected_three
      · rw [parseFrames_skip hangle, parseFrames_congr hrest]
        by_cases hwas : AngleFrame y i
        · -- the only angle frame is lost
          left
          rw [parseFrames_none]
          · exact rejected_two
          · intro j hj hj'
            exact hnot (hunique i List.mem_cons_self j (List.mem_cons_of_mem i hj) hwas hj' ▸ hj)
        · right
          rw [parseFrames_skip hwas]
    · have hframe : SameFrame x y i := hsame i List.mem_cons_self hi
      by_cases hangle : AngleFrame y i
      · right
        exact parseFrames_same hangle hframe
      · rw [parseFrames_skip hangle, parseFrames_skip fun hx => hangle (hframe.angleFrame.1 hx)]
        exact parseFrames_damaged hnodup' hsame'
          (fun j hj k hk => hunique j (List.mem_cons_of_mem i hj) k (List.mem_cons_of_mem i hk)) hbad

/-! ## Packets -/

/-- The places of the three frames in a packet. -/
def frames : List Nat := [0, 11, 22]

/-- A packet as the sensor sends it, with the angles in the frame at `place`. -/
structure Packet (data : Nat → UInt8) (place : Nat) : Prop where
  place_mem : place ∈ frames
  header : ∀ i ∈ frames, data i = 0x55
  sum : ∀ i ∈ frames, calculateChecksum data i 10 = data (i + 10)
  type : ∀ i ∈ frames, data (i + 1) = 0x53 ↔ i = place

theorem Packet.angleFrame {place : Nat} (h : Packet data place) (hi : i ∈ frames) :
    AngleFrame data i ↔ i = place := by
  rw [AngleFrame, h.type i hi]
  exact and_iff_right (h.header i hi)

/-- The angles in three words: 180 degrees are 32768. -/
def angles (roll pitch yaw : Int16) : Attitude K where
  roll := (roll.toInt : K) / 32768 * 180
  pitch := (pitch.toInt : K) / 32768 * 180
  yaw := (yaw.toInt : K) / 32768 * 180

/-- The angle frame is found wherever it stands. -/
theorem parseFrames_found {place : Nat} {roll pitch yaw : Int16} (hangle : AngleFrame x place)
    (hsum : calculateChecksum x place 10 = x (place + 10)) (hroll : WordAt x (place + 2) roll)
    (hpitch : WordAt x (place + 4) pitch) (hyaw : WordAt x (place + 6) yaw) :
    ∀ {l : List Nat}, place ∈ l → (∀ i ∈ l, AngleFrame x i → i = place) →
      parseFrames x a l = (0, angles roll pitch yaw)
  | i :: l, hmem, honly => by
    by_cases hi : AngleFrame x i
    · cases honly i List.mem_cons_self hi
      rw [parseFrames_accept hi hsum, bytesToSignedShort_of_wordAt hroll,
        bytesToSignedShort_of_wordAt hpitch, bytesToSignedShort_of_wordAt hyaw]
      rfl
    · rw [parseFrames_skip hi]
      refine parseFrames_found hangle hsum hroll hpitch hyaw ?_ fun j hj =>
        honly j (List.mem_cons_of_mem i hj)
      rcases List.mem_cons.1 hmem with rfl | hmem
      · exact absurd hangle hi
      · exact hmem

theorem exists_frame {k : Nat} (hk : k < 33) : ∃ i ∈ frames, ∃ j < 11, k = i + j := by
  refine ⟨k / 11 * 11, ?_, k % 11, Nat.mod_lt k (by decide), (Nat.div_add_mod' k 11).symm⟩
  have hdiv : k / 11 = 0 ∨ k / 11 = 1 ∨ k / 11 = 2 := by omega
  rcases hdiv with h | h | h <;> rw [h] <;> decide

theorem sameFrame_update {f j : Nat} (hf : f ∈ frames) (hj : j < 11) (hi : i ∈ frames) (hne : i ≠ f) :
    SameFrame (Function.update data (f + j) v) data i := by
  intro n hn
  apply Function.update_of_ne
  simp only [frames, List.mem_cons, List.not_mem_nil, or_false] at hf hi
  omega

/-- The angles of a packet are read, and with one damaged byte the packet is rejected or the
same angles are read. -/
theorem attitude_packets {place : Nat} {roll pitch yaw : Int16} (h : Packet data place)
    (hroll : WordAt data (place + 2) roll) (hpitch : WordAt data (place + 4) pitch)
    (hyaw : WordAt data (place + 6) yaw) :
    parseWtProtocol data 33 a = (0, angles roll pitch yaw) ∧
      ∀ k < 33, ∀ v ≠ data k,
        Rejected (parseWtProtocol (Function.update data k v) 33 a) a ∨
          parseWtProtocol (Function.update data k v) 33 a = (0, angles roll pitch yaw) := by
  have hangle : AngleFrame data place := (h.angleFrame h.place_mem).2 rfl
  have honly : ∀ i ∈ frames, AngleFrame data i → i = place := fun i hi => (h.angleFrame hi).1
  have hgood : parseWtProtocol data 33 a = (0, angles roll pitch yaw) :=
    parseFrames_found hangle (h.sum place h.place_mem) hroll hpitch hyaw h.place_mem honly
  refine ⟨hgood, ?_⟩
  intro k hk v hv
  obtain ⟨f, hf, j, hj, rfl⟩ := exists_frame hk
  have hunique : ∀ i ∈ frames, ∀ n ∈ frames, AngleFrame data i → AngleFrame data n → i = n :=
    fun i hi n hn hi' hn' => (honly i hi hi').trans (honly n hn hn').symm
  rw [← hgood]
  exact parseFrames_damaged (by decide) (fun i hi hne => sameFrame_update hf hj hi hne) hunique
    (calculateChecksum_damaged hj hv (h.sum f hf))

end

/-- The example packet of the source. -/
def samplePacket (i : Nat) : UInt8 :=
  [0x55, 0x51, 0xeb, 0xff, 0xe9, 0x07, 0x9d, 0xff, 0xbe, 0xff, 0xd9,
   0x55, 0x52, 0x00, 0x00, 0x00, 0x00, 0x01, 0x00, 0xc9, 0x89, 0xfa,
   0x55, 0x53, 0xfe, 0x41, 0x6f, 0x00, 0x9f, 0xf1, 0x0d, 0x81, 0x74].getD i 0

theorem packet_samplePacket : Packet samplePacket 22 :=
  ⟨by decide, by decide, by decide, by decide⟩

theorem attitude_packets_sample :
    parseWtProtocol samplePacket 33 (⟨0, 0, 0⟩ : Attitude ℚ) = (0, angles 0x41fe 0x6f (-0xe61)) ∧
      ∀ k < 33, ∀ v ≠ samplePacket k,
        Rejected (parseWtProtocol (Function.update samplePacket k v) 33 (⟨0, 0, 0⟩ : Attitude ℚ))
            ⟨0, 0, 0⟩ ∨
          parseWtProtocol (Function.update samplePacket k v) 33 (⟨0, 0, 0⟩ : Attitude ℚ) =
            (0, angles 0x41fe 0x6f (-0xe61)) :=
  attitude_packets packet_samplePacket (by decide) (by decide) (by decide)

end RoboticArm
