import Mathlib.Logic.Function.Basic

/- The receive path of USART1: the ring buffer of `uart_dma.c`.

   The DMA interrupts put whole receive buffers into the ring, the main loop takes single
   bytes out. Positions and the fill count are the `uint16_t` of the source, with its
   arithmetic; the arrays are functions of the index, so that an index past their end
   stays visible.

   Correspondence (C ↔ Lean):
     `RingBuffer`, `ring_buffer`   ↔ `RingBuffer`, `RingBuffer.boot`
     `memcpy`                      ↔ `memcpy`
     `ring_buffer_push_huge`       ↔ `RingBuffer.pushHuge`
     `ring_buffer_pop`             ↔ `RingBuffer.pop` -/
namespace RoboticArm

/-- `RX_BUFFER_LEN`, the length of the DMA buffers and of `g_rx_data_buffer`. -/
def rxBufferLen : Nat := 128

/-- `RING_BUFFER_LEN`. -/
def ringBufferLen : UInt16 := 1024

structure RingBuffer where
  buffer : Nat → UInt8
  recvPos : UInt16
  sendPos : UInt16
  remainCount : UInt16

def RingBuffer.boot : RingBuffer := ⟨fun _ => 0, 0, 0, 0⟩

/-- `len` bytes of `src` from `from` on, copied to `dst` from `pos` on. -/
def memcpy (dst : Nat → UInt8) (pos : Nat) (src : Nat → UInt8) (start len : Nat) : Nat → UInt8 :=
  fun i => if pos ≤ i ∧ i < pos + len then src (start + (i - pos)) else dst i

/-- Append the first bytes of `data`, as many as fit. -/
def RingBuffer.pushHuge (data : Nat → UInt8) (len : UInt16) (r : RingBuffer) : RingBuffer :=
  let bufferRemainCount := ringBufferLen - r.remainCount
  let len := if bufferRemainCount < len then bufferRemainCount else len
  let bufferSize := ringBufferLen - r.recvPos
  let r :=
    if len ≤ bufferSize then
      { r with
        buffer := memcpy r.buffer r.recvPos.toNat data 0 len.toNat
        recvPos := r.recvPos + len }
    else
      let otherSize := len - bufferSize
      let buffer := memcpy r.buffer r.recvPos.toNat data 0 bufferSize.toNat
      { r with
        buffer := memcpy buffer 0 data bufferSize.toNat otherSize.toNat
        recvPos := otherSize }
  { r with remainCount := r.remainCount + len }

/-- Take the oldest byte. -/
def RingBuffer.pop (r : RingBuffer) : UInt8 × RingBuffer :=
  let data := r.buffer r.sendPos.toNat
  let r := { r with sendPos := r.sendPos + 1 }
  let r := if ringBufferLen ≤ r.sendPos then { r with sendPos := 0 } else r
  (data, { r with remainCount := r.remainCount - 1 })

@[simp] theorem RingBuffer.pop_remainCount (r : RingBuffer) :
    r.pop.2.remainCount = r.remainCount - 1 := by
  unfold RingBuffer.pop
  dsimp only
  split <;> rfl

theorem RingBuffer.pushHuge_remainCount {r : RingBuffer} (h : r.remainCount ≤ ringBufferLen)
    (data : Nat → UInt8) (len : UInt16) :
    (r.pushHuge data len).remainCount.toNat = min (r.remainCount.toNat + len.toNat) 1024 := by
  have hcount : (r.pushHuge data len).remainCount = r.remainCount +
      (if ringBufferLen - r.remainCount < len then ringBufferLen - r.remainCount else len) := by
    unfold RingBuffer.pushHuge
    dsimp only
    generalize (if ringBufferLen - r.remainCount < len then _ else _ : UInt16) = n
    split <;> rfl
  have hle : r.remainCount.toNat ≤ 1024 := UInt16.le_iff_toNat_le.1 h
  have hroom : (ringBufferLen - r.remainCount).toNat = 1024 - r.remainCount.toNat :=
    UInt16.toNat_sub_of_le _ _ h
  have hlt : ∀ n : UInt16, n.toNat ≤ 1024 - r.remainCount.toNat →
      (r.remainCount + n).toNat = r.remainCount.toNat + n.toNat := by
    intro n hn
    rw [UInt16.toNat_add]
    exact Nat.mod_eq_of_lt (by omega)
  rw [hcount]
  split
  · next hfull =>
    have hfull' := UInt16.lt_iff_toNat_lt.1 hfull
    rw [hlt _ (Nat.le_of_eq hroom), hroom]
    omega
  · next hfits =>
    have hfits' := UInt16.le_iff_toNat_le.1 (UInt16.not_lt.1 hfits)
    rw [hlt _ (by omega)]
    omega

end RoboticArm
