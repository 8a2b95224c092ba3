import LoginServer.Buffers.Fifo
import LoginServer.Receiving.Packet

namespace LoginServer
namespace Receiving

open Memory Buffers

/-!
# Receiving without a copy

`recvIO` computes the free region of a ring for the kernel, and `push` computes
it again when it copies.  For a ring of any capacity the posted regions are the
free bytes and nothing else, and bytes stored in them count as pushed once
`MoveRear` has been called.
-/

variable {bits : Nat}

/-- The `WSABUF` array of `recvIO`, over a ring of any capacity. -/
def wsaBuffers (ring : RingBuffer bits) : List WsaBuf :=
  let direct := ring.directEnqueueSize
  let freeSize := Serializer.sizeT ((ring.freeSize : Int) - direct)
  if freeSize > 0 then [⟨ring.tail, direct⟩, ⟨0, freeSize⟩] else [⟨ring.tail, direct⟩]

theorem recvBuffers_eq (ring : RecvBuffer) : recvBuffers ring = wsaBuffers ring := rfl

/-- The ring after bytes have been stored in its posted regions. -/
def storedInto (ring : RingBuffer bits) (data : List Byte) : RingBuffer bits :=
  { ring with buffer := fill ring.buffer (wsaBuffers ring) data }

/-- The offsets of a region. -/
def WsaBuf.Covers (buffer : WsaBuf) (offset : Nat) : Prop :=
  buffer.offset ≤ offset ∧ offset < buffer.offset + buffer.length

/-- The offsets of the readable bytes. -/
def Readable (ring : RingBuffer bits) (offset : Nat) : Prop :=
  Exists fun index => index < ring.size ∧ offset = (ring.head + index) % ring.bufferSize

/-! ## Shape of the regions -/

/-- The first region ends at the head or at the end of the allocation, and does
not reach beyond the free bytes. -/
theorem directEnqueueSize_le (ring : RingBuffer bits) : ring.directEnqueueSize ≤ ring.freeSize := by
  have headBound := ring.headPtr.isLt
  have tailBound := ring.tailPtr.isLt
  have sizes := ring.size_cases
  have free := ring.freeSize_eq
  have tailAt := ring.tail_eq
  rw [mod_eq_wrap (by omega)] at tailAt
  unfold RingBuffer.directEnqueueSize RingBuffer.bufferSize
  split at tailAt <;> split at sizes <;> split <;> omega

/-- One region up to the head, or one up to the end of the allocation with
another one behind the wrap. -/
theorem wsaBuffers_cases (ring : RingBuffer bits) :
    (ring.tail ≤ ring.headPtr.val ∧ wsaBuffers ring = [⟨ring.tail, ring.freeSize⟩] ∧
        ring.tail + ring.freeSize = ring.headPtr.val) ∨
      (ring.headPtr.val < ring.tail ∧ wsaBuffers ring = [⟨ring.tail, ring.freeSize⟩] ∧
        ring.tail + ring.freeSize = 2 ^ bits) ∨
      (0 < ring.headPtr.val ∧ ring.headPtr.val < ring.tail ∧
        wsaBuffers ring = [⟨ring.tail, 2 ^ bits - ring.tail⟩, ⟨0, ring.headPtr.val⟩] ∧
        2 ^ bits - ring.tail + ring.headPtr.val = ring.freeSize) := by
  have headBound := ring.headPtr.isLt
  have tailBound := ring.tailPtr.isLt
  have sizes := ring.size_cases
  have free := ring.freeSize_eq
  have tailAt := ring.tail_eq
  have capacity : 2 ^ bits ≤ 2 ^ 31 := Nat.pow_le_pow_right (by decide) ring.bits_le
  rw [mod_eq_wrap (by omega)] at tailAt
  by_cases ahead : ring.tail ≤ ring.headPtr.val
  · have direct : ring.directEnqueueSize = ring.headPtr.val - ring.tail := if_pos ahead
    have whole : ring.directEnqueueSize = ring.freeSize := by
      split at tailAt <;> split at sizes <;> omega
    have rest : Serializer.sizeT ((ring.freeSize : Int) - ring.directEnqueueSize) = 0 := by
      rw [whole, Int.sub_self]
      simp [Serializer.sizeT]
    have shape : wsaBuffers ring = [⟨ring.tail, ring.freeSize⟩] := by
      simp only [wsaBuffers, rest, gt_iff_lt, Nat.lt_irrefl, if_false]
      rw [whole]
    exact Or.inl ⟨ahead, shape, by omega⟩
  · have direct : ring.directEnqueueSize = 2 ^ bits - ring.tail := if_neg ahead
    have whole : 2 ^ bits - ring.tail + ring.headPtr.val = ring.freeSize := by
      split at tailAt <;> split at sizes <;> omega
    have rest : Serializer.sizeT ((ring.freeSize : Int) - ring.directEnqueueSize) =
        ring.headPtr.val := by
      have cast : (ring.freeSize : Int) - ring.directEnqueueSize = (ring.headPtr.val : Int) := by
        omega
      rw [cast, Serializer.sizeT_natCast (by omega)]
    by_cases none : ring.headPtr.val = 0
    · have shape : wsaBuffers ring = [⟨ring.tail, ring.freeSize⟩] := by
        simp only [wsaBuffers, rest, none, gt_iff_lt, Nat.lt_irrefl, if_false]
        rw [direct, ← whole, none, Nat.add_zero]
      have bound := ring.tail_lt
      exact Or.inr (Or.inl ⟨Nat.lt_of_not_le ahead, shape, by omega⟩)
    · have positive := Nat.pos_of_ne_zero none
      have shape : wsaBuffers ring = [⟨ring.tail, 2 ^ bits - ring.tail⟩, ⟨0, ring.headPtr.val⟩] := by
        simp only [wsaBuffers, rest, gt_iff_lt, positive, if_true]
        rw [direct]
      exact Or.inr (Or.inr ⟨positive, Nat.lt_of_not_le ahead, shape, whole⟩)

/-- Readable bytes are not at the head, and run from there to one before the
first free byte. -/
theorem readable_cases (ring : RingBuffer bits) {offset : Nat} (readable : Readable ring offset) :
    (ring.headPtr.val ≤ ring.tailPtr.val ∧ ring.headPtr.val < offset ∧ offset ≤ ring.tailPtr.val) ∨
      (ring.tailPtr.val < ring.headPtr.val ∧
        (offset ≤ ring.tailPtr.val ∨ ring.headPtr.val < offset ∧ offset < 2 ^ bits)) := by
  have headBound := ring.headPtr.isLt
  have tailBound := ring.tailPtr.isLt
  have sizes := ring.size_cases
  have headAt := ring.head_eq
  rw [mod_eq_wrap (by omega)] at headAt
  rcases readable with ⟨index, inside, place⟩
  have headLess := ring.head_lt
  have short := ring.size_lt
  unfold RingBuffer.bufferSize at place
  rw [mod_eq_wrap (by omega)] at place
  split at sizes <;> split at headAt <;> split at place <;> omega

/-- Offsets between the first free byte and the head are not readable. -/
theorem not_readable (ring : RingBuffer bits) {offset : Nat}
    (free : (ring.tail ≤ ring.headPtr.val ∧ ring.tail ≤ offset ∧ offset < ring.headPtr.val) ∨
      (ring.headPtr.val < ring.tail ∧ (ring.tail ≤ offset ∨ offset < ring.headPtr.val))) :
    ¬ Readable ring offset := by
  intro readable
  have headBound := ring.headPtr.isLt
  have tailBound := ring.tailPtr.isLt
  have place := readable_cases ring readable
  have tailAt := ring.tail_eq
  rw [mod_eq_wrap (by omega)] at tailAt
  split at tailAt <;> omega

/-- Posted bytes are inside the allocation and not readable. -/
theorem wsaBuffers_free (ring : RingBuffer bits) {buffer : WsaBuf} (posted : buffer ∈ wsaBuffers ring) :
    buffer.offset + buffer.length ≤ ring.bufferSize ∧
      forall offset, buffer.Covers offset -> ¬ Readable ring offset := by
  have headBound := ring.headPtr.isLt
  have tailBound := ring.tail_lt
  rcases buffer with ⟨start, length⟩
  unfold RingBuffer.bufferSize WsaBuf.Covers
  dsimp only
  rcases wsaBuffers_cases ring with ⟨ahead, shape, ends⟩ | ⟨behind, shape, ends⟩ |
    ⟨_, behind, shape, ends⟩ <;>
    rw [shape] at posted
  · cases List.mem_singleton.mp posted
    exact ⟨by omega, fun offset covers => not_readable ring (by omega)⟩
  · cases List.mem_singleton.mp posted
    exact ⟨by omega, fun offset covers => not_readable ring (by omega)⟩
  · rcases List.mem_pair.mp posted with same | same <;> cases same
    · exact ⟨by omega, fun offset covers => not_readable ring (by omega)⟩
    · exact ⟨by omega, fun offset covers => not_readable ring (by omega)⟩

theorem wsaBuffers_disjoint (ring : RingBuffer bits) :
    (wsaBuffers ring).Pairwise fun first second =>
      forall offset, ¬ (first.Covers offset ∧ second.Covers offset) := by
  rcases wsaBuffers_cases ring with ⟨_, shape, _⟩ | ⟨_, shape, _⟩ | ⟨_, behind, shape, _⟩ <;> rw [shape]
  · exact List.pairwise_singleton _ _
  · exact List.pairwise_singleton _ _
  · apply List.pairwise_pair.mpr
    intro offset both
    simp only [WsaBuf.Covers] at both
    omega

theorem wsaBuffers_total (ring : RingBuffer bits) :
    ((wsaBuffers ring).map WsaBuf.length).sum = ring.freeSize := by
  rcases wsaBuffers_cases ring with ⟨_, shape, _⟩ | ⟨_, shape, _⟩ | ⟨_, _, shape, whole⟩ <;> rw [shape]
  · simp
  · simp
  · simpa using whole

/-! ## Storing into the regions -/

/-- The posted regions are the free bytes in order, in one or two pieces. -/
theorem fill_wsaBuffers (ring : RingBuffer bits) (data : List Byte) (fits : data.length ≤ ring.freeSize) :
    fill ring.buffer (wsaBuffers ring) data = writeCircular ring.buffer (2 ^ bits) ring.tail data := by
  have headBound := ring.headPtr.isLt
  rcases wsaBuffers_cases ring with ⟨_, shape, ends⟩ | ⟨_, shape, ends⟩ | ⟨_, behind, shape, ends⟩ <;>
    rw [shape]
  · simp only [fill]
    rw [List.take_of_length_le fits, writeCircular, if_pos (by omega)]
  · simp only [fill]
    rw [List.take_of_length_le fits, writeCircular, if_pos (by omega)]
  · simp only [fill]
    unfold writeCircular
    split
    next straight =>
      rw [List.take_of_length_le (by omega), List.drop_of_length_le (by omega)]
      simp
    next wraps =>
      congr 1
      exact List.take_of_length_le (by rw [List.length_drop]; omega)

/-- Storing and `MoveRear` end in the ring that `push` ends in. -/
theorem storedInto_moveRear (ring : RingBuffer bits) (data : List Byte)
    (fits : data.length ≤ ring.freeSize) :
    ((storedInto ring data).moveRear data.length).2 = (ring.push data).2 := by
  have free := ring.freeSize_eq
  have capacity : 2 ^ bits ≤ 2 ^ 31 := Nat.pow_le_pow_right (by decide) ring.bits_le
  have buffer : fill ring.buffer (wsaBuffers ring) data = (ring.push data).2.buffer := by
    rw [fill_wsaBuffers ring data fits, ring.push_buffer data fits]
    rfl
  have between := ring.freeSizeBetween_eq
  have whole : ¬ data.length > ring.freeSizeBetween := by omega
  have unclamped : ¬ (data.length : Int) > min (ring.freeSizeBetween : Int) (2 ^ 31 - 1) := by omega
  have tail : (ring.push data).2.tailPtr = ((storedInto ring data).moveRear data.length).2.tailPtr := by
    have same : (storedInto ring data).freeSizeBetween = ring.freeSizeBetween := rfl
    simp only [RingBuffer.push, RingBuffer.moveRear, same, if_neg whole, if_neg unclamped]
    rfl
  have left : ((storedInto ring data).moveRear data.length).2 =
      { ring with
        buffer := fill ring.buffer (wsaBuffers ring) data
        tailPtr := ((storedInto ring data).moveRear data.length).2.tailPtr } := rfl
  rw [left, buffer, ← tail]
  rfl

/-- The regions `recvIO` posts lie inside the buffer, apart from each other and
from every readable byte, and have the length `freeSize()`, computed without
underflow.  Storing up to that many bytes in them and calling `MoveRear` gives
the tail and the content that `push` gives. -/
theorem zeroCopy_push (ring : RingBuffer bits) :
    (forall buffer, buffer ∈ wsaBuffers ring -> buffer.offset + buffer.length ≤ ring.bufferSize ∧
        forall offset, buffer.Covers offset -> ¬ Readable ring offset) ∧
      ((wsaBuffers ring).Pairwise fun first second =>
        forall offset, ¬ (first.Covers offset ∧ second.Covers offset)) ∧
      ring.directEnqueueSize ≤ ring.freeSize ∧
      ((wsaBuffers ring).map WsaBuf.length).sum = ring.freeSize ∧
      forall data : List Byte, data.length ≤ ring.freeSize ->
        ((storedInto ring data).moveRear data.length).2.tailPtr = (ring.push data).2.tailPtr ∧
          ((storedInto ring data).moveRear data.length).2.content = (ring.push data).2.content := by
  refine ⟨fun buffer => wsaBuffers_free ring, wsaBuffers_disjoint ring, directEnqueueSize_le ring,
    wsaBuffers_total ring, ?_⟩
  intro data fits
  rw [storedInto_moveRear ring data fits]
  exact ⟨rfl, rfl⟩

end Receiving
end LoginServer
