import LoginServer.Buffers.RingBuffer
import LoginServer.Buffers.Serializer

namespace LoginServer
namespace Receiving

open Memory Buffers

/-!
# Receiving

`recvIO` hands the free region of `recvBuffer` to the kernel as one or two
`WSABUF`s, a completion moves `tailPtr` over the bytes that arrived
(`recved`), and the worker then takes packets off the front until
`recvedPacket` refuses.  The length of a packet is its five header bytes plus
the header's `short`, computed in `size_t`.

The extraction loop is sound exactly when no frame it meets has a size field
from -5 to -1.  Such a frame is accepted, removes fewer than five bytes, and
at -5 removes none, so that the loop never ends.
-/

/-- `recvBuffer(256)` -/
abbrev RecvBuffer := RingBuffer 8

/-- `ringBuffer(256)`, cleared. -/
def emptyRecvBuffer : RecvBuffer where
  buffer := fun _ => 0
  headPtr := 0
  tailPtr := 0
  bits_pos := by decide
  bits_le := by decide

/-- The same with given memory and pointers. -/
def loadedRecvBuffer (buffer : Bytes) (headPtr tailPtr : Nat) : RecvBuffer :=
  { emptyRecvBuffer with
    buffer := buffer
    headPtr := Fin.ofNat _ headPtr
    tailPtr := Fin.ofNat _ tailPtr }

/-- A `WSABUF` into `recvBuffer`, by its offset. -/
structure WsaBuf where
  offset : Nat
  length : Nat

/-- The `WSABUF` array `recvIO` builds. -/
def recvBuffers (ring : RecvBuffer) : List WsaBuf :=
  let direct := ring.directEnqueueSize
  let freeSize := Serializer.sizeT ((ring.freeSize : Int) - direct)
  if freeSize > 0 then [⟨ring.tail, direct⟩, ⟨0, freeSize⟩] else [⟨ring.tail, direct⟩]

/-- Received bytes fill the posted buffers one after the other. -/
def fill : Bytes -> List WsaBuf -> List Byte -> Bytes
  | memory, [], _ => memory
  | memory, buffer :: rest, data =>
      fill (write memory buffer.offset (data.take buffer.length)) rest (data.drop buffer.length)

/-- `recvBuffer` after the kernel has stored received bytes in it. -/
def receiveInto (ring : RecvBuffer) (data : List Byte) : RecvBuffer :=
  { ring with buffer := fill ring.buffer (recvBuffers ring) data }

def recved (ring : RecvBuffer) (transfer : BitVec 32) : Bool × RecvBuffer :=
  if ring.freeSize ≤ transfer.toNat ∨ transfer = 0 then (false, ring)
  else (true, (ring.moveRear transfer.toInt).2)

/-- `sizeof(networkHeader) + h.size`, a `size_t`, for the header in front. -/
def frameSize (ring : RecvBuffer) : Nat :=
  Serializer.sizeT (headerSize + (NetworkHeader.ofBytes (ring.front headerSize)).sizeField)

def recvedPacket (ring : RecvBuffer) (p : Serializer) : Bool × RecvBuffer × Serializer :=
  if headerSize ≤ ring.size then
    let header := ring.front headerSize
    if header.length ≠ headerSize then (false, ring, p)
    else if frameSize ring ≤ ring.size then
      let (data, ring) := ring.pop (frameSize ring)
      let p := p.store p.bufferPtr data
      (true, ring,
        (p.moveRear (NetworkHeader.ofBytes header).sizeField).moveFront (-headerSize))
    else (false, ring, p)
  else (false, ring, p)

/-- What `serializerAlloc` hands out: any earlier content and pointers, in an
allocation that can take all of `recvBuffer`. -/
structure PooledSerializer where
  serializer : Serializer
  wellFormed : serializer.WellFormed
  capacity : 255 ≤ serializer.bufferSize

/-- A default-constructed serializer. -/
def freshSerializer : PooledSerializer where
  serializer :=
    { memory := fun _ => 0, bufferPtr := 4096, bufferSize := 1024, headPtr := 4096, tailPtr := 4096 }
  wellFormed := ⟨by decide, by decide, by decide, by decide⟩
  capacity := by decide

/-- The worker's preparation of a packet: cleared, with room for the header in
front of both pointers. -/
def prepare (p : PooledSerializer) : Serializer :=
  (p.serializer.clear.moveRear headerSize).moveFront headerSize

/-- The `while (true)` loop of `workerThread`, unrolled at most `fuel` times:
the packets given to `OnRecv` and the ring at the end. -/
def extractionLoop (pool : Nat -> PooledSerializer) :
    (fuel index : Nat) -> RecvBuffer -> Option (List Serializer × RecvBuffer)
  | 0, _, _ => none
  | fuel + 1, index, ring =>
      match recvedPacket ring (prepare (pool index)) with
      | (true, ring, packet) =>
          (extractionLoop pool fuel (index + 1) ring).map fun rest => (packet :: rest.1, rest.2)
      | (false, ring, _) => some ([], ring)

/-! ## The frame in front -/

theorem prepare_wellFormed (p : PooledSerializer) : (prepare p).WellFormed :=
  (p.wellFormed.clear.moveRear _).moveFront _

@[simp] theorem prepare_bufferPtr (p : PooledSerializer) :
    (prepare p).bufferPtr = p.serializer.bufferPtr := rfl

@[simp] theorem prepare_bufferSize (p : PooledSerializer) :
    (prepare p).bufferSize = p.serializer.bufferSize := rfl

theorem prepare_tailPtr (p : PooledSerializer) :
    (prepare p).tailPtr = p.serializer.bufferPtr + headerSize := by
  have place := p.wellFormed.clear.moveRear_tailPtr headerSize
  have room := p.capacity
  have kept : (prepare p).tailPtr = (p.serializer.clear.moveRear headerSize).tailPtr := rfl
  simp only [Serializer.clear, headerSize] at place kept ⊢
  omega

theorem prepare_headPtr (p : PooledSerializer) :
    (prepare p).headPtr = p.serializer.bufferPtr + headerSize := by
  have place := (p.wellFormed.clear.moveRear headerSize).moveFront_headPtr headerSize
  have tail := prepare_tailPtr p
  have moved : (prepare p).headPtr =
      ((p.serializer.clear.moveRear headerSize).moveFront headerSize).headPtr := rfl
  have kept : (prepare p).tailPtr = (p.serializer.clear.moveRear headerSize).tailPtr := rfl
  have start : (p.serializer.clear.moveRear headerSize).headPtr = p.serializer.bufferPtr := rfl
  simp only [Serializer.moveRear_bufferPtr, Serializer.clear, headerSize] at *
  omega

/-- A `short` lies in its range. -/
theorem sizeField_bounds (header : NetworkHeader) :
    -32768 ≤ header.sizeField ∧ header.sizeField ≤ 32767 := by
  have lower := header.size.le_toInt
  have upper := header.size.toInt_lt
  unfold NetworkHeader.sizeField
  omega

theorem frameSize_of_le (ring : RecvBuffer)
    (le : -5 ≤ (NetworkHeader.ofBytes (ring.front headerSize)).sizeField) :
    (frameSize ring : Int) = 5 + (NetworkHeader.ofBytes (ring.front headerSize)).sizeField := by
  have bounds := sizeField_bounds (NetworkHeader.ofBytes (ring.front headerSize))
  unfold frameSize Serializer.sizeT headerSize at *
  omega

/-- Below -5 the unsigned sum wraps to more than any ring holds. -/
theorem size_lt_frameSize (ring : RecvBuffer)
    (lt : (NetworkHeader.ofBytes (ring.front headerSize)).sizeField < -5) :
    ring.size < frameSize ring := by
  have bounds := sizeField_bounds (NetworkHeader.ofBytes (ring.front headerSize))
  have sizeBound := ring.size_lt
  unfold frameSize Serializer.sizeT headerSize at *
  omega

theorem front_length (ring : RecvBuffer) (enough : headerSize ≤ ring.size) :
    (ring.front headerSize).length = headerSize := by
  rw [ring.front_eq, List.length_take, ring.content_length]
  omega

/-- `recvedPacket` refuses when the header or the announced frame is not there
in full, and then changes nothing. -/
theorem recvedPacket_refuses (ring : RecvBuffer) (p : Serializer)
    (missing : ring.size < headerSize ∨ ring.size < frameSize ring) :
    recvedPacket ring p = (false, ring, p) := by
  unfold recvedPacket
  by_cases enough : headerSize ≤ ring.size
  · have short : ¬ frameSize ring ≤ ring.size := by omega
    simp only [if_pos enough, if_neg short, ite_self]
  · rw [if_neg enough]

theorem recvedPacket_accepts (ring : RecvBuffer) (p : Serializer)
    (enough : headerSize ≤ ring.size) (there : frameSize ring ≤ ring.size) :
    recvedPacket ring p =
      (true, (ring.pop (frameSize ring)).2,
        ((p.store p.bufferPtr (ring.content.take (frameSize ring))).moveRear
          (NetworkHeader.ofBytes (ring.front headerSize)).sizeField).moveFront (-headerSize)) := by
  have whole : ¬ (ring.front headerSize).length ≠ headerSize := fun short =>
    short (front_length ring enough)
  simp only [recvedPacket, if_pos enough, if_neg whole, if_pos there, ring.pop_fst]

/-- Both outcomes of a call at once. -/
theorem recvedPacket_fst (ring : RecvBuffer) (p : Serializer) :
    (recvedPacket ring p).1 = true ↔ headerSize ≤ ring.size ∧ frameSize ring ≤ ring.size := by
  constructor
  · intro accepted
    by_contra missing
    have refused := recvedPacket_refuses ring p (by omega)
    rw [refused] at accepted
    exact Bool.false_ne_true accepted
  · intro there
    rw [recvedPacket_accepts ring p there.1 there.2]

/-! ## Packets handed over -/

/-- The packet a call on a prepared serializer hands over. -/
def takenPacket (ring : RecvBuffer) (p : PooledSerializer) : Serializer :=
  (((prepare p).store (prepare p).bufferPtr (ring.content.take (frameSize ring))).moveRear
    (NetworkHeader.ofBytes (ring.front headerSize)).sizeField).moveFront (-headerSize)

theorem takenPacket_wellFormed (ring : RecvBuffer) (p : PooledSerializer) :
    (takenPacket ring p).WellFormed :=
  (((prepare_wellFormed p).store _ _).moveRear _).moveFront _

@[simp] theorem takenPacket_bufferPtr (ring : RecvBuffer) (p : PooledSerializer) :
    (takenPacket ring p).bufferPtr = p.serializer.bufferPtr := rfl

theorem takenPacket_memory (ring : RecvBuffer) (p : PooledSerializer) :
    (takenPacket ring p).memory =
      write p.serializer.memory p.serializer.bufferPtr (ring.content.take (frameSize ring)) := rfl

/-- The read pointer is set back to the header. -/
theorem takenPacket_headPtr (ring : RecvBuffer) (p : PooledSerializer) :
    (takenPacket ring p).headPtr = p.serializer.bufferPtr := by
  have filled := (prepare_wellFormed p).store (prepare p).bufferPtr
    (ring.content.take (frameSize ring))
  have place := (filled.moveRear
    (NetworkHeader.ofBytes (ring.front headerSize)).sizeField).moveFront_headPtr (-headerSize)
  have head := prepare_headPtr p
  have base := prepare_bufferPtr p
  have inside := (filled.moveRear
    (NetworkHeader.ofBytes (ring.front headerSize)).sizeField).head_le_tail
  have target : (takenPacket ring p).headPtr = _ := rfl
  simp only [Serializer.moveRear_bufferPtr, Serializer.moveRear_headPtr,
    Serializer.store_bufferPtr, Serializer.store_headPtr, headerSize] at *
  unfold takenPacket headerSize
  omega

/-- The write pointer moves by the size field, never below the end of the
header. -/
theorem takenPacket_tailPtr (ring : RecvBuffer) (p : PooledSerializer)
    (there : frameSize ring ≤ ring.size) :
    ((takenPacket ring p).tailPtr : Int) = p.serializer.bufferPtr + 5 +
      max 0 (NetworkHeader.ofBytes (ring.front headerSize)).sizeField := by
  have filled := (prepare_wellFormed p).store (prepare p).bufferPtr
    (ring.content.take (frameSize ring))
  have place := filled.moveRear_tailPtr (NetworkHeader.ofBytes (ring.front headerSize)).sizeField
  have head := prepare_headPtr p
  have tail := prepare_tailPtr p
  have base := prepare_bufferPtr p
  have room := p.capacity
  have extent := prepare_bufferSize p
  have sizeBound := ring.size_lt
  have kept : (takenPacket ring p).tailPtr = _ := rfl
  have length : -5 ≤ (NetworkHeader.ofBytes (ring.front headerSize)).sizeField ->
      (frameSize ring : Int) = 5 + (NetworkHeader.ofBytes (ring.front headerSize)).sizeField :=
    frameSize_of_le ring
  simp only [Serializer.store_bufferPtr, Serializer.store_headPtr, Serializer.store_tailPtr,
    Serializer.store_bufferSize, headerSize] at *
  unfold takenPacket headerSize
  simp only [Serializer.moveFront_tailPtr]
  omega

/-- For a frame with a size field from zero on, the packet is the frame. -/
theorem takenPacket_bytes (ring : RecvBuffer) (p : PooledSerializer)
    (there : frameSize ring ≤ ring.size)
    (nonneg : 0 ≤ (NetworkHeader.ofBytes (ring.front headerSize)).sizeField) :
    (takenPacket ring p).bytes = ring.content.take (frameSize ring) := by
  have length : (ring.content.take (frameSize ring)).length = frameSize ring := by
    rw [List.length_take, ring.content_length]
    omega
  have extent : (takenPacket ring p).size = (ring.content.take (frameSize ring)).length := by
    have tail := takenPacket_tailPtr ring p there
    have head := takenPacket_headPtr ring p
    have total := frameSize_of_le ring (by omega)
    rw [(takenPacket_wellFormed ring p).size_eq, length]
    omega
  rw [Serializer.bytes, extent, takenPacket_headPtr, takenPacket_memory, read_write]

end Receiving
end LoginServer
