import LoginServer.Memory.Bytes

namespace LoginServer
namespace Buffers

open Memory

/-!
# The packet serializer

A `serializer` is a growable allocation with a read pointer `headPtr` and a
write pointer `tailPtr`.  Its three pointers are addresses, because `resize`
computes the new ones from the old ones while the two blocks coexist.  The
memory is the whole address space as this object sees it, so a read past
`tailPtr`, or past the allocation, still returns the byte that lies there.

`WellFormed` is the ordering every operation of the source relies on.  It is a
separate predicate and not a field, since the source has operations that leave
it.
-/

/-- `sizeof(networkHeader)`, packed. -/
def headerSize : Nat := 5

/-- `networkHeader`, the five packed bytes in front of every payload. -/
structure NetworkHeader where
  code : Byte
  size : BitVec 16
  randKey : Byte
  checkSum : Byte
  deriving DecidableEq

namespace NetworkHeader

/-- Read a header from raw bytes, as a cast to `networkHeader*` does. -/
def ofBytes (bytes : List Byte) : NetworkHeader where
  code := bytes.getD 0 0
  size := BitVec.ofNat 16 (littleEndian [bytes.getD 1 0, bytes.getD 2 0])
  randKey := bytes.getD 3 0
  checkSum := bytes.getD 4 0

def toBytes (header : NetworkHeader) : List Byte :=
  header.code :: littleEndianBytes 2 header.size.toNat ++ [header.randKey, header.checkSum]

/-- The size field as the `short` it is declared as. -/
def sizeField (header : NetworkHeader) : Int := header.size.toInt

end NetworkHeader

@[ext] structure Serializer where
  memory : Bytes
  bufferPtr : Nat
  bufferSize : Nat
  headPtr : Nat
  tailPtr : Nat

namespace Serializer

/-- A 64-bit machine word, as `size_t` arithmetic leaves it. -/
def sizeT (value : Int) : Nat := (value % 2 ^ 64).toNat

/-- Narrowing to `int`. -/
def toInt32 (value : Int) : Int := (BitVec.ofInt 32 value).toInt

/-- The order of the pointers, for an allocation below `2 ^ 63` bytes. -/
structure WellFormed (s : Serializer) : Prop where
  buffer_le_head : s.bufferPtr ≤ s.headPtr
  head_le_tail : s.headPtr ≤ s.tailPtr
  tail_le_end : s.tailPtr ≤ s.bufferPtr + s.bufferSize
  small : s.bufferSize < 2 ^ 63

/-! ## Pointers -/

def size (s : Serializer) : Nat := sizeT ((s.tailPtr : Int) - s.headPtr)

def useableSize (s : Serializer) : Nat :=
  sizeT ((s.bufferSize : Int) - ((s.tailPtr : Int) - s.bufferPtr))

def clear (s : Serializer) : Serializer :=
  { s with headPtr := s.bufferPtr, tailPtr := s.bufferPtr }

/-- The displacement `moveFront` applies.  A negative request is compared with
the signed distance to `bufferPtr`, a non-negative one with the unsigned size. -/
def frontOffset (s : Serializer) (count : Int) : Int :=
  if 0 ≤ count then min count s.size else max count ((s.bufferPtr : Int) - s.headPtr)

def moveFront (s : Serializer) (count : Int) : Serializer :=
  { s with headPtr := ((s.headPtr : Int) + s.frontOffset count).toNat }

def rearOffset (s : Serializer) (count : Int) : Int :=
  if 0 ≤ count then min count s.useableSize else max count ((s.headPtr : Int) - s.tailPtr)

def moveRear (s : Serializer) (count : Int) : Serializer :=
  { s with tailPtr := ((s.tailPtr : Int) + s.rearOffset count).toNat }

/-- The bytes `[headPtr, tailPtr)`. -/
def bytes (s : Serializer) : List Byte := read s.memory s.headPtr s.size

/-- `memmove` into the allocation, or wherever the address points. -/
def store (s : Serializer) (address : Nat) (data : List Byte) : Serializer :=
  { s with memory := write s.memory address data }

@[simp] theorem store_bufferPtr (s : Serializer) (address : Nat) (data : List Byte) :
    (s.store address data).bufferPtr = s.bufferPtr := rfl

@[simp] theorem store_bufferSize (s : Serializer) (address : Nat) (data : List Byte) :
    (s.store address data).bufferSize = s.bufferSize := rfl

@[simp] theorem store_headPtr (s : Serializer) (address : Nat) (data : List Byte) :
    (s.store address data).headPtr = s.headPtr := rfl

@[simp] theorem store_tailPtr (s : Serializer) (address : Nat) (data : List Byte) :
    (s.store address data).tailPtr = s.tailPtr := rfl

@[simp] theorem moveFront_memory (s : Serializer) (count : Int) :
    (s.moveFront count).memory = s.memory := rfl

@[simp] theorem moveFront_bufferPtr (s : Serializer) (count : Int) :
    (s.moveFront count).bufferPtr = s.bufferPtr := rfl

@[simp] theorem moveFront_bufferSize (s : Serializer) (count : Int) :
    (s.moveFront count).bufferSize = s.bufferSize := rfl

@[simp] theorem moveFront_tailPtr (s : Serializer) (count : Int) :
    (s.moveFront count).tailPtr = s.tailPtr := rfl

@[simp] theorem moveRear_memory (s : Serializer) (count : Int) :
    (s.moveRear count).memory = s.memory := rfl

@[simp] theorem moveRear_bufferPtr (s : Serializer) (count : Int) :
    (s.moveRear count).bufferPtr = s.bufferPtr := rfl

@[simp] theorem moveRear_bufferSize (s : Serializer) (count : Int) :
    (s.moveRear count).bufferSize = s.bufferSize := rfl

@[simp] theorem moveRear_headPtr (s : Serializer) (count : Int) :
    (s.moveRear count).headPtr = s.headPtr := rfl

theorem sizeT_natCast {value : Nat} (small : value < 2 ^ 64) : sizeT (value : Int) = value := by
  unfold sizeT
  omega

theorem toInt32_small {count : Nat} (small : count < 2 ^ 31) : toInt32 count = count := by
  unfold toInt32
  rw [BitVec.toInt_ofInt]
  simp only [Int.bmod]
  omega

namespace WellFormed

variable {s : Serializer}

theorem size_eq (ordered : s.WellFormed) : s.size = s.tailPtr - s.headPtr := by
  have := ordered.buffer_le_head
  have := ordered.head_le_tail
  have := ordered.tail_le_end
  have := ordered.small
  have cast : (s.tailPtr : Int) - s.headPtr = ((s.tailPtr - s.headPtr : Nat) : Int) := by omega
  rw [Serializer.size, cast, sizeT_natCast (by omega)]

theorem useableSize_eq (ordered : s.WellFormed) :
    s.useableSize = s.bufferPtr + s.bufferSize - s.tailPtr := by
  have := ordered.buffer_le_head
  have := ordered.head_le_tail
  have := ordered.tail_le_end
  have := ordered.small
  have cast : (s.bufferSize : Int) - ((s.tailPtr : Int) - s.bufferPtr) =
      ((s.bufferPtr + s.bufferSize - s.tailPtr : Nat) : Int) := by omega
  rw [Serializer.useableSize, cast, sizeT_natCast (by omega)]

theorem clear (ordered : s.WellFormed) : s.clear.WellFormed where
  buffer_le_head := Nat.le_refl _
  head_le_tail := Nat.le_refl _
  tail_le_end := Nat.le_add_right _ _
  small := ordered.small

theorem store (ordered : s.WellFormed) (address : Nat) (data : List Byte) :
    (s.store address data).WellFormed :=
  ⟨ordered.buffer_le_head, ordered.head_le_tail, ordered.tail_le_end, ordered.small⟩

/-- Where `moveFront` lands: as far as asked, but not past `tailPtr` and not
before `bufferPtr`. -/
theorem moveFront_headPtr (ordered : s.WellFormed) (count : Int) :
    ((s.moveFront count).headPtr : Int) =
      max (s.bufferPtr : Int) (min ((s.headPtr : Int) + count) s.tailPtr) := by
  have := ordered.buffer_le_head
  have := ordered.head_le_tail
  have sizes := ordered.size_eq
  unfold Serializer.moveFront Serializer.frontOffset
  split <;> (dsimp only; omega)

/-- Where `moveRear` lands: not past the allocation and not before `headPtr`. -/
theorem moveRear_tailPtr (ordered : s.WellFormed) (count : Int) :
    ((s.moveRear count).tailPtr : Int) =
      max (s.headPtr : Int) (min ((s.tailPtr : Int) + count) (s.bufferPtr + s.bufferSize : Nat)) := by
  have := ordered.head_le_tail
  have := ordered.tail_le_end
  have sizes := ordered.useableSize_eq
  unfold Serializer.moveRear Serializer.rearOffset
  split <;> (dsimp only; omega)

theorem moveFront (ordered : s.WellFormed) (count : Int) : (s.moveFront count).WellFormed := by
  have place := ordered.moveFront_headPtr count
  have := ordered.buffer_le_head
  have := ordered.head_le_tail
  refine ⟨?_, ?_, ordered.tail_le_end, ordered.small⟩ <;>
    simp only [moveFront_bufferPtr, moveFront_tailPtr] <;> omega

theorem moveRear (ordered : s.WellFormed) (count : Int) : (s.moveRear count).WellFormed := by
  have place := ordered.moveRear_tailPtr count
  have := ordered.head_le_tail
  have := ordered.tail_le_end
  refine ⟨ordered.buffer_le_head, ?_, ?_, ordered.small⟩ <;>
    simp only [moveRear_bufferPtr, moveRear_bufferSize, moveRear_headPtr] <;> omega

end WellFormed

/-! ## Growing and writing -/

/-- `resize`, with the address the allocator answers for the new block.  As in
the source, `tailPtr` is computed after `headPtr` has been overwritten. -/
def resize (s : Serializer) (allocate : Nat -> Nat) (newSize : Nat) : Serializer :=
  let tempPtr := allocate newSize
  let copied := s.store tempPtr (read s.memory s.headPtr s.size)
  let moved := { copied with headPtr := tempPtr }
  let tailed :=
    { moved with tailPtr := ((tempPtr : Int) + ((moved.tailPtr : Int) - moved.headPtr)).toNat }
  { tailed with bufferSize := newSize, bufferPtr := tempPtr }

/-- The copy of `resize` faults: there is no block to copy to, or the count
`tailPtr - headPtr` is negative and takes it past the end of the address space. -/
def resizeFaults (s : Serializer) (allocate : Nat -> Nat) (newSize : Nat) : Prop :=
  allocate newSize = 0 ∨ 2 ^ 64 < s.headPtr + s.size

instance (s : Serializer) (allocate : Nat -> Nat) (newSize : Nat) :
    Decidable (s.resizeFaults allocate newSize) :=
  inferInstanceAs (Decidable (_ ∨ _))

/-- `while (useableSize() < count) resize(bufferSize * 2)`, unrolled at most
`fuel` times. -/
def reserve (allocate : Nat -> Nat) : Nat -> Serializer -> Nat -> Option Serializer
  | 0, s, count => if s.useableSize < count then none else some s
  | fuel + 1, s, count =>
      if s.useableSize < count then
        if s.resizeFaults allocate (sizeT (s.bufferSize * 2)) then none
        else reserve allocate fuel (s.resize allocate (sizeT (s.bufferSize * 2))) count
      else some s

/-- The common body of the `<<` operators: make room, copy, advance. -/
def insert (allocate : Nat -> Nat) (fuel : Nat) (data : List Byte) (s : Serializer) :
    Option Serializer :=
  (s.reserve allocate fuel data.length).map fun s =>
    (s.store s.tailPtr data).moveRear data.length

/-- `operator << (unsigned char)` -/
def insertByte (allocate : Nat -> Nat) (fuel : Nat) (value : Byte) : Serializer -> Option Serializer :=
  insert allocate fuel (littleEndianBytes 1 value.toNat)

/-- `operator << (unsigned short)` -/
def insertUnsignedShort (allocate : Nat -> Nat) (fuel : Nat) (value : BitVec 16) :
    Serializer -> Option Serializer :=
  insert allocate fuel (littleEndianBytes 2 value.toNat)

/-- `operator << (unsigned long long)` -/
def insertUnsignedLongLong (allocate : Nat -> Nat) (fuel : Nat) (value : BitVec 64) :
    Serializer -> Option Serializer :=
  insert allocate fuel (littleEndianBytes 8 value.toNat)

/-- `memcpy_s`: copies when the source fits, otherwise clears the destination. -/
def memcpyS (s : Serializer) (destination destinationSize : Nat) (source : List Byte) : Serializer :=
  if source.length ≤ destinationSize then s.store destination source
  else s.store destination (List.replicate destinationSize 0)

/-- `setWstring`, on the `2 * len` bytes of the wide string.  `moveRear` takes an
`int`. -/
def setWstring (wide : List Byte) (s : Serializer) : Serializer :=
  (s.memcpyS s.tailPtr s.useableSize wide).moveRear (toInt32 wide.length)

/-! ## Reading -/

/-- The common body of the `>>` operators.  The copy is not limited to the
content; only the pointer move is clamped. -/
def extract (count : Nat) (s : Serializer) : List Byte × Serializer :=
  (read s.memory s.headPtr count, s.moveFront count)

/-- `operator >> (char&)` -/
def extractChar (s : Serializer) : Byte × Serializer :=
  let (data, s) := s.extract 1
  (BitVec.ofNat 8 (littleEndian data), s)

/-- `operator >> (short&)` -/
def extractShort (s : Serializer) : BitVec 16 × Serializer :=
  let (data, s) := s.extract 2
  (BitVec.ofNat 16 (littleEndian data), s)

/-- `operator >> (unsigned short&)` -/
def extractUnsignedShort (s : Serializer) : BitVec 16 × Serializer :=
  let (data, s) := s.extract 2
  (BitVec.ofNat 16 (littleEndian data), s)

/-- `operator >> (unsigned long long&)` -/
def extractUnsignedLongLong (s : Serializer) : BitVec 64 × Serializer :=
  let (data, s) := s.extract 8
  (BitVec.ofNat 64 (littleEndian data), s)

/-! ## Header and cipher -/

def getPacketHeader (s : Serializer) : NetworkHeader :=
  NetworkHeader.ofBytes (read s.memory s.bufferPtr headerSize)

/-- `(tailPtr - bufferPtr) - sizeof(networkHeader)`, narrowed to `int`. -/
def payloadSize (s : Serializer) : Int :=
  toInt32 ((s.tailPtr : Int) - s.bufferPtr - headerSize)

/-- Sum of bytes modulo 256. -/
def sumBytes (data : List Byte) : Byte := data.foldl (· + ·) 0

/-- The payload bytes a `for (i < payloadSize)` loop visits. -/
def payload (s : Serializer) : List Byte :=
  read s.memory (s.bufferPtr + headerSize) s.payloadSize.toNat

def setHeader (key : Byte) (s : Serializer) : Serializer :=
  let header : NetworkHeader :=
    { code := 0x77, size := BitVec.ofInt 16 s.payloadSize, randKey := key,
      checkSum := sumBytes s.payload }
  (s.store s.bufferPtr header.toBytes).moveFront (-headerSize)

/-- The loop of `encryption`, in place from `target` on. -/
def encryptionLoop (staticKey dynamicKey : Byte) (target : Nat) :
    (count index : Nat) -> (pP pE : Byte) -> Bytes -> Bytes
  | 0, _, _, _, memory => memory
  | count + 1, index, pP, pE, memory =>
      let pP := memory (target + index) ^^^ (pP + dynamicKey + 1 + BitVec.ofNat 8 index)
      let pE := pP ^^^ (pE + staticKey + 1 + BitVec.ofNat 8 index)
      encryptionLoop staticKey dynamicKey target count (index + 1) pP pE
        (write memory (target + index) [pE])

/-- The loop of `decryption`, in place from `target` on. -/
def decryptionLoop (staticKey dynamicKey : Byte) (target : Nat) :
    (count index : Nat) -> (pP pE : Byte) -> Bytes -> Bytes
  | 0, _, _, _, memory => memory
  | count + 1, index, pP, pE, memory =>
      let e := memory (target + index)
      let p := e ^^^ (pE + staticKey + 1 + BitVec.ofNat 8 index)
      decryptionLoop staticKey dynamicKey target count (index + 1) p e
        (write memory (target + index) [p ^^^ (pP + dynamicKey + 1 + BitVec.ofNat 8 index)])

/-- `inputSize` of both cipher loops: the size field plus the checksum byte. -/
def inputSize (s : Serializer) : Nat := (s.getPacketHeader.sizeField + 1).toNat

/-- Address of the `checkSum` field. -/
def checkSumPtr (s : Serializer) : Nat := s.bufferPtr + 4

def encryption (staticKey : Byte) (s : Serializer) : Serializer :=
  { s with
    memory := encryptionLoop staticKey s.getPacketHeader.randKey s.checkSumPtr s.inputSize 0 0 0
      s.memory }

/-- Decrypt in place, take the payload bytes off the checksum and compare the
rest with zero. -/
def decryption (staticKey : Byte) (s : Serializer) : Bool × Serializer :=
  let plain : Serializer :=
    { s with
      memory := decryptionLoop staticKey s.getPacketHeader.randKey s.checkSumPtr s.inputSize 0 0 0
        s.memory }
  let rest := plain.getPacketHeader.checkSum - sumBytes plain.payload
  (rest == 0, plain.store plain.checkSumPtr [rest])

end Serializer
end Buffers
end LoginServer
