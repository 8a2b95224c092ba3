import LoginServer.Memory.Circular
import Mathlib.Data.Nat.Bitwise

namespace LoginServer
namespace Buffers

open Memory

/-!
# The byte ring

`ringBuffer` keeps its readable bytes from one past `headPtr` up to `tailPtr`
inclusive, so that one byte of the allocation is always unused.  Its capacity
is a power of two and all positions wrap by masking with `_maxSize`.  Here the
capacity is the type index `bits`, and pointers are offsets from `buffer` that
are smaller than it by their type.

The abstract view is `content`, the readable bytes in order.  The theorems of
this module say what `front`, `pop` and `MoveRear` do to it, whichever of the
two copy pieces the wrapped region falls into.
-/

/-- A ring of `2 ^ bits` bytes with its two pointers. -/
structure RingBuffer (bits : Nat) where
  buffer : Bytes
  headPtr : Fin (2 ^ bits)
  tailPtr : Fin (2 ^ bits)
  bits_pos : 1 ≤ bits
  bits_le : bits ≤ 31

namespace RingBuffer

variable {bits : Nat}

def bufferSize (_ring : RingBuffer bits) : Nat := 2 ^ bits

def maxSize (ring : RingBuffer bits) : Nat := ring.bufferSize - 1

/-- `value & _maxSize` on 64-bit two's complement words. -/
def mask (ring : RingBuffer bits) (value : Int) : Nat :=
  (BitVec.ofInt 64 value &&& BitVec.ofNat 64 ring.maxSize).toNat

/-- The distance `tailPtr - headPtr + bufferSize` of the source. -/
def span (ring : RingBuffer bits) : Int :=
  (ring.tailPtr.val : Int) - ring.headPtr.val + ring.bufferSize

def size (ring : RingBuffer bits) : Nat := ring.mask ring.span

/-- The public `freeSize`, whose `-` binds tighter than its `&`. -/
def freeSize (ring : RingBuffer bits) : Nat := ring.mask ((ring.maxSize : Int) - ring.span)

/-- The protected `freeSize`, written with the parentheses. -/
def freeSizeBetween (ring : RingBuffer bits) : Nat := ring.maxSize - ring.mask ring.span

def clear (ring : RingBuffer bits) : RingBuffer bits := { ring with headPtr := ring.tailPtr }

def empty (ring : RingBuffer bits) : Bool := ring.headPtr == ring.tailPtr

def head (ring : RingBuffer bits) : Nat := ring.mask ((ring.headPtr.val : Int) + 1)

def tail (ring : RingBuffer bits) : Nat := ring.mask ((ring.tailPtr.val : Int) + 1)

def directEnqueueSize (ring : RingBuffer bits) : Nat :=
  if ring.tail ≤ ring.headPtr.val then ring.headPtr.val - ring.tail
  else ring.bufferSize - ring.tail

/-- Length of the first straight piece of the readable bytes. -/
def directDequeueSize (ring : RingBuffer bits) : Nat :=
  if ring.head ≤ ring.tail then ring.tail - ring.head else ring.bufferSize - ring.head

/-- The bytes `front` and `pop` copy out, in one or two pieces. -/
def copyOut (ring : RingBuffer bits) (count : Nat) : List Byte :=
  if count ≤ ring.directDequeueSize then read ring.buffer ring.head count
  else read ring.buffer ring.head ring.directDequeueSize ++
    read ring.buffer 0 (count - ring.directDequeueSize)

theorem bufferSize_pos (ring : RingBuffer bits) : 0 < ring.bufferSize := Nat.two_pow_pos bits

theorem mask_lt (ring : RingBuffer bits) (value : Int) : ring.mask value < 2 ^ bits := by
  have bound : ring.maxSize < 2 ^ bits := Nat.sub_lt ring.bufferSize_pos Nat.one_pos
  refine Nat.lt_of_le_of_lt ?_ bound
  rw [mask, BitVec.toNat_and, BitVec.toNat_ofNat]
  exact Nat.le_trans Nat.and_le_right (Nat.mod_le _ _)

def front (ring : RingBuffer bits) (count : Nat) : List Byte :=
  ring.copyOut (if count > ring.size then ring.size else count)

def pop (ring : RingBuffer bits) (count : Nat) : List Byte × RingBuffer bits :=
  let count := if count > ring.size then ring.size else count
  (ring.copyOut count,
    { ring with headPtr := ⟨ring.mask ((ring.headPtr.val : Int) + count), ring.mask_lt _⟩ })

/-- `MoveRear`, with the number of bytes it exposes. -/
def moveRear (ring : RingBuffer bits) (count : Int) : Int × RingBuffer bits :=
  let limit : Int := min (ring.freeSizeBetween : Int) (2 ^ 31 - 1)
  let count := if count > limit then limit else count
  (count,
    { ring with tailPtr := ⟨ring.mask ((ring.tailPtr.val : Int) + count), ring.mask_lt _⟩ })

/-- The readable bytes, oldest first. -/
def content (ring : RingBuffer bits) : List Byte :=
  readCircular ring.buffer ring.bufferSize ring.head ring.size

/-! ## Masked arithmetic -/

/-- Masking is reduction modulo the capacity, also for negative distances. -/
theorem mask_eq (ring : RingBuffer bits) (value : Int) :
    ring.mask value = (value % (2 ^ bits : Nat)).toNat := by
  have small : 2 ^ bits - 1 < 2 ^ 64 := by
    have := Nat.pow_le_pow_right (n := 2) (by decide) (Nat.le_trans ring.bits_le (by decide : 31 ≤ 64))
    have := Nat.two_pow_pos bits
    omega
  have divides : ((2 ^ bits : Nat) : Int) ∣ ((2 ^ 64 : Nat) : Int) := by
    exact_mod_cast Nat.pow_dvd_pow 2 (Nat.le_trans ring.bits_le (by decide))
  rw [mask, BitVec.toNat_and, BitVec.toNat_ofNat, maxSize, bufferSize, Nat.mod_eq_of_lt small,
    Nat.and_two_pow_sub_one_eq_mod, BitVec.toNat_ofInt]
  have nonneg : 0 ≤ value % ((2 ^ 64 : Nat) : Int) := Int.emod_nonneg _ (by decide)
  apply Int.ofNat_inj.mp
  have outer : 0 ≤ value % ((2 ^ bits : Nat) : Int) :=
    Int.emod_nonneg _ (by exact_mod_cast Nat.ne_of_gt (Nat.two_pow_pos bits))
  rw [Int.natCast_emod, Int.toNat_of_nonneg outer, Int.toNat_of_nonneg nonneg]
  exact Int.emod_emod_of_dvd value divides

theorem mask_natCast (ring : RingBuffer bits) (value : Nat) :
    ring.mask value = value % 2 ^ bits := by
  rw [mask_eq, ← Int.natCast_emod, Int.toNat_natCast]

theorem size_eq (ring : RingBuffer bits) :
    ring.size = (ring.tailPtr.val + 2 ^ bits - ring.headPtr.val) % 2 ^ bits := by
  have bound := ring.headPtr.isLt
  have cast : ring.span = ((ring.tailPtr.val + 2 ^ bits - ring.headPtr.val : Nat) : Int) := by
    unfold span bufferSize
    omega
  rw [size, cast, mask_natCast]

/-- The two cases of the readable size: the tail ahead of the head, or wrapped
round behind it. -/
theorem size_cases (ring : RingBuffer bits) :
    ring.size = if ring.headPtr.val ≤ ring.tailPtr.val then ring.tailPtr.val - ring.headPtr.val
      else ring.tailPtr.val + 2 ^ bits - ring.headPtr.val := by
  have headBound := ring.headPtr.isLt
  have tailBound := ring.tailPtr.isLt
  rw [size_eq, mod_eq_wrap (by omega)]
  split <;> split <;> omega

theorem size_lt (ring : RingBuffer bits) : ring.size < 2 ^ bits := ring.mask_lt _

/-- The two spellings of `freeSize` agree: one byte less than the capacity is
shared between the readable and the free bytes. -/
theorem freeSize_eq (ring : RingBuffer bits) : ring.freeSize = 2 ^ bits - 1 - ring.size := by
  have headBound := ring.headPtr.isLt
  have tailBound := ring.tailPtr.isLt
  have sizes := ring.size_cases
  have cast : ((ring.maxSize : Int) - ring.span) % (2 ^ bits : Nat) =
      ((2 ^ bits - 1 - ring.size : Nat) : Int) % (2 ^ bits : Nat) := by
    unfold maxSize span bufferSize
    split at sizes
    · have : ((2 ^ bits - 1 : Nat) : Int) -
          ((ring.tailPtr.val : Int) - ring.headPtr.val + (2 ^ bits : Nat)) =
          ((2 ^ bits - 1 - ring.size : Nat) : Int) - (2 ^ bits : Nat) := by omega
      rw [this, Int.sub_emod_right]
    · have : ((2 ^ bits - 1 : Nat) : Int) -
          ((ring.tailPtr.val : Int) - ring.headPtr.val + (2 ^ bits : Nat)) =
          ((2 ^ bits - 1 - ring.size : Nat) : Int) := by omega
      rw [this]
  rw [freeSize, mask_eq, cast, ← ring.mask_eq, mask_natCast]
  exact Nat.mod_eq_of_lt (by omega)

theorem freeSizeBetween_eq (ring : RingBuffer bits) : ring.freeSizeBetween = ring.freeSize := by
  rw [freeSize_eq]
  rfl

theorem head_eq (ring : RingBuffer bits) : ring.head = (ring.headPtr.val + 1) % 2 ^ bits :=
  ring.mask_natCast (ring.headPtr.val + 1)

theorem tail_eq (ring : RingBuffer bits) : ring.tail = (ring.tailPtr.val + 1) % 2 ^ bits :=
  ring.mask_natCast (ring.tailPtr.val + 1)

theorem head_lt (ring : RingBuffer bits) : ring.head < 2 ^ bits := ring.mask_lt _

theorem tail_lt (ring : RingBuffer bits) : ring.tail < 2 ^ bits := ring.mask_lt _

/-- The first free byte is the one behind the last readable byte. -/
theorem tail_eq_head_add (ring : RingBuffer bits) :
    ring.tail = (ring.head + ring.size) % 2 ^ bits := by
  have headBound := ring.headPtr.isLt
  rw [tail_eq, head_eq, size_eq, ← Nat.add_mod]
  have turn : ring.headPtr.val + 1 + (ring.tailPtr.val + 2 ^ bits - ring.headPtr.val) =
      ring.tailPtr.val + 1 + 2 ^ bits := by omega
  rw [turn, Nat.add_mod_right]

/-! ## What the operations do to the content -/

@[simp] theorem content_length (ring : RingBuffer bits) : ring.content.length = ring.size := by
  simp [content]

/-- The copy pieces of `front` and `pop` together are the oldest bytes. -/
theorem copyOut_eq (ring : RingBuffer bits) (count : Nat) (le : count ≤ ring.size) :
    ring.copyOut count = ring.content.take count := by
  have headBound := ring.head_lt
  have tailBound := ring.tail_lt
  have sizeBound := ring.size_lt
  have tailAt := ring.tail_eq_head_add
  rw [mod_eq_wrap (by omega)] at tailAt
  rw [content, readCircular_take _ _ _ _ _ le, bufferSize]
  unfold copyOut directDequeueSize bufferSize
  by_cases direct : count ≤ if ring.head ≤ ring.tail then ring.tail - ring.head else 2 ^ bits - ring.head
  · rw [if_pos direct, readCircular_direct]
    split at direct <;> omega
  · -- Only a region that wraps is longer than its first piece.
    have wraps : ¬ ring.head ≤ ring.tail := by
      intro ahead
      rw [if_pos ahead] at direct
      split at tailAt <;> omega
    rw [if_neg direct]
    simp only [if_neg wraps] at direct ⊢
    rw [readCircular_wrap _ _ _ _ headBound (by omega) (by omega)]

theorem front_eq (ring : RingBuffer bits) (count : Nat) :
    ring.front count = ring.content.take count := by
  unfold front
  split
  next more =>
    rw [copyOut_eq _ _ (Nat.le_refl _), List.take_of_length_le (by simp),
      List.take_of_length_le (by simp; omega)]
  next enough => exact ring.copyOut_eq count (Nat.le_of_not_lt enough)

theorem pop_fst (ring : RingBuffer bits) (count : Nat) :
    (ring.pop count).1 = ring.content.take count :=
  ring.front_eq count

theorem pop_size (ring : RingBuffer bits) (count : Nat) :
    (ring.pop count).2.size = ring.size - count := by
  have headBound := ring.headPtr.isLt
  have tailBound := ring.tailPtr.isLt
  have sizes := ring.size_cases
  have clamp : (if count > ring.size then ring.size else count) = min count ring.size := by
    split <;> omega
  have moved : (ring.pop count).2.headPtr.val = (ring.headPtr.val + min count ring.size) % 2 ^ bits := by
    simp only [pop, clamp]
    exact ring.mask_natCast (ring.headPtr.val + min count ring.size)
  have kept : (ring.pop count).2.tailPtr = ring.tailPtr := rfl
  rw [size_cases, moved, kept, mod_eq_wrap (by split at sizes <;> omega)]
  split at sizes <;> split <;> split <;> omega

theorem pop_head (ring : RingBuffer bits) (count : Nat) (le : count ≤ ring.size) :
    (ring.pop count).2.head = (ring.head + count) % 2 ^ bits := by
  have moved : (ring.pop count).2.headPtr.val = (ring.headPtr.val + count) % 2 ^ bits := by
    simp only [pop, if_neg (Nat.not_lt_of_le le)]
    exact ring.mask_natCast (ring.headPtr.val + count)
  rw [head_eq, head_eq, moved, Nat.mod_add_mod, Nat.mod_add_mod]
  congr 1
  omega

/-- `pop` removes the oldest bytes and nothing else. -/
theorem pop_content (ring : RingBuffer bits) (count : Nat) (le : count ≤ ring.size) :
    (ring.pop count).2.content = ring.content.drop count := by
  have sameBuffer : (ring.pop count).2.buffer = ring.buffer := rfl
  rw [content, content, sameBuffer, ring.pop_size count, ring.pop_head count le,
    readCircular_drop _ _ _ _ _ le]
  rfl

/-- `MoveRear` within the free room exposes exactly that many bytes. -/
theorem moveRear_size (ring : RingBuffer bits) (count : Nat) (le : count ≤ ring.freeSize) :
    (ring.moveRear count).2.size = ring.size + count := by
  have headBound := ring.headPtr.isLt
  have tailBound := ring.tailPtr.isLt
  have sizes := ring.size_cases
  have free := ring.freeSize_eq
  have int32 : 2 ^ bits ≤ 2 ^ 31 := Nat.pow_le_pow_right (by decide) ring.bits_le
  have moved : (ring.moveRear count).2.tailPtr.val = (ring.tailPtr.val + count) % 2 ^ bits := by
    have unclamped : ¬ (count : Int) > min (ring.freeSizeBetween : Int) (2 ^ 31 - 1) := by
      rw [freeSizeBetween_eq]
      omega
    simp only [moveRear, if_neg unclamped]
    exact ring.mask_natCast (ring.tailPtr.val + count)
  have kept : (ring.moveRear count).2.headPtr = ring.headPtr := rfl
  rw [size_cases, moved, kept, mod_eq_wrap (by split at sizes <;> omega)]
  split at sizes <;> split <;> split <;> omega

@[simp] theorem moveRear_head (ring : RingBuffer bits) (count : Int) :
    (ring.moveRear count).2.head = ring.head := rfl

@[simp] theorem moveRear_buffer (ring : RingBuffer bits) (count : Int) :
    (ring.moveRear count).2.buffer = ring.buffer := rfl

end RingBuffer
end Buffers
end LoginServer
