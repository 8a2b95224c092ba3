import LoginServer.Buffers.Serializer

namespace LoginServer
namespace Buffers

open Memory

/-!
# Pointer moves in machine words

`moveFront` and `moveRear` take an `int`, compare it with a `size_t` on one
branch and with a `ptrdiff_t` on the other, and store the result of the
comparison in an `int` again.  The definitions of `Serializer` clamp integers.
Here the same operations are written with the conversions of the source, and
the two agree on every well-formed serializer.

The pointers stay addresses: an address moved by an `int` between `bufferPtr`
and the end of the allocation does not leave the address space.
-/

/-- `closest` is in the range, and every other displacement of the range lies
further away from `count`. -/
structure ClosestTo (count : Int) (range : Int -> Prop) (closest : Int) : Prop where
  inRange : range closest
  further : forall other, range other -> other ≠ closest ->
    (count - closest).natAbs < (count - other).natAbs

/-- Clamping to an interval around zero finds the closest displacement. -/
theorem closestTo_clamp {count low high closest : Int} (below : low ≤ 0) (above : 0 ≤ high)
    (clamped : closest = max low (min count high)) :
    ClosestTo count (fun offset => low ≤ offset ∧ offset ≤ high) closest where
  inRange := by omega
  further other range different := by
    have inside := range.1
    have under := range.2
    omega

namespace Serializer

/-- Displacements of `headPtr` that keep the order of the pointers. -/
def FrontRange (s : Serializer) (offset : Int) : Prop :=
  (s.bufferPtr : Int) ≤ s.headPtr + offset ∧ s.headPtr + offset ≤ s.tailPtr

/-- Displacements of `tailPtr` that keep the order of the pointers. -/
def RearRange (s : Serializer) (offset : Int) : Prop :=
  (s.headPtr : Int) ≤ s.tailPtr + offset ∧ s.tailPtr + offset ≤ s.bufferPtr + s.bufferSize

namespace Words

/-! ## Operations -/

/-- `ptrdiff_t` between two addresses. -/
def pointerDifference (left right : Nat) : BitVec 64 := BitVec.ofInt 64 ((left : Int) - right)

def size (s : Serializer) : BitVec 64 := pointerDifference s.tailPtr s.headPtr

def useableSize (s : Serializer) : BitVec 64 :=
  BitVec.ofNat 64 s.bufferSize - pointerDifference s.tailPtr s.bufferPtr

def usedSize (s : Serializer) : BitVec 64 := pointerDifference s.headPtr s.bufferPtr

/-- `int offset = min(count, limit)` for a `size_t` limit: the comparison is
unsigned and 64 bits wide. -/
def minOffset (count : BitVec 32) (limit : BitVec 64) : BitVec 32 :=
  (if (count.signExtend 64).ult limit then count.signExtend 64 else limit).setWidth 32

/-- `int offset = max(count, limit)` for a `ptrdiff_t` limit: the comparison is
signed and 64 bits wide. -/
def maxOffset (count : BitVec 32) (limit : BitVec 64) : BitVec 32 :=
  (if limit.slt (count.signExtend 64) then count.signExtend 64 else limit).setWidth 32

def moveFront (count : BitVec 32) (s : Serializer) : BitVec 32 × Serializer :=
  let offset :=
    if 0 ≤ count.toInt then minOffset count (size s)
    else maxOffset count (pointerDifference s.bufferPtr s.headPtr)
  (offset, { s with headPtr := ((s.headPtr : Int) + offset.toInt).toNat })

def moveRear (count : BitVec 32) (s : Serializer) : BitVec 32 × Serializer :=
  let offset :=
    if 0 ≤ count.toInt then minOffset count (useableSize s)
    else maxOffset count (pointerDifference s.headPtr s.tailPtr)
  (offset, { s with tailPtr := ((s.tailPtr : Int) + offset.toInt).toNat })

/-- `if (size() < _size) _size = size();` -/
def available (count : BitVec 64) (s : Serializer) : BitVec 64 :=
  if (size s).ult count then size s else count

/-- The bytes `peek` and `pop` copy. -/
def copied (count : BitVec 64) (s : Serializer) : List Byte :=
  read s.memory s.headPtr (available count s).toNat

/-- `peek`, into the memory at `buffer`. -/
def peek (buffer : Nat) (count : BitVec 64) (s : Serializer) : BitVec 64 × Serializer :=
  (available count s, s.store buffer (copied count s))

/-- The move of `pop`.  `moveFront` takes an `int`, so the count is narrowed. -/
def advance (count : BitVec 64) (s : Serializer) : Serializer :=
  (moveFront ((available count s).setWidth 32) s).2

/-- `pop`, into the memory at `data`. -/
def pop (data : Nat) (count : BitVec 64) (s : Serializer) : BitVec 64 × Serializer :=
  (available count s, advance count (s.store data (copied count s)))

/-! ## The words agree with the integers -/

section Offsets

variable {count : BitVec 32} {limit : BitVec 64}

theorem minOffset_toInt (positive : 0 ≤ count.toInt) :
    (minOffset count limit).toInt = min count.toInt limit.toNat := by
  have sign : count.msb = false := by
    rw [BitVec.msb_eq_toInt]
    simpa using positive
  have narrow : count.toNat < 2 ^ 31 := by
    have value := BitVec.toInt_eq_toNat_cond count
    omega
  have value : count.toInt = count.toNat := BitVec.toInt_eq_toNat_of_msb sign
  rw [minOffset, BitVec.signExtend_eq_setWidth_of_msb_false sign, BitVec.toInt_setWidth,
    BitVec.ult_eq_decide, BitVec.toNat_setWidth_of_le (by decide)]
  by_cases less : count.toNat < limit.toNat
  · rw [if_pos (decide_eq_true less), BitVec.toNat_setWidth_of_le (by decide)]
    simp only [Int.bmod]
    omega
  · rw [if_neg (by simpa using less)]
    simp only [Int.bmod]
    omega

theorem maxOffset_toInt (negative : count.toInt < 0) (behind : limit.toInt ≤ 0) :
    (maxOffset count limit).toInt = max count.toInt limit.toInt := by
  have range := BitVec.le_toInt count
  have wide : (count.signExtend 64).toInt = count.toInt :=
    BitVec.toInt_signExtend_of_le (by decide)
  have narrowed : forall word : BitVec 64, word.toInt.natAbs ≤ 2 ^ 31 -> word.toInt ≤ 0 ->
      (word.setWidth 32).toInt = word.toInt := by
    intro word bounded high
    have value := BitVec.toInt_eq_toNat_cond word
    have bound := word.isLt
    rw [BitVec.toInt_setWidth]
    simp only [Int.bmod]
    split at value <;> omega
  rw [maxOffset, BitVec.slt_eq_decide, wide]
  by_cases less : limit.toInt < count.toInt
  · rw [if_pos (decide_eq_true less), narrowed _ (by omega) (by omega)]
    omega
  · rw [if_neg (by simpa using less), narrowed _ (by omega) (by omega)]
    omega

theorem pointerDifference_toInt {left right : Nat}
    (near : ((left : Int) - right).natAbs < 2 ^ 63) :
    (pointerDifference left right).toInt = (left : Int) - right := by
  rw [pointerDifference, BitVec.toInt_ofInt]
  simp only [Int.bmod]
  omega

theorem pointerDifference_toNat {left right : Nat} (order : right ≤ left)
    (high : left - right < 2 ^ 64) : (pointerDifference left right).toNat = left - right := by
  rw [pointerDifference, BitVec.toNat_ofInt]
  omega

end Offsets

section WellFormed

variable {s : Serializer}

theorem size_toNat (ordered : s.WellFormed) : (size s).toNat = s.tailPtr - s.headPtr := by
  have := ordered.buffer_le_head
  have := ordered.tail_le_end
  have := ordered.small
  exact pointerDifference_toNat ordered.head_le_tail (by omega)

theorem usedSize_toNat (ordered : s.WellFormed) :
    (usedSize s).toNat = s.headPtr - s.bufferPtr := by
  have := ordered.head_le_tail
  have := ordered.tail_le_end
  have := ordered.small
  exact pointerDifference_toNat ordered.buffer_le_head (by omega)

theorem useableSize_toNat (ordered : s.WellFormed) :
    (useableSize s).toNat = s.bufferPtr + s.bufferSize - s.tailPtr := by
  have := ordered.buffer_le_head
  have := ordered.head_le_tail
  have := ordered.tail_le_end
  have := ordered.small
  have written : (pointerDifference s.tailPtr s.bufferPtr).toNat = s.tailPtr - s.bufferPtr :=
    pointerDifference_toNat (by omega) (by omega)
  rw [useableSize, BitVec.toNat_sub, written, BitVec.toNat_ofNat]
  omega

/-- Content, room behind it and room in front of it fill the allocation. -/
theorem sizes_fill (ordered : s.WellFormed) :
    (size s).toNat + (useableSize s).toNat + (usedSize s).toNat = s.bufferSize := by
  have := ordered.buffer_le_head
  have := ordered.head_le_tail
  have := ordered.tail_le_end
  rw [size_toNat ordered, useableSize_toNat ordered, usedSize_toNat ordered]
  omega

theorem moveFront_toInt (ordered : s.WellFormed) (count : BitVec 32) :
    (moveFront count s).1.toInt =
      max ((s.bufferPtr : Int) - s.headPtr) (min count.toInt ((s.tailPtr : Int) - s.headPtr)) := by
  have := ordered.buffer_le_head
  have := ordered.head_le_tail
  have := ordered.tail_le_end
  have := ordered.small
  unfold moveFront
  by_cases positive : 0 ≤ count.toInt
  · rw [if_pos positive]
    dsimp only
    rw [minOffset_toInt positive, size_toNat ordered]
    omega
  · have behind : (pointerDifference s.bufferPtr s.headPtr).toInt =
        (s.bufferPtr : Int) - s.headPtr := pointerDifference_toInt (by omega)
    rw [if_neg positive]
    dsimp only
    rw [maxOffset_toInt (by omega) (by omega), behind]
    omega

theorem moveRear_toInt (ordered : s.WellFormed) (count : BitVec 32) :
    (moveRear count s).1.toInt =
      max ((s.headPtr : Int) - s.tailPtr)
        (min count.toInt ((s.bufferPtr : Int) + s.bufferSize - s.tailPtr)) := by
  have := ordered.buffer_le_head
  have := ordered.head_le_tail
  have := ordered.tail_le_end
  have := ordered.small
  unfold moveRear
  by_cases positive : 0 ≤ count.toInt
  · rw [if_pos positive]
    dsimp only
    rw [minOffset_toInt positive, useableSize_toNat ordered]
    omega
  · have behind : (pointerDifference s.headPtr s.tailPtr).toInt =
        (s.headPtr : Int) - s.tailPtr := pointerDifference_toInt (by omega)
    rw [if_neg positive]
    dsimp only
    rw [maxOffset_toInt (by omega) (by omega), behind]
    omega

/-- In machine words `moveFront` moves as far as in integers. -/
theorem moveFront_eq (ordered : s.WellFormed) (count : BitVec 32) :
    (moveFront count s).2 = s.moveFront count.toInt := by
  have clamped := moveFront_toInt ordered count
  have place := ordered.moveFront_headPtr count.toInt
  ext
  · rfl
  · rfl
  · rfl
  · change ((s.headPtr : Int) + (moveFront count s).1.toInt).toNat = _
    omega
  · rfl

theorem moveRear_eq (ordered : s.WellFormed) (count : BitVec 32) :
    (moveRear count s).2 = s.moveRear count.toInt := by
  have clamped := moveRear_toInt ordered count
  have place := ordered.moveRear_tailPtr count.toInt
  ext
  · rfl
  · rfl
  · rfl
  · rfl
  · change ((s.tailPtr : Int) + (moveRear count s).1.toInt).toNat = _
    omega

/-- `pop` and `peek` copy no more than there is. -/
theorem available_toNat (count : BitVec 64) (s : Serializer) :
    (available count s).toNat = min count.toNat (size s).toNat := by
  rw [available, BitVec.ult_eq_decide]
  by_cases less : (size s).toNat < count.toNat
  · rw [if_pos (decide_eq_true less)]
    omega
  · rw [if_neg (by simpa using less)]
    omega

theorem advance_wellFormed (count : BitVec 64) (ordered : s.WellFormed) :
    (advance count s).WellFormed := by
  rw [advance, moveFront_eq ordered]
  exact ordered.moveFront _

end WellFormed

/-! ## Sequences of moves -/

inductive PointerOp
  | moveFront (count : BitVec 32)
  | moveRear (count : BitVec 32)
  | pop (data : Nat) (count : BitVec 64)
  | peek (buffer : Nat) (count : BitVec 64)
  | clear

namespace PointerOp

def perform : PointerOp -> Serializer -> Serializer
  | .moveFront count, s => (Words.moveFront count s).2
  | .moveRear count, s => (Words.moveRear count s).2
  | .pop data count, s => (Words.pop data count s).2
  | .peek buffer count, s => (Words.peek buffer count s).2
  | .clear, s => s.clear

/-- The state after a sequence of operations. -/
def performAll (ops : List PointerOp) (s : Serializer) : Serializer :=
  ops.foldl (fun state op => op.perform state) s

/-- No operation moves the allocation. -/
theorem perform_allocation (op : PointerOp) (s : Serializer) :
    (op.perform s).bufferPtr = s.bufferPtr ∧ (op.perform s).bufferSize = s.bufferSize := by
  cases op <;> exact ⟨rfl, rfl⟩

theorem perform_wellFormed (op : PointerOp) {s : Serializer} (ordered : s.WellFormed) :
    (op.perform s).WellFormed := by
  cases op with
  | moveFront count =>
      change (Words.moveFront count s).2.WellFormed
      rw [moveFront_eq ordered]
      exact ordered.moveFront _
  | moveRear count =>
      change (Words.moveRear count s).2.WellFormed
      rw [moveRear_eq ordered]
      exact ordered.moveRear _
  | pop data count =>
      exact advance_wellFormed count (ordered.store _ _)
  | peek buffer count => exact ordered.store _ _
  | clear => exact ordered.clear

theorem performAll_wellFormed (ops : List PointerOp) {s : Serializer} (ordered : s.WellFormed) :
    (performAll ops s).WellFormed ∧ (performAll ops s).bufferPtr = s.bufferPtr ∧
      (performAll ops s).bufferSize = s.bufferSize := by
  induction ops generalizing s with
  | nil => exact ⟨ordered, rfl, rfl⟩
  | cons op ops inductionHypothesis =>
      rcases inductionHypothesis (perform_wellFormed op ordered) with ⟨ends, pointer, size⟩
      rcases perform_allocation op s with ⟨samePointer, sameSize⟩
      exact ⟨ends, pointer.trans samePointer, size.trans sameSize⟩

end PointerOp

/-- What a move from a state answers and does: its answer is the displacement of
the pointer, and it is the closest to the argument that keeps the order. -/
structure MovesExactly (s : Serializer) : Prop where
  frontDisplaced : forall count, ((moveFront count s).2.headPtr : Int) =
    s.headPtr + (moveFront count s).1.toInt
  frontClosest : forall count : BitVec 32,
    ClosestTo count.toInt s.FrontRange (moveFront count s).1.toInt
  rearDisplaced : forall count, ((moveRear count s).2.tailPtr : Int) =
    s.tailPtr + (moveRear count s).1.toInt
  rearClosest : forall count : BitVec 32,
    ClosestTo count.toInt s.RearRange (moveRear count s).1.toInt

theorem movesExactly {s : Serializer} (ordered : s.WellFormed) : MovesExactly s := by
  have := ordered.buffer_le_head
  have := ordered.head_le_tail
  have := ordered.tail_le_end
  constructor
  · intro count
    have clamped := moveFront_toInt ordered count
    change ((((s.headPtr : Int) + (moveFront count s).1.toInt).toNat : Nat) : Int) = _
    omega
  · intro count
    have nearest := closestTo_clamp (by omega) (by omega) (moveFront_toInt ordered count)
    have same : s.FrontRange = fun offset => (s.bufferPtr : Int) - s.headPtr ≤ offset ∧
        offset ≤ (s.tailPtr : Int) - s.headPtr := by
      funext offset
      exact propext ⟨fun range => ⟨by have := range.1; omega, by have := range.2; omega⟩,
        fun range => ⟨by have := range.1; omega, by have := range.2; omega⟩⟩
    rw [same]
    exact nearest
  · intro count
    have clamped := moveRear_toInt ordered count
    change ((((s.tailPtr : Int) + (moveRear count s).1.toInt).toNat : Nat) : Int) = _
    omega
  · intro count
    have nearest := closestTo_clamp (by omega) (by omega) (moveRear_toInt ordered count)
    have same : s.RearRange = fun offset => (s.headPtr : Int) - s.tailPtr ≤ offset ∧
        offset ≤ (s.bufferPtr : Int) + s.bufferSize - s.tailPtr := by
      funext offset
      exact propext ⟨fun range => ⟨by have := range.1; omega, by have := range.2; omega⟩,
        fun range => ⟨by have := range.1; omega, by have := range.2; omega⟩⟩
    rw [same]
    exact nearest

/-- Every sequence of moves, pops, peeks and clears from an ordered serializer
leaves it ordered in the same allocation, with its three sizes filling the
allocation; and every move from there is exact. -/
theorem pointerMoves_keepOrder {s : Serializer} (ordered : s.WellFormed)
    (ops : List PointerOp) :
    (PointerOp.performAll ops s).WellFormed ∧
      (PointerOp.performAll ops s).bufferPtr = s.bufferPtr ∧
      (PointerOp.performAll ops s).bufferSize = s.bufferSize ∧
      (size (PointerOp.performAll ops s)).toNat +
        (useableSize (PointerOp.performAll ops s)).toNat +
        (usedSize (PointerOp.performAll ops s)).toNat = s.bufferSize ∧
      MovesExactly (PointerOp.performAll ops s) := by
  rcases PointerOp.performAll_wellFormed ops ordered with ⟨ends, samePointer, sameSize⟩
  exact ⟨ends, samePointer, sameSize, (sizes_fill ends).trans sameSize, movesExactly ends⟩

/-- A fresh kilobyte at address 64. -/
def emptyKilobyte : Serializer := ⟨fun _ => 0, 64, 1024, 64, 64⟩

/-- Written to the end with `INT_MAX`, read from, and rewound with `INT_MIN`. -/
def writtenAndRewound : List PointerOp :=
  [.moveRear 0x7FFFFFFF#32, .moveFront 10#32, .pop 4096 3#64, .moveFront 0x80000000#32]

theorem writtenAndRewound_keepsOrder :
    emptyKilobyte.WellFormed ∧
      (PointerOp.performAll writtenAndRewound emptyKilobyte).headPtr = 64 ∧
      (PointerOp.performAll writtenAndRewound emptyKilobyte).tailPtr = 1088 ∧
      MovesExactly (PointerOp.performAll writtenAndRewound emptyKilobyte) := by
  have ordered : emptyKilobyte.WellFormed := ⟨by decide, by decide, by decide, by decide⟩
  exact ⟨ordered, by decide, by decide,
    (pointerMoves_keepOrder ordered writtenAndRewound).2.2.2.2⟩

end Words

end Serializer
end Buffers
end LoginServer
