import LoginServer.Buffers.Fifo

namespace LoginServer
namespace Buffers

open Memory

/-!
# Copies of a ring

The copy constructor and `operator=` allocate a block of the same capacity, put
the pointers at the same offsets and copy the readable bytes in one or two
pieces.  Which it is, they decide by the order of `headPtr` and `tailPtr`; how
long the first piece is, by `DirectDequeueSize`, which compares the positions
behind the two.  The tests differ when a pointer stands on the last byte.

A copy holds the bytes of the original at the readable places only.  The rest
of the fresh block is arbitrary, and no operation but `MoveRear` shows it.
-/

namespace RingBuffer

variable {bits other : Nat}

/-- Length of the second piece, a difference of two `size_t`. -/
def wrappedDequeueSize (ring : RingBuffer bits) : Nat :=
  (BitVec.ofNat 64 ring.size - BitVec.ofNat 64 ring.directDequeueSize).toNat

/-- The `memmove`s that both ways of copying end with. -/
def copyReadable (source copy : RingBuffer bits) : RingBuffer bits :=
  { copy with
    buffer :=
      if copy.headPtr.val ≤ copy.tailPtr.val then
        write copy.buffer copy.head (read source.buffer source.head source.size)
      else
        write (write copy.buffer copy.head (read source.buffer source.head source.directDequeueSize))
          0 (read source.buffer 0 source.wrappedDequeueSize) }

/-- The copy constructor.  `fresh` is what the new block happens to hold. -/
def copyConstructor (fresh : Bytes) (source : RingBuffer bits) : RingBuffer bits :=
  copyReadable source
    { buffer := fresh, headPtr := source.headPtr, tailPtr := source.tailPtr,
      bits_pos := source.bits_pos, bits_le := source.bits_le }

/-- `operator=` on another object.  Its block is given back and every field is
assigned anew, so that nothing of the target is left. -/
def assign (fresh : Bytes) (_target : RingBuffer other) (source : RingBuffer bits) :
    RingBuffer bits :=
  copyReadable source
    { buffer := fresh, headPtr := source.headPtr, tailPtr := source.tailPtr,
      bits_pos := source.bits_pos, bits_le := source.bits_le }

/-- Same pointers and same readable bytes. -/
structure SameReadable (left right : RingBuffer bits) : Prop where
  headPtr : left.headPtr = right.headPtr
  tailPtr : left.tailPtr = right.tailPtr
  content : left.content = right.content

/-! ## The pieces -/

/-- When the pointers are in order the readable bytes do not wrap, also when
`headPtr` stands on the last byte: then there are none. -/
theorem readable_direct (ring : RingBuffer bits) (order : ring.headPtr.val ≤ ring.tailPtr.val) :
    ring.head + ring.size ≤ ring.bufferSize := by
  have headBound := ring.headPtr.isLt
  have tailBound := ring.tailPtr.isLt
  have headAt := ring.head_eq
  have sizes := ring.size_cases
  rw [mod_eq_wrap (by omega)] at headAt
  rw [if_pos order] at sizes
  unfold bufferSize
  split at headAt <;> omega

/-- When the pointers are out of order, the first piece ends at the end of the
block or the second piece is empty. -/
theorem readable_wraps (ring : RingBuffer bits) (order : ¬ ring.headPtr.val ≤ ring.tailPtr.val) :
    ring.directDequeueSize ≤ ring.size ∧
      (ring.directDequeueSize = ring.bufferSize - ring.head ∨
        ring.directDequeueSize = ring.size ∧ ring.head = 0) := by
  have headBound := ring.headPtr.isLt
  have tailBound := ring.tailPtr.isLt
  have headAt := ring.head_eq
  have tailAt := ring.tail_eq
  have sizes := ring.size_cases
  rw [mod_eq_wrap (by omega)] at headAt tailAt
  rw [if_neg order] at sizes
  unfold directDequeueSize bufferSize
  split at headAt <;> split at tailAt <;> split <;> omega

/-- The length of the second piece does not go below zero. -/
theorem wrappedDequeueSize_eq (ring : RingBuffer bits)
    (order : ¬ ring.headPtr.val ≤ ring.tailPtr.val) :
    ring.wrappedDequeueSize = ring.size - ring.directDequeueSize := by
  have first := (ring.readable_wraps order).1
  have bound := ring.size_lt
  have capacity : 2 ^ bits ≤ 2 ^ 31 := Nat.pow_le_pow_right (by decide) ring.bits_le
  rw [wrappedDequeueSize, BitVec.toNat_sub, BitVec.toNat_ofNat, BitVec.toNat_ofNat]
  omega

/-- Copied into a block with the same pointers, the readable bytes are the same. -/
theorem copyReadable_content {source copy : RingBuffer bits}
    (sameHead : copy.headPtr = source.headPtr) (sameTail : copy.tailPtr = source.tailPtr) :
    (copyReadable source copy).content = source.content := by
  have head : copy.head = source.head := by rw [head_eq, head_eq, sameHead]
  have size : copy.size = source.size := by rw [size_eq, size_eq, sameHead, sameTail]
  have view : (copyReadable source copy).content =
      readCircular (copyReadable source copy).buffer source.bufferSize source.head source.size := by
    change readCircular _ _ copy.head copy.size = _
    rw [head, size]
    rfl
  have headBound := source.head_lt
  have sizeBound := source.size_lt
  rw [view, content]
  by_cases order : source.headPtr.val ≤ source.tailPtr.val
  · have direct := source.readable_direct order
    have piece : (copyReadable source copy).buffer =
        write copy.buffer source.head (read source.buffer source.head source.size) := by
      have ordered : copy.headPtr.val ≤ copy.tailPtr.val := by rwa [sameHead, sameTail]
      simp only [copyReadable, if_pos ordered, head]
    rw [readCircular_direct _ _ _ _ direct, readCircular_direct _ _ _ _ direct, piece]
    have written := read_write copy.buffer source.head (read source.buffer source.head source.size)
    rwa [read_length] at written
  · have pieces : (copyReadable source copy).buffer =
        write (write copy.buffer source.head
            (read source.buffer source.head source.directDequeueSize))
          0 (read source.buffer 0 source.wrappedDequeueSize) := by
      have reversed : ¬ copy.headPtr.val ≤ copy.tailPtr.val := by rwa [sameHead, sameTail]
      simp only [copyReadable, if_neg reversed, head]
    have second := source.wrappedDequeueSize_eq order
    rcases source.readable_wraps order with ⟨first, toEnd | ⟨whole, start⟩⟩
    · -- Two straight pieces, and the second stops before the first begins.
      have gap : source.wrappedDequeueSize ≤ source.head := by
        rw [second, toEnd]
        unfold bufferSize
        omega
      have reaches : source.bufferSize ≤ source.head + source.size := by
        unfold bufferSize at toEnd ⊢
        omega
      have fits : source.size ≤ source.bufferSize := Nat.le_of_lt sizeBound
      rw [readCircular_wrap _ source.bufferSize _ _ headBound reaches fits,
        readCircular_wrap _ source.bufferSize _ _ headBound reaches fits, ← toEnd, ← second, pieces]
      congr 1
      · rw [read_write_disjoint _ _ _ _ _ (Or.inr (by rw [read_length]; omega))]
        have written := read_write copy.buffer source.head
          (read source.buffer source.head source.directDequeueSize)
        rwa [read_length] at written
      · have written := read_write (write copy.buffer source.head
            (read source.buffer source.head source.directDequeueSize)) 0
          (read source.buffer 0 source.wrappedDequeueSize)
        rwa [read_length] at written
    · -- `headPtr` on the last byte: everything is in the first piece.
      have empty : source.wrappedDequeueSize = 0 := by omega
      have direct : source.head + source.size ≤ source.bufferSize := by
        rw [start, Nat.zero_add]
        exact Nat.le_of_lt sizeBound
      rw [readCircular_direct _ _ _ _ direct, readCircular_direct _ _ _ _ direct, pieces, empty,
        read_zero, write_nil, whole]
      have written := read_write copy.buffer source.head (read source.buffer source.head source.size)
      rwa [read_length] at written

theorem copyConstructor_same (fresh : Bytes) (source : RingBuffer bits) :
    SameReadable (copyConstructor fresh source) source :=
  ⟨rfl, rfl, copyReadable_content rfl rfl⟩

theorem assign_same (fresh : Bytes) (target : RingBuffer other) (source : RingBuffer bits) :
    SameReadable (assign fresh target source) source :=
  ⟨rfl, rfl, copyReadable_content rfl rfl⟩

/-! ## What a copy answers -/

end RingBuffer

/-- Only `MoveRear` makes bytes readable that were not put there through the queue. -/
def QueueOp.exposes : QueueOp -> Bool
  | .moveRear _ => true
  | _ => false

namespace RingBuffer

variable {bits other : Nat}

theorem push_content_take (ring : RingBuffer bits) (data : List Byte) :
    (ring.push data).2.content = ring.content ++ data.take ring.freeSize := by
  rw [(ring.push_take data).2, push_content _ _ (by rw [List.length_take]; omega)]

namespace SameReadable

variable {left right : RingBuffer bits}

theorem size (same : SameReadable left right) : left.size = right.size := by
  rw [size_eq, size_eq, same.headPtr, same.tailPtr]

theorem freeSize (same : SameReadable left right) : left.freeSize = right.freeSize := by
  rw [freeSize_eq, freeSize_eq, same.size]

theorem push (same : SameReadable left right) (data : List Byte) :
    (left.push data).1 = (right.push data).1 ∧
      SameReadable (left.push data).2 (right.push data).2 := by
  have count : (left.push data).1 = (right.push data).1 := by
    rw [(left.push_take data).1, (right.push_take data).1, same.freeSize]
  refine ⟨count, same.headPtr, ?_, ?_⟩
  · apply Fin.ext
    change left.mask ((left.tailPtr.val : Int) + (left.push data).1) =
      right.mask ((right.tailPtr.val : Int) + (right.push data).1)
    rw [mask_eq, mask_eq, count, same.tailPtr]
  · rw [push_content_take, push_content_take, same.content, same.freeSize]

theorem pop (same : SameReadable left right) (count : Nat) :
    (left.pop count).1 = (right.pop count).1 ∧
      SameReadable (left.pop count).2 (right.pop count).2 := by
  refine ⟨?_, ?_, same.tailPtr, ?_⟩
  · rw [pop_fst, pop_fst, same.content]
  · apply Fin.ext
    simp only [RingBuffer.pop, mask_eq, same.size, same.headPtr]
  · rw [pop_content_drop, pop_content_drop, same.content]

/-- One operation gives the same answer, and the readable bytes stay the same. -/
theorem perform (same : SameReadable left right) (op : QueueOp) (hidden : op.exposes = false) :
    (left.perform op).1 = (right.perform op).1 ∧
      SameReadable (left.perform op).2 (right.perform op).2 := by
  cases op with
  | push data =>
      rcases same.push data with ⟨count, next⟩
      exact ⟨congrArg (fun count => QueueAnswer.number (count : Nat)) count, next⟩
  | pop count =>
      rcases same.pop count with ⟨bytes, next⟩
      exact ⟨congrArg QueueAnswer.bytes bytes, next⟩
  | front count =>
      have bytes : left.front count = right.front count := by
        rw [front_eq, front_eq, same.content]
      exact ⟨congrArg QueueAnswer.bytes bytes, same⟩
  | moveRear count => cases hidden
  | moveFront count =>
      have number : (left.moveFront count).1 = (right.moveFront count).1 := by
        rw [(left.moveFront_eq count).1, (right.moveFront_eq count).1, same.size]
      have next : SameReadable (left.moveFront count).2 (right.moveFront count).2 := by
        rw [(left.moveFront_eq count).2, (right.moveFront_eq count).2]
        exact (same.pop count).2
      exact ⟨congrArg QueueAnswer.number number, next⟩
  | clear =>
      have next : SameReadable left.clear right.clear :=
        ⟨same.tailPtr, same.tailPtr, left.content_clear.trans right.content_clear.symm⟩
      exact ⟨rfl, next⟩

theorem performAll (same : SameReadable left right) (ops : List QueueOp)
    (hidden : forall op, op ∈ ops -> op.exposes = false) :
    (left.performAll ops).1 = (right.performAll ops).1 ∧
      SameReadable (left.performAll ops).2 (right.performAll ops).2 := by
  induction ops generalizing left right with
  | nil => exact ⟨rfl, same⟩
  | cons op ops inductionHypothesis =>
      rcases same.perform op (hidden op List.mem_cons_self) with ⟨answer, next⟩
      rcases inductionHypothesis next (fun later member => hidden later (List.mem_cons_of_mem _ member))
        with ⟨answers, final⟩
      refine ⟨?_, final⟩
      simp only [RingBuffer.performAll, answer, answers]

end SameReadable

/-- What a ring shows: its capacity, the offsets of its pointers, its readable
bytes, and the answers to every sequence of operations that exposes nothing. -/
structure Indistinguishable (copy source : RingBuffer bits) : Prop where
  bufferSize : copy.bufferSize = source.bufferSize
  headPtr : copy.headPtr = source.headPtr
  tailPtr : copy.tailPtr = source.tailPtr
  content : copy.content = source.content
  answers : forall ops : List QueueOp, (forall op, op ∈ ops -> op.exposes = false) ->
    (copy.performAll ops).1 = (source.performAll ops).1 ∧
      (copy.performAll ops).2.content = (source.performAll ops).2.content

theorem SameReadable.indistinguishable {copy source : RingBuffer bits}
    (same : SameReadable copy source) : Indistinguishable copy source where
  bufferSize := rfl
  headPtr := same.headPtr
  tailPtr := same.tailPtr
  content := same.content
  answers ops hidden := by
    rcases same.performAll ops hidden with ⟨answers, final⟩
    exact ⟨answers, final.content⟩

/-- A ring and a copy of it cannot be told apart by any later operations, whatever the new block
held, whichever way the copy was made (constructor or assignment) and whatever the target of the
assignment was. -/
theorem copies_indistinguishable (source : RingBuffer bits) (fresh : Bytes)
    (target : RingBuffer other) :
    Indistinguishable (copyConstructor fresh source) source ∧
      Indistinguishable (assign fresh target source) source :=
  ⟨(copyConstructor_same fresh source).indistinguishable,
    (assign_same fresh target source).indistinguishable⟩

/-- A full ring of eight whose `headPtr` stands on the last byte. -/
example (fresh : Bytes) :
    let full : RingBuffer 3 := ⟨fun offset => BitVec.ofNat 8 offset, 7, 6, by decide, by decide⟩
    (copyConstructor fresh full).content = [0, 1, 2, 3, 4, 5, 6] := by
  intro full
  exact (copyConstructor_same fresh full).content.trans (by decide)

end RingBuffer
end Buffers
end LoginServer
