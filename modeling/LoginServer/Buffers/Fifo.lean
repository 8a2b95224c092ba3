import LoginServer.Buffers.RingBuffer

namespace LoginServer
namespace Buffers

open Memory

/-!
# The ring as a queue

What `ringBuffer` is for: a queue of bytes with a capacity one below the size of
the allocation.  The queue is given on its own first, then `push` and
`MoveFront` of the ring, and the theorem that every sequence of operations on
the ring is one on the queue.
-/

/-! ## Byte queues -/

inductive QueueOp where
  | push (data : List Byte)
  | pop (count : Nat)
  | front (count : Nat)
  | moveRear (count : Nat)
  | moveFront (count : Nat)
  | clear

/-- What an operation returns: a number, or the bytes it copied out. -/
inductive QueueAnswer where
  | number (count : Int)
  | bytes (data : List Byte)
  | nothing

/-- One operation on a queue of bounded capacity.  The bytes that `MoveRear` exposes
were put there by somebody else. -/
inductive QueueStep (capacity : Nat) : List Byte -> QueueOp -> QueueAnswer -> List Byte -> Prop
  | push (queue data : List Byte) :
      QueueStep capacity queue (.push data) (.number (min data.length (capacity - queue.length) : Nat))
        (queue ++ data.take (capacity - queue.length))
  | pop (queue : List Byte) (count : Nat) :
      QueueStep capacity queue (.pop count) (.bytes (queue.take count)) (queue.drop count)
  | front (queue : List Byte) (count : Nat) :
      QueueStep capacity queue (.front count) (.bytes (queue.take count)) queue
  | moveRear (queue : List Byte) (count : Nat) (exposed : List Byte)
      (length : exposed.length = min count (capacity - queue.length)) :
      QueueStep capacity queue (.moveRear count) (.number exposed.length) (queue ++ exposed)
  | moveFront (queue : List Byte) (count : Nat) :
      QueueStep capacity queue (.moveFront count) (.number (min count queue.length : Nat))
        (queue.drop count)
  | clear (queue : List Byte) : QueueStep capacity queue .clear .nothing []

/-- A sequence of operations. -/
inductive QueueSteps (capacity : Nat) :
    List Byte -> List QueueOp -> List QueueAnswer -> List Byte -> Prop
  | done (queue : List Byte) : QueueSteps capacity queue [] [] queue
  | step {queue next final : List Byte} {op : QueueOp} {answer : QueueAnswer} {ops : List QueueOp}
      {answers : List QueueAnswer} (first : QueueStep capacity queue op answer next)
      (rest : QueueSteps capacity next ops answers final) :
      QueueSteps capacity queue (op :: ops) (answer :: answers) final

/-- The capacity is never exceeded. -/
theorem QueueStep.bounded {capacity : Nat} {queue next : List Byte} {op : QueueOp}
    {answer : QueueAnswer} (step : QueueStep capacity queue op answer next)
    (bounded : queue.length ≤ capacity) : next.length ≤ capacity := by
  cases step with
  | push data =>
      rw [List.length_append, List.length_take]
      omega
  | pop count =>
      rw [List.length_drop]
      omega
  | front count => exact bounded
  | moveRear count exposed length =>
      rw [List.length_append, length]
      omega
  | moveFront count =>
      rw [List.length_drop]
      omega
  | clear => exact Nat.zero_le _

theorem QueueSteps.bounded {capacity : Nat} {queue final : List Byte} {ops : List QueueOp}
    {answers : List QueueAnswer} (steps : QueueSteps capacity queue ops answers final)
    (bounded : queue.length ≤ capacity) : final.length ≤ capacity := by
  induction steps with
  | done => exact bounded
  | step first _ inductionHypothesis => exact inductionHypothesis (first.bounded bounded)

/-! ## The remaining operations of the ring -/

namespace RingBuffer

variable {bits : Nat}

def full (ring : RingBuffer bits) : Bool := ring.headPtr.val == ring.tail

/-- `push`, with the number of bytes it took. -/
def push (ring : RingBuffer bits) (data : List Byte) : Nat × RingBuffer bits :=
  let count := if data.length > ring.freeSizeBetween then ring.freeSizeBetween else data.length
  let data := data.take count
  let d := if ring.tail ≤ ring.headPtr.val then ring.headPtr.val - ring.tail
    else ring.bufferSize - ring.tail
  (count,
    { ring with
      buffer :=
        if d ≥ count then write ring.buffer ring.tail data
        else write (write ring.buffer ring.tail (data.take d)) 0 (data.drop d)
      tailPtr := ⟨ring.mask ((ring.tailPtr.val : Int) + count), ring.mask_lt _⟩ })

/-- `MoveFront`, with the number of bytes it dropped. -/
def moveFront (ring : RingBuffer bits) (count : Int) : Int × RingBuffer bits :=
  let limit : Int := min (ring.size : Int) (2 ^ 31 - 1)
  let count := if count > limit then limit else count
  (count,
    { ring with headPtr := ⟨ring.mask ((ring.headPtr.val : Int) + count), ring.mask_lt _⟩ })

/-- One operation of the ring. -/
def perform (ring : RingBuffer bits) : QueueOp -> QueueAnswer × RingBuffer bits
  | .push data => (.number (ring.push data).1, (ring.push data).2)
  | .pop count => (.bytes (ring.pop count).1, (ring.pop count).2)
  | .front count => (.bytes (ring.front count), ring)
  | .moveRear count => (.number (ring.moveRear count).1, (ring.moveRear count).2)
  | .moveFront count => (.number (ring.moveFront count).1, (ring.moveFront count).2)
  | .clear => (.nothing, ring.clear)

/-- A sequence of operations of the ring. -/
def performAll (ring : RingBuffer bits) : List QueueOp -> List QueueAnswer × RingBuffer bits
  | [] => ([], ring)
  | op :: ops =>
      let first := ring.perform op
      let rest := first.2.performAll ops
      (first.1 :: rest.1, rest.2)

/-! ## Sizes -/

theorem size_add_freeSize (ring : RingBuffer bits) : ring.size + ring.freeSize = 2 ^ bits - 1 := by
  have bound := ring.size_lt
  rw [freeSize_eq]
  omega

theorem empty_iff (ring : RingBuffer bits) : ring.empty = true ↔ ring.size = 0 := by
  have headBound := ring.headPtr.isLt
  have tailBound := ring.tailPtr.isLt
  have sizes := ring.size_cases
  rw [empty, beq_iff_eq, Fin.ext_iff]
  split at sizes <;> omega

theorem full_iff (ring : RingBuffer bits) : ring.full = true ↔ ring.freeSize = 0 := by
  have headBound := ring.headPtr.isLt
  have tailBound := ring.tailPtr.isLt
  have sizes := ring.size_cases
  have free := ring.freeSize_eq
  have tailAt := ring.tail_eq
  rw [mod_eq_wrap (by omega)] at tailAt
  rw [full, beq_iff_eq, free, tailAt]
  split at sizes <;> split <;> omega

theorem content_clear (ring : RingBuffer bits) : ring.clear.content = [] := by
  have none : ring.clear.size = 0 := ring.clear.empty_iff.mp (by simp [clear, empty])
  exact List.eq_nil_of_length_eq_zero (by rw [content_length, none])

/-! ## Pushing -/

/-- The region behind the readable bytes wraps at most once. -/
theorem push_buffer (ring : RingBuffer bits) (data : List Byte) (fits : data.length ≤ ring.freeSize) :
    (ring.push data).2.buffer = writeCircular ring.buffer ring.bufferSize ring.tail data := by
  have headBound := ring.headPtr.isLt
  have tailBound := ring.tailPtr.isLt
  have sizes := ring.size_cases
  have free := ring.freeSize_eq
  have tailAt := ring.tail_eq
  rw [mod_eq_wrap (by omega)] at tailAt
  have whole : ¬ data.length > ring.freeSizeBetween := by
    rw [freeSizeBetween_eq]
    omega
  have sum := ring.size_add_freeSize
  rw [free] at fits
  have straightLength : (if ring.tail ≤ ring.headPtr.val then ring.headPtr.val - ring.tail
      else ring.bufferSize - ring.tail) ≥ data.length ↔ ring.tail + data.length ≤ ring.bufferSize := by
    unfold bufferSize
    split at sizes <;> split at tailAt <;> split <;> omega
  simp only [push, if_neg whole, List.take_length, writeCircular]
  by_cases straight : ring.tail + data.length ≤ ring.bufferSize
  · rw [if_pos (straightLength.mpr straight), if_pos straight]
  · have behind : ¬ ring.tail ≤ ring.headPtr.val := by
      unfold bufferSize at straight
      split at sizes <;> split at tailAt <;> omega
    rw [if_neg (fun direct => straight (straightLength.mp direct)), if_neg straight, if_neg behind]

theorem push_size (ring : RingBuffer bits) (data : List Byte) (fits : data.length ≤ ring.freeSize) :
    (ring.push data).2.size = ring.size + data.length := by
  have whole : ¬ data.length > ring.freeSizeBetween := by
    rw [freeSizeBetween_eq]
    omega
  have unclamped : ¬ (data.length : Int) > min (ring.freeSizeBetween : Int) (2 ^ 31 - 1) := by
    have int32 : 2 ^ bits ≤ 2 ^ 31 := Nat.pow_le_pow_right (by decide) ring.bits_le
    have free := ring.freeSize_eq
    rw [freeSizeBetween_eq]
    omega
  have same : (ring.push data).2.tailPtr = (ring.moveRear data.length).2.tailPtr := by
    simp only [push, moveRear, if_neg whole, if_neg unclamped]
  have moved := ring.moveRear_size data.length fits
  rw [size_eq] at moved ⊢
  rw [same]
  exact moved

theorem push_content (ring : RingBuffer bits) (data : List Byte) (fits : data.length ≤ ring.freeSize) :
    (ring.push data).2.content = ring.content ++ data := by
  have sizeBound := ring.size_lt
  have free := ring.freeSize_eq
  have sameHead : (ring.push data).2.head = ring.head := rfl
  rw [content, ring.push_size data fits, ring.push_buffer data fits, sameHead]
  have place : ring.tail = (ring.head + ring.size) % ring.bufferSize := ring.tail_eq_head_add
  rw [place]
  exact readCircular_append ring.buffer ring.bufferSize ring.head ring.size data ring.head_lt
    (by unfold bufferSize; omega)

theorem push_take (ring : RingBuffer bits) (data : List Byte) :
    (ring.push data).1 = min data.length ring.freeSize ∧
      (ring.push data).2 = (ring.push (data.take ring.freeSize)).2 := by
  have between := ring.freeSizeBetween_eq
  by_cases more : data.length > ring.freeSize
  · have length : (data.take ring.freeSize).length = ring.freeSize := by
      rw [List.length_take]
      omega
    simp only [push, between, if_pos more, length, if_neg (Nat.lt_irrefl ring.freeSize),
      List.take_take, Nat.min_self]
    exact ⟨by omega, trivial⟩
  · rw [List.take_of_length_le (by omega)]
    simp only [push, between, if_neg more]
    exact ⟨by omega, trivial⟩

/-! ## Moving the pointers -/

/-- The bytes that lie in the free region, in order. -/
def room (ring : RingBuffer bits) : List Byte :=
  readCircular ring.buffer ring.bufferSize ring.tail ring.freeSize

theorem moveRear_fst (ring : RingBuffer bits) (count : Nat) :
    (ring.moveRear count).1 = (min count ring.freeSize : Nat) ∧
      (ring.moveRear count).2 = (ring.moveRear (min count ring.freeSize : Nat)).2 := by
  have int32 : 2 ^ bits ≤ 2 ^ 31 := Nat.pow_le_pow_right (by decide) ring.bits_le
  have free := ring.freeSize_eq
  have limit : min (ring.freeSizeBetween : Int) (2 ^ 31 - 1) = ring.freeSize := by
    rw [freeSizeBetween_eq]
    omega
  have clamp : (if (count : Int) > ring.freeSize then (ring.freeSize : Int) else count) =
      (min count ring.freeSize : Nat) := by
    split <;> omega
  have clamped : ¬ ((min count ring.freeSize : Nat) : Int) > ring.freeSize := by omega
  constructor
  · simp only [moveRear, limit, clamp]
  · simp only [moveRear, limit, clamp, if_neg clamped]

theorem moveRear_content (ring : RingBuffer bits) (count : Nat) (fits : count ≤ ring.freeSize) :
    (ring.moveRear count).2.content = ring.content ++ ring.room.take count := by
  have place : (ring.head + ring.size) % ring.bufferSize = ring.tail := ring.tail_eq_head_add.symm
  rw [content, ring.moveRear_size count fits, moveRear_buffer, moveRear_head, readCircular_add,
    room, readCircular_take _ _ _ _ _ fits]
  congr 2

theorem moveFront_eq (ring : RingBuffer bits) (count : Nat) :
    (ring.moveFront count).1 = (min count ring.size : Nat) ∧
      (ring.moveFront count).2 = (ring.pop count).2 := by
  have int32 : 2 ^ bits ≤ 2 ^ 31 := Nat.pow_le_pow_right (by decide) ring.bits_le
  have bound := ring.size_lt
  have limit : min (ring.size : Int) (2 ^ 31 - 1) = ring.size := by omega
  have clamp : (if (count : Int) > min (ring.size : Int) (2 ^ 31 - 1)
      then min (ring.size : Int) (2 ^ 31 - 1) else (count : Int)) = (min count ring.size : Nat) := by
    rw [limit]
    split <;> omega
  have popClamp : (if count > ring.size then ring.size else count) = min count ring.size := by
    split <;> omega
  constructor
  · exact clamp
  · simp only [moveFront, pop, clamp, popClamp]

theorem pop_content_drop (ring : RingBuffer bits) (count : Nat) :
    (ring.pop count).2.content = ring.content.drop count := by
  by_cases more : count > ring.size
  · have clamp : (ring.pop count).2 = (ring.pop ring.size).2 := by
      simp only [pop, if_pos more, if_neg (Nat.lt_irrefl ring.size)]
    rw [clamp, ring.pop_content _ (Nat.le_refl _), List.drop_of_length_le (by rw [content_length]),
      List.drop_of_length_le (by rw [content_length]; omega)]
  · exact ring.pop_content count (by omega)

/-! ## Refinement -/

/-- Each operation of the ring is the one of the queue. -/
theorem perform_queueStep (ring : RingBuffer bits) (op : QueueOp) :
    QueueStep (2 ^ bits - 1) ring.content op (ring.perform op).1 (ring.perform op).2.content := by
  have free : 2 ^ bits - 1 - ring.content.length = ring.freeSize := by
    rw [content_length, freeSize_eq]
  cases op with
  | push data =>
      rcases ring.push_take data with ⟨number, same⟩
      have step : QueueStep (2 ^ bits - 1) ring.content _ _ _ := .push ring.content data
      rw [free] at step
      rw [perform, number, same, push_content _ _ (by rw [List.length_take]; omega)]
      exact step
  | pop count =>
      rw [perform, pop_fst, pop_content_drop]
      exact .pop ring.content count
  | front count =>
      rw [perform, front_eq]
      exact .front ring.content count
  | moveRear count =>
      rcases ring.moveRear_fst count with ⟨number, same⟩
      have length : (ring.room.take (min count ring.freeSize)).length = min count ring.freeSize := by
        rw [List.length_take, room, readCircular_length]
        omega
      have step : QueueStep (2 ^ bits - 1) ring.content _ _ _ := .moveRear ring.content count
        (ring.room.take (min count ring.freeSize)) (by rw [length, free])
      rw [length] at step
      rw [perform, number, same, moveRear_content _ _ (Nat.min_le_right _ _)]
      exact step
  | moveFront count =>
      rcases ring.moveFront_eq count with ⟨number, same⟩
      have step : QueueStep (2 ^ bits - 1) ring.content _ _ _ := .moveFront ring.content count
      rw [content_length] at step
      rw [perform, number, same, pop_content_drop]
      exact step
  | clear =>
      rw [perform, content_clear]
      exact .clear ring.content

/-- Every sequence of operations on the ring is one on a byte queue of capacity
`bufferSize - 1`, from any position of the two pointers.  In the state it ends
in, as in all others, the two sizes add up to the capacity and the tests agree
with them. -/
theorem ring_refines_queue (ring : RingBuffer bits) (ops : List QueueOp) :
    QueueSteps (ring.bufferSize - 1) ring.content ops (ring.performAll ops).1
        (ring.performAll ops).2.content ∧
      (ring.performAll ops).2.content.length = (ring.performAll ops).2.size ∧
      (ring.performAll ops).2.size + (ring.performAll ops).2.freeSize = ring.bufferSize - 1 ∧
      (ring.performAll ops).2.freeSize = (ring.performAll ops).2.freeSizeBetween ∧
      ((ring.performAll ops).2.empty = true ↔ (ring.performAll ops).2.size = 0) ∧
      ((ring.performAll ops).2.full = true ↔ (ring.performAll ops).2.freeSize = 0) := by
  refine ⟨?_, content_length _, size_add_freeSize _, (freeSizeBetween_eq _).symm, empty_iff _,
    full_iff _⟩
  induction ops generalizing ring with
  | nil => exact .done ring.content
  | cons op ops inductionHypothesis =>
      exact .step (ring.perform_queueStep op) (inductionHypothesis (ring.perform op).2)

end RingBuffer
end Buffers
end LoginServer
