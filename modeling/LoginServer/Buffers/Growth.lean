import LoginServer.Buffers.Insertion

namespace LoginServer
namespace Buffers
namespace Serializer

open Memory

/-!
# Growing

`resize` overwrites `headPtr` before it computes the new `tailPtr` from the
difference of the two, so the new `tailPtr` is the old address.  The write that
follows goes to that address.  This module follows the loop over the blocks
that the allocator answers and finds the only layouts in which nothing is lost:
there is no content yet, and the block the loop ends with begins exactly where
the old `tailPtr` points.
-/

/-! ## The blocks of the loop -/

/-- Start of the block after `index` calls of `resize`. -/
def blockAt (allocate : Nat -> Nat) (s : Serializer) : Nat -> Nat
  | 0 => s.bufferPtr
  | index + 1 => allocate (s.bufferSize * 2 ^ (index + 1))

/-- The state after a number of calls of `resize`. -/
def grown (allocate : Nat -> Nat) : Nat -> Serializer -> Serializer
  | 0, s => s
  | index + 1, s => grown allocate index (s.resize allocate (sizeT (s.bufferSize * 2)))

/-- The blocks lie in the lower half of the address space, and each one is
disjoint from the one it replaces.  The answer 0 is a failure. -/
structure Allocates (allocate : Nat -> Nat) (s : Serializer) : Prop where
  placed : 0 < s.bufferPtr
  inside : s.bufferPtr + s.bufferSize ≤ 2 ^ 63
  answers : forall size, allocate size ≠ 0 -> allocate size + size ≤ 2 ^ 63
  disjoint : forall index, blockAt allocate s (index + 1) ≠ 0 ->
    blockAt allocate s index + s.bufferSize * 2 ^ index ≤ blockAt allocate s (index + 1) ∨
      blockAt allocate s (index + 1) + s.bufferSize * 2 ^ (index + 1) ≤ blockAt allocate s index

/-- Pointers that are addresses, whether or not `tailPtr` is where it belongs. -/
structure Addressed (s : Serializer) : Prop where
  buffer_le_head : s.bufferPtr ≤ s.headPtr
  head_le_end : s.headPtr ≤ s.bufferPtr + s.bufferSize
  tail_pos : 0 < s.tailPtr
  tail_le : s.tailPtr ≤ 2 ^ 64

theorem WellFormed.addressed {allocate : Nat -> Nat} {s : Serializer} (ordered : s.WellFormed)
    (allocates : Allocates allocate s) : s.Addressed := by
  have := ordered.buffer_le_head
  have := ordered.head_le_tail
  have := ordered.tail_le_end
  have := allocates.placed
  have := allocates.inside
  exact ⟨by omega, by omega, by omega, by omega⟩

theorem grown_succ (allocate : Nat -> Nat) (index : Nat) (s : Serializer) :
    grown allocate (index + 1) s =
      (grown allocate index s).resize allocate
        (sizeT ((grown allocate index s).bufferSize * 2)) := by
  induction index generalizing s with
  | zero => rfl
  | succ index inductionHypothesis =>
      exact inductionHypothesis (s.resize allocate (sizeT (s.bufferSize * 2)))

/-- The loop calls `resize` here, and the call comes back. -/
def Continues (allocate : Nat -> Nat) (count : Nat) (s : Serializer) : Prop :=
  s.useableSize < count ∧ ¬ s.resizeFaults allocate (sizeT (s.bufferSize * 2))

/-- The loop ends in the first state that has the room. -/
theorem reserve_eq_some_iff (allocate : Nat -> Nat) (fuel : Nat) (s : Serializer) (count : Nat)
    (final : Serializer) :
    s.reserve allocate fuel count = some final ↔
      Exists fun calls => calls ≤ fuel ∧ final = grown allocate calls s ∧
        count ≤ (grown allocate calls s).useableSize ∧
          forall index, index < calls -> (grown allocate index s).Continues allocate count := by
  induction fuel generalizing s with
  | zero =>
      rw [reserve]
      split
      next more =>
        refine ⟨by simp, ?_⟩
        rintro ⟨calls, le, same, enough, -⟩
        rw [Nat.le_zero.mp le] at enough
        exact absurd more (Nat.not_lt.mpr enough)
      next enough =>
        constructor
        · intro result
          cases result
          exact ⟨0, Nat.le_refl _, rfl, Nat.le_of_not_lt enough, by simp⟩
        · rintro ⟨calls, le, same, -, -⟩
          rw [same, Nat.le_zero.mp le]
          rfl
  | succ fuel inductionHypothesis =>
      rw [reserve]
      split
      next more =>
        split
        next faults =>
          refine ⟨by simp, ?_⟩
          rintro ⟨calls, le, same, enough, continues⟩
          cases calls with
          | zero => exact absurd more (Nat.not_lt.mpr enough)
          | succ calls => exact absurd faults (continues 0 (Nat.succ_pos _)).2
        next fine =>
          rw [inductionHypothesis]
          constructor
          · rintro ⟨calls, le, same, enough, continues⟩
            refine ⟨calls + 1, Nat.succ_le_succ le, same, enough, ?_⟩
            intro index before
            cases index with
            | zero => exact ⟨more, fine⟩
            | succ index => exact continues index (Nat.lt_of_succ_lt_succ before)
          · rintro ⟨calls, le, same, enough, continues⟩
            cases calls with
            | zero => exact absurd more (Nat.not_lt.mpr enough)
            | succ calls =>
                exact ⟨calls, Nat.le_of_succ_le_succ le, same, enough, fun index before =>
                  continues (index + 1) (Nat.succ_lt_succ before)⟩
      next enough =>
        constructor
        · intro result
          cases result
          exact ⟨0, Nat.zero_le _, rfl, Nat.le_of_not_lt enough, by simp⟩
        · rintro ⟨calls, le, same, -, continues⟩
          cases calls with
          | zero => rw [same, grown]
          | succ calls => exact absurd (continues 0 (Nat.succ_pos _)).1 enough

/-! ## One call of `resize` -/

@[simp] theorem resize_bufferPtr (s : Serializer) (allocate : Nat -> Nat) (newSize : Nat) :
    (s.resize allocate newSize).bufferPtr = allocate newSize := rfl

@[simp] theorem resize_bufferSize (s : Serializer) (allocate : Nat -> Nat) (newSize : Nat) :
    (s.resize allocate newSize).bufferSize = newSize := rfl

@[simp] theorem resize_headPtr (s : Serializer) (allocate : Nat -> Nat) (newSize : Nat) :
    (s.resize allocate newSize).headPtr = allocate newSize := rfl

/-- The difference is taken from the new `headPtr`, so `tailPtr` stays where it was. -/
@[simp] theorem resize_tailPtr (s : Serializer) (allocate : Nat -> Nat) (newSize : Nat) :
    (s.resize allocate newSize).tailPtr = s.tailPtr := by
  change (_ + ((s.tailPtr : Int) - (allocate newSize : Nat))).toNat = s.tailPtr
  omega

/-- A memory of one repeated byte stays one under block copies. -/
theorem grown_constant (allocate : Nat -> Nat) (byte : Byte) (index : Nat) (s : Serializer)
    (constant : s.memory = fun _ => byte) : (grown allocate index s).memory = fun _ => byte := by
  induction index generalizing s with
  | zero => exact constant
  | succ index inductionHypothesis =>
      apply inductionHypothesis
      funext target
      change write s.memory _ (read s.memory s.headPtr s.size) target = byte
      rw [constant]
      unfold write
      split
      · cases found : (read (fun _ => byte) s.headPtr s.size)[target - allocate _]? with
        | none => rfl
        | some value =>
            have member := List.mem_of_getElem? found
            simp only [Memory.read, List.mem_map] at member
            rcases member with ⟨_, _, same⟩
            exact same.symm
      · rfl

/-! ## Where the pointers are in the loop -/

section Layout

variable {allocate : Nat -> Nat} {s : Serializer}

/-- The pointers after `index` calls. -/
structure Layout (allocate : Nat -> Nat) (s : Serializer) (index : Nat) (now : Serializer) : Prop where
  buffer : now.bufferPtr = blockAt allocate s index
  capacity : now.bufferSize = s.bufferSize * 2 ^ index
  tail : now.tailPtr = s.tailPtr
  head : now.headPtr = if index = 0 then s.headPtr else blockAt allocate s index
  positive : 0 < blockAt allocate s index
  inside : blockAt allocate s index + s.bufferSize * 2 ^ index ≤ 2 ^ 63

/-- The doubled size does not wrap while the block of that size is half of it. -/
theorem Layout.doubled {index : Nat} {now : Serializer} (layout : Layout allocate s index now) :
    sizeT (now.bufferSize * 2) = s.bufferSize * 2 ^ (index + 1) := by
  have inside := layout.inside
  have positive := layout.positive
  have twice : s.bufferSize * 2 ^ (index + 1) = s.bufferSize * 2 ^ index * 2 := by
    rw [Nat.pow_succ, Nat.mul_assoc]
  have cast : ((now.bufferSize : Int) * 2) = ((s.bufferSize * 2 ^ (index + 1) : Nat) : Int) := by
    rw [layout.capacity, twice]
    omega
  rw [cast, sizeT_natCast (by omega)]

/-- A call faults without a block, or when `tailPtr` is in front of `headPtr`. -/
theorem Layout.faults_iff (addressed : s.Addressed) (allocates : Allocates allocate s) {index : Nat}
    {now : Serializer} (layout : Layout allocate s index now) :
    now.resizeFaults allocate (sizeT (now.bufferSize * 2)) ↔
      blockAt allocate s (index + 1) = 0 ∨ now.tailPtr < now.headPtr := by
  have := layout.inside
  have := addressed.head_le_end
  have := addressed.tail_pos
  have := addressed.tail_le
  have := allocates.inside
  have tail := layout.tail
  have head : now.headPtr ≤ 2 ^ 63 := by
    rw [layout.head]
    split <;> omega
  rw [resizeFaults, layout.doubled, size]
  change blockAt allocate s (index + 1) = 0 ∨ _ ↔ _
  unfold sizeT
  omega

theorem Layout.next (allocates : Allocates allocate s) {index : Nat} {now : Serializer}
    (layout : Layout allocate s index now)
    (block : blockAt allocate s (index + 1) ≠ 0) :
    Layout allocate s (index + 1) (now.resize allocate (sizeT (now.bufferSize * 2))) where
  buffer := by rw [resize_bufferPtr, layout.doubled, blockAt]
  capacity := by rw [resize_bufferSize, layout.doubled]
  tail := by rw [resize_tailPtr, layout.tail]
  head := by rw [resize_headPtr, layout.doubled, if_neg (Nat.succ_ne_zero _), blockAt]
  positive := Nat.pos_of_ne_zero block
  inside := allocates.answers _ block

theorem layout_zero (allocates : Allocates allocate s) : Layout allocate s 0 s where
  buffer := rfl
  capacity := by rw [Nat.pow_zero, Nat.mul_one]
  tail := rfl
  head := by rw [if_pos rfl]
  positive := allocates.placed
  inside := by
    rw [Nat.pow_zero, Nat.mul_one]
    exact allocates.inside

theorem layout_grown (addressed : s.Addressed) (allocates : Allocates allocate s) {count calls : Nat}
    (continues : forall index, index < calls -> (grown allocate index s).Continues allocate count)
    {index : Nat} (le : index ≤ calls) : Layout allocate s index (grown allocate index s) := by
  induction index with
  | zero => exact layout_zero allocates
  | succ index inductionHypothesis =>
      have layout := inductionHypothesis (Nat.le_of_succ_le le)
      have fine := (continues index le).2
      rw [layout.faults_iff addressed allocates] at fine
      rw [grown_succ]
      exact layout.next allocates (fun block => fine (Or.inl block))

/-- A state the loop leaves by another call has `tailPtr` in its block. -/
theorem Layout.tail_inside (addressed : s.Addressed) (allocates : Allocates allocate s)
    {count index : Nat} (inMemory : s.tailPtr + count ≤ 2 ^ 64) {now : Serializer}
    (layout : Layout allocate s index now) (continues : now.Continues allocate count) :
    blockAt allocate s index ≤ s.tailPtr ∧
      s.tailPtr ≤ blockAt allocate s index + s.bufferSize * 2 ^ index := by
  have := addressed.buffer_le_head
  have := allocates.inside
  have := layout.inside
  have := layout.positive
  rcases continues with ⟨short, fine⟩
  rw [layout.faults_iff addressed allocates, layout.tail, layout.head] at fine
  rw [useableSize, layout.tail, layout.buffer, layout.capacity] at short
  unfold sizeT at short
  cases index with
  | zero =>
      rw [if_pos rfl] at fine
      simp only [blockAt, Nat.pow_zero, Nat.mul_one] at *
      omega
  | succ index =>
      rw [if_neg (Nat.succ_ne_zero _)] at fine
      omega

theorem Layout.useableSize_eq {index : Nat} {now : Serializer}
    (layout : Layout allocate s index now)
    (inside : s.tailPtr ≤ blockAt allocate s index + s.bufferSize * 2 ^ index)
    (behind : blockAt allocate s index ≤ s.tailPtr) :
    now.useableSize = blockAt allocate s index + s.bufferSize * 2 ^ index - s.tailPtr := by
  have := layout.inside
  rw [useableSize, layout.tail, layout.buffer, layout.capacity]
  unfold sizeT
  omega

end Layout

/-! ## When the content survives -/

/-- What a write has to leave behind: the order of the pointers in the new block,
and the old content followed by the new bytes. -/
structure Kept (allocate : Nat -> Nat) (op : Insertion) (s final : Serializer) : Prop where
  buffer_le_head : final.bufferPtr ≤ final.headPtr
  head_le_tail : final.headPtr ≤ final.tailPtr
  tail_le_end : final.tailPtr ≤ final.bufferPtr + final.bufferSize
  capacity : final.bufferPtr = allocate final.bufferSize
  content : read final.memory final.headPtr (final.tailPtr - final.headPtr) = s.bytes ++ op.encode

/-- Whatever bytes the memory holds, the loop of `resize` calls ends, and after the write the
serializer has its content and the value behind it, between ordered pointers inside the new
block. -/
def GrowthKeeps (allocate : Nat -> Nat) (op : Insertion) (s : Serializer) : Prop :=
  forall memory : Bytes, Exists fun fuel => Exists fun final =>
    op.perform allocate fuel { s with memory := memory } = some final ∧
      Kept allocate op { s with memory := memory } final

/-- A block that begins or ends at the old `tailPtr` and is still too small. -/
def Touches (allocate : Nat -> Nat) (s : Serializer) (count index : Nat) : Prop :=
  blockAt allocate s index = s.tailPtr ∧ s.bufferSize * 2 ^ index < count ∨
    blockAt allocate s index ≠ 0 ∧
      blockAt allocate s index + s.bufferSize * 2 ^ index = s.tailPtr

/-- The content is empty, and the blocks follow one another at the old `tailPtr`
until one that is large enough begins there. -/
structure BeginsAtTail (allocate : Nat -> Nat) (s : Serializer) (op : Insertion) : Prop where
  empty : s.headPtr = s.tailPtr
  narrow : op.Narrow
  blocks : Exists fun calls =>
    (forall index, 0 < index -> index ≤ calls -> Touches allocate s op.encode.length index) ∧
      blockAt allocate s (calls + 1) = s.tailPtr ∧
        op.encode.length ≤ s.bufferSize * 2 ^ (calls + 1)

section Survival

variable {allocate : Nat -> Nat} {s : Serializer} {op : Insertion}

/-- Two blocks that replace one another meet `tailPtr` in an end of the second. -/
theorem disjoint_at_end (allocates : Allocates allocate s) {index : Nat}
    (block : blockAt allocate s (index + 1) ≠ 0)
    (before : blockAt allocate s index ≤ s.tailPtr ∧
      s.tailPtr ≤ blockAt allocate s index + s.bufferSize * 2 ^ index)
    (after : blockAt allocate s (index + 1) ≤ s.tailPtr ∧
      s.tailPtr ≤ blockAt allocate s (index + 1) + s.bufferSize * 2 ^ (index + 1)) :
    blockAt allocate s (index + 1) = s.tailPtr ∨
      blockAt allocate s (index + 1) + s.bufferSize * 2 ^ (index + 1) = s.tailPtr := by
  have := allocates.disjoint index block
  omega

theorem constant_bytes (byte : Byte) :
    ({ s with memory := fun _ => byte } : Serializer).bytes.length = s.size := by
  rw [bytes, read_length]
  rfl

/-- In a memory of one byte other than the first new one, the content can only be
right if the old `tailPtr` is where the new bytes belong. -/
theorem kept_tail (ordered : s.WellFormed) (more : 0 < op.encode.length) {byte : Byte}
    (other : op.encode.head? ≠ some byte) {now final : Serializer}
    (constant : now.memory = fun _ => byte) (tail : now.tailPtr = s.tailPtr)
    (finished : final = op.finish now)
    (kept : Kept allocate op { s with memory := fun _ => byte } final) :
    final.headPtr + (s.tailPtr - s.headPtr) = s.tailPtr ∧ op.Narrow ∧
      final.tailPtr = s.tailPtr + op.encode.length := by
  have headTail := kept.head_le_tail
  have lengths := congrArg List.length kept.content
  rw [read_length, List.length_append, constant_bytes, ordered.size_eq] at lengths
  have advance := op.finish_tailPtr now (by rw [← finished]; omega)
  rw [← finished, tail] at advance
  have place : ¬ final.headPtr + (s.tailPtr - s.headPtr) < s.tailPtr := by
    intro below
    have entry := congrArg (fun bytes => bytes[s.tailPtr - s.headPtr]?) kept.content
    have old : ({ s with memory := fun _ => byte } : Serializer).bytes.length =
        s.tailPtr - s.headPtr := by rw [constant_bytes, ordered.size_eq]
    have memory : final.memory (final.headPtr + (s.tailPtr - s.headPtr)) = byte := by
      rw [finished, op.finish_memory_below now (by rw [← finished, tail]; exact below), constant]
    rw [List.getElem?_append_right (Nat.le_of_eq old), old, Nat.sub_self,
      ← List.head?_eq_getElem?, List.getElem?_eq_getElem (by rw [read_length]; omega), read_getElem,
      memory] at entry
    exact other entry.symm
  have exact : final.tailPtr = s.tailPtr + op.encode.length := by omega
  exact ⟨by omega, advance.2 exact, exact⟩

theorem beginsAtTail_of_growthKeeps (ordered : s.WellFormed) (allocates : Allocates allocate s)
    (inMemory : op.encode.length < 2 ^ 63) (more : s.useableSize < op.encode.length)
    (keeps : GrowthKeeps allocate op s) : BeginsAtTail allocate s op := by
  have positive : 0 < op.encode.length := Nat.lt_of_le_of_lt (Nat.zero_le _) more
  -- A byte that the encoding does not begin with.
  have other : op.encode.head? ≠ some (op.encode.headD 0 + 1) := by
    cases op.encode with
    | nil => simp
    | cons first rest =>
        intro same
        have : first = first + 1 := Option.some.inj same
        bv_omega
  rcases keeps (fun _ => op.encode.headD 0 + 1) with ⟨fuel, final, result, kept⟩
  rw [op.perform_eq, Option.map_eq_some_iff] at result
  rcases result with ⟨now, reserved, finished⟩
  rcases (reserve_eq_some_iff _ _ _ _ _).mp reserved with ⟨calls, -, same, enough, continues⟩
  let start : Serializer := { s with memory := fun _ => op.encode.headD 0 + 1 }
  have startOrdered : start.WellFormed :=
    ⟨ordered.buffer_le_head, ordered.head_le_tail, ordered.tail_le_end, ordered.small⟩
  have startAllocates : Allocates allocate start :=
    ⟨allocates.placed, allocates.inside, allocates.answers, allocates.disjoint⟩
  have constant : now.memory = fun _ => op.encode.headD 0 + 1 := by
    rw [same]
    exact grown_constant allocate _ calls start rfl
  have addressed := startOrdered.addressed startAllocates
  have layouts : forall index, index ≤ calls -> Layout allocate start index (grown allocate index start) :=
    fun index le => layout_grown addressed startAllocates continues le
  have layout : Layout allocate start calls now := by
    rw [same]
    exact layouts calls (Nat.le_refl _)
  rcases kept_tail ordered positive other constant layout.tail finished.symm kept with
    ⟨place, narrow, tail⟩
  rw [op.need_eq narrow] at continues
  have reach : s.tailPtr + op.encode.length ≤ 2 ^ 64 := by
    have := ordered.tail_le_end
    have := allocates.inside
    omega
  have tails : forall index, index < calls ->
      blockAt allocate s index ≤ s.tailPtr ∧
        s.tailPtr ≤ blockAt allocate s index + s.bufferSize * 2 ^ index :=
    fun index before =>
      (layouts index (Nat.le_of_lt before)).tail_inside addressed startAllocates reach
        (continues index before)
  have bound := kept.tail_le_end
  rw [tail, ← finished, Insertion.finish_bufferPtr, Insertion.finish_bufferSize, layout.buffer,
    layout.capacity] at bound
  have head : final.headPtr = now.headPtr := by rw [← finished, Insertion.finish_headPtr]
  rw [head, layout.head] at place
  have order := ordered.head_le_tail
  have free := ordered.useableSize_eq
  cases calls with
  | zero =>
      -- Without a call there was no room.
      change s.tailPtr + _ ≤ s.bufferPtr + s.bufferSize * 2 ^ 0 at bound
      omega
  | succ calls =>
      rw [if_neg (Nat.succ_ne_zero _)] at place
      change blockAt allocate s (calls + 1) + _ = _ at place
      change s.tailPtr + _ ≤ blockAt allocate s (calls + 1) + s.bufferSize * 2 ^ (calls + 1) at bound
      have block : blockAt allocate s (calls + 1) ≠ 0 := Nat.ne_of_gt layout.positive
      have meets := disjoint_at_end allocates block (tails calls (Nat.lt_succ_self _))
        ⟨by omega, by omega⟩
      refine ⟨by omega, narrow, calls, ?_, by omega, by omega⟩
      intro index later le
      cases index with
      | zero => exact absurd later (Nat.lt_irrefl _)
      | succ index =>
          have here := layouts (index + 1) (by omega)
          have inside := tails (index + 1) (by omega)
          have nonzero : blockAt allocate s (index + 1) ≠ 0 := Nat.ne_of_gt here.positive
          have short := (continues (index + 1) (by omega)).1
          rw [here.useableSize_eq inside.2 inside.1] at short
          change blockAt allocate s (index + 1) + s.bufferSize * 2 ^ (index + 1) - s.tailPtr < _ at short
          rcases disjoint_at_end allocates nonzero (tails index (by omega)) inside with first | last
          · exact Or.inl ⟨first, by omega⟩
          · exact Or.inr ⟨nonzero, last⟩

/-- The loop reaches the block that begins at `tailPtr`. -/
theorem continues_of_beginsAtTail (ordered : s.WellFormed) (allocates : Allocates allocate s)
    (more : s.useableSize < op.encode.length) {calls : Nat}
    (touches : forall index, 0 < index -> index ≤ calls ->
      Touches allocate s op.encode.length index)
    (last : blockAt allocate s (calls + 1) = s.tailPtr) {index : Nat} (le : index ≤ calls) :
    Layout allocate s index (grown allocate index s) ∧
      (grown allocate index s).Continues allocate op.encode.length := by
  have := ordered.buffer_le_head
  have := ordered.head_le_tail
  have placed := allocates.placed
  have nonzero : forall index, 0 < index -> index ≤ calls + 1 -> blockAt allocate s index ≠ 0 := by
    intro index positive le
    by_cases final : index = calls + 1
    · rw [final, last]
      omega
    · rcases touches index positive (by omega) with ⟨first, -⟩ | ⟨block, -⟩
      · omega
      · exact block
  have layout : Layout allocate s index (grown allocate index s) := by
    induction index with
    | zero => exact layout_zero allocates
    | succ index inductionHypothesis =>
        rw [grown_succ]
        exact (inductionHypothesis (by omega)).next allocates (nonzero _ (Nat.succ_pos _) (by omega))
  refine ⟨layout, ?_, ?_⟩
  · cases index with
    | zero => exact more
    | succ index =>
        rcases touches (index + 1) (Nat.succ_pos _) le with ⟨first, short⟩ | ⟨-, final⟩
        · rw [layout.useableSize_eq (by omega) (by omega)]
          omega
        · rw [layout.useableSize_eq (by omega) (by omega)]
          omega
  · rw [layout.faults_iff (ordered.addressed allocates) allocates, layout.tail, layout.head]
    have next := nonzero (index + 1) (Nat.succ_pos _) (by omega)
    cases index with
    | zero =>
        rw [if_pos rfl]
        omega
    | succ index =>
        rw [if_neg (Nat.succ_ne_zero _)]
        rcases touches (index + 1) (Nat.succ_pos _) le with ⟨first, -⟩ | ⟨-, final⟩ <;> omega

theorem growthKeeps_of_beginsAtTail (ordered : s.WellFormed) (allocates : Allocates allocate s)
    (more : s.useableSize < op.encode.length) (begins : BeginsAtTail allocate s op) :
    GrowthKeeps allocate op s := by
  intro memory
  rcases begins with ⟨empty, narrow, calls, touches, last, large⟩
  let start : Serializer := { s with memory := memory }
  have startOrdered : start.WellFormed :=
    ⟨ordered.buffer_le_head, ordered.head_le_tail, ordered.tail_le_end, ordered.small⟩
  have startAllocates : Allocates allocate start :=
    ⟨allocates.placed, allocates.inside, allocates.answers, allocates.disjoint⟩
  have runs : forall index, index ≤ calls -> Layout allocate start index (grown allocate index start) ∧
      (grown allocate index start).Continues allocate op.encode.length :=
    fun index le => continues_of_beginsAtTail startOrdered startAllocates more touches last le
  have layout : Layout allocate start (calls + 1) (grown allocate (calls + 1) start) := by
    rw [grown_succ]
    refine (runs calls (Nat.le_refl _)).1.next startAllocates ?_
    change blockAt allocate s (calls + 1) ≠ 0
    have := ordered.buffer_le_head
    have := allocates.placed
    omega
  let now := grown allocate (calls + 1) start
  have free : now.useableSize = s.bufferSize * 2 ^ (calls + 1) := by
    have first : blockAt allocate start (calls + 1) = start.tailPtr := last
    rw [layout.useableSize_eq (by omega) (by omega)]
    change blockAt allocate start (calls + 1) + s.bufferSize * 2 ^ (calls + 1) - _ = _
    omega
  have room : op.encode.length ≤ now.useableSize := by omega
  have reserved : start.reserve allocate (calls + 1) op.need = some now := by
    refine (reserve_eq_some_iff _ _ _ _ _).mpr ⟨calls + 1, Nat.le_refl _, rfl, ?_, ?_⟩
    · rw [op.need_eq narrow]
      exact room
    · rw [op.need_eq narrow]
      exact fun index before => (runs index (Nat.le_of_lt_succ before)).2
  have head : now.headPtr = s.tailPtr := by
    rw [layout.head, if_neg (Nat.succ_ne_zero _)]
    exact last
  have buffer : now.bufferPtr = s.tailPtr := layout.buffer.trans last
  have tail : (now.append op.encode).tailPtr = s.tailPtr + op.encode.length := by
    rw [now.append_tailPtr_fits _ room, layout.tail]
  refine ⟨calls + 1, now.append op.encode, ?_, ?_, ?_, ?_, ?_, ?_⟩
  · rw [op.perform_eq, reserved, Option.map_some, op.finish_eq_append now narrow room]
  · exact Nat.le_of_eq (by rw [append_bufferPtr, append_headPtr, buffer, head])
  · rw [append_headPtr, tail, head]
    omega
  · rw [tail, append_bufferPtr, append_bufferSize, buffer, layout.capacity]
    change _ ≤ s.tailPtr + s.bufferSize * 2 ^ (calls + 1)
    omega
  · rw [append_bufferPtr, append_bufferSize, layout.buffer, layout.capacity]
    rfl
  · have none : start.bytes = [] := by
      rw [bytes, startOrdered.size_eq]
      change read _ _ (s.tailPtr - s.headPtr) = []
      rw [empty, Nat.sub_self, read_zero]
    have place : now.tailPtr = s.tailPtr := layout.tail
    change _ = start.bytes ++ _
    rw [none, List.nil_append, append_headPtr, tail, head, Nat.add_sub_cancel_left]
    change read (write now.memory now.tailPtr op.encode) _ _ = _
    rw [place, read_write]

end Survival

/-- Growing keeps the content exactly when there is none to keep and the blocks the allocator
answers meet at the old `tailPtr`. This is over every state, every insertion that has to grow
and every allocator whose blocks are apart, and rests on the order of the two assignments in
`resize`, which leaves `tailPtr` where it was. -/
theorem growthKeeps_iff (allocate : Nat -> Nat) (op : Insertion) (s : Serializer)
    (ordered : s.WellFormed) (allocates : Allocates allocate s)
    (inMemory : op.encode.length < 2 ^ 63) (more : s.useableSize < op.encode.length) :
    GrowthKeeps allocate op s ↔ BeginsAtTail allocate s op :=
  ⟨beginsAtTail_of_growthKeeps ordered allocates inMemory more,
    growthKeeps_of_beginsAtTail ordered allocates more⟩

/-! ## A full serializer -/

/-- Eight bytes of content in a block of eight. -/
def fullSerializer : Serializer where
  memory := fun _ => 0
  bufferPtr := 4096
  bufferSize := 8
  headPtr := 4096
  tailPtr := 4104

/-- Every block lies behind the last one, as far as memory reaches. -/
def upwards (size : Nat) : Nat := if size ≤ 2 ^ 20 then 2 ^ 20 + 2 * size else 0

theorem fullSerializer_wellFormed : fullSerializer.WellFormed :=
  ⟨by decide, by decide, by decide, by decide⟩

theorem upwards_eq {size : Nat} (small : size ≤ 2 ^ 20) : upwards size = 2 ^ 20 + 2 * size :=
  if_pos small

theorem small_of_upwards {size : Nat} (answered : upwards size ≠ 0) : size ≤ 2 ^ 20 := by
  unfold upwards at answered
  split at answered
  next small => exact small
  next => exact absurd rfl answered

theorem upwards_allocates {s : Serializer} (placed : 0 < s.bufferPtr)
    (inside : s.bufferPtr + s.bufferSize ≤ 2 ^ 20) : Allocates upwards s where
  placed := placed
  inside := by omega
  answers := by
    intro size answered
    have small := small_of_upwards answered
    rw [upwards_eq small]
    omega
  disjoint := by
    intro index answered
    left
    have small : s.bufferSize * 2 ^ (index + 1) ≤ 2 ^ 20 := small_of_upwards answered
    have twice : s.bufferSize * 2 ^ (index + 1) = 2 * (s.bufferSize * 2 ^ index) := by
      rw [Nat.pow_succ, ← Nat.mul_assoc, Nat.mul_comm]
    change _ ≤ upwards (s.bufferSize * 2 ^ (index + 1))
    rw [upwards_eq small]
    cases index with
    | zero =>
        change s.bufferPtr + s.bufferSize * 2 ^ 0 ≤ _
        omega
    | succ index =>
        change upwards (s.bufferSize * 2 ^ (index + 1)) + _ ≤ _
        rw [upwards_eq (by omega)]
        omega

theorem growthKeeps_iff_fullSerializer :
    GrowthKeeps upwards (.scalar (.char 7)) fullSerializer ↔
      BeginsAtTail upwards fullSerializer (.scalar (.char 7)) :=
  growthKeeps_iff upwards (.scalar (.char 7)) fullSerializer fullSerializer_wellFormed
    (upwards_allocates (by decide) (by decide)) (by decide) (by decide)

/-- One more `char` goes to the released block. -/
theorem fullSerializer_loses : ¬ forall (allocate : Nat -> Nat) (op : Insertion) (s : Serializer),
    s.WellFormed -> 1 ≤ s.bufferSize -> Allocates allocate s -> op.encode.length < 2 ^ 63 ->
      s.useableSize < op.encode.length -> GrowthKeeps allocate op s := by
  intro keeps
  have kept := keeps upwards (.scalar (.char 7)) fullSerializer fullSerializer_wellFormed (by decide)
    (upwards_allocates (by decide) (by decide)) (by decide) (by decide)
  have begins := beginsAtTail_of_growthKeeps fullSerializer_wellFormed
    (upwards_allocates (by decide) (by decide)) (by decide) (by decide) kept
  exact absurd begins.empty (by decide)

end Serializer
end Buffers
end LoginServer
