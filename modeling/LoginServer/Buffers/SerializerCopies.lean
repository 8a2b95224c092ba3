import LoginServer.Buffers.PacketOps

namespace LoginServer
namespace Buffers
namespace Serializer

open Memory

/-!
# Copies of a serializer

The copy constructor copies the content, from `headPtr` to `tailPtr`, and sets
the pointers to the same distances; `operator=` copies the whole block.  What lies
in front of `headPtr` and behind `tailPtr` in a new block is whatever was there
before, and the operations that reach back, `decryption` in particular, find it.

An assignment of a serializer to itself exchanges its block before it is copied
from.  `tailPtr` keeps its old address then, since `resize` computes it from the
`headPtr` it has just overwritten, and the old block has been given back.
-/

/-- The copy constructor. -/
def copyConstructor (allocate : Nat -> Nat) (s : Serializer) : Serializer :=
  let bufferPtr := allocate s.bufferSize
  let copy : Serializer :=
    { memory := s.memory
      bufferPtr := bufferPtr
      bufferSize := s.bufferSize
      headPtr := ((bufferPtr : Int) + ((s.headPtr : Int) - s.bufferPtr)).toNat
      tailPtr := ((bufferPtr : Int) + ((s.tailPtr : Int) - s.bufferPtr)).toNat }
  copy.store copy.headPtr (read s.memory s.headPtr s.size)

/-- `operator=` for a `v` that is another object. -/
def assign (allocate : Nat -> Nat) (target v : Serializer) : Serializer :=
  let s := target.clear.resize allocate v.bufferSize
  let s := s.store s.bufferPtr (read v.memory v.bufferPtr s.bufferSize)
  let s := { s with headPtr := ((s.bufferPtr : Int) + ((v.headPtr : Int) - v.bufferPtr)).toNat }
  { s with tailPtr := ((s.bufferPtr : Int) + ((v.tailPtr : Int) - v.bufferPtr)).toNat }

/-- `operator=` when `v` is `*this`: each statement reads what the earlier ones left. -/
def assignSelf (allocate : Nat -> Nat) (s : Serializer) : Serializer :=
  let s := s.clear.resize allocate s.bufferSize
  let s := s.store s.bufferPtr (read s.memory s.bufferPtr s.bufferSize)
  let s := { s with headPtr := ((s.bufferPtr : Int) + ((s.headPtr : Int) - s.bufferPtr)).toNat }
  { s with tailPtr := ((s.bufferPtr : Int) + ((s.tailPtr : Int) - s.bufferPtr)).toNat }

inductive Copying where
  | copyConstructor
  | assignment (target : Serializer)
  | selfAssignment

namespace Copying

def copy (allocate : Nat -> Nat) : Copying -> Serializer -> Serializer
  | .copyConstructor, s => s.copyConstructor allocate
  | .assignment target, s => target.assign allocate s
  | .selfAssignment, s => s.assignSelf allocate

/-- The addresses whose bytes arrive in the copy. -/
def Copied : Copying -> Serializer -> Nat -> Prop
  | .copyConstructor, s, address => s.headPtr ≤ address ∧ address < s.tailPtr
  | .assignment _, s, address => s.bufferPtr ≤ address ∧ address < s.bufferPtr + s.bufferSize
  | .selfAssignment, _, _ => False

/-- The whole block arrives. -/
def Complete : Copying -> Serializer -> Prop
  | .copyConstructor, s => s.headPtr = s.bufferPtr ∧ s.tailPtr = s.bufferPtr + s.bufferSize
  | .assignment _, _ => True
  | .selfAssignment, _ => False

end Copying

/-- Where a serializer is copied: the memory around its block, and an allocator
that has a block of its size. -/
structure Surroundings (s : Serializer) where
  memory : Bytes
  allocate : Nat -> Nat
  same : forall address, s.bufferPtr ≤ address -> address < s.bufferPtr + s.bufferSize ->
    memory address = s.memory address
  answered : allocate s.bufferSize ≠ 0
  apart : s.bufferPtr + s.bufferSize < allocate s.bufferSize ∨
    allocate s.bufferSize + s.bufferSize < s.bufferPtr

/-- The serializer in its surroundings. -/
def Surroundings.source {s : Serializer} (surroundings : Surroundings s) : Serializer :=
  { s with memory := surroundings.memory }

/-- A copy made in some surroundings. -/
def Surroundings.copy {s : Serializer} (surroundings : Surroundings s) (way : Copying) : Serializer :=
  way.copy surroundings.allocate surroundings.source

/-- In all surroundings, every sequence of operations that stays inside the block
answers the same on the copy as on the original. -/
def CopiesAgree (way : Copying) (s : Serializer) : Prop :=
  forall (surroundings : Surroundings s) (ops : List PacketOp),
    PacketOp.InsideAll surroundings.allocate ops surroundings.source ->
      PacketOp.performAll surroundings.allocate ops (surroundings.copy way) =
        PacketOp.performAll surroundings.allocate ops surroundings.source

/-! ## What arrives -/

section Arrives

variable {s : Serializer} (ordered : s.WellFormed) (surroundings : Surroundings s)

include ordered

theorem Surroundings.source_wellFormed : surroundings.source.WellFormed :=
  ⟨ordered.buffer_le_head, ordered.head_le_tail, ordered.tail_le_end, ordered.small⟩

/-- A block with the pointers at the same distances, to which an interval of the
original has been copied. -/
theorem Surroundings.arrives {copy : Serializer} {block : Nat} {under : Bytes} {first count : Nat}
    (bufferPtr : copy.bufferPtr = block) (bufferSize : copy.bufferSize = s.bufferSize)
    (headPtr : copy.headPtr = ((block : Int) + ((s.headPtr : Int) - s.bufferPtr)).toNat)
    (tailPtr : copy.tailPtr = ((block : Int) + ((s.tailPtr : Int) - s.bufferPtr)).toNat)
    (inside : s.bufferPtr ≤ first)
    (memory : copy.memory = write under (block + (first - s.bufferPtr))
      (read surroundings.memory first count)) :
    Alike (fun address => first ≤ address ∧ address < first + count) surroundings.source copy := by
  have := ordered.buffer_le_head
  have := ordered.head_le_tail
  have := ordered.tail_le_end
  have := ordered.small
  have original : surroundings.source.bufferPtr = s.bufferPtr ∧
      surroundings.source.bufferSize = s.bufferSize ∧ surroundings.source.headPtr = s.headPtr ∧
      surroundings.source.tailPtr = s.tailPtr := ⟨rfl, rfl, rfl, rfl⟩
  refine ⟨surroundings.source_wellFormed ordered, ⟨?_, ?_, ?_, ?_⟩, ?_, ?_, ?_, ?_⟩ <;> try omega
  rintro address address' ⟨from', before⟩ - place
  have written := write_inside under (block + (first - s.bufferPtr))
    (read surroundings.memory first count) (address - first) (by rw [read_length]; omega)
  have start : block + (first - s.bufferPtr) + (address - first) = address' := by omega
  have source : first + (address - first) = address := by omega
  rw [read_getElem, start, source] at written
  rw [memory, written]
  rfl

/-- The copy constructor gets the content across. -/
theorem copyConstructor_alike :
    Alike (Copying.Copied .copyConstructor s) surroundings.source
      (surroundings.copy .copyConstructor) := by
  have := ordered.buffer_le_head
  have := ordered.head_le_tail
  have size : surroundings.source.size = s.tailPtr - s.headPtr := ordered.size_eq
  have place : ((surroundings.allocate s.bufferSize : Int) +
      ((s.headPtr : Int) - s.bufferPtr)).toNat =
        surroundings.allocate s.bufferSize + (s.headPtr - s.bufferPtr) := by omega
  have block : (surroundings.copy .copyConstructor).bufferPtr =
      surroundings.allocate s.bufferSize := rfl
  have memory : (surroundings.copy .copyConstructor).memory =
      write surroundings.memory (surroundings.allocate s.bufferSize + (s.headPtr - s.bufferPtr))
        (read surroundings.memory s.headPtr (s.tailPtr - s.headPtr)) := by
    rw [← place, ← size]
    rfl
  refine (surroundings.arrives ordered block rfl rfl rfl ordered.buffer_le_head memory).mono ?_
  rintro address ⟨first, last⟩
  exact ⟨first, by omega⟩

/-- `operator=` gets the whole block across. -/
theorem assign_alike (target : Serializer) :
    Alike (Copying.Copied (.assignment target) s) surroundings.source
      (surroundings.copy (.assignment target)) := by
  have block : (surroundings.copy (.assignment target)).bufferPtr =
      surroundings.allocate s.bufferSize := rfl
  have memory : (surroundings.copy (.assignment target)).memory =
      write (target.clear.resize surroundings.allocate s.bufferSize).memory
        (surroundings.allocate s.bufferSize + (s.bufferPtr - s.bufferPtr))
        (read surroundings.memory s.bufferPtr s.bufferSize) := by
    rw [Nat.sub_self, Nat.add_zero]
    rfl
  exact surroundings.arrives ordered block rfl rfl rfl (Nat.le_refl _) memory

/-- What does not depend on the bytes: the pointers of either copy. -/
theorem Surroundings.alike {way : Copying} (other : way ≠ .selfAssignment) :
    Alike (way.Copied s) surroundings.source (surroundings.copy way) := by
  cases way with
  | copyConstructor => exact copyConstructor_alike ordered surroundings
  | assignment target => exact assign_alike ordered surroundings target
  | selfAssignment => exact absurd rfl other

/-! ## When copies agree -/

/-- Operations that copy only what arrived, or what they have written since, do
not notice that they work on a copy. -/
theorem Surroundings.agree {way : Copying} (other : way ≠ .selfAssignment) {ops : List PacketOp}
    (inside : PacketOp.InsideAll surroundings.allocate ops surroundings.source)
    (reads : PacketOp.ReadsKnown surroundings.allocate (way.Copied s) ops surroundings.source) :
    PacketOp.performAll surroundings.allocate ops (surroundings.copy way) =
      PacketOp.performAll surroundings.allocate ops surroundings.source :=
  (surroundings.alike ordered other).performAll surroundings.allocate ops inside reads

theorem copiesAgree_of_complete {way : Copying} (complete : way.Complete s) : CopiesAgree way s := by
  intro surroundings ops inside
  have other : way ≠ .selfAssignment := by
    rintro rfl
    exact complete
  refine surroundings.agree ordered other inside (PacketOp.readsKnown_of_inside inside ?_)
  intro address first last
  cases way with
  | copyConstructor =>
      rcases complete with ⟨head, tail⟩
      exact ⟨head ▸ first, tail ▸ last⟩
  | assignment target => exact ⟨first, last⟩
  | selfAssignment => exact absurd rfl other

end Arrives

/-- `pop` with the largest count: all of the content. -/
def popAll : PacketOp := .pop (BitVec.allOnes 64)

theorem popAll_inside {s : Serializer} (ordered : s.WellFormed) : popAll.Inside s where
  room := trivial
  accesses access member := by
    have := ordered.buffer_le_head
    have := ordered.head_le_tail
    have := ordered.tail_le_end
    have count := Words.available_toNat (BitVec.allOnes 64) s
    rw [Words.size_toNat ordered] at count
    rw [show popAll.reads s ++ popAll.writes s =
      [(s.headPtr, (Words.available (BitVec.allOnes 64) s).toNat)] from rfl,
      List.mem_singleton] at member
    subst member
    dsimp only
    omega

theorem copied_length {s : Serializer} (ordered : s.WellFormed) :
    (Words.copied (BitVec.allOnes 64) s).length = s.tailPtr - s.headPtr := by
  have := ordered.buffer_le_head
  have := ordered.tail_le_end
  have := ordered.small
  rw [Words.copied, read_length, Words.available_toNat, Words.size_toNat ordered,
    BitVec.toNat_allOnes]
  omega

/-- Two serializers of which all content is the same show the same bytes in it. -/
theorem Alike.content {known : Nat -> Prop} {left right : Serializer} (alike : Alike known left right)
    (same : Words.copied (BitVec.allOnes 64) left = Words.copied (BitVec.allOnes 64) right)
    {address address' : Nat} (first : left.headPtr ≤ address) (last : address < left.tailPtr)
    (place : address + right.bufferPtr = address' + left.bufferPtr) :
    left.memory address = right.memory address' := by
  have head := alike.headPtr
  have count := copied_length alike.ordered
  rw [Words.copied, read_length] at count
  rw [Words.copied, Words.copied, ← alike.available] at same
  have bytes := (read_eq_iff _ _ _ _ _).mp same (address - left.headPtr) (by omega)
  have start : left.headPtr + (address - left.headPtr) = address := by omega
  have start' : right.headPtr + (address - left.headPtr) = address' := by omega
  rwa [start, start'] at bytes

/-! ## When they do not -/

/-- Surroundings in which every byte of the new block is off by one. -/
def offByOne (s : Serializer) : Surroundings s where
  memory := fun address =>
    if s.bufferPtr ≤ address ∧ address < s.bufferPtr + s.bufferSize then s.memory address
    else s.memory (address - (s.bufferSize + 1)) + 1
  allocate _ := s.bufferPtr + s.bufferSize + 1
  same _address first last := if_pos ⟨first, last⟩
  answered := Nat.succ_ne_zero _
  apart := Or.inl (Nat.lt_succ_self _)

/-- A byte that did not arrive is off by one in such a copy. -/
theorem offByOne_copy {s : Serializer} (ordered : s.WellFormed) {offset : Nat}
    (outside : s.bufferPtr + offset < s.headPtr ∨ s.tailPtr ≤ s.bufferPtr + offset) :
    ((offByOne s).copy .copyConstructor).memory (s.bufferPtr + s.bufferSize + 1 + offset) =
      s.memory (s.bufferPtr + offset) + 1 := by
  have := ordered.buffer_le_head
  have := ordered.head_le_tail
  have size : (offByOne s).source.size = s.tailPtr - s.headPtr := ordered.size_eq
  have memory : ((offByOne s).copy .copyConstructor).memory =
      write (offByOne s).memory
        (((s.bufferPtr + s.bufferSize + 1 : Nat) : Int) + ((s.headPtr : Int) - s.bufferPtr)).toNat
        (read (offByOne s).memory s.headPtr (offByOne s).source.size) := rfl
  have back : s.bufferPtr + s.bufferSize + 1 + offset - (s.bufferSize + 1) = s.bufferPtr + offset := by
    omega
  rw [memory, write_outside _ _ _ _ (by rw [read_length]; omega)]
  change (if _ then _ else _) = _
  rw [if_neg (by omega), back]

theorem offByOne_ne (byte : Byte) : byte ≠ byte + 1 := by
  intro same
  have number := congrArg BitVec.toNat same
  have bound := byte.isLt
  rw [BitVec.toNat_add] at number
  have one : (1 : Byte).toNat = 1 := rfl
  omega

section Disagree

variable {s : Serializer} (ordered : s.WellFormed)

include ordered

/-- Once such a byte is in the content, `pop` shows that it did not arrive. -/
theorem offByOne_shows {known : Nat -> Prop} {next next' : Serializer} (alike : Alike known next next')
    (memory : next.memory = (offByOne s).memory)
    (memory' : next'.memory = ((offByOne s).copy .copyConstructor).memory)
    (bufferPtr : next.bufferPtr = s.bufferPtr)
    (bufferPtr' : next'.bufferPtr = s.bufferPtr + s.bufferSize + 1) (offset : Nat)
    (inside : offset < s.bufferSize)
    (outside : s.bufferPtr + offset < s.headPtr ∨ s.tailPtr ≤ s.bufferPtr + offset)
    (first : next.headPtr ≤ s.bufferPtr + offset) (last : s.bufferPtr + offset < next.tailPtr) :
    Words.copied (BitVec.allOnes 64) next' ≠ Words.copied (BitVec.allOnes 64) next := by
  intro same
  have byte : next.memory (s.bufferPtr + offset) =
      next'.memory (s.bufferPtr + s.bufferSize + 1 + offset) :=
    alike.content same.symm first last (by omega)
  rw [memory, memory', offByOne_copy ordered outside,
    (offByOne s).same _ (Nat.le_add_right _ _) (by omega)] at byte
  exact offByOne_ne _ byte

/-- A byte in front of the content: step back onto it and pop. -/
theorem front_arrives (agree : CopiesAgree .copyConstructor s) : s.headPtr = s.bufferPtr := by
  by_contra moved
  have := ordered.buffer_le_head
  have := ordered.head_le_tail
  have := ordered.tail_le_end
  have source := (offByOne s).source_wellFormed ordered
  have alike := ((copyConstructor_alike ordered (offByOne s)).wordsMoveFront (-1#32)).2
  have place : ((Words.moveFront (-1#32) (offByOne s).source).2.headPtr : Int) = s.headPtr - 1 := by
    have back := source.moveFront_headPtr (-1#32 : BitVec 32).toInt
    have minusOne : (-1#32 : BitVec 32).toInt = -1 := by decide
    have pointers : (offByOne s).source.bufferPtr = s.bufferPtr ∧
        (offByOne s).source.headPtr = s.headPtr ∧ (offByOne s).source.tailPtr = s.tailPtr :=
      ⟨rfl, rfl, rfl⟩
    rw [Words.moveFront_eq source]
    omega
  have tail : (Words.moveFront (-1#32) (offByOne s).source).2.tailPtr = s.tailPtr := rfl
  have answers := agree (offByOne s) [.moveFront (-1#32), popAll] ⟨⟨trivial, by simp [PacketOp.reads,
    PacketOp.writes]⟩, by
      intro answer next performed
      cases performed
      exact ⟨popAll_inside alike.ordered, fun _ _ _ => trivial⟩⟩
  simp only [popAll, PacketOp.performAll, PacketOp.perform, Option.map_some, Option.some.injEq,
    List.cons.injEq, PacketAnswer.bytes.injEq, and_true] at answers
  exact offByOne_shows ordered alike rfl rfl rfl rfl (s.headPtr - 1 - s.bufferPtr)
    (by omega) (Or.inl (by omega)) (by omega) (by omega) answers.2

/-- A byte behind the content: take it in and pop. -/
theorem rear_arrives (agree : CopiesAgree .copyConstructor s) :
    s.tailPtr = s.bufferPtr + s.bufferSize := by
  by_contra room
  have := ordered.buffer_le_head
  have := ordered.head_le_tail
  have := ordered.tail_le_end
  have source := (offByOne s).source_wellFormed ordered
  have alike := ((copyConstructor_alike ordered (offByOne s)).wordsMoveRear 1#32).2
  have place : ((Words.moveRear 1#32 (offByOne s).source).2.tailPtr : Int) = s.tailPtr + 1 := by
    have forth := source.moveRear_tailPtr (1#32 : BitVec 32).toInt
    have one : (1#32 : BitVec 32).toInt = 1 := by decide
    have pointers : (offByOne s).source.bufferPtr = s.bufferPtr ∧
        (offByOne s).source.bufferSize = s.bufferSize ∧
        (offByOne s).source.headPtr = s.headPtr ∧ (offByOne s).source.tailPtr = s.tailPtr :=
      ⟨rfl, rfl, rfl, rfl⟩
    rw [Words.moveRear_eq source]
    omega
  have head : (Words.moveRear 1#32 (offByOne s).source).2.headPtr = s.headPtr := rfl
  have answers := agree (offByOne s) [.moveRear 1#32, popAll] ⟨⟨trivial, by simp [PacketOp.reads,
    PacketOp.writes]⟩, by
      intro answer next performed
      cases performed
      exact ⟨popAll_inside alike.ordered, fun _ _ _ => trivial⟩⟩
  simp only [popAll, PacketOp.performAll, PacketOp.perform, Option.map_some, Option.some.injEq,
    List.cons.injEq, PacketAnswer.bytes.injEq, and_true] at answers
  exact offByOne_shows ordered alike rfl rfl rfl rfl (s.tailPtr - s.bufferPtr)
    (by omega) (Or.inr (by omega)) (by omega) (by omega) answers.2

/-- Assigned to itself, a serializer has a content as long as the address space is
from its new block round to its old one. -/
theorem selfAssignment_disagrees : ¬ CopiesAgree .selfAssignment s := by
  intro agree
  have := ordered.buffer_le_head
  have := ordered.head_le_tail
  have := ordered.tail_le_end
  have := ordered.small
  have source := (offByOne s).source_wellFormed ordered
  have answers := agree (offByOne s) [popAll] ⟨popAll_inside source, fun _ _ _ => trivial⟩
  simp only [popAll, PacketOp.performAll, PacketOp.perform, Option.map_some, Option.some.injEq,
    List.cons.injEq, PacketAnswer.bytes.injEq, and_true] at answers
  have lengths := congrArg List.length answers
  have original : (offByOne s).source.tailPtr - (offByOne s).source.headPtr =
      s.tailPtr - s.headPtr := rfl
  have block : ((offByOne s).copy .selfAssignment).headPtr =
      (((s.bufferPtr + s.bufferSize + 1 : Nat) : Int) +
        (((s.bufferPtr + s.bufferSize + 1 : Nat) : Int) -
          ((s.bufferPtr + s.bufferSize + 1 : Nat) : Int))).toNat := rfl
  have stale : ((offByOne s).copy .selfAssignment).tailPtr =
      (((s.bufferPtr + s.bufferSize + 1 : Nat) : Int) +
        (((((s.bufferPtr + s.bufferSize + 1 : Nat) : Int) + ((s.bufferPtr : Int) -
          ((s.bufferPtr + s.bufferSize + 1 : Nat) : Int))).toNat : Int) -
            ((s.bufferPtr + s.bufferSize + 1 : Nat) : Int))).toNat := rfl
  have size : (Words.size ((offByOne s).copy .selfAssignment)).toNat = 2 ^ 64 - (s.bufferSize + 1) := by
    rw [Words.size, Words.pointerDifference, BitVec.toNat_ofInt]
    omega
  rw [copied_length source, original, Words.copied, read_length, Words.available_toNat, size,
    BitVec.toNat_allOnes] at lengths
  omega

end Disagree

/-- A way of copying agrees with the original for all later operations exactly when
it gets the whole block across.  Short of that it agrees for those that do not
look at what is missing, unless a serializer is assigned to itself. -/
theorem copiesAgree_iff (way : Copying) {s : Serializer} (ordered : s.WellFormed) :
    (CopiesAgree way s ↔ way.Complete s) ∧
      (way ≠ .selfAssignment -> forall (surroundings : Surroundings s) (ops : List PacketOp),
        PacketOp.InsideAll surroundings.allocate ops surroundings.source ->
        PacketOp.ReadsKnown surroundings.allocate (way.Copied s) ops surroundings.source ->
          PacketOp.performAll surroundings.allocate ops (surroundings.copy way) =
            PacketOp.performAll surroundings.allocate ops surroundings.source) := by
  refine ⟨⟨?_, copiesAgree_of_complete ordered⟩, ?_⟩
  · intro agree
    cases way with
    | copyConstructor => exact ⟨front_arrives ordered agree, rear_arrives ordered agree⟩
    | assignment target => exact trivial
    | selfAssignment => exact selfAssignment_disagrees ordered agree
  · intro other surroundings ops inside reads
    exact surroundings.agree ordered other inside reads

/-- A sealed packet of three payload bytes, of which the first four header bytes
have been read. -/
def headerRead : Serializer :=
  (((⟨fun address => BitVec.ofNat 8 address, 64, 64, 69, 72⟩ : Serializer).setHeader 9).encryption
    0x32).moveFront 4

def headerReadSurroundings : Surroundings headerRead where
  memory := headerRead.memory
  allocate := fun _ => 4096
  same := fun _ _ _ => rfl
  answered := by decide
  apart := Or.inl (by decide)

theorem headerRead_wellFormed : headerRead.WellFormed :=
  ⟨by decide, by decide, by decide, by decide⟩

theorem headerRead_copies :
    (CopiesAgree (.assignment headerRead) headerRead ↔
      Copying.Complete (.assignment headerRead) headerRead) ∧
      (CopiesAgree .copyConstructor headerRead ↔
        headerRead.headPtr = headerRead.bufferPtr ∧
          headerRead.tailPtr = headerRead.bufferPtr + headerRead.bufferSize) :=
  ⟨(copiesAgree_iff (.assignment headerRead) headerRead_wellFormed).1,
    (copiesAgree_iff .copyConstructor headerRead_wellFormed).1⟩

/-- The packet decrypts and a copy made by the constructor does not. -/
theorem headerRead_undecryptable :
    (headerRead.decryption 0x32).1 = true ∧
      ((headerReadSurroundings.copy .copyConstructor).decryption 0x32).1 = false ∧
      ¬ forall (way : Copying) (s : Serializer), s.WellFormed -> CopiesAgree way s := by
  have opens : (headerRead.decryption 0x32).1 = true := by decide +kernel
  have fails : ((headerReadSurroundings.copy .copyConstructor).decryption 0x32).1 = false := by
    decide +kernel
  refine ⟨opens, fails, ?_⟩
  intro always
  have answers := always .copyConstructor headerRead headerRead_wellFormed headerReadSurroundings
    [.decryption 0x32] ⟨⟨trivial, by decide +kernel⟩, fun _ _ _ => trivial⟩
  simp only [PacketOp.performAll, PacketOp.perform, Option.map_some, Option.some.injEq,
    List.cons.injEq, PacketAnswer.accepted.injEq, and_true, fails] at answers
  exact Bool.false_ne_true (answers.trans opens)

end Serializer
end Buffers
end LoginServer
