import LoginServer.Buffers.Writing

namespace LoginServer
namespace Buffers
namespace Serializer

open Memory

/-!
# The write operators

All the `<<` operators of the serializer and `push`.  Those of fixed width share
one body.  `push` narrows its count to `int` when it advances `tailPtr`, and the
string operator copies twice, its length first.
-/

section Operators

variable (allocate : Nat -> Nat) (fuel : Nat)

def insertBool (value : Bool) : Serializer -> Option Serializer :=
  insert allocate fuel (littleEndianBytes 1 (if value then 1 else 0))

def insertChar (value : Byte) : Serializer -> Option Serializer :=
  insert allocate fuel (littleEndianBytes 1 value.toNat)

def insertWchar (value : BitVec 16) : Serializer -> Option Serializer :=
  insert allocate fuel (littleEndianBytes 2 value.toNat)

def insertShort (value : BitVec 16) : Serializer -> Option Serializer :=
  insert allocate fuel (littleEndianBytes 2 value.toNat)

def insertInt (value : BitVec 32) : Serializer -> Option Serializer :=
  insert allocate fuel (littleEndianBytes 4 value.toNat)

def insertUnsignedInt (value : BitVec 32) : Serializer -> Option Serializer :=
  insert allocate fuel (littleEndianBytes 4 value.toNat)

def insertLong (value : BitVec 32) : Serializer -> Option Serializer :=
  insert allocate fuel (littleEndianBytes 4 value.toNat)

def insertUnsignedLong (value : BitVec 32) : Serializer -> Option Serializer :=
  insert allocate fuel (littleEndianBytes 4 value.toNat)

def insertLongLong (value : BitVec 64) : Serializer -> Option Serializer :=
  insert allocate fuel (littleEndianBytes 8 value.toNat)

/-- `operator << (float)`, on the bits of the value. -/
def insertFloat (bits : BitVec 32) : Serializer -> Option Serializer :=
  insert allocate fuel (littleEndianBytes 4 bits.toNat)

/-- `operator << (double)`, on the bits of the value. -/
def insertDouble (bits : BitVec 64) : Serializer -> Option Serializer :=
  insert allocate fuel (littleEndianBytes 8 bits.toNat)

/-- `push`.  `moveRear` takes an `int`. -/
def push (data : List Byte) (s : Serializer) : Option Serializer :=
  (s.reserve allocate fuel data.length).map fun s =>
    (s.store s.tailPtr data).moveRear (toInt32 data.length)

/-- `operator << (std::string)`.  The room asked for is `length + sizeof(int)`
in `size_t`, where `length` is already an `int`. -/
def insertString (data : List Byte) (s : Serializer) : Option Serializer :=
  (s.reserve allocate fuel (sizeT (toInt32 data.length + 4))).map fun s =>
    let s := (s.store s.tailPtr (littleEndianBytes 4 data.length)).moveRear 4
    (s.store s.tailPtr data).moveRear (toInt32 data.length)

end Operators

/-- A value of one of the fixed-width types. -/
inductive Scalar where
  | bool (value : Bool)
  | char (value : Byte)
  | unsignedChar (value : Byte)
  | wchar (value : BitVec 16)
  | short (value : BitVec 16)
  | unsignedShort (value : BitVec 16)
  | int (value : BitVec 32)
  | unsignedInt (value : BitVec 32)
  | long (value : BitVec 32)
  | unsignedLong (value : BitVec 32)
  | longLong (value : BitVec 64)
  | unsignedLongLong (value : BitVec 64)
  | float (bits : BitVec 32)
  | double (bits : BitVec 64)

namespace Scalar

/-- The bytes of a value in memory. -/
def encode : Scalar -> List Byte
  | .bool value => littleEndianBytes 1 (if value then 1 else 0)
  | .char value | .unsignedChar value => littleEndianBytes 1 value.toNat
  | .wchar value | .short value | .unsignedShort value => littleEndianBytes 2 value.toNat
  | .int value | .unsignedInt value | .long value | .unsignedLong value | .float value =>
      littleEndianBytes 4 value.toNat
  | .longLong value | .unsignedLongLong value | .double value => littleEndianBytes 8 value.toNat

/-- The `<<` operator of the value's type. -/
def insert (allocate : Nat -> Nat) (fuel : Nat) : Scalar -> Serializer -> Option Serializer
  | .bool value => insertBool allocate fuel value
  | .char value => insertChar allocate fuel value
  | .unsignedChar value => insertByte allocate fuel value
  | .wchar value => insertWchar allocate fuel value
  | .short value => insertShort allocate fuel value
  | .unsignedShort value => insertUnsignedShort allocate fuel value
  | .int value => insertInt allocate fuel value
  | .unsignedInt value => insertUnsignedInt allocate fuel value
  | .long value => insertLong allocate fuel value
  | .unsignedLong value => insertUnsignedLong allocate fuel value
  | .longLong value => insertLongLong allocate fuel value
  | .unsignedLongLong value => insertUnsignedLongLong allocate fuel value
  | .float bits => insertFloat allocate fuel bits
  | .double bits => insertDouble allocate fuel bits

theorem insert_eq (allocate : Nat -> Nat) (fuel : Nat) (value : Scalar) (s : Serializer) :
    value.insert allocate fuel s = Serializer.insert allocate fuel value.encode s := by
  cases value <;> rfl

theorem encode_length_pos (value : Scalar) : 0 < value.encode.length := by
  cases value <;> simp [encode]

theorem encode_length_le (value : Scalar) : value.encode.length ≤ 8 := by
  cases value <;> simp [encode]

end Scalar

/-- One write to the serializer. -/
inductive Insertion where
  | push (data : List Byte)
  | scalar (value : Scalar)
  | string (data : List Byte)

namespace Insertion

/-- The bytes a write adds to the content. -/
def encode : Insertion -> List Byte
  | .push data => data
  | .scalar value => value.encode
  | .string data => littleEndianBytes 4 data.length ++ data

def perform (allocate : Nat -> Nat) (fuel : Nat) : Insertion -> Serializer -> Option Serializer
  | .push data => Serializer.push allocate fuel data
  | .scalar value => value.insert allocate fuel
  | .string data => insertString allocate fuel data

/-- The count the loop compares `useableSize()` with. -/
def need : Insertion -> Nat
  | .push data => data.length
  | .scalar value => value.encode.length
  | .string data => sizeT (toInt32 data.length + 4)

/-- What follows the loop. -/
def finish : Insertion -> Serializer -> Serializer
  | .push data, s => (s.store s.tailPtr data).moveRear (toInt32 data.length)
  | .scalar value, s => s.append value.encode
  | .string data, s =>
      let s := s.append (littleEndianBytes 4 data.length)
      (s.store s.tailPtr data).moveRear (toInt32 data.length)

/-- The length of the data survives the narrowing to `int`. -/
def Narrow : Insertion -> Prop
  | .push data => data.length < 2 ^ 31
  | .scalar _ => True
  | .string data => data.length < 2 ^ 31

theorem perform_eq (allocate : Nat -> Nat) (fuel : Nat) (op : Insertion) (s : Serializer) :
    op.perform allocate fuel s = (s.reserve allocate fuel op.need).map op.finish := by
  cases op with
  | push data => rfl
  | scalar value =>
      rw [perform, value.insert_eq]
      rfl
  | string data =>
      rw [perform, insertString, need]
      congr 1

end Insertion

/-! ## What a write does behind the loop -/

theorem toInt32_le (count : Nat) : toInt32 count ≤ count := by
  unfold toInt32
  rw [BitVec.toInt_ofInt]
  simp only [Int.bmod]
  omega

theorem toInt32_eq_iff (count : Nat) : toInt32 count = count ↔ count < 2 ^ 31 := by
  constructor
  · intro same
    have bound := BitVec.toInt_lt (x := BitVec.ofInt 32 count)
    unfold toInt32 at same
    omega
  · exact toInt32_small

/-- `moveRear` by a narrowed count: not past the count, unless `tailPtr` was in
front of `headPtr`, where it can land on `headPtr`. -/
theorem moveRear_narrowed (s : Serializer) (count : Nat) :
    (s.moveRear (toInt32 count)).tailPtr ≤ s.headPtr ∨
      (s.moveRear (toInt32 count)).tailPtr ≤ s.tailPtr + count ∧
        ((s.moveRear (toInt32 count)).tailPtr = s.tailPtr + count -> count < 2 ^ 31) := by
  have le := toInt32_le count
  have exact := toInt32_eq_iff count
  unfold moveRear rearOffset
  split <;> (dsimp only; omega)

theorem append_tailPtr_le (s : Serializer) (data : List Byte) :
    (s.append data).tailPtr ≤ s.tailPtr + data.length := by
  unfold append moveRear rearOffset
  rw [if_pos (Int.natCast_nonneg _)]
  simp only [store_tailPtr]
  omega

theorem append_tailPtr_ge (s : Serializer) (data : List Byte) :
    s.tailPtr ≤ (s.append data).tailPtr := by
  unfold append moveRear rearOffset
  rw [if_pos (Int.natCast_nonneg _)]
  simp only [store_tailPtr]
  omega

theorem append_tailPtr_fits (s : Serializer) (data : List Byte)
    (room : data.length ≤ s.useableSize) : (s.append data).tailPtr = s.tailPtr + data.length := by
  have same : (s.store s.tailPtr data).useableSize = s.useableSize := rfl
  unfold append moveRear rearOffset
  rw [if_pos (Int.natCast_nonneg _), same]
  simp only [store_tailPtr]
  omega

/-- The unsigned room shrinks by what is written, also when it has wrapped. -/
theorem append_useableSize_fits (s : Serializer) (data : List Byte)
    (room : data.length ≤ s.useableSize) :
    (s.append data).useableSize = s.useableSize - data.length := by
  have moved := s.append_tailPtr_fits data room
  unfold useableSize sizeT at room ⊢
  rw [moved, append_bufferPtr, append_bufferSize]
  omega

namespace Insertion

variable (op : Insertion) (s : Serializer)

@[simp] theorem finish_bufferPtr : (op.finish s).bufferPtr = s.bufferPtr := by
  cases op <;> rfl

@[simp] theorem finish_bufferSize : (op.finish s).bufferSize = s.bufferSize := by
  cases op <;> rfl

@[simp] theorem finish_headPtr : (op.finish s).headPtr = s.headPtr := by
  cases op <;> rfl

/-- Nothing in front of `tailPtr` is written. -/
theorem finish_memory_below {address : Nat} (below : address < s.tailPtr) :
    (op.finish s).memory address = s.memory address := by
  cases op with
  | push data => exact write_outside _ _ _ _ (Or.inl below)
  | scalar value => exact write_outside _ _ _ _ (Or.inl below)
  | string data =>
      have grows := s.append_tailPtr_ge (littleEndianBytes 4 data.length)
      refine Eq.trans (write_outside _ _ data address (Or.inl ?_))
        (write_outside s.memory s.tailPtr (littleEndianBytes 4 data.length) address (Or.inl below))
      omega

/-- A write that leaves a content behind advances `tailPtr` by at most the bytes
written, and by exactly those only when no count was narrowed. -/
theorem finish_tailPtr (content : (op.finish s).headPtr < (op.finish s).tailPtr) :
    (op.finish s).tailPtr ≤ s.tailPtr + op.encode.length ∧
      ((op.finish s).tailPtr = s.tailPtr + op.encode.length -> op.Narrow) := by
  rw [finish_headPtr] at content
  cases op with
  | push data =>
      rcases (s.store s.tailPtr data).moveRear_narrowed data.length with back | forward
      · exact absurd content (Nat.not_lt.mpr back)
      · exact forward
  | scalar value => exact ⟨s.append_tailPtr_le _, fun _ => trivial⟩
  | string data =>
      let first := s.append (littleEndianBytes 4 data.length)
      have place : first.tailPtr ≤ s.tailPtr + 4 := by
        simpa using s.append_tailPtr_le (littleEndianBytes 4 data.length)
      rcases (first.store first.tailPtr data).moveRear_narrowed data.length with back | forward
      · exact absurd content (Nat.not_lt.mpr back)
      · have longer : (encode (.string data)).length = 4 + data.length := by simp [encode]
        have result : (finish (.string data) s).tailPtr =
            ((first.store first.tailPtr data).moveRear (toInt32 data.length)).tailPtr := rfl
        rw [result, longer]
        simp only [store_tailPtr] at forward
        refine ⟨by omega, fun whole => forward.2 (by omega)⟩

/-- With no count narrowed the loop asks for the length of the encoding. -/
theorem need_eq (narrow : op.Narrow) : op.need = op.encode.length := by
  cases op with
  | push data => rfl
  | scalar value => rfl
  | string data =>
      have small : data.length < 2 ^ 31 := narrow
      have cast : ((data.length : Int) + 4) = ((data.length + 4 : Nat) : Int) := by omega
      rw [need, toInt32_small small, cast, sizeT_natCast (by omega)]
      simp [encode, Nat.add_comm]

/-- A write that has its room is one append. -/
theorem finish_eq_append (narrow : op.Narrow) (room : op.encode.length ≤ s.useableSize) :
    op.finish s = s.append op.encode := by
  cases op with
  | push data =>
      have small : data.length < 2 ^ 31 := narrow
      rw [finish, toInt32_small small]
      rfl
  | scalar value => rfl
  | string data =>
      have small : data.length < 2 ^ 31 := narrow
      have longer : (encode (.string data)).length = (littleEndianBytes 4 data.length).length +
          data.length := by simp [encode]
      let first := s.append (littleEndianBytes 4 data.length)
      have split : finish (.string data) s = first.append data := by
        rw [finish, toInt32_small small]
        rfl
      have place : first.tailPtr = s.tailPtr + (littleEndianBytes 4 data.length).length :=
        s.append_tailPtr_fits _ (by omega)
      have free : first.useableSize = s.useableSize - (littleEndianBytes 4 data.length).length :=
        s.append_useableSize_fits _ (by omega)
      have memory : (first.append data).memory = (s.append (encode (.string data))).memory := by
        have second : (first.append data).memory =
            write (write s.memory s.tailPtr (littleEndianBytes 4 data.length)) first.tailPtr data := rfl
        have whole : (s.append (encode (.string data))).memory =
            write s.memory s.tailPtr (littleEndianBytes 4 data.length ++ data) := rfl
        rw [second, whole, write_append, place]
      have tail : (first.append data).tailPtr = (s.append (encode (.string data))).tailPtr := by
        rw [first.append_tailPtr_fits data (by omega), s.append_tailPtr_fits _ room, place, longer]
        omega
      rw [split]
      exact Serializer.ext memory rfl rfl rfl tail

end Insertion
end Serializer
end Buffers
end LoginServer
