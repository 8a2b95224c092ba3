import Mathlib.Algebra.GroupWithZero.Nat
import LoginServer.Buffers.Insertion

namespace LoginServer
namespace Buffers
namespace Serializer

open Memory

/-!
# The read operators

All the `>>` operators of the serializer.  Those of fixed width share one body:
they copy from `headPtr` first and clamp only the pointer move afterwards.  The
string operator takes a signed length from the data for both.

Written values wait behind the earlier content and come out in order, whatever
is written in between.
-/

section Operators

variable (s : Serializer)

def extractBool : Bool × Serializer :=
  let (data, s) := s.extract 1
  (littleEndian data != 0, s)

def extractUnsignedChar : Byte × Serializer :=
  let (data, s) := s.extract 1
  (BitVec.ofNat 8 (littleEndian data), s)

def extractWchar : BitVec 16 × Serializer :=
  let (data, s) := s.extract 2
  (BitVec.ofNat 16 (littleEndian data), s)

def extractInt : BitVec 32 × Serializer :=
  let (data, s) := s.extract 4
  (BitVec.ofNat 32 (littleEndian data), s)

def extractUnsignedInt : BitVec 32 × Serializer :=
  let (data, s) := s.extract 4
  (BitVec.ofNat 32 (littleEndian data), s)

def extractLong : BitVec 32 × Serializer :=
  let (data, s) := s.extract 4
  (BitVec.ofNat 32 (littleEndian data), s)

def extractUnsignedLong : BitVec 32 × Serializer :=
  let (data, s) := s.extract 4
  (BitVec.ofNat 32 (littleEndian data), s)

def extractLongLong : BitVec 64 × Serializer :=
  let (data, s) := s.extract 8
  (BitVec.ofNat 64 (littleEndian data), s)

/-- `operator >> (float&)`, the bits of the value. -/
def extractFloat : BitVec 32 × Serializer :=
  let (data, s) := s.extract 4
  (BitVec.ofNat 32 (littleEndian data), s)

/-- `operator >> (double&)`, the bits of the value. -/
def extractDouble : BitVec 64 × Serializer :=
  let (data, s) := s.extract 8
  (BitVec.ofNat 64 (littleEndian data), s)

/-- The length in front of a string, an `int`. -/
def lengthPrefix : Int := (BitVec.ofNat 32 (littleEndian (read s.memory s.headPtr 4))).toInt

/-- `operator >> (std::string&)`.  With a negative length `assign` throws, when
`headPtr` has passed the length already. -/
def extractString : Option (List Byte) × Serializer :=
  let length := s.lengthPrefix
  let s := s.moveFront 4
  if 0 ≤ length then (some (read s.memory s.headPtr length.toNat), s.moveFront length)
  else (none, s)

end Operators

/-! ## Types -/

/-- The types of fixed width. -/
inductive ScalarType where
  | bool | char | unsignedChar | wchar | short | unsignedShort | int | unsignedInt | long | unsignedLong
  | longLong | unsignedLongLong | float | double
  deriving DecidableEq

def Scalar.type : Scalar -> ScalarType
  | .bool _ => .bool
  | .char _ => .char
  | .unsignedChar _ => .unsignedChar
  | .wchar _ => .wchar
  | .short _ => .short
  | .unsignedShort _ => .unsignedShort
  | .int _ => .int
  | .unsignedInt _ => .unsignedInt
  | .long _ => .long
  | .unsignedLong _ => .unsignedLong
  | .longLong _ => .longLong
  | .unsignedLongLong _ => .unsignedLongLong
  | .float _ => .float
  | .double _ => .double

namespace ScalarType

def width : ScalarType -> Nat
  | .bool | .char | .unsignedChar => 1
  | .wchar | .short | .unsignedShort => 2
  | .int | .unsignedInt | .long | .unsignedLong | .float => 4
  | .longLong | .unsignedLongLong | .double => 8

/-- The value that some bytes of memory are. -/
def decode : ScalarType -> List Byte -> Scalar
  | .bool, data => .bool (littleEndian data != 0)
  | .char, data => .char (BitVec.ofNat 8 (littleEndian data))
  | .unsignedChar, data => .unsignedChar (BitVec.ofNat 8 (littleEndian data))
  | .wchar, data => .wchar (BitVec.ofNat 16 (littleEndian data))
  | .short, data => .short (BitVec.ofNat 16 (littleEndian data))
  | .unsignedShort, data => .unsignedShort (BitVec.ofNat 16 (littleEndian data))
  | .int, data => .int (BitVec.ofNat 32 (littleEndian data))
  | .unsignedInt, data => .unsignedInt (BitVec.ofNat 32 (littleEndian data))
  | .long, data => .long (BitVec.ofNat 32 (littleEndian data))
  | .unsignedLong, data => .unsignedLong (BitVec.ofNat 32 (littleEndian data))
  | .longLong, data => .longLong (BitVec.ofNat 64 (littleEndian data))
  | .unsignedLongLong, data => .unsignedLongLong (BitVec.ofNat 64 (littleEndian data))
  | .float, data => .float (BitVec.ofNat 32 (littleEndian data))
  | .double, data => .double (BitVec.ofNat 64 (littleEndian data))

/-- The `>>` operator of a type. -/
def extract : ScalarType -> Serializer -> Scalar × Serializer
  | .bool, s => s.extractBool.map .bool id
  | .char, s => s.extractChar.map .char id
  | .unsignedChar, s => s.extractUnsignedChar.map .unsignedChar id
  | .wchar, s => s.extractWchar.map .wchar id
  | .short, s => s.extractShort.map .short id
  | .unsignedShort, s => s.extractUnsignedShort.map .unsignedShort id
  | .int, s => s.extractInt.map .int id
  | .unsignedInt, s => s.extractUnsignedInt.map .unsignedInt id
  | .long, s => s.extractLong.map .long id
  | .unsignedLong, s => s.extractUnsignedLong.map .unsignedLong id
  | .longLong, s => s.extractLongLong.map .longLong id
  | .unsignedLongLong, s => s.extractUnsignedLongLong.map .unsignedLongLong id
  | .float, s => s.extractFloat.map .float id
  | .double, s => s.extractDouble.map .double id

/-- One body for them all. -/
theorem extract_eq (type : ScalarType) (s : Serializer) :
    type.extract s = (type.decode (read s.memory s.headPtr type.width), s.moveFront type.width) := by
  cases type <;> rfl

end ScalarType

namespace Scalar

theorem encode_length (value : Scalar) : value.encode.length = value.type.width := by
  cases value <;> exact littleEndianBytes_length _ _

theorem decode_encode (value : Scalar) : value.type.decode value.encode = value := by
  cases value with
  | bool value => cases value <;> rfl
  | _ value =>
      have back := value.isLt
      simp only [type, ScalarType.decode, encode, littleEndian_littleEndianBytes]
      rw [Nat.mod_eq_of_lt (by simpa using back), BitVec.ofNat_toNat, BitVec.setWidth_eq]

end Scalar

/-- A value with an operator of its own. -/
inductive Value where
  | scalar (value : Scalar)
  | string (data : List Byte)

inductive ValueType where
  | scalar (type : ScalarType)
  | string
  deriving DecidableEq

namespace Value

def type : Value -> ValueType
  | .scalar value => .scalar value.type
  | .string _ => .string

def insertion : Value -> Insertion
  | .scalar value => .scalar value
  | .string data => .string data

/-- The bytes of a value in the serializer. -/
def encode (value : Value) : List Byte := value.insertion.encode

end Value

/-- The `>>` operator of a type; `none` when it throws. -/
def ValueType.extract : ValueType -> Serializer -> Option Value × Serializer
  | .scalar type, s => (type.extract s).map (fun value => some (.scalar value)) id
  | .string, s => s.extractString.map (Option.map .string) id

/-! ## The content -/

/-- What lies between the pointers, which need not be those of the allocation. -/
structure Holds (s : Serializer) (content : List Byte) : Prop where
  tailPtr : s.tailPtr = s.headPtr + content.length
  bytes : read s.memory s.headPtr content.length = content
  small : content.length < 2 ^ 64

theorem holds_bytes (s : Serializer) (order : s.headPtr ≤ s.tailPtr)
    (small : s.tailPtr - s.headPtr < 2 ^ 64) : s.Holds s.bytes := by
  have cast : (s.tailPtr : Int) - s.headPtr = ((s.tailPtr - s.headPtr : Nat) : Int) := by omega
  have extent : s.size = s.tailPtr - s.headPtr := by rw [size, cast, sizeT_natCast small]
  have length : s.bytes.length = s.size := read_length _ _ _
  refine ⟨by omega, ?_, by omega⟩
  rw [length]
  rfl

namespace Holds

variable {s : Serializer} {content data : List Byte}

theorem size_eq (holds : s.Holds content) : s.size = content.length := by
  have cast : (s.tailPtr : Int) - s.headPtr = (content.length : Int) := by
    rw [holds.tailPtr]
    omega
  rw [Serializer.size, cast, sizeT_natCast holds.small]

theorem moveFront_headPtr (holds : s.Holds content) (count : Nat) (inside : count ≤ content.length) :
    (s.moveFront count).headPtr = s.headPtr + count := by
  have extent := holds.size_eq
  unfold moveFront frontOffset
  rw [if_pos (Int.natCast_nonneg _)]
  dsimp only
  omega

/-- Moving the front takes bytes off the content. -/
theorem moveFront (holds : s.Holds content) (count : Nat) (inside : count ≤ content.length) :
    (s.moveFront count).Holds (content.drop count) where
  tailPtr := by
    rw [holds.moveFront_headPtr count inside, moveFront_tailPtr, holds.tailPtr, List.length_drop]
    omega
  bytes := by
    rw [holds.moveFront_headPtr count inside, moveFront_memory, List.length_drop,
      ← read_drop _ _ _ _ inside, holds.bytes]
  small := by
    have small := holds.small
    rw [List.length_drop]
    omega

/-- Two moves inside the content are one. -/
theorem moveFront_moveFront (holds : s.Holds content) {first second : Nat}
    (inside : first + second ≤ content.length) :
    (s.moveFront first).moveFront second = s.moveFront ((first + second : Nat) : Int) := by
  have middle := holds.moveFront first (by omega)
  have place := middle.moveFront_headPtr second (by rw [List.length_drop]; omega)
  rw [holds.moveFront_headPtr first (by omega)] at place
  apply Serializer.ext
  · rfl
  · rfl
  · rfl
  · rw [place, holds.moveFront_headPtr _ inside, Nat.add_assoc]
  · rfl

/-- Writing adds bytes at the end of it. -/
theorem append (holds : s.Holds content) (room : data.length ≤ s.useableSize)
    (small : content.length + data.length < 2 ^ 64) : (s.append data).Holds (content ++ data) where
  tailPtr := by
    rw [s.append_tailPtr_fits data room, append_headPtr, List.length_append, holds.tailPtr]
    omega
  bytes := by
    have memory : (s.append data).memory = write s.memory (s.headPtr + content.length) data := by
      rw [← holds.tailPtr]
      rfl
    rw [append_headPtr, List.length_append, memory, read_add, read_write,
      read_write_disjoint _ _ _ _ _ (Or.inl (Nat.le_refl _)), holds.bytes]
  small := by
    rw [List.length_append]
    exact small

/-- The first bytes of the content. -/
theorem read_front (holds : s.Holds content) {count : Nat} (inside : count ≤ content.length) :
    read s.memory s.headPtr count = content.take count := by
  rw [← holds.bytes, read_take _ _ _ _ inside]

theorem lengthPrefix_eq {rest : List Byte} (holds : s.Holds (littleEndianBytes 4 data.length ++ rest))
    (narrow : data.length < 2 ^ 31) : s.lengthPrefix = data.length := by
  rw [lengthPrefix, holds.read_front (by simp), List.take_left' (littleEndianBytes_length _ _),
    littleEndian_littleEndianBytes, BitVec.toInt_eq_toNat_of_lt]
  · simp only [BitVec.toNat_ofNat]
    omega
  · simp only [BitVec.toNat_ofNat]
    omega

/-- The operator of a value's type takes the value off the front. -/
theorem extract {value : Value} (rest : List Byte) (holds : s.Holds (value.encode ++ rest))
    (narrow : value.insertion.Narrow) :
    value.type.extract s = (some value, s.moveFront value.encode.length) := by
  cases value with
  | scalar value =>
      have length : value.encode.length = value.type.width := value.encode_length
      have front : read s.memory s.headPtr value.type.width = value.encode := by
        rw [← length]
        refine (holds.read_front ?_).trans List.take_left
        simp [Value.encode, Value.insertion, Insertion.encode]
      change Prod.map (fun value => some (Value.scalar value)) id (value.type.extract s) = _
      rw [value.type.extract_eq, front, value.decode_encode, ← length]
      rfl
  | string data =>
      have small : data.length < 2 ^ 31 := narrow
      have whole : s.Holds (littleEndianBytes 4 data.length ++ (data ++ rest)) := by
        rw [← List.append_assoc]
        exact holds
      have behind : (s.moveFront (4 : Nat)).Holds (data ++ rest) := by
        have dropped := whole.moveFront 4 (by simp)
        rwa [List.drop_left' (littleEndianBytes_length _ _)] at dropped
      have characters : read (s.moveFront 4).memory (s.moveFront 4).headPtr data.length = data :=
        (behind.read_front (by simp)).trans List.take_left
      have moves : (s.moveFront 4).moveFront data.length = s.moveFront (4 + data.length : Nat) :=
        whole.moveFront_moveFront (by simp)
      have length : (Value.string data).encode.length = 4 + data.length := by
        simp [Value.encode, Value.insertion, Insertion.encode]
      have taken : s.extractString = (some data, s.moveFront (4 + data.length : Nat)) := by
        unfold extractString
        rw [whole.lengthPrefix_eq small, if_pos (Int.natCast_nonneg _), Int.toNat_natCast, characters, moves]
      change Prod.map (Option.map Value.string) id s.extractString = _
      rw [taken, length]
      rfl

end Holds

/-! ## Writes and reads in any order -/

inductive Exchange where
  | write (value : Value)
  | consume (count : Nat)
  | read (type : ValueType)

/-- The bytes of some values, one after another. -/
def encodeAll (values : List Value) : List Byte := (values.map Value.encode).flatten

@[simp] theorem encodeAll_nil : encodeAll [] = [] := rfl

@[simp] theorem encodeAll_cons (value : Value) (values : List Value) :
    encodeAll (value :: values) = value.encode ++ encodeAll values := rfl

@[simp] theorem encodeAll_append (first second : List Value) :
    encodeAll (first ++ second) = encodeAll first ++ encodeAll second := by
  simp [encodeAll]

/-- The values a schedule writes. -/
def written : List Exchange -> List Value
  | [] => []
  | .write value :: rest => value :: written rest
  | _ :: rest => written rest

section Course

variable (allocate : Nat -> Nat) (fuel : Nat)

def Exchange.perform : Exchange -> Serializer -> Option (List Value × Serializer)
  | .write value, s => (value.insertion.perform allocate fuel s).map fun s => ([], s)
  | .consume count, s => some ([], s.moveFront count)
  | .read type, s =>
      match type.extract s with
      | (some value, s) => some ([value], s)
      | (none, _) => none

/-- The values read by a schedule, in order. -/
def exchange : List Exchange -> Serializer -> Option (List Value × Serializer)
  | [], s => some ([], s)
  | step :: rest, s =>
      (step.perform allocate fuel s).bind fun (value, s) =>
        (exchange rest s).map fun (values, s) => (value ++ values, s)

end Course

/-- What a serializer stands for: so many bytes of earlier content, and behind
them the values written since. -/
structure Waiting where
  earlier : Nat
  values : List Value

/-- A first-in-first-out queue of values.  A read has to ask for the type that
was written, and comes after the earlier content is gone.  `moveFront` takes an
`int`. -/
def Waiting.next : Exchange -> Waiting -> Option (List Value × Waiting)
  | .write value, ⟨earlier, values⟩ => some ([], ⟨earlier, values ++ [value]⟩)
  | .consume count, ⟨earlier, values⟩ =>
      if count < 2 ^ 31 ∧ count ≤ earlier then some ([], ⟨earlier - count, values⟩) else none
  | .read _, ⟨_ + 1, _⟩ => none
  | .read _, ⟨0, []⟩ => none
  | .read type, ⟨0, value :: values⟩ => if value.type = type then some ([value], ⟨0, values⟩) else none

def Waiting.course : List Exchange -> Waiting -> Option (List Value × Waiting)
  | [], waiting => some ([], waiting)
  | step :: rest, waiting =>
      (waiting.next step).bind fun (value, waiting) =>
        (waiting.course rest).map fun (values, waiting) => (value ++ values, waiting)

/-- A serializer and what it stands for. -/
structure StandsFor (s : Serializer) (waiting : Waiting) : Prop where
  narrow : forall value, value ∈ waiting.values -> value.insertion.Narrow
  content : Exists fun earlier : List Byte =>
    earlier.length = waiting.earlier ∧ s.Holds (earlier ++ encodeAll waiting.values)

/-- The way from one state to another: the pointers move on by what is written
and by what is consumed, and only the written region changes. -/
structure Exchanged (s : Serializer) (total consumed : Nat) (s' : Serializer) : Prop where
  tailPtr : s'.tailPtr = s.tailPtr + total
  headPtr : s'.headPtr = s.headPtr + consumed
  bufferPtr : s'.bufferPtr = s.bufferPtr
  bufferSize : s'.bufferSize = s.bufferSize
  outside : forall address, address < s.tailPtr ∨ s.tailPtr + total ≤ address ->
    s'.memory address = s.memory address

namespace Exchanged

variable {s s' s'' : Serializer} {total consumed total' consumed' : Nat}

theorem refl (s : Serializer) : Exchanged s 0 0 s where
  tailPtr := rfl
  headPtr := rfl
  bufferPtr := rfl
  bufferSize := rfl
  outside := fun _ _ => rfl

theorem trans (first : Exchanged s total consumed s') (second : Exchanged s' total' consumed' s'') :
    Exchanged s (total + total') (consumed + consumed') s'' where
  tailPtr := by rw [second.tailPtr, first.tailPtr, Nat.add_assoc]
  headPtr := by rw [second.headPtr, first.headPtr, Nat.add_assoc]
  bufferPtr := second.bufferPtr.trans first.bufferPtr
  bufferSize := second.bufferSize.trans first.bufferSize
  outside := by
    intro address beyond
    have place := first.tailPtr
    rw [second.outside address (by omega), first.outside address (by omega)]

theorem useableSize (exchanged : Exchanged s total consumed s') (room : total ≤ s.useableSize) :
    s'.useableSize = s.useableSize - total := by
  have tail := exchanged.tailPtr
  unfold Serializer.useableSize sizeT at room ⊢
  rw [tail, exchanged.bufferPtr, exchanged.bufferSize]
  omega

/-- A write that has its room. -/
theorem append (s : Serializer) (data : List Byte) (room : data.length ≤ s.useableSize) :
    Exchanged s data.length 0 (s.append data) where
  tailPtr := s.append_tailPtr_fits data room
  headPtr := rfl
  bufferPtr := rfl
  bufferSize := rfl
  outside := fun address beyond => write_outside s.memory s.tailPtr data address beyond

theorem moveFront {content : List Byte} (holds : s.Holds content) (count : Nat)
    (inside : count ≤ content.length) : Exchanged s 0 count (s.moveFront count) where
  tailPtr := rfl
  headPtr := holds.moveFront_headPtr count inside
  bufferPtr := rfl
  bufferSize := rfl
  outside := fun _ _ => rfl

end Exchanged

theorem Insertion.perform_append {op : Insertion} (narrow : op.Narrow) {s : Serializer}
    (room : op.encode.length ≤ s.useableSize) (allocate : Nat -> Nat) (fuel : Nat) :
    op.perform allocate fuel s = some (s.append op.encode) := by
  have enough : ¬ s.useableSize < op.need := by
    rw [op.need_eq narrow]
    exact Nat.not_lt.mpr room
  have reserved : s.reserve allocate fuel op.need = some s := by
    cases fuel <;> simp only [reserve, if_neg enough]
  rw [op.perform_eq, reserved, Option.map_some, op.finish_eq_append s narrow room]

section Simulation

variable (allocate : Nat -> Nat) (fuel : Nat) {s : Serializer} {waiting waiting' : Waiting}

/-- One step keeps pace with the queue. -/
theorem StandsFor.next {step : Exchange} {values : List Value} (standsFor : s.StandsFor waiting)
    (stepped : waiting.next step = some (values, waiting'))
    (narrow : forall value, value ∈ written [step] -> value.insertion.Narrow)
    (room : (encodeAll (written [step])).length ≤ s.useableSize)
    (small : waiting.earlier + (encodeAll waiting.values).length +
      (encodeAll (written [step])).length < 2 ^ 64) :
    Exists fun s' : Serializer => Exists fun consumed =>
      step.perform allocate fuel s = some (values, s') ∧ s'.StandsFor waiting' ∧
        Exchanged s (encodeAll (written [step])).length consumed s' ∧
          waiting.earlier + (encodeAll values).length = waiting'.earlier + consumed := by
  rcases waiting with ⟨earlier, pending⟩
  rcases standsFor with ⟨short, front, length, holds⟩
  cases step with
  | write value =>
      cases stepped
      have whole : encodeAll (written [.write value]) = value.encode := List.append_nil _
      rw [whole] at room small ⊢
      have performed := Insertion.perform_append (narrow value (List.mem_singleton_self value)) room
        allocate fuel
      have appended := holds.append room (by rw [List.length_append, length]; exact small)
      refine ⟨s.append value.encode, 0, ?_, ⟨?_, front, length, ?_⟩, Exchanged.append s _ room, rfl⟩
      · rw [Exchange.perform, performed]
        rfl
      · intro other member
        rcases List.mem_append.mp member with before | added
        · exact short other before
        · exact narrow other added
      · simpa using appended
  | consume count =>
      dsimp only [Waiting.next] at stepped
      split at stepped
      next fits =>
        cases stepped
        have inside : count ≤ (front ++ encodeAll pending).length := by
          rw [List.length_append, length]
          exact Nat.le_trans fits.2 (Nat.le_add_right _ _)
        have moved := holds.moveFront count inside
        rw [List.drop_append_of_le_length (length ▸ fits.2)] at moved
        refine ⟨s.moveFront count, count, rfl, ⟨short, front.drop count, ?_, moved⟩,
          .moveFront holds count inside, ?_⟩
        · rw [List.length_drop, length]
        · exact (Nat.sub_add_cancel fits.2).symm
      next => cases stepped
  | read type =>
      rcases earlier with - | earlier
      · rcases pending with - | ⟨value, pending⟩
        · cases stepped
        · dsimp only [Waiting.next] at stepped
          split at stepped
          next same =>
            cases stepped
            subst same
            have nothing : front = [] := List.eq_nil_of_length_eq_zero length
            subst nothing
            have first := short value (List.mem_cons_self ..)
            have inside : value.encode.length ≤ ([] ++ encodeAll (value :: pending)).length := by simp
            have moved := holds.moveFront value.encode.length inside
            rw [List.nil_append, encodeAll_cons, List.drop_left] at moved
            refine ⟨s.moveFront value.encode.length, value.encode.length, ?_,
              ⟨fun other member => short other (.tail _ member), [], rfl, moved⟩,
              .moveFront holds _ inside, by simp⟩
            rw [Exchange.perform, Holds.extract (encodeAll pending) holds first]
          next => cases stepped
      · cases stepped

theorem written_cons (step : Exchange) (rest : List Exchange) :
    written (step :: rest) = written [step] ++ written rest := by
  cases step <;> rfl

/-- A step of the queue neither gains nor loses bytes. -/
theorem Waiting.next_total {step : Exchange} {values : List Value}
    (stepped : waiting.next step = some (values, waiting')) :
    waiting.earlier + (encodeAll waiting.values).length + (encodeAll (written [step])).length ≥
      waiting'.earlier + (encodeAll waiting'.values).length := by
  rcases waiting with ⟨earlier, pending⟩
  cases step with
  | write value =>
      cases stepped
      simp [written, Nat.add_assoc]
  | consume count =>
      dsimp only [Waiting.next] at stepped
      split at stepped
      next =>
        cases stepped
        simp [written]
      next => cases stepped
  | read type =>
      rcases earlier with - | earlier
      · rcases pending with - | ⟨value, pending⟩
        · cases stepped
        · dsimp only [Waiting.next] at stepped
          split at stepped
          next =>
            cases stepped
            simp [written]
          next => cases stepped
      · cases stepped

/-- So does a whole schedule, as long as there is room for all it writes. -/
theorem StandsFor.course {schedule : List Exchange} {values : List Value}
    (standsFor : s.StandsFor waiting) (run : waiting.course schedule = some (values, waiting'))
    (narrow : forall value, value ∈ written schedule -> value.insertion.Narrow)
    (room : (encodeAll (written schedule)).length ≤ s.useableSize)
    (small : waiting.earlier + (encodeAll waiting.values).length +
      (encodeAll (written schedule)).length < 2 ^ 64) :
    Exists fun s' : Serializer => Exists fun consumed =>
      exchange allocate fuel schedule s = some (values, s') ∧ s'.StandsFor waiting' ∧
        Exchanged s (encodeAll (written schedule)).length consumed s' ∧
          waiting.earlier + (encodeAll values).length = waiting'.earlier + consumed := by
  induction schedule generalizing s waiting values with
  | nil =>
      cases run
      exact ⟨s, 0, rfl, standsFor, .refl s, rfl⟩
  | cons step rest inductionHypothesis =>
      rw [written_cons, encodeAll_append, List.length_append] at room small
      rw [written_cons] at narrow
      rcases Option.bind_eq_some_iff.mp run with ⟨⟨first, middle⟩, stepped, remaining⟩
      rcases Option.map_eq_some_iff.mp remaining with ⟨⟨later, final⟩, run, same⟩
      cases same
      have total := Waiting.next_total stepped
      rcases standsFor.next allocate fuel stepped
          (fun value member => narrow value (List.mem_append_left _ member)) (by omega) (by omega) with
        ⟨s', consumed, performed, standsFor, exchanged, balance⟩
      have left := exchanged.useableSize (by omega)
      rcases inductionHypothesis standsFor run
          (fun value member => narrow value (List.mem_append_right _ member)) (by omega) (by omega) with
        ⟨s'', consumed', performed', standsFor', exchanged', balance'⟩
      refine ⟨s'', consumed + consumed', ?_, standsFor', ?_, ?_⟩
      · simp [exchange, performed, performed']
      · rw [written_cons, encodeAll_append, List.length_append]
        exact exchanged.trans exchanged'
      · rw [encodeAll_append, List.length_append]
        omega

end Simulation

/-! ## All writes, then all reads -/

/-- Write some values, consume the earlier content in some moves, and read. -/
def writeThenRead (values : List Value) (counts : List Nat) : List Exchange :=
  values.map .write ++ counts.map .consume ++ values.map fun value => .read value.type

theorem written_append (first second : List Exchange) :
    written (first ++ second) = written first ++ written second := by
  induction first with
  | nil => rfl
  | cons step rest inductionHypothesis =>
      rw [List.cons_append, written_cons, inductionHypothesis, written_cons step rest, List.append_assoc]

theorem written_writeThenRead (values : List Value) (counts : List Nat) :
    written (writeThenRead values counts) = values := by
  have writes : written (values.map .write) = values := by
    induction values with
    | nil => rfl
    | cons value rest inductionHypothesis => exact congrArg (value :: ·) inductionHypothesis
  have consumes : written (counts.map .consume) = [] := by
    induction counts with
    | nil => rfl
    | cons count rest inductionHypothesis => exact inductionHypothesis
  have reads (types : List ValueType) : written (types.map .read) = [] := by
    induction types with
    | nil => rfl
    | cons type rest inductionHypothesis => exact inductionHypothesis
  have typed : values.map (fun value => Exchange.read value.type) = (values.map Value.type).map .read := by
    simp
  rw [writeThenRead, written_append, written_append, writes, consumes, typed, reads, List.append_nil,
    List.append_nil]

namespace Waiting

theorem course_append (first second : List Exchange) (waiting : Waiting) :
    waiting.course (first ++ second) = (waiting.course first).bind fun result =>
      (result.2.course second).map fun later => (result.1 ++ later.1, later.2) := by
  induction first generalizing waiting with
  | nil =>
      change waiting.course second = (waiting.course second).map id
      rw [Option.map_id]
      rfl
  | cons step rest inductionHypothesis =>
      simp only [List.cons_append, course]
      cases waiting.next step with
      | none => rfl
      | some result =>
          simp only [Option.bind_some, inductionHypothesis]
          cases result.2.course rest with
          | none => rfl
          | some middle =>
              simp only [Option.bind_some, Option.map_some, Option.map_map, Function.comp_def,
                List.append_assoc]

theorem course_writes (values pending : List Value) (earlier : Nat) :
    course (values.map .write) ⟨earlier, pending⟩ = some ([], ⟨earlier, pending ++ values⟩) := by
  induction values generalizing pending with
  | nil => simp [course]
  | cons value rest inductionHypothesis => simp [course, next, inductionHypothesis]

theorem course_consumes (counts : List Nat) (pending : List Value) (earlier : Nat)
    (short : forall count, count ∈ counts -> count < 2 ^ 31) :
    course (counts.map .consume) ⟨earlier + counts.sum, pending⟩ = some ([], ⟨earlier, pending⟩) := by
  induction counts with
  | nil => rfl
  | cons count rest inductionHypothesis =>
      have possible : count < 2 ^ 31 ∧ count ≤ earlier + (count + rest.sum) :=
        ⟨short count (List.mem_cons_self ..), by omega⟩
      have left : earlier + (count + rest.sum) - count = earlier + rest.sum := by omega
      have later := inductionHypothesis fun other member => short other (.tail _ member)
      have first : next (.consume count) ⟨earlier + (count + rest.sum), pending⟩ =
          some ([], ⟨earlier + rest.sum, pending⟩) := by
        rw [next, if_pos possible, left]
      simp [course, first, later]

theorem course_reads (values pending : List Value) :
    course (values.map fun value => .read value.type) ⟨0, values ++ pending⟩ =
      some (values, ⟨0, pending⟩) := by
  induction values with
  | nil => rfl
  | cons value rest inductionHypothesis => simp [course, next, inductionHypothesis]

theorem course_writeThenRead (values : List Value) (counts : List Nat)
    (short : forall count, count ∈ counts -> count < 2 ^ 31) :
    course (writeThenRead values counts) ⟨counts.sum, []⟩ = some (values, ⟨0, []⟩) := by
  have consumed := course_consumes counts values 0 short
  have read := course_reads values []
  rw [Nat.zero_add] at consumed
  rw [List.append_nil] at read
  rw [writeThenRead, course_append, course_append, course_writes]
  simp [consumed, read]

end Waiting

theorem WellFormed.addresses {s : Serializer} (ordered : s.WellFormed) {count : Nat}
    (room : count ≤ s.useableSize) : s.tailPtr - s.headPtr + count < 2 ^ 64 := by
  have free := ordered.useableSize_eq
  have := ordered.buffer_le_head
  have := ordered.head_le_tail
  have := ordered.tail_le_end
  have := ordered.small
  omega

/-- Values written with room to spare come back behind the earlier content, and
any other order of the same writes with consumption and reads gives what a queue
gives.  The pointers need not be in the allocation, but span a content. -/
theorem typed_roundTrip (allocate : Nat -> Nat) (fuel : Nat) (s : Serializer) (values : List Value)
    (order : s.headPtr ≤ s.tailPtr)
    (addresses : s.tailPtr - s.headPtr + (encodeAll values).length < 2 ^ 64)
    (room : (encodeAll values).length ≤ s.useableSize)
    (narrow : forall data, Value.string data ∈ values -> data.length < 2 ^ 31) :
    (forall counts : List Nat, (forall count, count ∈ counts -> count < 2 ^ 31) -> counts.sum = s.size ->
      Exists fun s' => exchange allocate fuel (writeThenRead values counts) s = some (values, s') ∧
        Exchanged s (encodeAll values).length (s.size + (encodeAll values).length) s') ∧
    (forall schedule outputs waiting, written schedule = values ->
      Waiting.course schedule ⟨s.size, []⟩ = some (outputs, waiting) ->
      Exists fun s' => Exists fun consumed => exchange allocate fuel schedule s = some (outputs, s') ∧
        Exchanged s (encodeAll values).length consumed s' ∧
          waiting.earlier + consumed = s.size + (encodeAll outputs).length) := by
  have holds := s.holds_bytes order (by omega)
  have length : s.bytes.length = s.size := read_length _ _ _
  have extent : s.tailPtr - s.headPtr = s.size := by
    have tail := holds.tailPtr
    omega
  have start : s.StandsFor ⟨s.size, []⟩ := by
    refine ⟨by simp, s.bytes, length, ?_⟩
    rw [encodeAll_nil, List.append_nil]
    exact holds
  have allNarrow : forall value, value ∈ values -> value.insertion.Narrow := by
    intro value member
    cases value with
    | scalar value => trivial
    | string data => exact narrow data member
  have inside : s.size + (encodeAll []).length + (encodeAll values).length < 2 ^ 64 := by
    rw [← extent]
    exact addresses
  constructor
  · intro counts short total
    have run := Waiting.course_writeThenRead values counts short
    have writes := written_writeThenRead values counts
    rw [total] at run
    rcases start.course allocate fuel run (by rwa [writes]) (by rwa [writes])
        (by rwa [writes]) with ⟨s', consumed, performed, _, exchanged, balance⟩
    rw [writes] at exchanged
    refine ⟨s', performed, ?_⟩
    rwa [← Nat.zero_add consumed, ← balance] at exchanged
  · rintro schedule outputs waiting rfl run
    rcases start.course allocate fuel run allNarrow room inside with
      ⟨s', consumed, performed, _, exchanged, balance⟩
    exact ⟨s', consumed, performed, exchanged, balance.symm⟩

/-- Three bytes of earlier content in 64. -/
def threeBytesWaiting : Serializer := ⟨fun _ => 7, 4096, 64, 4096, 4099⟩

theorem typed_roundTrip_mixed : Exists fun s' =>
    exchange id 0 (writeThenRead [.scalar (.short 5), .string [1, 2], .scalar (.bool true)] [1, 2])
      threeBytesWaiting = some ([.scalar (.short 5), .string [1, 2], .scalar (.bool true)], s') ∧
        Exchanged threeBytesWaiting 9 12 s' :=
  (typed_roundTrip id 0 threeBytesWaiting [.scalar (.short 5), .string [1, 2], .scalar (.bool true)]
    (by decide) (by decide) (by decide) (by simp)).1 [1, 2] (by decide) (by decide)

end Serializer
end Buffers
end LoginServer
