import LoginServer.Buffers.Extraction

namespace LoginServer
namespace Buffers
namespace Serializer

open Memory

/-!
# Reads at the end of the content

A read operator copies as many bytes as its type has, and a string operator as
many as the length in front of the characters says.  Neither looks at `tailPtr`
before it copies.  What an operator copies from is listed next to it, and other
bytes have no influence on what it answers, so that an operator with enough
content is decided by the content.
-/

/-- The intervals an operator copies from, each with its start and its length. -/
def ValueType.accesses : ValueType -> Serializer -> List (Nat × Nat)
  | .scalar type, s => [(s.headPtr, type.width)]
  | .string, s =>
      if 0 ≤ s.lengthPrefix then
        [(s.headPtr, 4), ((s.moveFront 4).headPtr, s.lengthPrefix.toNat)]
      else [(s.headPtr, 4)]

/-- The number of bytes a result was built from.  An operator that throws has
none. -/
def builtFrom : Option Value -> Nat
  | none => 0
  | some value => value.encode.length

/-- An operator reads the content only: every byte it copies lies from `headPtr` up to
`tailPtr`, and `headPtr` goes forward by as many bytes as the result was built from. -/
structure StaysInside (type : ValueType) (s : Serializer) : Prop where
  reads : forall access, access ∈ type.accesses s -> forall offset, offset < access.2 ->
    s.headPtr ≤ access.1 + offset ∧ access.1 + offset < s.tailPtr
  forward : s.headPtr ≤ (type.extract s).2.headPtr
  consumes : (type.extract s).2.headPtr = s.headPtr + builtFrom (type.extract s).1

/-- The content is long enough for the type, and for a string with the length stored in front of
it, which is not negative. -/
def LongEnough : ValueType -> Serializer -> Prop
  | .scalar type, s => type.width ≤ s.size
  | .string, s => 4 ≤ s.size ∧ 0 ≤ s.lengthPrefix ∧ s.lengthPrefix ≤ (s.size : Int) - 4

namespace ValueType

variable {s : Serializer}

theorem extract_scalar (type : ScalarType) (s : Serializer) :
    extract (.scalar type) s =
      (some (.scalar (type.decode (read s.memory s.headPtr type.width))), s.moveFront type.width) := by
  rw [extract, type.extract_eq]
  rfl

theorem extract_string {length : Nat} (stored : s.lengthPrefix = length) :
    extract .string s = (some (.string (read s.memory (s.moveFront 4).headPtr length)),
      (s.moveFront 4).moveFront length) := by
  have taken : s.extractString = (some (read s.memory (s.moveFront 4).headPtr length),
      (s.moveFront 4).moveFront length) := by
    rw [extractString, stored, if_pos (Int.natCast_nonneg _)]
    rfl
  rw [extract, taken]
  rfl

theorem extract_negative (stored : s.lengthPrefix < 0) : extract .string s = (none, s.moveFront 4) := by
  have thrown : s.extractString = (none, s.moveFront 4) := by
    rw [extractString, if_neg (Int.not_le.mpr stored)]
  rw [extract, thrown]
  rfl

theorem accesses_string {length : Nat} (stored : s.lengthPrefix = length) :
    accesses .string s = [(s.headPtr, 4), ((s.moveFront 4).headPtr, length)] := by
  rw [accesses, stored, if_pos (Int.natCast_nonneg _), Int.toNat_natCast]

theorem accesses_negative (stored : s.lengthPrefix < 0) : accesses .string s = [(s.headPtr, 4)] := by
  rw [accesses, if_neg (Int.not_le.mpr stored)]

/-- Other bytes than those copied have no influence. -/
theorem extract_congr (type : ValueType) (s : Serializer) (memory : Bytes)
    (same : forall access, access ∈ type.accesses s -> forall offset, offset < access.2 ->
      memory (access.1 + offset) = s.memory (access.1 + offset)) :
    (type.extract { s with memory := memory }).1 = (type.extract s).1 ∧
      (type.extract { s with memory := memory }).2.headPtr = (type.extract s).2.headPtr := by
  cases type with
  | scalar type =>
      have front : read memory s.headPtr type.width = read s.memory s.headPtr type.width :=
        (read_eq_iff _ _ _ _ _).mpr (same _ (List.mem_singleton_self _))
      rw [extract_scalar, extract_scalar, front]
      exact ⟨rfl, rfl⟩
  | string =>
      have first : (s.headPtr, 4) ∈ accesses .string s := by
        by_cases positive : 0 ≤ s.lengthPrefix
        · rw [accesses, if_pos positive]
          exact List.mem_cons_self ..
        · rw [accesses, if_neg positive]
          exact List.mem_cons_self ..
      have front : read memory s.headPtr 4 = read s.memory s.headPtr 4 :=
        (read_eq_iff _ _ _ _ _).mpr (same _ first)
      have stored : lengthPrefix { s with memory := memory } = s.lengthPrefix := by
        unfold lengthPrefix
        rw [front]
      by_cases positive : 0 ≤ s.lengthPrefix
      case neg =>
        have negative := Int.not_le.mp positive
        rw [extract_negative (by rwa [stored]), extract_negative negative]
        exact ⟨rfl, rfl⟩
      case pos =>
        rcases Int.eq_ofNat_of_zero_le positive with ⟨length, value⟩
        rw [accesses_string value] at same
        have rest : read memory (s.moveFront 4).headPtr length = read s.memory (s.moveFront 4).headPtr length :=
          (read_eq_iff _ _ _ _ _).mpr (same ((s.moveFront 4).headPtr, length) (by simp))
        have place : (moveFront { s with memory := memory } 4).headPtr = (s.moveFront 4).headPtr := rfl
        rw [extract_string (stored.trans value), extract_string value, place, rest]
        exact ⟨rfl, rfl⟩

end ValueType

/-! ### Where the pointer goes -/

theorem moveFront_headPtr_min (s : Serializer) (count : Nat) :
    (s.moveFront count).headPtr = s.headPtr + min count s.size := by
  unfold moveFront frontOffset
  rw [if_pos (Int.natCast_nonneg _)]
  dsimp only
  omega

section Ends

variable {s : Serializer} (order : s.headPtr ≤ s.tailPtr) (addresses : s.tailPtr < 2 ^ 64)
include order addresses

theorem size_of_addresses : s.headPtr + s.size = s.tailPtr := by
  have holds := s.holds_bytes order (by omega)
  have tail := holds.tailPtr
  have length : s.bytes.length = s.size := read_length _ _ _
  omega

theorem moveFront_size (count : Nat) : (s.moveFront count).size = s.size - min count s.size := by
  have before := size_of_addresses order addresses
  have place := s.moveFront_headPtr_min count
  have after := size_of_addresses (s := s.moveFront count) (by rw [place, moveFront_tailPtr]; omega) addresses
  rw [place, moveFront_tailPtr] at after
  omega

theorem scalar_staysInside_iff (type : ScalarType) :
    StaysInside (.scalar type) s ↔ type.width ≤ s.size := by
  have total := size_of_addresses order addresses
  have place := s.moveFront_headPtr_min type.width
  have length : (Value.scalar (type.decode (read s.memory s.headPtr type.width))).encode.length =
      type.width := by
    refine (Scalar.encode_length _).trans (congrArg ScalarType.width ?_)
    cases type <;> rfl
  have result : (ValueType.extract (.scalar type) s).2.headPtr = (s.moveFront type.width).headPtr := by
    rw [ValueType.extract_scalar]
  have built : builtFrom (ValueType.extract (.scalar type) s).1 = type.width := by
    rw [ValueType.extract_scalar, builtFrom, length]
  constructor
  · intro stays
    have consumes := stays.consumes
    omega
  · intro long
    refine ⟨?_, by omega, by omega⟩
    intro access member offset inside
    cases List.mem_singleton.mp member
    dsimp only at inside ⊢
    omega

theorem string_staysInside_iff : StaysInside .string s ↔
    4 ≤ s.size ∧ 0 ≤ s.lengthPrefix ∧ s.lengthPrefix ≤ (s.size : Int) - 4 := by
  have total := size_of_addresses order addresses
  have place : (s.moveFront 4).headPtr = s.headPtr + min 4 s.size := s.moveFront_headPtr_min 4
  have left : (s.moveFront 4).size = s.size - min 4 s.size := moveFront_size order addresses 4
  by_cases positive : 0 ≤ s.lengthPrefix
  case neg =>
    have negative := Int.not_le.mp positive
    refine iff_of_false ?_ fun long => positive long.2.1
    intro stays
    have reads := stays.reads
    have consumes := stays.consumes
    rw [ValueType.accesses_negative negative] at reads
    rw [ValueType.extract_negative negative, builtFrom] at consumes
    have last := reads _ (List.mem_singleton_self _) 3 (Nat.lt_succ_self 3)
    dsimp only at last consumes
    omega
  case pos =>
    rcases Int.eq_ofNat_of_zero_le positive with ⟨length, value⟩
    have final := (s.moveFront 4).moveFront_headPtr_min length
    have result : (ValueType.extract .string s).2.headPtr = ((s.moveFront 4).moveFront length).headPtr := by
      rw [ValueType.extract_string value]
    have built : builtFrom (ValueType.extract .string s).1 = 4 + length := by
      rw [ValueType.extract_string value]
      simp [builtFrom, Value.encode, Value.insertion, Insertion.encode]
    rw [value]
    constructor
    · intro stays
      have consumes := stays.consumes
      omega
    · rintro ⟨prefixed, -, long⟩
      refine ⟨?_, by omega, by omega⟩
      intro access member offset inside
      rw [ValueType.accesses_string value] at member
      rcases List.mem_cons.mp member with rfl | member
      · dsimp only at inside ⊢
        omega
      · cases List.mem_singleton.mp member
        dsimp only at inside ⊢
        omega

/-- An operator with enough content is decided by the content alone.  Whatever a previous user
of the buffer left in front of `headPtr` and from `tailPtr` on, the value and the place of
`headPtr` afterwards are the same. -/
theorem LongEnough.extract_content {type : ValueType} (long : LongEnough type s) (memory : Bytes)
    (same : forall address, s.headPtr ≤ address -> address < s.tailPtr -> memory address = s.memory address) :
    (type.extract { s with memory := memory }).1 = (type.extract s).1 ∧
      (type.extract { s with memory := memory }).2.headPtr = (type.extract s).2.headPtr := by
  have stays : StaysInside type s := by
    cases type with
    | scalar type => exact (scalar_staysInside_iff order addresses type).mpr long
    | string => exact (string_staysInside_iff order addresses).mpr long
  apply type.extract_congr
  intro access member offset inside
  have within := stays.reads access member offset inside
  exact same _ within.1 within.2

end Ends

/-- An operator reads only content and consumes exactly what it reads just when the content is
long enough for its type, and for a string for the length stored in front of it, which must not
be negative.  No operator tests this before it copies, so that the rest of the block is read as
well. -/
theorem extract_staysInside_iff (type : ValueType) (s : Serializer) (order : s.headPtr ≤ s.tailPtr)
    (addresses : s.tailPtr < 2 ^ 64) : StaysInside type s ↔ LongEnough type s := by
  cases type with
  | scalar type => exact scalar_staysInside_iff order addresses type
  | string => exact string_staysInside_iff order addresses

theorem extract_staysInside_threeBytes :
    StaysInside (.scalar .short) threeBytesWaiting ↔ LongEnough (.scalar .short) threeBytesWaiting :=
  extract_staysInside_iff (.scalar .short) threeBytesWaiting (by decide) (by decide)

/-- An `int` is read from three bytes of content and the byte behind them. -/
theorem intFromThreeBytes_overreads : ¬ StaysInside (.scalar .int) threeBytesWaiting := by
  intro stays
  have long : (4 : Nat) ≤ 3 := (scalar_staysInside_iff (by decide) (by decide) .int).mp stays
  exact absurd long (by decide)

end Serializer
end Buffers
end LoginServer
