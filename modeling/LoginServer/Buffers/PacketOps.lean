import LoginServer.Buffers.Bounds
import LoginServer.Buffers.PointerMoves
import LoginServer.Buffers.RoundTrip

namespace LoginServer
namespace Buffers
namespace Serializer

open Memory

/-!
# Working on the same packet at two places

A packet is moved along, written to, read from, sealed and opened.  Each of these
operations is listed here with the memory it copies from and the memory it copies
to.

Two serializers are alike when their pointers stand at the same distances from
the start of their blocks and a set of their bytes is the same.  An operation
that copies from these bytes only answers the same on both, and afterwards the
bytes it has written are the same as well.
-/

/-! ## Operations -/

inductive PacketOp where
  | moveFront (count : BitVec 32)
  | moveRear (count : BitVec 32)
  | insert (op : Insertion)
  | extract (type : ValueType)
  | pop (count : BitVec 64)
  | setHeader (key : Byte)
  | encryption (staticKey : Byte)
  | decryption (staticKey : Byte)

inductive PacketAnswer where
  | displaced (offset : BitVec 32)
  | value (value : Option Value)
  | bytes (data : List Byte)
  | accepted (accepted : Bool)
  | nothing

/-- Intervals of memory, each with its start and its length. -/
abbrev Accesses := List (Nat × Nat)

def Accesses.Cover (accesses : Accesses) (address : Nat) : Prop :=
  Exists fun access => access ∈ accesses ∧ access.1 ≤ address ∧ address < access.1 + access.2

namespace PacketOp

/-- `pop` copies to memory of the caller, so it answers with what it copied. -/
def perform (allocate : Nat -> Nat) : PacketOp -> Serializer -> Option (PacketAnswer × Serializer)
  | .moveFront count, s => some (.displaced (Words.moveFront count s).1, (Words.moveFront count s).2)
  | .moveRear count, s => some (.displaced (Words.moveRear count s).1, (Words.moveRear count s).2)
  | .insert op, s => (op.perform allocate 64 s).map fun s => (.nothing, s)
  | .extract type, s => some (.value (type.extract s).1, (type.extract s).2)
  | .pop count, s => some (.bytes (Words.copied count s), Words.advance count s)
  | .setHeader key, s => some (.nothing, s.setHeader key)
  | .encryption staticKey, s => some (.nothing, s.encryption staticKey)
  | .decryption staticKey, s =>
      some (.accepted (s.decryption staticKey).1, (s.decryption staticKey).2)

/-- The answers to a sequence of operations. -/
def performAll (allocate : Nat -> Nat) : List PacketOp -> Serializer -> Option (List PacketAnswer)
  | [], _ => some []
  | op :: ops, s =>
      match op.perform allocate s with
      | none => none
      | some (answer, s) => (performAll allocate ops s).map (answer :: ·)

/-- What an operation copies from. -/
def reads : PacketOp -> Serializer -> Accesses
  | .moveFront _, _ | .moveRear _, _ | .insert _, _ => []
  | .extract type, s => type.accesses s
  | .pop count, s => [(s.headPtr, (Words.available count s).toNat)]
  | .setHeader _, s => [(s.bufferPtr + headerSize, s.payloadSize.toNat)]
  | .encryption _, s => [(s.bufferPtr, headerSize), (s.checkSumPtr, s.inputSize)]
  | .decryption _, s =>
      [(s.bufferPtr, headerSize), (s.checkSumPtr, s.inputSize),
        (s.bufferPtr + headerSize, s.payloadSize.toNat)]

/-- What an operation copies to. -/
def writes : PacketOp -> Serializer -> Accesses
  | .moveFront _, _ | .moveRear _, _ | .extract _, _ | .pop _, _ => []
  | .insert (.push data), s => [(s.tailPtr, data.length)]
  | .insert (.scalar value), s => [(s.tailPtr, value.encode.length)]
  | .insert (.string data), s =>
      [(s.tailPtr, 4), ((s.append (littleEndianBytes 4 data.length)).tailPtr, data.length)]
  | .setHeader _, s => [(s.bufferPtr, headerSize)]
  | .encryption _, s => [(s.checkSumPtr, s.inputSize)]
  | .decryption _, s => [(s.checkSumPtr, s.inputSize), (s.checkSumPtr, 1)]

/-- There is room for what a `<<` operator asks for, so that it does not grow. -/
def HasRoom : PacketOp -> Serializer -> Prop
  | .insert op, s => op.need ≤ s.useableSize
  | _, _ => True

/-- The operation stays inside the allocation. -/
structure Inside (op : PacketOp) (s : Serializer) : Prop where
  room : op.HasRoom s
  accesses : forall access, access ∈ op.reads s ++ op.writes s ->
    s.bufferPtr ≤ access.1 ∧ access.1 + access.2 ≤ s.bufferPtr + s.bufferSize

/-- Every operation of a sequence stays inside the allocation. -/
def InsideAll (allocate : Nat -> Nat) : List PacketOp -> Serializer -> Prop
  | [], _ => True
  | op :: ops, s => op.Inside s ∧ forall answer next,
      op.perform allocate s = some (answer, next) -> InsideAll allocate ops next

/-- A sequence of operations copies from known bytes only: those known at the
start, and those written since. -/
def ReadsKnown (allocate : Nat -> Nat) : (known : Nat -> Prop) -> List PacketOp -> Serializer -> Prop
  | _, [], _ => True
  | known, op :: ops, s =>
      (forall address, (op.reads s).Cover address -> known address) ∧
        forall answer next, op.perform allocate s = some (answer, next) ->
          ReadsKnown allocate (fun address => known address ∨ (op.writes s).Cover address) ops next

end PacketOp

/-- `encryption` with its loop as one copy. -/
theorem encryption_store (s : Serializer) (staticKey : Byte) :
    s.encryption staticKey = s.store s.checkSumPtr (encryptBytes staticKey s.getPacketHeader.randKey
      0 0 0 (read s.memory s.checkSumPtr s.inputSize)) := by
  unfold encryption
  rw [encryptionLoop_eq, Nat.add_zero]
  rfl

/-- `decryption` with its loop as one copy. -/
theorem decryption_store (s : Serializer) (staticKey : Byte) :
    let plain := s.store s.checkSumPtr (decryptBytes staticKey s.getPacketHeader.randKey 0 0 0
      (read s.memory s.checkSumPtr s.inputSize))
    let rest := plain.getPacketHeader.checkSum - sumBytes plain.payload
    s.decryption staticKey = (rest == 0, plain.store plain.checkSumPtr [rest]) := by
  intro plain rest
  unfold decryption
  rw [decryptionLoop_eq, Nat.add_zero]
  rfl

theorem PacketOp.perform_insert (allocate : Nat -> Nat) (op : Insertion) (s : Serializer)
    (room : op.need ≤ s.useableSize) :
    PacketOp.perform allocate (.insert op) s = some (.nothing, op.finish s) := by
  rw [PacketOp.perform, op.perform_eq, reserve, if_neg (Nat.not_lt.mpr room)]
  rfl

/-- Inside its allocation an operation does not exchange it. -/
theorem PacketOp.perform_allocation {allocate : Nat -> Nat} {op : PacketOp} {s next : Serializer}
    {answer : PacketAnswer} (room : op.HasRoom s)
    (performed : op.perform allocate s = some (answer, next)) :
    next.bufferPtr = s.bufferPtr ∧ next.bufferSize = s.bufferSize := by
  cases op with
  | insert op =>
      rw [perform_insert allocate op s room] at performed
      cases performed
      exact ⟨op.finish_bufferPtr s, op.finish_bufferSize s⟩
  | extract type =>
      cases performed
      cases type with
      | scalar type =>
          rw [ValueType.extract_scalar]
          exact ⟨rfl, rfl⟩
      | string =>
          change (s.extractString).2.bufferPtr = _ ∧ (s.extractString).2.bufferSize = _
          unfold extractString
          dsimp only
          split <;> exact ⟨rfl, rfl⟩
  | _ =>
      cases performed
      exact ⟨rfl, rfl⟩

/-- With the whole allocation known, all that happens inside it is known. -/
theorem PacketOp.readsKnown_of_inside {allocate : Nat -> Nat} {known : Nat -> Prop}
    {ops : List PacketOp} {s : Serializer} (inside : InsideAll allocate ops s)
    (whole : forall address, s.bufferPtr ≤ address -> address < s.bufferPtr + s.bufferSize ->
      known address) : ReadsKnown allocate known ops s := by
  induction ops generalizing known s with
  | nil => exact trivial
  | cons op ops inductionHypothesis =>
      refine ⟨?_, ?_⟩
      · rintro address ⟨access, member, first, last⟩
        have bounds := inside.1.accesses access (List.mem_append_left _ member)
        exact whole address (by omega) (by omega)
      · intro answer next performed
        rcases perform_allocation inside.1.room performed with ⟨samePtr, sameSize⟩
        refine inductionHypothesis (inside.2 answer next performed) ?_
        intro address first last
        rw [samePtr] at first last
        rw [sameSize] at last
        exact Or.inl (whole address first last)

/-! ## Alike -/

/-- The same packet in two blocks.  `known` are addresses of the left one. -/
structure Alike (known : Nat -> Prop) (left right : Serializer) : Prop where
  ordered : left.WellFormed
  ordered' : right.WellFormed
  bufferSize : left.bufferSize = right.bufferSize
  headPtr : left.headPtr + right.bufferPtr = right.headPtr + left.bufferPtr
  tailPtr : left.tailPtr + right.bufferPtr = right.tailPtr + left.bufferPtr
  bytes : forall address address', known address -> left.bufferPtr ≤ address ->
    address + right.bufferPtr = address' + left.bufferPtr ->
      left.memory address = right.memory address'

namespace Alike

variable {known : Nat -> Prop} {left right : Serializer}

theorem mono {more : Nat -> Prop} (alike : Alike more left right)
    (less : forall address, known address -> more address) : Alike known left right where
  ordered := alike.ordered
  ordered' := alike.ordered'
  bufferSize := alike.bufferSize
  headPtr := alike.headPtr
  tailPtr := alike.tailPtr
  bytes address address' member := alike.bytes address address' (less address member)

/-- Known bytes read alike. -/
theorem read (alike : Alike known left right) {address address' count : Nat}
    (inside : left.bufferPtr ≤ address)
    (place : address + right.bufferPtr = address' + left.bufferPtr)
    (member : forall target, address ≤ target -> target < address + count -> known target) :
    Memory.read left.memory address count = Memory.read right.memory address' count := by
  apply (read_eq_iff _ _ _ _ _).mpr
  intro offset bound
  exact alike.bytes _ _ (member _ (by omega) (by omega)) (by omega) (by omega)

/-- The same bytes stored at corresponding places are known from then on. -/
theorem store (alike : Alike known left right) {address address' : Nat} (data : List Byte)
    (place : address + right.bufferPtr = address' + left.bufferPtr) :
    Alike (fun target => known target ∨ (address ≤ target ∧ target < address + data.length))
      (left.store address data) (right.store address' data) where
  ordered := alike.ordered.store address data
  ordered' := alike.ordered'.store address' data
  bufferSize := alike.bufferSize
  headPtr := alike.headPtr
  tailPtr := alike.tailPtr
  bytes target target' member behind corresponds := by
    simp only [store_bufferPtr] at behind corresponds
    change write left.memory address data target = write right.memory address' data target'
    by_cases written : address ≤ target ∧ target < address + data.length
    · have first := write_inside left.memory address data (target - address) (by omega)
      have second := write_inside right.memory address' data (target - address) (by omega)
      have start : address + (target - address) = target := by omega
      have start' : address' + (target - address) = target' := by omega
      rw [start] at first
      rw [start'] at second
      rw [first, second]
    · rw [write_outside _ _ _ _ (by omega), write_outside _ _ _ _ (by omega)]
      exact alike.bytes target target' (member.resolve_right written) behind corresponds

theorem moveFront (alike : Alike known left right) (count : Int) :
    Alike known (left.moveFront count) (right.moveFront count) where
  ordered := alike.ordered.moveFront count
  ordered' := alike.ordered'.moveFront count
  bufferSize := alike.bufferSize
  headPtr := by
    have head := alike.headPtr
    have tail := alike.tailPtr
    have place := alike.ordered.moveFront_headPtr count
    have place' := alike.ordered'.moveFront_headPtr count
    simp only [moveFront_bufferPtr]
    omega
  tailPtr := alike.tailPtr
  bytes := alike.bytes

theorem moveRear (alike : Alike known left right) (count : Int) :
    Alike known (left.moveRear count) (right.moveRear count) where
  ordered := alike.ordered.moveRear count
  ordered' := alike.ordered'.moveRear count
  bufferSize := alike.bufferSize
  headPtr := alike.headPtr
  tailPtr := by
    have head := alike.headPtr
    have tail := alike.tailPtr
    have size := alike.bufferSize
    have place := alike.ordered.moveRear_tailPtr count
    have place' := alike.ordered'.moveRear_tailPtr count
    simp only [moveRear_bufferPtr]
    omega
  bytes := alike.bytes

theorem append (alike : Alike known left right) (data : List Byte) :
    Alike (fun target => known target ∨
        (left.tailPtr ≤ target ∧ target < left.tailPtr + data.length))
      (left.append data) (right.append data) :=
  (alike.store data alike.tailPtr).moveRear _

theorem useableSize (alike : Alike known left right) : left.useableSize = right.useableSize := by
  have tail := alike.tailPtr
  have size := alike.bufferSize
  rw [alike.ordered.useableSize_eq, alike.ordered'.useableSize_eq]
  omega

theorem payloadSize (alike : Alike known left right) : left.payloadSize = right.payloadSize := by
  have tail := alike.tailPtr
  have distance : (left.tailPtr : Int) - left.bufferPtr - headerSize =
      (right.tailPtr : Int) - right.bufferPtr - headerSize := by omega
  rw [Serializer.payloadSize, Serializer.payloadSize, distance]

/-! ### The moves in machine words -/

theorem wordsMoveFront (alike : Alike known left right) (count : BitVec 32) :
    (Words.moveFront count left).1 = (Words.moveFront count right).1 ∧
      Alike known (Words.moveFront count left).2 (Words.moveFront count right).2 := by
  have head := alike.headPtr
  have tail := alike.tailPtr
  constructor
  · apply BitVec.eq_of_toInt_eq
    rw [Words.moveFront_toInt alike.ordered, Words.moveFront_toInt alike.ordered']
    omega
  · rw [Words.moveFront_eq alike.ordered, Words.moveFront_eq alike.ordered']
    exact alike.moveFront count.toInt

theorem wordsMoveRear (alike : Alike known left right) (count : BitVec 32) :
    (Words.moveRear count left).1 = (Words.moveRear count right).1 ∧
      Alike known (Words.moveRear count left).2 (Words.moveRear count right).2 := by
  have head := alike.headPtr
  have tail := alike.tailPtr
  have size := alike.bufferSize
  constructor
  · apply BitVec.eq_of_toInt_eq
    rw [Words.moveRear_toInt alike.ordered, Words.moveRear_toInt alike.ordered']
    omega
  · rw [Words.moveRear_eq alike.ordered, Words.moveRear_eq alike.ordered']
    exact alike.moveRear count.toInt

theorem available (alike : Alike known left right) (count : BitVec 64) :
    Words.available count left = Words.available count right := by
  have head := alike.headPtr
  have tail := alike.tailPtr
  have same : Words.size left = Words.size right := by
    apply BitVec.eq_of_toNat_eq
    rw [Words.size_toNat alike.ordered, Words.size_toNat alike.ordered']
    omega
  rw [Words.available, Words.available, same]

/-! ### One operation -/

theorem tail_inside (alike : Alike known left right) : left.bufferPtr ≤ left.tailPtr :=
  Nat.le_trans alike.ordered.buffer_le_head alike.ordered.head_le_tail

/-- Writing with room: the bytes written are known afterwards. -/
theorem finish (alike : Alike known left right) (op : Insertion) :
    Alike (fun target => known target ∨ Accesses.Cover (PacketOp.writes (.insert op) left) target)
      (op.finish left) (op.finish right) := by
  cases op with
  | push data =>
      refine ((alike.store data alike.tailPtr).moveRear _).mono ?_
      rintro target (old | ⟨access, member, written⟩)
      · exact Or.inl old
      · rw [PacketOp.writes, List.mem_singleton] at member
        subst member
        exact Or.inr written
  | scalar value =>
      refine (alike.append value.encode).mono ?_
      rintro target (old | ⟨access, member, written⟩)
      · exact Or.inl old
      · rw [PacketOp.writes, List.mem_singleton] at member
        subst member
        exact Or.inr written
  | string data =>
      have first := alike.append (littleEndianBytes 4 data.length)
      refine ((first.store data first.tailPtr).moveRear _).mono ?_
      rintro target (old | ⟨access, member, written⟩)
      · exact Or.inl (Or.inl old)
      · rw [PacketOp.writes, List.mem_pair] at member
        rcases member with rfl | rfl
        · rw [littleEndianBytes_length]
          exact Or.inl (Or.inr written)
        · exact Or.inr written

theorem extract (alike : Alike known left right) (type : ValueType)
    (member : forall address, Accesses.Cover (type.accesses left) address -> known address) :
    (type.extract left).1 = (type.extract right).1 ∧
      Alike known (type.extract left).2 (type.extract right).2 := by
  cases type with
  | scalar type =>
      have front : Memory.read left.memory left.headPtr type.width =
          Memory.read right.memory right.headPtr type.width :=
        alike.read alike.ordered.buffer_le_head alike.headPtr fun target first last =>
          member target ⟨_, List.mem_singleton_self _, first, last⟩
      rw [ValueType.extract_scalar, ValueType.extract_scalar, front]
      exact ⟨rfl, alike.moveFront type.width⟩
  | string =>
      have prefixes : forall target, left.headPtr ≤ target -> target < left.headPtr + 4 ->
          known target := by
        intro target first last
        refine member target ⟨(left.headPtr, 4), ?_, first, last⟩
        rw [ValueType.accesses]
        split <;> exact List.mem_cons_self ..
      have stored : left.lengthPrefix = right.lengthPrefix := by
        unfold lengthPrefix
        rw [alike.read alike.ordered.buffer_le_head alike.headPtr prefixes]
      have behind := alike.moveFront 4
      by_cases positive : 0 ≤ left.lengthPrefix
      · rcases Int.eq_ofNat_of_zero_le positive with ⟨length, value⟩
        have data : Memory.read left.memory (left.moveFront 4).headPtr length =
            Memory.read right.memory (right.moveFront 4).headPtr length := by
          refine behind.read behind.ordered.buffer_le_head behind.headPtr ?_
          intro target first last
          refine member target ⟨((left.moveFront 4).headPtr, length), ?_, first, last⟩
          rw [ValueType.accesses_string value]
          simp
        rw [ValueType.extract_string value, ValueType.extract_string (stored.symm.trans value), data]
        exact ⟨rfl, behind.moveFront length⟩
      · have negative := Int.not_le.mp positive
        rw [ValueType.extract_negative negative, ValueType.extract_negative (stored ▸ negative)]
        exact ⟨rfl, behind⟩

theorem pop (alike : Alike known left right) (count : BitVec 64)
    (member : forall address,
      Accesses.Cover (PacketOp.reads (.pop count) left) address -> known address) :
    Words.copied count left = Words.copied count right ∧
      Alike known (Words.advance count left) (Words.advance count right) := by
  have same := alike.available count
  constructor
  · rw [Words.copied, Words.copied, ← same]
    exact alike.read alike.ordered.buffer_le_head alike.headPtr fun target first last =>
      member target ⟨_, List.mem_singleton_self _, first, last⟩
  · rw [Words.advance, Words.advance, same]
    exact (alike.wordsMoveFront _).2

/-- A known payload reads alike. -/
theorem payload (alike : Alike known left right)
    (member : forall target, left.bufferPtr + headerSize ≤ target ->
      target < left.bufferPtr + headerSize + left.payloadSize.toNat -> known target) :
    left.payload = right.payload := by
  rw [Serializer.payload, Serializer.payload, ← alike.payloadSize]
  exact alike.read (Nat.le_add_right _ _) (by omega) member

theorem setHeader (alike : Alike known left right) (key : Byte)
    (member : forall address,
      Accesses.Cover (PacketOp.reads (.setHeader key) left) address -> known address) :
    Alike (fun target => known target ∨
        Accesses.Cover (PacketOp.writes (.setHeader key) left) target)
      (left.setHeader key) (right.setHeader key) := by
  have content : left.payload = right.payload :=
    alike.payload fun target first last => member target ⟨_, List.mem_singleton_self _, first, last⟩
  have start : left.bufferPtr + right.bufferPtr = right.bufferPtr + left.bufferPtr :=
    Nat.add_comm _ _
  unfold Serializer.setHeader
  dsimp only
  rw [← content, ← alike.payloadSize]
  refine ((alike.store _ start).moveFront (-headerSize)).mono ?_
  rintro target (old | ⟨access, written, covered⟩)
  · exact Or.inl old
  · rw [PacketOp.writes, List.mem_singleton] at written
    subst written
    rw [toBytes_length]
    exact Or.inr covered

/-- A known header reads alike. -/
theorem getPacketHeader (alike : Alike known left right)
    (member : forall target, left.bufferPtr ≤ target -> target < left.bufferPtr + headerSize ->
      known target) : left.getPacketHeader = right.getPacketHeader := by
  rw [Serializer.getPacketHeader, Serializer.getPacketHeader,
    alike.read (Nat.le_refl _) (Nat.add_comm _ _) member]

theorem checkSumPtr (_alike : Alike known left right) :
    left.checkSumPtr + right.bufferPtr = right.checkSumPtr + left.bufferPtr := by
  unfold Serializer.checkSumPtr
  omega

/-- What either cipher loop does: it rewrites the bytes from the checksum on by a
function of these bytes and of the key in the header. -/
theorem cipher (alike : Alike known left right) (rewritten : Byte -> List Byte -> List Byte)
    (sameLength : forall key bytes, (rewritten key bytes).length = bytes.length)
    (header : forall target, left.bufferPtr ≤ target -> target < left.bufferPtr + headerSize ->
      known target)
    (input : forall target, left.checkSumPtr ≤ target ->
      target < left.checkSumPtr + left.inputSize -> known target) :
    Alike (fun target => known target ∨
        (left.checkSumPtr ≤ target ∧ target < left.checkSumPtr + left.inputSize))
      (left.store left.checkSumPtr (rewritten left.getPacketHeader.randKey
        (Memory.read left.memory left.checkSumPtr left.inputSize)))
      (right.store right.checkSumPtr (rewritten right.getPacketHeader.randKey
        (Memory.read right.memory right.checkSumPtr right.inputSize))) := by
  have headers := alike.getPacketHeader header
  have sizes : left.inputSize = right.inputSize := by
    rw [Serializer.inputSize, Serializer.inputSize, headers]
  have bytes : Memory.read left.memory left.checkSumPtr left.inputSize =
      Memory.read right.memory right.checkSumPtr right.inputSize := by
    rw [← sizes]
    exact alike.read (Nat.le_add_right _ _) alike.checkSumPtr input
  have stored := alike.store (rewritten left.getPacketHeader.randKey
    (Memory.read left.memory left.checkSumPtr left.inputSize)) alike.checkSumPtr
  rw [sameLength, read_length] at stored
  rw [← headers, ← bytes]
  exact stored

theorem encryption (alike : Alike known left right) (staticKey : Byte)
    (member : forall address,
      Accesses.Cover (PacketOp.reads (.encryption staticKey) left) address -> known address) :
    Alike (fun target => known target ∨
        Accesses.Cover (PacketOp.writes (.encryption staticKey) left) target)
      (left.encryption staticKey) (right.encryption staticKey) := by
  rw [left.encryption_store staticKey, right.encryption_store staticKey]
  refine (alike.cipher (fun key => encryptBytes staticKey key 0 0 0)
    (fun _ bytes => encryptBytes_length _ _ _ _ _ bytes) ?_ ?_).mono ?_
  · intro target first last
    exact member target ⟨(left.bufferPtr, headerSize), by simp [PacketOp.reads], first, last⟩
  · intro target first last
    exact member target ⟨(left.checkSumPtr, left.inputSize), by simp [PacketOp.reads], first, last⟩
  · rintro target (old | ⟨access, written, covered⟩)
    · exact Or.inl old
    · rw [PacketOp.writes, List.mem_singleton] at written
      subst written
      exact Or.inr covered

theorem decryption (alike : Alike known left right) (staticKey : Byte)
    (member : forall address,
      Accesses.Cover (PacketOp.reads (.decryption staticKey) left) address -> known address) :
    (left.decryption staticKey).1 = (right.decryption staticKey).1 ∧
      Alike (fun target => known target ∨
          Accesses.Cover (PacketOp.writes (.decryption staticKey) left) target)
        (left.decryption staticKey).2 (right.decryption staticKey).2 := by
  have header : forall target, left.bufferPtr ≤ target -> target < left.bufferPtr + headerSize ->
      known target := fun target first last =>
    member target ⟨(left.bufferPtr, headerSize), by simp [PacketOp.reads], first, last⟩
  have input : forall target, left.checkSumPtr ≤ target ->
      target < left.checkSumPtr + left.inputSize -> known target := fun target first last =>
    member target ⟨(left.checkSumPtr, left.inputSize), by simp [PacketOp.reads], first, last⟩
  have body : forall target, left.bufferPtr + headerSize ≤ target ->
      target < left.bufferPtr + headerSize + left.payloadSize.toNat -> known target :=
    fun target first last => member target
      ⟨(left.bufferPtr + headerSize, left.payloadSize.toNat), by simp [PacketOp.reads], first, last⟩
  have plain := alike.cipher (fun key => decryptBytes staticKey key 0 0 0)
    (fun _ bytes => decryptBytes_length _ _ _ _ _ bytes) header input
  have headers := plain.getPacketHeader fun target first last => Or.inl (header target first last)
  have payloads := plain.payload fun target first last => Or.inl (body target first last)
  rw [left.decryption_store staticKey, right.decryption_store staticKey, headers, payloads]
  refine ⟨rfl, (plain.store _ plain.checkSumPtr).mono ?_⟩
  rintro target (old | ⟨access, written, covered⟩)
  · exact Or.inl (Or.inl old)
  · rw [PacketOp.writes, List.mem_pair] at written
    rcases written with rfl | rfl
    · exact Or.inl (Or.inr covered)
    · exact Or.inr covered

/-- An operation that stays inside the block and copies from known bytes answers
the same at both places. -/
theorem perform (alike : Alike known left right) (allocate : Nat -> Nat) (op : PacketOp)
    (inside : op.Inside left)
    (member : forall address, (op.reads left).Cover address -> known address) :
    Exists fun answer => Exists fun next => Exists fun next' =>
      op.perform allocate left = some (answer, next) ∧
        op.perform allocate right = some (answer, next') ∧
        Alike (fun target => known target ∨ (op.writes left).Cover target) next next' := by
  have unwritten : forall {next next' : Serializer}, op.writes left = [] -> Alike known next next' ->
      Alike (fun target => known target ∨ (op.writes left).Cover target) next next' := by
    intro next next' none same
    refine same.mono ?_
    rintro target (old | ⟨access, written, _⟩)
    · exact old
    · rw [none] at written
      cases written
  cases op with
  | moveFront count =>
      rcases alike.wordsMoveFront count with ⟨answer, next⟩
      exact ⟨_, _, _, rfl, by rw [PacketOp.perform, answer], unwritten rfl next⟩
  | moveRear count =>
      rcases alike.wordsMoveRear count with ⟨answer, next⟩
      exact ⟨_, _, _, rfl, by rw [PacketOp.perform, answer], unwritten rfl next⟩
  | insert op =>
      have room : op.need ≤ left.useableSize := inside.room
      have room' : op.need ≤ right.useableSize := by rwa [← alike.useableSize]
      exact ⟨_, _, _, PacketOp.perform_insert allocate op left room,
        PacketOp.perform_insert allocate op right room', alike.finish op⟩
  | extract type =>
      rcases alike.extract type member with ⟨answer, next⟩
      exact ⟨_, _, _, rfl, by rw [PacketOp.perform, answer], unwritten rfl next⟩
  | pop count =>
      rcases alike.pop count member with ⟨answer, next⟩
      exact ⟨_, _, _, rfl, by rw [PacketOp.perform, answer], unwritten rfl next⟩
  | setHeader key => exact ⟨_, _, _, rfl, rfl, alike.setHeader key member⟩
  | encryption staticKey => exact ⟨_, _, _, rfl, rfl, alike.encryption staticKey member⟩
  | decryption staticKey =>
      rcases alike.decryption staticKey member with ⟨answer, next⟩
      exact ⟨_, _, _, rfl, by rw [PacketOp.perform, answer], next⟩

/-- A sequence of such operations answers the same at both places. -/
theorem performAll (alike : Alike known left right) (allocate : Nat -> Nat) (ops : List PacketOp)
    (inside : PacketOp.InsideAll allocate ops left)
    (reads : PacketOp.ReadsKnown allocate known ops left) :
    PacketOp.performAll allocate ops right = PacketOp.performAll allocate ops left := by
  induction ops generalizing known left right with
  | nil => rfl
  | cons op ops inductionHypothesis =>
      rcases alike.perform allocate op inside.1 reads.1 with
        ⟨answer, next, next', first, first', alikeNext⟩
      have rest := inductionHypothesis alikeNext (inside.2 answer next first) (reads.2 answer next first)
      simp only [PacketOp.performAll, first, first', rest]

end Alike

end Serializer
end Buffers
end LoginServer
