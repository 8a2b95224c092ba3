import LoginServer.Buffers.Extraction

namespace LoginServer
namespace Buffers
namespace Serializer

open Memory

/-!
# Strings of fixed length

`setString` passes the remaining room as the limit of its copy and `getString`
the whole remaining size as the count.  A field is written with no room made for
it, and read into its place only if it is the last one.

A round trip has to succeed whatever the places held before.
-/

/-- `setString`, on the `len` bytes of the string. -/
def setString (string : List Byte) (s : Serializer) : Serializer :=
  (s.memcpyS s.tailPtr s.useableSize string).moveRear (toInt32 string.length)

/-- `memcpy_s` out of the serializer: the whole content or zeros. -/
def copyOut (s : Serializer) (destination : List Byte) : List Byte :=
  if s.size ≤ destination.length then read s.memory s.headPtr s.size ++ destination.drop s.size
  else List.replicate destination.length 0

/-- `getString`, with what was in the destination before. -/
def getString (destination : List Byte) (s : Serializer) : List Byte × Serializer :=
  (s.copyOut destination, s.moveFront (toInt32 destination.length))

/-- `getWstring`, on the `2 * len` bytes of the wide string. -/
def getWstring (destination : List Byte) (s : Serializer) : List Byte × Serializer :=
  (s.copyOut destination, s.moveFront (toInt32 destination.length))

inductive FieldKind where
  | string
  | wideString

/-- A string as the bytes it has in memory. -/
structure Field where
  kind : FieldKind
  bytes : List Byte

/-- Lengths are positive values of type `int`. -/
def Field.Legal (field : Field) : Prop :=
  match field.kind with
  | .string => 0 < field.bytes.length ∧ field.bytes.length < 2 ^ 31
  | .wideString => Exists fun len => 0 < len ∧ len < 2 ^ 31 ∧ field.bytes.length = 2 * len

def Field.set (field : Field) : Serializer -> Serializer :=
  match field.kind with
  | .string => setString field.bytes
  | .wideString => setWstring field.bytes

def FieldKind.get : FieldKind -> List Byte -> Serializer -> List Byte × Serializer
  | .string => getString
  | .wideString => getWstring

def setFields : List Field -> Serializer -> Serializer
  | [], s => s
  | field :: rest, s => setFields rest (field.set s)

/-- Read fields of some kinds into some destinations. -/
def getFields : List (FieldKind × List Byte) -> Serializer -> List (List Byte) × Serializer
  | [], s => ([], s)
  | (kind, destination) :: rest, s =>
      let (string, s) := kind.get destination s
      let (strings, s) := getFields rest s
      (string :: strings, s)

/-- The fields come back in order, into whatever was there, and nothing is left. -/
def RoundTrips (s : Serializer) (fields : List Field) : Prop :=
  forall places : List (FieldKind × List Byte),
    places.map (fun place => place.1) = fields.map (fun field => field.kind) ->
    places.map (fun place => place.2.length) = fields.map (fun field => field.bytes.length) ->
    (getFields places (setFields fields s)).1 = fields.map (fun field => field.bytes) ∧
      (getFields places (setFields fields s)).2.size = 0

/-- The bytes of all fields. -/
def fieldBytes (fields : List Field) : List Byte := (fields.map Field.bytes).flatten

@[simp] theorem fieldBytes_nil : fieldBytes [] = [] := rfl

@[simp] theorem fieldBytes_cons (field : Field) (fields : List Field) :
    fieldBytes (field :: fields) = field.bytes ++ fieldBytes fields := rfl

theorem Field.Legal.length_pos {field : Field} (legal : field.Legal) : 0 < field.bytes.length := by
  unfold Legal at legal
  split at legal
  · exact legal.1
  · rcases legal with ⟨len, positive, _, length⟩
    omega

theorem Field.set_eq (field : Field) (s : Serializer) :
    field.set s = (s.memcpyS s.tailPtr s.useableSize field.bytes).moveRear (toInt32 field.bytes.length) := by
  rcases field with ⟨kind, bytes⟩
  cases kind <;> rfl

theorem FieldKind.get_eq (kind : FieldKind) (destination : List Byte) (s : Serializer) :
    kind.get destination s = (s.copyOut destination, s.moveFront (toInt32 destination.length)) := by
  cases kind <;> rfl

/-! ## When it works -/

theorem Holds.set {s : Serializer} {content : List Byte} (holds : s.Holds content) {field : Field}
    (narrow : field.bytes.length < 2 ^ 31) (room : field.bytes.length ≤ s.useableSize)
    (small : content.length + field.bytes.length < 2 ^ 64) :
    (field.set s).Holds (content ++ field.bytes) ∧
      (field.set s).useableSize = s.useableSize - field.bytes.length := by
  have appended : field.set s = s.append field.bytes := by
    rw [field.set_eq, memcpyS, if_pos room, toInt32_small narrow]
    rfl
  rw [appended]
  exact ⟨holds.append room small, s.append_useableSize_fits field.bytes room⟩

theorem Holds.setFields {s : Serializer} {content : List Byte} (holds : s.Holds content)
    (fields : List Field) (narrow : forall field, field ∈ fields -> field.bytes.length < 2 ^ 31)
    (room : (fieldBytes fields).length ≤ s.useableSize)
    (small : content.length + (fieldBytes fields).length < 2 ^ 64) :
    (setFields fields s).Holds (content ++ fieldBytes fields) := by
  induction fields generalizing s content with
  | nil => simpa [Serializer.setFields] using holds
  | cons field rest inductionHypothesis =>
      rw [fieldBytes_cons, List.length_append] at room small
      have first := holds.set (narrow field (List.mem_cons_self ..)) (by omega) (by omega)
      rw [fieldBytes_cons, ← List.append_assoc]
      apply inductionHypothesis first.1 fun other member => narrow other (.tail _ member)
      · rw [first.2]
        omega
      · rw [List.length_append]
        omega

def AllZero (bytes : List Byte) : Prop := bytes = List.replicate bytes.length 0

/-- A field with nothing behind it is read whole, and one of zeros anyway. -/
theorem Holds.copyOut {s : Serializer} {field : List Byte} (rest : List Byte) (holds : s.Holds (field ++ rest))
    (readable : rest = [] ∨ AllZero field) {destination : List Byte}
    (length : destination.length = field.length) : s.copyOut destination = field := by
  have extent := holds.size_eq
  unfold Serializer.copyOut
  rw [List.length_append] at extent
  by_cases last : rest = []
  · subst last
    have whole : s.size = destination.length := by simpa [length] using extent
    have bytes := holds.bytes
    rw [List.append_nil] at bytes
    rw [if_pos (Nat.le_of_eq whole), whole, List.drop_length, List.append_nil, length, bytes]
  · have longer : 0 < rest.length := List.length_pos_iff.mpr last
    rw [if_neg (by omega), length]
    exact (readable.resolve_left last).symm

theorem Holds.getFields {s : Serializer} {fields : List Field} (holds : s.Holds (fieldBytes fields))
    (narrow : forall field, field ∈ fields -> field.bytes.length < 2 ^ 31)
    (zeros : forall field, field ∈ fields.dropLast -> AllZero field.bytes)
    (places : List (FieldKind × List Byte))
    (lengths : places.map (fun place => place.2.length) = fields.map (fun field => field.bytes.length)) :
    (getFields places s).1 = fields.map (fun field => field.bytes) ∧ (getFields places s).2.size = 0 := by
  induction fields generalizing s places with
  | nil =>
      cases List.map_eq_nil_iff.mp lengths
      exact ⟨rfl, holds.size_eq⟩
  | cons field rest inductionHypothesis =>
      rcases places with - | ⟨⟨kind, destination⟩, places⟩
      · cases lengths
      have length : destination.length = field.bytes.length := (List.cons.inj lengths).1
      have short := narrow field (List.mem_cons_self ..)
      have readable : fieldBytes rest = [] ∨ AllZero field.bytes := by
        cases rest with
        | nil => exact Or.inl rfl
        | cons next rest => exact Or.inr (zeros field (by simp))
      have later : forall other, other ∈ rest.dropLast -> AllZero other.bytes := by
        intro other member
        cases rest with
        | nil => cases member
        | cons next rest => exact zeros other (by simpa using Or.inr member)
      have moved := holds.moveFront field.bytes.length (by simp)
      rw [fieldBytes_cons, List.drop_left] at moved
      have first : kind.get destination s = (field.bytes, s.moveFront field.bytes.length) := by
        rw [kind.get_eq, Holds.copyOut (fieldBytes rest) holds readable length, length,
          toInt32_small short]
      have remaining := inductionHypothesis moved (fun other member => narrow other (.tail _ member)) later
        places (List.cons.inj lengths).2
      simp only [Serializer.getFields, first, List.map_cons, remaining.1]
      exact ⟨trivial, remaining.2⟩

/-! ## What it takes -/

theorem Field.set_tailPtr (field : Field) (s : Serializer) (narrow : field.bytes.length < 2 ^ 31) :
    (field.set s).tailPtr = s.tailPtr + min field.bytes.length s.useableSize := by
  have stored : (s.memcpyS s.tailPtr s.useableSize field.bytes).useableSize = s.useableSize ∧
      (s.memcpyS s.tailPtr s.useableSize field.bytes).tailPtr = s.tailPtr := by
    unfold memcpyS
    split <;> exact ⟨rfl, rfl⟩
  rw [field.set_eq, toInt32_small narrow]
  unfold moveRear rearOffset
  rw [if_pos (Int.natCast_nonneg _), stored.1]
  dsimp only
  omega

theorem Field.set_bounds (field : Field) (s : Serializer) :
    (field.set s).headPtr = s.headPtr ∧ (field.set s).bufferPtr = s.bufferPtr ∧
      (field.set s).bufferSize = s.bufferSize := by
  rw [field.set_eq]
  unfold memcpyS
  split <;> exact ⟨rfl, rfl, rfl⟩

theorem Field.set_useableSize (field : Field) (s : Serializer) (narrow : field.bytes.length < 2 ^ 31) :
    (field.set s).useableSize = s.useableSize - min field.bytes.length s.useableSize := by
  have tail := field.set_tailPtr s narrow
  have bounds := field.set_bounds s
  generalize field.bytes.length = length at tail ⊢
  unfold useableSize sizeT at tail ⊢
  rw [tail, bounds.2.1, bounds.2.2]
  omega

/-- All fields together take what room there is. -/
theorem setFields_pointers (fields : List Field) (s : Serializer)
    (narrow : forall field, field ∈ fields -> field.bytes.length < 2 ^ 31) :
    (setFields fields s).headPtr = s.headPtr ∧
      (setFields fields s).tailPtr = s.tailPtr + min (fieldBytes fields).length s.useableSize := by
  induction fields generalizing s with
  | nil => exact ⟨rfl, by simp [setFields]⟩
  | cons field rest inductionHypothesis =>
      have short := narrow field (List.mem_cons_self ..)
      have later := inductionHypothesis (field.set s) fun other member => narrow other (.tail _ member)
      have tail := field.set_tailPtr s short
      have free := field.set_useableSize s short
      have head := (field.set_bounds s).1
      rw [fieldBytes_cons, List.length_append, setFields]
      omega

/-- Places that hold the wrong bytes everywhere. -/
def spoiled (bytes : List Byte) : List Byte := bytes.map fun byte => byte + 1

def spoiledPlaces (fields : List Field) : List (FieldKind × List Byte) :=
  fields.map fun field => (field.kind, spoiled field.bytes)

/-- A place that is right afterwards has been overwritten to its end. -/
theorem copyOut_spoiled {s : Serializer} {bytes : List Byte} (right : s.copyOut (spoiled bytes) = bytes) :
    bytes.length ≤ s.size ∧ (bytes.length < s.size -> AllZero bytes) := by
  have length : (spoiled bytes).length = bytes.length := List.length_map _
  unfold copyOut at right
  rw [length] at right
  constructor
  · by_contra short
    have inside : s.size < bytes.length := Nat.not_le.mp short
    rw [if_pos (Nat.le_of_lt inside)] at right
    have entry := congrArg (fun list => list[s.size]?) right
    have front : (read s.memory s.headPtr s.size).length = s.size := read_length _ _ _
    rw [List.getElem?_append_right (Nat.le_of_eq front), front, Nat.sub_self, List.getElem?_drop,
      Nat.add_zero, List.getElem?_eq_getElem inside, List.getElem?_eq_getElem (by rwa [length])] at entry
    have changed : bytes[s.size] + 1 = bytes[s.size] := by simpa [spoiled] using Option.some.inj entry
    bv_omega
  · intro longer
    rw [if_neg (Nat.not_le.mpr longer)] at right
    exact right.symm

theorem getFields_spoiled {s : Serializer} {content : List Byte} (holds : s.Holds content)
    (fields : List Field) (positive : forall field, field ∈ fields -> 0 < field.bytes.length)
    (narrow : forall field, field ∈ fields -> field.bytes.length < 2 ^ 31)
    (right : (getFields (spoiledPlaces fields) s).1 = fields.map (fun field => field.bytes)) :
    (fieldBytes fields).length ≤ content.length ∧
      forall field, field ∈ fields.dropLast -> AllZero field.bytes := by
  induction fields generalizing s content with
  | nil => exact ⟨Nat.zero_le _, by simp⟩
  | cons field rest inductionHypothesis =>
      have short := narrow field (List.mem_cons_self ..)
      have length : (spoiled field.bytes).length = field.bytes.length := List.length_map _
      have taken : field.kind.get (spoiled field.bytes) s =
          (s.copyOut (spoiled field.bytes), s.moveFront field.bytes.length) := by
        rw [field.kind.get_eq, length, toInt32_small short]
      simp only [spoiledPlaces, List.map_cons, getFields, taken] at right
      rcases List.cons.inj right with ⟨first, later⟩
      have overwritten := copyOut_spoiled first
      rw [holds.size_eq] at overwritten
      have remaining := inductionHypothesis (holds.moveFront _ overwritten.1)
        (fun other member => positive other (.tail _ member))
        (fun other member => narrow other (.tail _ member)) later
      rw [List.length_drop] at remaining
      rw [fieldBytes_cons, List.length_append]
      refine ⟨by omega, ?_⟩
      intro other member
      cases rest with
      | nil => cases member
      | cons next rest =>
          rcases List.mem_cons.mp member with rfl | member
          · apply overwritten.2
            have behind := positive next (by simp)
            rw [fieldBytes_cons, List.length_append] at remaining
            omega
          · exact remaining.2 other member

/-- A field that comes back fits in the allocation, whatever its length. -/
theorem WellFormed.getFields_spoiled {s : Serializer} (ordered : s.WellFormed) (fields : List Field)
    (right : (getFields (spoiledPlaces fields) s).1 = fields.map (fun field => field.bytes)) :
    forall field, field ∈ fields -> field.bytes.length ≤ s.bufferSize := by
  induction fields generalizing s with
  | nil => simp
  | cons field rest inductionHypothesis =>
      simp only [spoiledPlaces, List.map_cons, Serializer.getFields, field.kind.get_eq] at right
      rcases List.cons.inj right with ⟨first, later⟩
      intro other member
      rcases List.mem_cons.mp member with rfl | member
      · have long := (copyOut_spoiled first).1
        have extent := ordered.size_eq
        have := ordered.buffer_le_head
        have := ordered.tail_le_end
        omega
      · exact inductionHypothesis (ordered.moveFront _) later other member

theorem WellFormed.setFields {s : Serializer} (ordered : s.WellFormed) (fields : List Field) :
    (setFields fields s).WellFormed ∧ (setFields fields s).bufferSize = s.bufferSize := by
  induction fields generalizing s with
  | nil => exact ⟨ordered, rfl⟩
  | cons field rest inductionHypothesis =>
      have stored : (s.memcpyS s.tailPtr s.useableSize field.bytes).WellFormed := by
        unfold memcpyS
        split <;> exact ordered.store _ _
      have first : (field.set s).WellFormed := by
        rw [field.set_eq]
        exact stored.moveRear _
      have later := inductionHypothesis first
      exact ⟨later.1, later.2.trans (field.set_bounds s).2.2⟩

/-! ## Exactly when -/

/-- Lengths a narrowing to `int` cannot reach: those of short fields, or of any in
an allocation below 2 GiB. -/
def Sized (s : Serializer) (fields : List Field) : Prop :=
  (forall field, field ∈ fields -> field.bytes.length < 2 ^ 31) ∨ s.WellFormed ∧ s.bufferSize < 2 ^ 31

/-- Short fields that fit into the room there is, all zeros but for the last. -/
structure Survives (s : Serializer) (fields : List Field) : Prop where
  narrow : forall field, field ∈ fields -> field.bytes.length < 2 ^ 31
  room : (fieldBytes fields).length ≤ s.useableSize
  zeros : forall field, field ∈ fields.dropLast -> AllZero field.bytes

theorem spoiledPlaces_lengths (fields : List Field) :
    (spoiledPlaces fields).map (fun place => place.2.length) =
      fields.map (fun field => field.bytes.length) := by
  simp [spoiledPlaces, spoiled]

theorem roundTrips_of_survives {s : Serializer} {fields : List Field} (empty : s.headPtr = s.tailPtr)
    (survives : Survives s fields) : RoundTrips s fields := by
  intro places kinds lengths
  have bound : s.useableSize < 2 ^ 64 := by
    unfold useableSize sizeT
    omega
  have nothing : s.Holds [] := ⟨by simp [empty], rfl, by decide⟩
  have stored := nothing.setFields fields survives.narrow survives.room
    (by simpa using Nat.lt_of_le_of_lt survives.room bound)
  rw [List.nil_append] at stored
  exact stored.getFields survives.narrow survives.zeros places lengths

theorem survives_of_roundTrips {s : Serializer} {fields : List Field} (empty : s.headPtr = s.tailPtr)
    (positive : forall field, field ∈ fields -> 0 < field.bytes.length) (sized : Sized s fields)
    (returns : RoundTrips s fields) : Survives s fields := by
  have right := (returns (spoiledPlaces fields) (by simp [spoiledPlaces]) (spoiledPlaces_lengths fields)).1
  have narrow : forall field, field ∈ fields -> field.bytes.length < 2 ^ 31 := by
    rcases sized with narrow | ⟨ordered, small⟩
    · exact narrow
    · have stored := ordered.setFields fields
      intro field member
      have fits := stored.1.getFields_spoiled fields right field member
      rw [stored.2] at fits
      omega
  have bound : s.useableSize < 2 ^ 64 := by
    unfold useableSize sizeT
    omega
  have pointers := setFields_pointers fields s narrow
  have holds := (setFields fields s).holds_bytes (by omega) (by omega)
  have needs := getFields_spoiled holds fields positive narrow right
  have tail := holds.tailPtr
  exact ⟨narrow, by omega, needs.2⟩

/-- Fields that fit and are zeros up to the last come back, whatever their lengths.  For
fields whose sizes are bounded (`Sized`) this is also necessary; whether others can come
back among wide strings of 2 GiB and more is left open. -/
theorem fixedStrings_roundTrip_iff (s : Serializer) (fields : List Field) (empty : s.headPtr = s.tailPtr)
    (legal : forall field, field ∈ fields -> field.Legal) :
    (Survives s fields -> RoundTrips s fields) ∧
      (Sized s fields -> RoundTrips s fields -> Survives s fields) := by
  constructor
  · exact roundTrips_of_survives empty
  · exact survives_of_roundTrips empty fun field member => (legal field member).length_pos

/-- An empty serializer of 64 bytes. -/
def emptySerializer : Serializer := ⟨fun _ => 7, 4096, 64, 4096, 4096⟩

/-- A zero and then two letters. -/
theorem fixedStrings_roundTrip_twoFields :
    RoundTrips emptySerializer [⟨.string, [0]⟩, ⟨.wideString, [65, 0, 66, 0]⟩] := by
  refine (fixedStrings_roundTrip_iff emptySerializer [⟨.string, [0]⟩, ⟨.wideString, [65, 0, 66, 0]⟩] rfl ?_).1
    ⟨by simp, by decide, by simp [AllZero]⟩
  simp only [List.mem_cons, List.not_mem_nil, or_false, forall_eq_or_imp, forall_eq]
  exact ⟨⟨by decide, by decide⟩, 2, by decide, by decide, rfl⟩

/-- Two one-byte fields: the first is read as a zero. -/
theorem twoFields_lost : ¬ RoundTrips emptySerializer [⟨.string, [65]⟩, ⟨.string, [66]⟩] := by
  intro returns
  have survives := survives_of_roundTrips rfl (by simp) (Or.inl (by simp)) returns
  exact absurd (survives.zeros ⟨.string, [65]⟩ (by simp)) (by simp [AllZero])

end Serializer
end Buffers
end LoginServer
