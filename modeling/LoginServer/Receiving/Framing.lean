import LoginServer.Buffers.Growth
import LoginServer.Buffers.RoundTrip
import LoginServer.Receiving.Packet

namespace LoginServer
namespace Receiving

open Memory Buffers Serializer

/-!
# Frames written value by value

A packet starts with room for its header in front of both pointers, takes its
values through `<<`, and gets its header from `setHeader`, which assumes the
payload at `bufferPtr + 5`.  The first growth gives this up: the new block has
no room for a header, and `tailPtr` is not in it.  So the frame is right exactly
as long as nothing grows and the length fits a `short`.
-/

/-- The values written one after the other. -/
def writeAll (allocate : Nat -> Nat) (fuel : Nat) : List Scalar -> Serializer -> Option Serializer
  | [], s => some s
  | value :: values, s => (value.insert allocate fuel s).bind (writeAll allocate fuel values)

def payloadOf (values : List Scalar) : List Byte := (values.map Scalar.encode).flatten

/-- The bytes `[headPtr, tailPtr)`, inside the packet's buffer, are a header that
describes the payload, followed by the payload. -/
structure Framed (key : Byte) (payload : List Byte) (s : Serializer) : Prop where
  inside : s.tailPtr ≤ s.bufferPtr + s.bufferSize
  extent : s.tailPtr = s.headPtr + (headerSize + payload.length)
  frame : Exists fun header : NetworkHeader =>
    (header.code = 0x77 ∧ header.sizeField = payload.length ∧ header.randKey = key ∧
      header.checkSum = sumBytes payload) ∧
    read s.memory s.headPtr (headerSize + payload.length) = header.toBytes ++ payload

/-- A fresh packet that takes the values, one after another and growing where it has to, and
then its header, is a frame of them: header and payload are where `headPtr` and `tailPtr` say.
-/
def FramesWell (allocate : Nat -> Nat) (key : Byte) (values : List Scalar) (p : PooledSerializer) :
    Prop :=
  Exists fun fuel => Exists fun final =>
    writeAll allocate fuel values (prepare p) = some final ∧
      Framed key (payloadOf values) (final.setHeader key)

@[simp] theorem payloadOf_cons (value : Scalar) (values : List Scalar) :
    payloadOf (value :: values) = value.encode ++ payloadOf values := rfl

/-! ## Without growth -/

theorem writeAll_eq_foldl (allocate : Nat -> Nat) (fuel : Nat) (values : List Scalar) {s : Serializer}
    (room : s.Room (payloadOf values).length) :
    writeAll allocate fuel values s = some ((values.map Scalar.encode).foldl Serializer.append s) := by
  induction values generalizing s with
  | nil => rfl
  | cons value values inductionHypothesis =>
      rw [payloadOf_cons, List.length_append] at room
      rw [writeAll, value.insert_eq, room.insert_eq, Option.bind_some,
        inductionHypothesis room.append, List.map_cons, List.foldl_cons]

/-- The room a fresh packet leaves for its payload. -/
theorem prepare_useableSize (p : PooledSerializer) :
    (prepare p).useableSize = p.serializer.bufferSize - headerSize := by
  rw [(prepare_wellFormed p).useableSize_eq, prepare_bufferPtr, prepare_bufferSize, prepare_tailPtr]
  omega

theorem framed_setHeader (key : Byte) {s : Serializer} {payload : List Byte} (ordered : s.WellFormed)
    (behind : s.headPtr = s.bufferPtr + headerSize) (content : s.bytes = payload)
    (short : payload.length ≤ 32767) : Framed key payload (s.setHeader key) := by
  have order := ordered.head_le_tail
  have length : payload.length = s.tailPtr - s.headPtr := by
    rw [← content, bytes, read_length, ordered.size_eq]
  have ends : s.tailPtr = s.bufferPtr + headerSize + payload.length := by omega
  have moved := (ordered.store s.bufferPtr (NetworkHeader.toBytes
    { code := 0x77, size := BitVec.ofInt 16 s.payloadSize, randKey := key,
      checkSum := sumBytes s.payload })).moveFront_headPtr (-headerSize)
  have head : (s.setHeader key).headPtr = s.bufferPtr := by
    simp only [store_bufferPtr, store_headPtr, store_tailPtr] at moved
    unfold setHeader
    dsimp only
    unfold headerSize at *
    omega
  have tail : (s.setHeader key).tailPtr = s.tailPtr := rfl
  have there : read s.memory (s.bufferPtr + headerSize) payload.length = payload := by
    rw [← behind, length, ← ordered.size_eq]
    exact content
  have memory := setHeader_memory key ends (by omega)
  rw [there] at memory
  refine ⟨?_, ?_, headerOf key payload, ⟨rfl, headerOf_sizeField key payload short, rfl, rfl⟩, ?_⟩
  · exact ordered.tail_le_end
  · rw [tail, head]
    omega
  · have front := read_write s.memory s.bufferPtr (headerOf key payload).toBytes
    rw [toBytes_length] at front
    rw [head, memory, read_add, front,
      read_write_disjoint _ _ _ _ _ (Or.inr (Nat.le_of_eq (by rw [toBytes_length]))), there]

theorem framesWell_of_fits (allocate : Nat -> Nat) (key : Byte) (values : List Scalar)
    (p : PooledSerializer) (fits : headerSize + (payloadOf values).length ≤ p.serializer.bufferSize)
    (short : (payloadOf values).length ≤ 32767) : FramesWell allocate key values p := by
  have room : (prepare p).Room (payloadOf values).length :=
    ⟨prepare_wellFormed p, by rw [prepare_useableSize]; omega⟩
  rcases Room.foldl_append_headPtr (values.map Scalar.encode) (prepare p) with ⟨head, buffer⟩
  have empty : (prepare p).bytes = [] := by
    rw [bytes, (prepare_wellFormed p).size_eq, prepare_tailPtr, prepare_headPtr, Nat.sub_self,
      read_zero]
  refine ⟨0, _, writeAll_eq_foldl allocate 0 values room, framed_setHeader key ?_ ?_ ?_ short⟩
  · exact Room.foldl_append_wellFormed room
  · rw [head, buffer, prepare_headPtr, prepare_bufferPtr]
  · rw [Room.foldl_append_bytes room, empty, List.nil_append]
    rfl

/-! ## After a growth -/

/-- The block of a packet that has grown has no room for a header, and what was
written so far does not end at `tailPtr`. -/
structure Displaced (allocate : Nat -> Nat) (written : Nat) (s : Serializer) : Prop where
  head : s.headPtr = s.bufferPtr
  allocates : Allocates allocate s
  tail_pos : 0 < s.tailPtr
  tail_le : s.tailPtr ≤ 2 ^ 63 + written
  missed : s.tailPtr = s.headPtr + (headerSize + written) ->
    s.bufferPtr + s.bufferSize < s.tailPtr

/-- The blocks that follow are the same ones, counted from a later block. -/
theorem Layout.allocates {allocate : Nat -> Nat} {s now : Serializer} {index : Nat}
    (allocates : Allocates allocate s) (layout : Layout allocate s index now) :
    Allocates allocate now := by
  have same : forall later, blockAt allocate now later = blockAt allocate s (index + later) := by
    intro later
    cases later with
    | zero => exact layout.buffer
    | succ later =>
        rw [blockAt, layout.capacity, Nat.mul_assoc, ← Nat.pow_add]
        rfl
  have sizes : forall later, now.bufferSize * 2 ^ later = s.bufferSize * 2 ^ (index + later) := by
    intro later
    rw [layout.capacity, Nat.mul_assoc, ← Nat.pow_add]
  refine ⟨?_, ?_, allocates.answers, ?_⟩
  · rw [layout.buffer]
    exact layout.positive
  · rw [layout.buffer, layout.capacity]
    exact layout.inside
  · intro later block
    rw [same, same, sizes, sizes]
    rw [same] at block
    exact allocates.disjoint (index + later) block

/-- A loop that calls `resize` ends with `tailPtr` outside the block or at its beginning. -/
theorem grown_displaced {allocate : Nat -> Nat} {s : Serializer} {count written calls : Nat}
    (addressed : s.Addressed) (allocates : Allocates allocate s) (reach : s.tailPtr ≤ 2 ^ 63 + written)
    (bound : s.tailPtr + count ≤ 2 ^ 64) (positive : 0 < count)
    (enough : count ≤ (grown allocate (calls + 1) s).useableSize)
    (continues : forall index, index < calls + 1 ->
      (grown allocate index s).Continues allocate count) :
    Displaced allocate written (grown allocate (calls + 1) s) := by
  have layout := layout_grown addressed allocates continues (Nat.le_refl _)
  have before := (layout_grown addressed allocates continues (Nat.le_succ calls)).tail_inside
    addressed allocates bound (continues calls (Nat.lt_succ_self _))
  have head := layout.head
  rw [if_neg (Nat.succ_ne_zero _)] at head
  refine ⟨?_, Layout.allocates allocates layout, ?_, ?_, ?_⟩
  · rw [head, layout.buffer]
  · rw [layout.tail]
    exact addressed.tail_pos
  · rw [layout.tail]
    exact reach
  · rw [layout.tail, head, layout.buffer, layout.capacity]
    intro place
    apply Nat.lt_of_not_le
    intro inside
    have behind : blockAt allocate s (calls + 1) < s.tailPtr := by
      unfold headerSize at place
      omega
    rw [layout.useableSize_eq inside (Nat.le_of_lt behind)] at enough
    rcases disjoint_at_end allocates (Nat.ne_of_gt layout.positive) before
      ⟨Nat.le_of_lt behind, inside⟩ with first | last <;> omega

/-- Values that fit leave a displaced packet displaced. -/
theorem Displaced.append {allocate : Nat -> Nat} {written : Nat} {s : Serializer}
    (displaced : Displaced allocate written s) (data : List Byte)
    (room : data.length ≤ s.useableSize) :
    Displaced allocate (written + data.length) (s.append data) := by
  have tail := s.append_tailPtr_fits data room
  have := displaced.tail_pos
  have := displaced.tail_le
  refine ⟨displaced.head, ?_, by omega, by omega, ?_⟩
  · rcases displaced.allocates with ⟨placed, inside, answers, disjoint⟩
    exact ⟨placed, inside, answers, disjoint⟩
  · rw [tail, append_headPtr, append_bufferPtr, append_bufferSize]
    intro place
    have := displaced.missed (by omega)
    omega

/-- A value that does not fit displaces the packet. -/
theorem insert_displaced {allocate : Nat -> Nat} {fuel written : Nat} {s final : Serializer}
    {value : Scalar} (addressed : s.Addressed) (allocates : Allocates allocate s)
    (reach : s.tailPtr ≤ 2 ^ 63 + written) (small : written ≤ 32767)
    (already : value.encode.length ≤ s.useableSize -> Displaced allocate written s)
    (result : value.insert allocate fuel s = some final) :
    Displaced allocate (written + value.encode.length) final := by
  have length := value.encode_length_le
  have positive := value.encode_length_pos
  rw [value.insert_eq, Serializer.insert, Option.map_eq_some_iff] at result
  rcases result with ⟨now, reserved, finished⟩
  rcases (reserve_eq_some_iff _ _ _ _ _).mp reserved with ⟨calls, -, same, enough, continues⟩
  have displaced : Displaced allocate written now := by
    cases calls with
    | zero => exact same ▸ already enough
    | succ calls =>
        exact same ▸ grown_displaced addressed allocates reach (by omega) positive enough continues
  rw [← same] at enough
  exact finished ▸ displaced.append value.encode enough

theorem Displaced.addressed {allocate : Nat -> Nat} {written : Nat} {s : Serializer}
    (displaced : Displaced allocate written s) (small : written ≤ 32767) : s.Addressed := by
  have := displaced.tail_le
  refine ⟨Nat.le_of_eq displaced.head.symm, ?_, displaced.tail_pos, by omega⟩
  rw [displaced.head]
  exact Nat.le_add_right _ _

/-- Nothing written later repairs a displaced packet. -/
theorem Displaced.writeAll {allocate : Nat -> Nat} {fuel written : Nat} {s final : Serializer}
    {values : List Scalar} (displaced : Displaced allocate written s)
    (small : written + (payloadOf values).length ≤ 32767)
    (result : writeAll allocate fuel values s = some final) :
    Displaced allocate (written + (payloadOf values).length) final := by
  induction values generalizing written s with
  | nil =>
      cases result
      exact displaced
  | cons value values inductionHypothesis =>
      rw [payloadOf_cons, List.length_append] at small ⊢
      rw [Receiving.writeAll, Option.bind_eq_some_iff] at result
      rcases result with ⟨next, first, rest⟩
      have step := insert_displaced (displaced.addressed (by omega)) displaced.allocates
        displaced.tail_le (by omega) (fun _ => displaced) first
      have run := inductionHypothesis step (by omega) rest
      rw [← Nat.add_assoc]
      exact run

/-- A payload that does not fit displaces the packet. -/
theorem writeAll_displaced {allocate : Nat -> Nat} {fuel written : Nat} {s final : Serializer}
    {values : List Scalar} (ordered : s.WellFormed) (allocates : Allocates allocate s)
    (beyond : s.useableSize < (payloadOf values).length)
    (small : written + (payloadOf values).length ≤ 32767)
    (result : writeAll allocate fuel values s = some final) :
    Displaced allocate (written + (payloadOf values).length) final := by
  have tailLe := ordered.tail_le_end
  have inside := allocates.inside
  induction values generalizing written s with
  | nil => exact absurd beyond (Nat.not_lt_zero _)
  | cons value values inductionHypothesis =>
      rw [payloadOf_cons, List.length_append] at small beyond ⊢
      rw [writeAll, Option.bind_eq_some_iff] at result
      rcases result with ⟨next, first, rest⟩
      rw [← Nat.add_assoc]
      by_cases room : value.encode.length ≤ s.useableSize
      · rw [value.insert_eq, Serializer.insert_eq allocate fuel s _ room] at first
        cases first
        have later : Allocates allocate (s.append value.encode) := by
          rcases allocates with ⟨placed, inside, answers, disjoint⟩
          exact ⟨placed, inside, answers, disjoint⟩
        have free := ordered.append_useableSize value.encode room
        exact inductionHypothesis (ordered.append _) later (by omega) (by omega) rest
          (ordered.append _).tail_le_end later.inside
      · have step : Displaced allocate (written + value.encode.length) next :=
          insert_displaced (ordered.addressed allocates) allocates (by omega) (by omega)
            (fun fits => absurd fits room) first
        exact step.writeAll (by omega) rest

theorem fits_of_framesWell {allocate : Nat -> Nat} {key : Byte} {values : List Scalar}
    {p : PooledSerializer} (allocates : Allocates allocate p.serializer)
    (framed : FramesWell allocate key values p) :
    headerSize + (payloadOf values).length ≤ p.serializer.bufferSize ∧
      (payloadOf values).length ≤ 32767 := by
  rcases framed with ⟨fuel, final, result, inside, extent, header, ⟨-, size, -, -⟩, -⟩
  have bounds := sizeField_bounds header
  have capacity := p.capacity
  have short : (payloadOf values).length ≤ 32767 := by omega
  refine ⟨?_, short⟩
  apply Nat.le_of_not_lt
  intro beyond
  have prepared : Allocates allocate (prepare p) := by
    rcases allocates with ⟨placed, inside, answers, disjoint⟩
    exact ⟨placed, inside, answers, disjoint⟩
  have displaced : Displaced allocate (0 + (payloadOf values).length) final :=
    writeAll_displaced (prepare_wellFormed p) prepared
      (by rw [prepare_useableSize]; unfold headerSize at *; omega) (by omega) result
  have head : (final.setHeader key).headPtr = final.headPtr := by
    have start := displaced.head
    unfold setHeader Serializer.moveFront frontOffset headerSize
    simp only [store_bufferPtr, store_headPtr]
    rw [if_neg (by decide)]
    omega
  have tail : (final.setHeader key).tailPtr = final.tailPtr := rfl
  rw [head, tail] at extent
  have outside := displaced.missed (by omega)
  exact absurd inside (Nat.not_le_of_lt outside)

/-- A fresh packet frames its values exactly when they fit the buffer it has, behind the header,
and their length fits the header's `short`. The values are any, of any types and in any number,
and the buffer may grow on the way. -/
theorem framesWell_iff (allocate : Nat -> Nat) (key : Byte) (values : List Scalar)
    (p : PooledSerializer) (allocates : Allocates allocate p.serializer) :
    FramesWell allocate key values p ↔
      headerSize + (payloadOf values).length ≤ p.serializer.bufferSize ∧
        (payloadOf values).length ≤ 32767 :=
  ⟨fits_of_framesWell allocates, fun fits => framesWell_of_fits allocate key values p fits.1 fits.2⟩

/-- Two values in a serializer that has never grown. -/
theorem framesWell_iff_twoValues :
    FramesWell upwards 9 [.unsignedShort 102, .char 1] freshSerializer ↔
      headerSize + (payloadOf [.unsignedShort 102, .char 1]).length ≤ 1024 ∧
        (payloadOf [.unsignedShort 102, .char 1]).length ≤ 32767 :=
  framesWell_iff upwards 9 [.unsignedShort 102, .char 1] freshSerializer
    (upwards_allocates (by decide) (by decide))

/-- 128 values of eight bytes each need 1029 bytes of the 1024. -/
theorem longPacket_misframed : ¬ forall (allocate : Nat -> Nat) (key : Byte) (values : List Scalar),
    Allocates allocate freshSerializer.serializer ->
      FramesWell allocate key values freshSerializer := by
  intro frames
  have allocates : Allocates upwards freshSerializer.serializer :=
    upwards_allocates (by decide) (by decide)
  have fits := fits_of_framesWell allocates
    (frames upwards 9 (List.replicate 128 (.unsignedLongLong 0)) allocates)
  exact absurd fits.1 (by decide +kernel)

end Receiving
end LoginServer
