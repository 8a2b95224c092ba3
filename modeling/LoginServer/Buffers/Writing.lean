import LoginServer.Buffers.Serializer

namespace LoginServer
namespace Buffers
namespace Serializer

open Memory

/-!
# Writing with room to spare

As long as the new bytes fit behind `tailPtr`, every way of writing to a
serializer (the `<<` operators, `setString`, `setWstring`) does the same:
it appends the bytes to the content.
-/

/-- Copy bytes to `tailPtr` and advance it. -/
def append (s : Serializer) (data : List Byte) : Serializer :=
  (s.store s.tailPtr data).moveRear data.length

@[simp] theorem append_bufferPtr (s : Serializer) (data : List Byte) :
    (s.append data).bufferPtr = s.bufferPtr := rfl

@[simp] theorem append_headPtr (s : Serializer) (data : List Byte) :
    (s.append data).headPtr = s.headPtr := rfl

@[simp] theorem append_bufferSize (s : Serializer) (data : List Byte) :
    (s.append data).bufferSize = s.bufferSize := rfl

theorem insert_eq (allocate : Nat -> Nat) (fuel : Nat) (s : Serializer) (data : List Byte)
    (room : data.length ≤ s.useableSize) : s.insert allocate fuel data = some (s.append data) := by
  have enough : ¬ s.useableSize < data.length := Nat.not_lt.mpr room
  cases fuel <;> simp only [insert, reserve, if_neg enough, Option.map_some, append]

theorem setWstring_eq (s : Serializer) (wide : List Byte) (narrow : wide.length < 2 ^ 31)
    (room : wide.length ≤ s.useableSize) : s.setWstring wide = s.append wide := by
  simp only [setWstring, memcpyS, if_pos room, toInt32_small narrow, append]

namespace WellFormed

variable {s : Serializer}

theorem append (ordered : s.WellFormed) (data : List Byte) : (s.append data).WellFormed :=
  (ordered.store _ _).moveRear _

theorem append_tailPtr (ordered : s.WellFormed) (data : List Byte)
    (room : data.length ≤ s.useableSize) : (s.append data).tailPtr = s.tailPtr + data.length := by
  have place := (ordered.store s.tailPtr data).moveRear_tailPtr data.length
  have free := ordered.useableSize_eq
  have := ordered.head_le_tail
  have := ordered.tail_le_end
  simp only [store_tailPtr, store_headPtr, store_bufferPtr, store_bufferSize] at place
  unfold Serializer.append
  omega

theorem append_useableSize (ordered : s.WellFormed) (data : List Byte)
    (room : data.length ≤ s.useableSize) :
    (s.append data).useableSize = s.useableSize - data.length := by
  have moved := ordered.append_tailPtr data room
  rw [(ordered.append data).useableSize_eq, ordered.useableSize_eq, moved, append_bufferPtr,
    append_bufferSize]
  omega

/-- The content grows by exactly the bytes written. -/
theorem append_bytes (ordered : s.WellFormed) (data : List Byte)
    (room : data.length ≤ s.useableSize) : (s.append data).bytes = s.bytes ++ data := by
  have moved := ordered.append_tailPtr data room
  have order := ordered.head_le_tail
  have extent : (s.append data).size = s.size + data.length := by
    rw [(ordered.append data).size_eq, ordered.size_eq, moved, append_headPtr]
    omega
  have tail : s.headPtr + s.size = s.tailPtr := by
    rw [ordered.size_eq]
    omega
  have memory : (s.append data).memory = write s.memory s.tailPtr data := rfl
  rw [bytes, extent, append_headPtr, memory, read_add, tail, read_write,
    read_write_disjoint _ _ _ _ _ (Or.inl (Nat.le_of_eq tail)), bytes]

end WellFormed

/-! ## Room for more -/

/-- A well-formed serializer that can take `count` more bytes. -/
structure Room (s : Serializer) (count : Nat) : Prop where
  wellFormed : s.WellFormed
  enough : count ≤ s.useableSize

namespace Room

variable {s : Serializer}

theorem append {data : List Byte} {count : Nat} (room : s.Room (data.length + count)) :
    (s.append data).Room count where
  wellFormed := room.wellFormed.append data
  enough := by
    have enough := room.enough
    rw [room.wellFormed.append_useableSize data (by omega)]
    omega

theorem insert_eq {data : List Byte} {count : Nat} (room : s.Room (data.length + count))
    (allocate : Nat -> Nat) (fuel : Nat) : s.insert allocate fuel data = some (s.append data) :=
  Serializer.insert_eq allocate fuel s data (Nat.le_trans (Nat.le_add_right _ _) room.enough)

theorem setWstring_eq {wide : List Byte} {count : Nat} (room : s.Room (wide.length + count))
    (narrow : wide.length < 2 ^ 31) : s.setWstring wide = s.append wide :=
  Serializer.setWstring_eq s wide narrow (Nat.le_trans (Nat.le_add_right _ _) room.enough)

theorem append_bytes {data : List Byte} {count : Nat} (room : s.Room (data.length + count)) :
    (s.append data).bytes = s.bytes ++ data :=
  room.wellFormed.append_bytes data (Nat.le_trans (Nat.le_add_right _ _) room.enough)

theorem foldl_append_bytes {pieces : List (List Byte)} (room : s.Room pieces.flatten.length) :
    (pieces.foldl Serializer.append s).bytes = s.bytes ++ pieces.flatten := by
  induction pieces generalizing s with
  | nil => simp
  | cons data pieces inductionHypothesis =>
      rw [List.flatten_cons, List.length_append] at room
      rw [List.foldl_cons, inductionHypothesis room.append, room.append_bytes, List.flatten_cons,
        List.append_assoc]

theorem foldl_append_headPtr (pieces : List (List Byte)) (s : Serializer) :
    (pieces.foldl Serializer.append s).headPtr = s.headPtr ∧
      (pieces.foldl Serializer.append s).bufferPtr = s.bufferPtr := by
  induction pieces generalizing s with
  | nil => exact ⟨rfl, rfl⟩
  | cons data pieces inductionHypothesis => exact inductionHypothesis (s.append data)

theorem foldl_append_wellFormed {pieces : List (List Byte)} (room : s.Room pieces.flatten.length) :
    (pieces.foldl Serializer.append s).WellFormed := by
  induction pieces generalizing s with
  | nil => exact room.wellFormed
  | cons data pieces inductionHypothesis =>
      rw [List.flatten_cons, List.length_append] at room
      exact inductionHypothesis room.append

end Room

/-! ## Setting the header -/

@[simp] theorem toBytes_length (header : NetworkHeader) : header.toBytes.length = headerSize := by
  simp [NetworkHeader.toBytes, headerSize]

theorem setHeader_wellFormed {s : Serializer} (ordered : s.WellFormed) (key : Byte) :
    (s.setHeader key).WellFormed :=
  (ordered.store _ _).moveFront _

/-- `setHeader` moves the read pointer back over the header's place. -/
theorem setHeader_headPtr {s : Serializer} (ordered : s.WellFormed)
    (behind : s.headPtr = s.bufferPtr + headerSize) (key : Byte) :
    (s.setHeader key).headPtr = s.bufferPtr := by
  have order := ordered.head_le_tail
  have place := (ordered.store s.bufferPtr (NetworkHeader.toBytes
    { code := 0x77, size := BitVec.ofInt 16 s.payloadSize, randKey := key,
      checkSum := sumBytes s.payload })).moveFront_headPtr (-headerSize)
  simp only [store_bufferPtr, store_headPtr, store_tailPtr] at place
  unfold setHeader
  dsimp only
  unfold headerSize at *
  omega

/-- `setHeader` puts five bytes in front of a content that starts behind the
header's place. -/
theorem setHeader_bytes {s : Serializer} (ordered : s.WellFormed)
    (behind : s.headPtr = s.bufferPtr + headerSize) (key : Byte) :
    (s.setHeader key).bytes.drop headerSize = s.bytes := by
  have order := ordered.head_le_tail
  have stored := setHeader_wellFormed ordered key
  have head := setHeader_headPtr ordered behind key
  have extent : (s.setHeader key).size - headerSize = s.size := by
    rw [stored.size_eq, ordered.size_eq, head]
    change s.tailPtr - s.bufferPtr - headerSize = s.tailPtr - s.headPtr
    omega
  have long : headerSize ≤ (s.setHeader key).size := by
    rw [stored.size_eq, head]
    change headerSize ≤ s.tailPtr - s.bufferPtr
    omega
  rw [bytes, read_drop _ _ _ _ long, extent, head, ← behind]
  exact read_write_disjoint _ _ _ _ _
    (Or.inr (Nat.le_of_eq (by rw [toBytes_length, behind])))

end Serializer
end Buffers
end LoginServer
