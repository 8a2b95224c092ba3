import LoginServer.Buffers.Cipher
import LoginServer.Login.Handler

namespace LoginServer
namespace Login

open Memory Buffers Receiving Concurrency

/-!
# What a received packet makes the handler do

A run of `OnRecv` has one of three shapes: a bad checksum, a wrong type, or a
login.  Which one it is, and the fields it works with, are read from the
packet's memory after decryption, at offsets that depend on the payload's
length because the extraction operators clamp only their pointer moves.
-/

/-- A ring with a frame in front that `recvedPacket` accepts. -/
structure FrontFrame where
  ring : RecvBuffer
  enough : headerSize ≤ ring.size
  complete : frameSize ring ≤ ring.size

namespace FrontFrame

/-- The packet handed to `OnRecv`, for a pooled serializer with any history. -/
def packet (frame : FrontFrame) (pooled : PooledSerializer) : Serializer :=
  takenPacket frame.ring pooled

/-- The header in front of the ring. -/
def header (frame : FrontFrame) : NetworkHeader :=
  NetworkHeader.ofBytes (frame.ring.front headerSize)

/-- The bytes popped from the ring. -/
def bytes (frame : FrontFrame) : List Byte := frame.ring.content.take (frameSize frame.ring)

/-- `packet` is what `recvedPacket` hands over. -/
theorem recvedPacket_eq (frame : FrontFrame) (pooled : PooledSerializer) :
    recvedPacket frame.ring (prepare pooled) =
      (true, (frame.ring.pop (frameSize frame.ring)).2, frame.packet pooled) :=
  recvedPacket_accepts frame.ring (prepare pooled) frame.enough frame.complete

end FrontFrame

/-! ## Fields -/

/-- Payload bytes between the header and `tailPtr`. -/
def payloadLength (packet : Serializer) : Nat := packet.tailPtr - packet.bufferPtr - headerSize

/-- Memory of a packet once `decryption` has run. -/
def plainMemory (packet : Serializer) : Bytes := (packet.decryption getStatickey).2.memory

def typeField (packet : Serializer) : BitVec 16 :=
  BitVec.ofNat 16 (littleEndian (read (plainMemory packet) (packet.bufferPtr + headerSize) 2))

def accountNoField (packet : Serializer) : BitVec 64 :=
  BitVec.ofNat 64 (littleEndian (read (plainMemory packet)
    (packet.bufferPtr + headerSize + min 2 (payloadLength packet)) 8))

def sessionKeyField (packet : Serializer) : List Byte :=
  read (plainMemory packet) (packet.bufferPtr + headerSize + min 10 (payloadLength packet)) 64

/-- Set up for `OnRecv`: the read pointer at the header, and the header inside
the content. -/
structure Received (packet : Serializer) : Prop where
  wellFormed : packet.WellFormed
  head : packet.headPtr = packet.bufferPtr
  long : packet.bufferPtr + headerSize ≤ packet.tailPtr

theorem FrontFrame.received (frame : FrontFrame) (pooled : PooledSerializer) :
    Received (frame.packet pooled) where
  wellFormed := takenPacket_wellFormed frame.ring pooled
  head := takenPacket_headPtr frame.ring pooled
  long := by
    have tail := takenPacket_tailPtr frame.ring pooled frame.complete
    unfold headerSize FrontFrame.packet
    simp only [takenPacket_bufferPtr]
    omega

/-! ## The three shapes -/

theorem read_getHeadPtr (s : Serializer) (count : Nat) :
    read (getHeadPtr s) 0 count = read s.memory s.headPtr count := by
  simp [Memory.read, getHeadPtr]

/-- The key check goes on with `true`, whatever the rows are. -/
theorem sessionKeyCheckByDatabase_bind {α : Type} (accountNo : BitVec 64)
    (sessionKey : CharPointer) (continuation : Bool -> LoginProgram α) :
    (sessionKeyCheckByDatabase accountNo sessionKey >>= continuation) =
      (query ("select sessionkey from sessionkey where accountno = " ++ toString accountNo ++ ";") >>=
        fun _ => continuation true) := rfl

/-- `decryption` works from `bufferPtr` and leaves `headPtr` where it is. -/
theorem moveFront_decryption (s : Serializer) (count : Int) (staticKey : Byte) :
    (s.moveFront count).decryption staticKey =
      ((s.decryption staticKey).1, (s.decryption staticKey).2.moveFront count) := rfl

theorem decryption_wellFormed {s : Serializer} (ordered : s.WellFormed) (staticKey : Byte) :
    (s.decryption staticKey).2.WellFormed :=
  ⟨ordered.buffer_le_head, ordered.head_le_tail, ordered.tail_le_end, ordered.small⟩

/-- A series of extractions moves the read pointer by their total, as far as
the content goes. -/
theorem foldl_moveFront_headPtr {s : Serializer} (ordered : s.WellFormed) (counts : List Nat) :
    (counts.foldl (fun s (count : Nat) => s.moveFront count) s).headPtr =
      min (s.headPtr + counts.sum) s.tailPtr := by
  induction counts generalizing s with
  | nil =>
      have order := ordered.head_le_tail
      simp only [List.foldl_nil, List.sum_nil]
      omega
  | cons count counts inductionHypothesis =>
      have place := ordered.moveFront_headPtr count
      have := ordered.buffer_le_head
      have := ordered.head_le_tail
      rw [List.foldl_cons, inductionHypothesis (ordered.moveFront _), List.sum_cons,
        Serializer.moveFront_tailPtr]
      omega

/-- The handler with its pointer moves carried out. -/
theorem onRecv_eq (sessionID : SessionID) (packet : Serializer) (received : Received packet) :
    onRecv sessionID packet =
      (if (packet.decryption getStatickey).1 then
        if typeField packet ≠ 101 then .step (.disconnectReq sessionID) .done
        else
          .step (.query ("select sessionkey from sessionkey where accountno = " ++
            toString (accountNoField packet) ++ ";")) fun _ =>
          .step (.redisSet (toString (accountNoField packet)) (sessionKeyField packet) 1) fun _ =>
          sendResponse sessionID (accountNoField packet)
      else
        .step (.log ("checkSum error ID " ++ toString sessionID)) fun _ =>
        .step (.disconnectReq sessionID) .done) := by
  have ordered := decryption_wellFormed received.wellFormed getStatickey
  have start : (packet.decryption getStatickey).2.headPtr = packet.bufferPtr := received.head
  have tail : (packet.decryption getStatickey).2.tailPtr = packet.tailPtr := rfl
  have long := received.long
  have atType := foldl_moveFront_headPtr ordered [1, 2, 1, 1]
  have atAccount := foldl_moveFront_headPtr ordered [1, 2, 1, 1, 2]
  have atKey := foldl_moveFront_headPtr ordered [1, 2, 1, 1, 2, 8]
  have typePlace : min (packet.bufferPtr + 5) packet.tailPtr = packet.bufferPtr + headerSize := by
    unfold headerSize at *
    omega
  have accountPlace : min (packet.bufferPtr + 7) packet.tailPtr =
      packet.bufferPtr + headerSize + min 2 (payloadLength packet) := by
    unfold payloadLength headerSize at *
    omega
  have keyPlace : min (packet.bufferPtr + 15) packet.tailPtr =
      packet.bufferPtr + headerSize + min 10 (payloadLength packet) := by
    unfold payloadLength headerSize at *
    omega
  simp only [List.foldl_cons, List.foldl_nil, List.sum_cons, List.sum_nil, start, tail,
    Nat.reduceAdd, typePlace, accountPlace, keyPlace] at atType atAccount atKey
  unfold typeField accountNoField sessionKeyField
  rw [← atKey, ← atAccount, ← atType]
  simp only [onRecv, Serializer.extractChar, Serializer.extractShort,
    Serializer.extractUnsignedShort, Serializer.extractUnsignedLongLong, Serializer.extract,
    moveFront_decryption, Serializer.moveFront_memory, sessionKeyCheckByDatabase_bind, redisUpdate,
    read_getHeadPtr, plainMemory, Bool.not_true, Bool.false_eq_true, if_false]
  rfl

/-! ## Frames with a size field from zero on -/

namespace FrontFrame

variable (frame : FrontFrame) (pooled : PooledSerializer)

theorem bytes_length : frame.bytes.length = frameSize frame.ring := by
  have complete := frame.complete
  rw [bytes, List.length_take, frame.ring.content_length]
  omega

@[simp] theorem packet_bufferPtr :
    (frame.packet pooled).bufferPtr = pooled.serializer.bufferPtr := rfl

theorem packet_memory :
    (frame.packet pooled).memory =
      write pooled.serializer.memory pooled.serializer.bufferPtr frame.bytes := rfl

variable (nonneg : 0 ≤ frame.header.sizeField)

include nonneg

theorem length_eq : (frame.bytes.length : Int) = 5 + frame.header.sizeField := by
  rw [bytes_length]
  exact frameSize_of_le frame.ring (Int.le_trans (by decide) nonneg)

theorem packet_tailPtr :
    (frame.packet pooled).tailPtr = pooled.serializer.bufferPtr + frame.bytes.length := by
  have tail := takenPacket_tailPtr frame.ring pooled frame.complete
  have length := frame.length_eq nonneg
  unfold header at *
  unfold packet
  omega

theorem payloadLength_eq : payloadLength (frame.packet pooled) = frame.bytes.length - headerSize := by
  rw [payloadLength, frame.packet_tailPtr pooled nonneg, packet_bufferPtr]
  omega

/-- Opening such a packet depends on its own bytes only. -/
theorem decryption_eq (staticKey : Byte) :
    (frame.packet pooled).decryption staticKey = (checkSumRest staticKey frame.bytes == 0,
      { frame.packet pooled with
        memory := write pooled.serializer.memory pooled.serializer.bufferPtr
          (openedBytes staticKey frame.bytes) }) := by
  have length := frame.length_eq nonneg
  have long : headerSize ≤ frame.bytes.length := by
    unfold headerSize
    omega
  have headers : frame.bytes.take headerSize = frame.ring.front headerSize := by
    rw [frame.ring.front_eq, bytes, List.take_take, Nat.min_eq_left]
    rw [bytes_length] at long
    exact long
  have memory := frame.packet_memory pooled
  rw [Serializer.decryption_eq staticKey (frame.packet pooled) frame.bytes
    (by rw [memory, packet_bufferPtr, read_write]) long
    (by rw [headers, ← header]; unfold headerSize; omega)
    (frame.packet_tailPtr pooled nonneg), memory, packet_bufferPtr]
  have overwritten := write_write_inside pooled.serializer.memory pooled.serializer.bufferPtr frame.bytes
    (openedBytes staticKey frame.bytes) 0 (by rw [openedBytes_length _ _ long]; omega)
  rw [Nat.add_zero, Nat.zero_add, openedBytes_length _ _ long, List.drop_length, List.append_nil,
    List.take_zero, List.nil_append] at overwritten
  rw [overwritten]
  rfl

/-- The payload as the handler finds it. -/
theorem read_plainMemory (offset count : Nat) (inside : headerSize + offset + count ≤ frame.bytes.length) :
    read (plainMemory (frame.packet pooled)) (pooled.serializer.bufferPtr + headerSize + offset) count =
      ((plainBytes getStatickey frame.bytes).drop (headerSize + offset)).take count := by
  have long : headerSize ≤ frame.bytes.length := by omega
  rw [plainMemory, frame.decryption_eq pooled nonneg, Nat.add_assoc,
    read_write_inside _ _ _ _ _ (by rw [openedBytes_length _ _ long]; exact inside),
    ← List.drop_drop, openedBytes_drop _ _ long, List.drop_drop]

end FrontFrame

end Login
end LoginServer
