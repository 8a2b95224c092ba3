import LoginServer.Buffers.Serializer

namespace LoginServer
namespace Buffers

open Memory

/-!
# The cipher on byte strings

`encryption` and `decryption` work in place, from the `checkSum` field to the
end of the payload.  The functions here do the same to a list of bytes, so that
what `decryption` returns and leaves behind becomes a function of the frame
alone, whatever surrounds it in memory.
-/

/-- `decryption`'s loop on a list, from a given index on. -/
def decryptBytes (staticKey dynamicKey : Byte) : (index : Nat) -> (pP pE : Byte) -> List Byte ->
    List Byte
  | _, _, _, [] => []
  | index, pP, pE, e :: rest =>
      let p := e ^^^ (pE + staticKey + 1 + BitVec.ofNat 8 index)
      (p ^^^ (pP + dynamicKey + 1 + BitVec.ofNat 8 index)) ::
        decryptBytes staticKey dynamicKey (index + 1) p e rest

@[simp] theorem decryptBytes_length (staticKey dynamicKey : Byte) (index : Nat) (pP pE : Byte)
    (bytes : List Byte) :
    (decryptBytes staticKey dynamicKey index pP pE bytes).length = bytes.length := by
  induction bytes generalizing index pP pE with
  | nil => rfl
  | cons e rest inductionHypothesis =>
      simp only [decryptBytes, List.length_cons, inductionHypothesis]

namespace Serializer

/-- The loop rewrites its interval and nothing else. -/
theorem decryptionLoop_eq (staticKey dynamicKey : Byte) (target count index : Nat) (pP pE : Byte)
    (memory : Bytes) :
    decryptionLoop staticKey dynamicKey target count index pP pE memory =
      write memory (target + index)
        (decryptBytes staticKey dynamicKey index pP pE (read memory (target + index) count)) := by
  induction count generalizing index pP pE memory with
  | zero =>
      rw [read_zero, decryptBytes, write_nil]
      rfl
  | succ count inductionHypothesis =>
      have rest : forall byte : Byte,
          read (write memory (target + index) [byte]) (target + index + 1) count =
            read memory (target + index + 1) count := fun byte =>
        read_write_disjoint memory (target + index) [byte] _ count (Or.inr (Nat.le_refl _))
      rw [decryptionLoop, inductionHypothesis, ← Nat.add_assoc, rest, read_succ, decryptBytes]
      exact (write_cons memory (target + index) _ _).symm

end Serializer

/-! ## Opening a frame -/

/-- A frame after the loop: the first four header bytes are not encrypted. -/
def plainBytes (staticKey : Byte) (frame : List Byte) : List Byte :=
  frame.take 4 ++ decryptBytes staticKey (frame.getD 3 0) 0 0 0 (frame.drop 4)

/-- What is left of the checksum once the payload has been taken off. -/
def checkSumRest (staticKey : Byte) (frame : List Byte) : Byte :=
  (plainBytes staticKey frame).getD 4 0 -
    Serializer.sumBytes ((plainBytes staticKey frame).drop headerSize)

/-- A frame as `decryption` leaves it. -/
def openedBytes (staticKey : Byte) (frame : List Byte) : List Byte :=
  (plainBytes staticKey frame).take 4 ++ [checkSumRest staticKey frame] ++
    (plainBytes staticKey frame).drop headerSize

theorem plainBytes_length (staticKey : Byte) (frame : List Byte) :
    (plainBytes staticKey frame).length = frame.length := by
  simp only [plainBytes, List.length_append, List.length_take, decryptBytes_length, List.length_drop]
  omega

theorem openedBytes_length (staticKey : Byte) (frame : List Byte)
    (long : headerSize ≤ frame.length) :
    (openedBytes staticKey frame).length = frame.length := by
  unfold headerSize at long
  simp only [openedBytes, headerSize, List.length_append, List.length_take, List.length_singleton,
    List.length_drop, plainBytes_length]
  omega

theorem openedBytes_drop (staticKey : Byte) (frame : List Byte)
    (long : headerSize ≤ frame.length) :
    (openedBytes staticKey frame).drop headerSize =
      (plainBytes staticKey frame).drop headerSize := by
  have front : ((plainBytes staticKey frame).take 4 ++ [checkSumRest staticKey frame]).length =
      headerSize := by
    unfold headerSize at *
    rw [List.length_append, List.length_take, plainBytes_length]
    simp only [List.length_singleton]
    omega
  rw [openedBytes, ← front, List.drop_left]

namespace Serializer

/-- `decryption` of a serializer that holds a frame from its start on, with
`tailPtr` at the end of the frame. -/
theorem decryption_eq (staticKey : Byte) (s : Serializer) (frame : List Byte)
    (holds : read s.memory s.bufferPtr frame.length = frame) (long : headerSize ≤ frame.length)
    (announced : (NetworkHeader.ofBytes (frame.take headerSize)).sizeField =
      frame.length - headerSize)
    (ends : s.tailPtr = s.bufferPtr + frame.length) :
    s.decryption staticKey = (checkSumRest staticKey frame == 0,
      { s with memory := write s.memory s.bufferPtr (openedBytes staticKey frame) }) := by
  have lengths := plainBytes_length staticKey frame
  have bound : frame.length - (headerSize : Int) ≤ 32767 := by
    rw [← announced]
    have upper := (NetworkHeader.ofBytes (frame.take headerSize)).size.toInt_lt
    unfold NetworkHeader.sizeField
    omega
  unfold headerSize at long bound announced
  have header : s.getPacketHeader = NetworkHeader.ofBytes (frame.take headerSize) := by
    rw [getPacketHeader, ← read_take s.memory s.bufferPtr frame.length headerSize
      (by unfold headerSize; omega), holds]
  have inputSize : s.inputSize = (frame.drop 4).length := by
    rw [Serializer.inputSize, header, List.length_drop]
    unfold headerSize
    omega
  have key : s.getPacketHeader.randKey = frame.getD 3 0 := by
    rw [header]
    simp [NetworkHeader.ofBytes, headerSize, List.getD]
  have encrypted : read s.memory (s.bufferPtr + 4) (frame.drop 4).length = frame.drop 4 := by
    rw [List.length_drop, ← read_drop s.memory s.bufferPtr frame.length 4 (by omega), holds]
  have front : read s.memory s.bufferPtr 4 = frame.take 4 := by
    rw [← read_take s.memory s.bufferPtr frame.length 4 (by omega), holds]
  have loop : decryptionLoop staticKey s.getPacketHeader.randKey s.checkSumPtr s.inputSize 0 0 0
      s.memory = write s.memory s.bufferPtr (plainBytes staticKey frame) := by
    have short : (frame.take 4).length = 4 := by rw [List.length_take]; omega
    rw [decryptionLoop_eq, Nat.add_zero, checkSumPtr, inputSize, encrypted, key, plainBytes,
      write_append, short, ← front, write_read]
  -- The checksum byte and the payload are read back from the decrypted frame.
  have sum : (NetworkHeader.ofBytes (read (write s.memory s.bufferPtr (plainBytes staticKey frame))
      s.bufferPtr headerSize)).checkSum = (plainBytes staticKey frame).getD 4 0 := by
    have piece := read_write_inside s.memory s.bufferPtr (plainBytes staticKey frame) 0 headerSize
      (by unfold headerSize; omega)
    rw [Nat.add_zero, List.drop_zero] at piece
    rw [piece]
    simp [NetworkHeader.ofBytes, headerSize, List.getD]
  have extent : (toInt32 ((s.tailPtr : Int) - s.bufferPtr - headerSize)).toNat =
      frame.length - headerSize := by
    have small : (s.tailPtr : Int) - s.bufferPtr - headerSize = ((frame.length - 5 : Nat) : Int) := by
      unfold headerSize
      omega
    rw [small, toInt32, BitVec.toInt_ofInt]
    unfold headerSize
    rw [Int.bmod_eq_of_le (by omega) (by omega)]
    omega
  have body : read (write s.memory s.bufferPtr (plainBytes staticKey frame))
      (s.bufferPtr + headerSize) (frame.length - headerSize) =
        (plainBytes staticKey frame).drop headerSize := by
    rw [read_write_inside _ _ _ _ _ (by unfold headerSize; omega), List.take_of_length_le]
    exact Nat.le_of_eq (by rw [List.length_drop, lengths])
  have stored : write (write s.memory s.bufferPtr (plainBytes staticKey frame)) (s.bufferPtr + 4)
      [checkSumRest staticKey frame] =
        write s.memory s.bufferPtr (openedBytes staticKey frame) := by
    rw [write_write_inside _ _ _ _ _ (by rw [List.length_singleton]; omega)]
    rfl
  unfold Serializer.decryption
  simp only [loop]
  simp only [getPacketHeader, payload, payloadSize, extent, sum, body, store, checkSumPtr]
  rw [← checkSumRest, stored]

/-- With nothing to decrypt and no payload, `decryption` tests the checksum
byte as it is. -/
theorem decryption_fst_of_empty (staticKey : Byte) (s : Serializer) (input : s.inputSize = 0)
    (empty : s.payloadSize = 0) :
    (s.decryption staticKey).1 = (s.getPacketHeader.checkSum == 0) := by
  have unchanged : decryptionLoop staticKey s.getPacketHeader.randKey s.checkSumPtr s.inputSize
      0 0 0 s.memory = s.memory := by
    rw [input]
    rfl
  have none : s.payload = [] := by
    rw [payload, empty]
    rfl
  have zero : sumBytes [] = 0#8 := rfl
  unfold Serializer.decryption
  simp only [unchanged, none, zero, BitVec.sub_zero]

end Serializer
end Buffers
end LoginServer
