import LoginServer.Buffers.Cipher
import LoginServer.Buffers.Writing

namespace LoginServer
namespace Buffers

open Memory

/-!
# Closing and opening a frame

`encryption` as a function on lists, and that `decryption` undoes it.  Both
loops carry the previous intermediate byte and the previous cipher byte, and
both carry the same ones at the same index.
-/

/-- `encryption`'s loop on a list, from a given index on. -/
def encryptBytes (staticKey dynamicKey : Byte) : (index : Nat) -> (pP pE : Byte) -> List Byte ->
    List Byte
  | _, _, _, [] => []
  | index, pP, pE, byte :: rest =>
      let p := byte ^^^ (pP + dynamicKey + 1 + BitVec.ofNat 8 index)
      let e := p ^^^ (pE + staticKey + 1 + BitVec.ofNat 8 index)
      e :: encryptBytes staticKey dynamicKey (index + 1) p e rest

@[simp] theorem encryptBytes_length (staticKey dynamicKey : Byte) (index : Nat) (pP pE : Byte)
    (bytes : List Byte) :
    (encryptBytes staticKey dynamicKey index pP pE bytes).length = bytes.length := by
  induction bytes generalizing index pP pE with
  | nil => rfl
  | cons byte rest inductionHypothesis =>
      simp only [encryptBytes, List.length_cons, inductionHypothesis]

theorem xor_cancel (byte mask : Byte) : byte ^^^ mask ^^^ mask = byte := by
  rw [BitVec.xor_assoc, BitVec.xor_self, BitVec.xor_zero]

/-- The two loops carry the same bytes, so the second undoes the first. -/
theorem decrypt_encryptBytes (staticKey dynamicKey : Byte) (index : Nat) (pP pE : Byte)
    (bytes : List Byte) :
    decryptBytes staticKey dynamicKey index pP pE
      (encryptBytes staticKey dynamicKey index pP pE bytes) = bytes := by
  induction bytes generalizing index pP pE with
  | nil => rfl
  | cons byte rest inductionHypothesis =>
      simp only [encryptBytes, decryptBytes, xor_cancel, inductionHypothesis]

/-! ## Headers -/

theorem ofBytes_toBytes (header : NetworkHeader) (rest : List Byte) :
    NetworkHeader.ofBytes (header.toBytes ++ rest) = header := by
  rcases header with ⟨code, size, randKey, checkSum⟩
  have bytes : [BitVec.ofNat 8 size.toNat, BitVec.ofNat 8 (size.toNat / 256)] =
      littleEndianBytes 2 size.toNat := by
    simp [littleEndianBytes, List.range_succ]
  have back : littleEndian (littleEndianBytes 2 size.toNat) = size.toNat :=
    (littleEndian_littleEndianBytes 2 size.toNat).trans (Nat.mod_eq_of_lt size.isLt)
  rw [← bytes] at back
  simp only [NetworkHeader.ofBytes, NetworkHeader.toBytes, ← bytes, List.cons_append, List.nil_append,
    List.getD_cons_zero, List.getD_cons_succ]
  rw [back, BitVec.ofNat_toNat, BitVec.setWidth_eq]

namespace Serializer

/-- The loop rewrites its interval and nothing else. -/
theorem encryptionLoop_eq (staticKey dynamicKey : Byte) (target count index : Nat) (pP pE : Byte)
    (memory : Bytes) :
    encryptionLoop staticKey dynamicKey target count index pP pE memory =
      write memory (target + index)
        (encryptBytes staticKey dynamicKey index pP pE (read memory (target + index) count)) := by
  induction count generalizing index pP pE memory with
  | zero =>
      rw [read_zero, encryptBytes, write_nil]
      rfl
  | succ count inductionHypothesis =>
      have rest : forall byte : Byte,
          read (write memory (target + index) [byte]) (target + index + 1) count =
            read memory (target + index + 1) count := fun byte =>
        read_write_disjoint memory (target + index) [byte] _ count (Or.inr (Nat.le_refl _))
      rw [encryptionLoop, inductionHypothesis, ← Nat.add_assoc, rest, read_succ, encryptBytes]
      exact (write_cons memory (target + index) _ _).symm

/-- The header that `setHeader` puts in front of a payload. -/
def headerOf (key : Byte) (payload : List Byte) : NetworkHeader where
  code := 0x77
  size := BitVec.ofNat 16 payload.length
  randKey := key
  checkSum := sumBytes payload

theorem headerOf_sizeField (key : Byte) (payload : List Byte) (short : payload.length ≤ 32767) :
    (headerOf key payload).sizeField = payload.length := by
  change (BitVec.ofNat 16 payload.length).toInt = payload.length
  rw [BitVec.toInt_ofNat', Int.bmod_eq_of_le (by omega) (by omega)]

variable {s : Serializer} {length : Nat}

theorem payload_eq (ends : s.tailPtr = s.bufferPtr + headerSize + length) (small : length < 2 ^ 31) :
    s.payloadSize = length ∧ s.payload = read s.memory (s.bufferPtr + headerSize) length := by
  have extent : s.payloadSize = length := by
    have distance : (s.tailPtr : Int) - s.bufferPtr - headerSize = length := by omega
    rw [payloadSize, distance, toInt32, BitVec.toInt_ofInt, Int.bmod_eq_of_le (by omega) (by omega)]
  exact ⟨extent, by rw [payload, extent, Int.toNat_natCast]⟩

/-- `setHeader` writes the header of the payload over the reserved bytes. -/
theorem setHeader_memory (key : Byte) (ends : s.tailPtr = s.bufferPtr + headerSize + length)
    (small : length < 2 ^ 31) :
    (s.setHeader key).memory =
      write s.memory s.bufferPtr (headerOf key (read s.memory (s.bufferPtr + headerSize) length)).toBytes := by
  rcases payload_eq ends small with ⟨extent, content⟩
  unfold setHeader
  simp only [extent, content, moveFront_memory, store, headerOf, read_length, BitVec.ofInt_natCast]

/-- The four header bytes that are not encrypted. -/
def openBytes (header : NetworkHeader) : List Byte := header.toBytes.take 4

theorem toBytes_eq (header : NetworkHeader) :
    header.toBytes = openBytes header ++ [header.checkSum] := by
  simp [openBytes, NetworkHeader.toBytes, littleEndianBytes, List.range_succ]

@[simp] theorem openBytes_length (header : NetworkHeader) : (openBytes header).length = 4 := by
  simp [openBytes, headerSize]

/-- A header with another checksum byte keeps its other fields. -/
theorem ofBytes_openBytes (header : NetworkHeader) (checkSum : Byte) (rest : List Byte) :
    NetworkHeader.ofBytes (openBytes header ++ checkSum :: rest) =
      { header with checkSum := checkSum } := by
  have whole := ofBytes_toBytes { header with checkSum := checkSum } rest
  rw [toBytes_eq, List.append_assoc] at whole
  exact whole

theorem getPacketHeader_of_read {checkSum : Byte} {header : NetworkHeader}
    (holds : read s.memory s.bufferPtr headerSize = openBytes header ++ [checkSum]) :
    s.getPacketHeader = { header with checkSum := checkSum } := by
  rw [getPacketHeader, holds]
  exact ofBytes_openBytes header checkSum []

/-- A frame closed by `encryption`. -/
def closedBytes (staticKey : Byte) (header : NetworkHeader) (payload : List Byte) : List Byte :=
  openBytes header ++ encryptBytes staticKey header.randKey 0 0 0 (header.checkSum :: payload)

theorem closedBytes_length (staticKey : Byte) (header : NetworkHeader) (payload : List Byte) :
    (closedBytes staticKey header payload).length = headerSize + payload.length := by
  simp only [closedBytes, List.length_append, openBytes_length, encryptBytes_length,
    List.length_cons, headerSize]
  omega

theorem plainBytes_closedBytes (staticKey : Byte) (header : NetworkHeader) (payload : List Byte) :
    plainBytes staticKey (closedBytes staticKey header payload) = header.toBytes ++ payload := by
  have front : (closedBytes staticKey header payload).take 4 = openBytes header :=
    List.take_left' (openBytes_length header)
  have back : (closedBytes staticKey header payload).drop 4 =
      encryptBytes staticKey header.randKey 0 0 0 (header.checkSum :: payload) :=
    List.drop_left' (openBytes_length header)
  have key : (closedBytes staticKey header payload).getD 3 0 = header.randKey := by
    have fields := congrArg NetworkHeader.randKey (ofBytes_openBytes header
      (encryptBytes staticKey header.randKey 0 0 0 (header.checkSum :: payload)).head!
      (encryptBytes staticKey header.randKey 0 0 0 (header.checkSum :: payload)).tail)
    exact fields
  rw [plainBytes, front, back, key, decrypt_encryptBytes, toBytes_eq, List.append_assoc]
  rfl

theorem closedBytes_sizeField (staticKey : Byte) (header : NetworkHeader) (payload : List Byte) :
    (NetworkHeader.ofBytes ((closedBytes staticKey header payload).take headerSize)).sizeField =
      header.sizeField := by
  rw [closedBytes, encryptBytes, List.take_append, List.take_of_length_le (by simp [headerSize]),
    openBytes_length]
  have fields := ofBytes_openBytes header
    (header.checkSum ^^^ (0 + header.randKey + 1 + 0) ^^^ (0 + staticKey + 1 + 0)) []
  exact (congrArg NetworkHeader.sizeField fields :)

theorem checkSumRest_closedBytes (staticKey key : Byte) (payload : List Byte) :
    checkSumRest staticKey (closedBytes staticKey (headerOf key payload) payload) = 0 := by
  have header : (headerOf key payload).toBytes.length = headerSize := toBytes_length _
  have sum : ((headerOf key payload).toBytes ++ payload).getD 4 0 = sumBytes payload := by
    have fields := congrArg NetworkHeader.checkSum (ofBytes_toBytes (headerOf key payload) payload)
    exact fields
  rw [checkSumRest, plainBytes_closedBytes, sum, List.drop_left' header]
  exact BitVec.sub_self _

/-! ## Sealing a packet -/

/-- The payload that lies behind the reserved header bytes. -/
def payloadBytes (s : Serializer) (length : Nat) : List Byte :=
  read s.memory (s.bufferPtr + headerSize) length

@[simp] theorem payloadBytes_length (s : Serializer) (length : Nat) :
    (s.payloadBytes length).length = length :=
  read_length _ _ _

section Sealing

variable (key staticKey : Byte) (ends : s.tailPtr = s.bufferPtr + headerSize + length)

include ends

theorem setHeader_front (small : length < 2 ^ 31) :
    read (s.setHeader key).memory s.bufferPtr headerSize =
      (headerOf key (s.payloadBytes length)).toBytes := by
  have written := read_write s.memory s.bufferPtr (headerOf key (s.payloadBytes length)).toBytes
  rw [toBytes_length] at written
  rw [setHeader_memory key ends small]
  exact written

theorem setHeader_payload (small : length < 2 ^ 31) :
    read (s.setHeader key).memory (s.bufferPtr + headerSize) length = s.payloadBytes length := by
  rw [setHeader_memory key ends small]
  exact read_write_disjoint _ _ _ _ _ (Or.inr (Nat.le_of_eq (by rw [toBytes_length])))

theorem setHeader_getPacketHeader (small : length < 2 ^ 31) :
    (s.setHeader key).getPacketHeader = headerOf key (s.payloadBytes length) :=
  getPacketHeader_of_read (by rw [← toBytes_eq]; exact setHeader_front key ends small)

/-- `encryption` rewrites the checksum and the payload. -/
theorem encryption_memory (short : length ≤ 32767) :
    ((s.setHeader key).encryption staticKey).memory =
      write (s.setHeader key).memory (s.bufferPtr + 4)
        (encryptBytes staticKey key 0 0 0
          ((headerOf key (s.payloadBytes length)).checkSum :: s.payloadBytes length)) := by
  have header := setHeader_getPacketHeader key ends (by omega)
  have sizeField : (headerOf key (s.payloadBytes length)).sizeField = length := by
    rw [headerOf_sizeField _ _ (by rw [payloadBytes_length]; exact short), payloadBytes_length]
  have plain : read (s.setHeader key).memory (s.bufferPtr + 4) (length + 1) =
      (headerOf key (s.payloadBytes length)).checkSum :: s.payloadBytes length := by
    have front : read (s.setHeader key).memory (s.bufferPtr + 4) 1 =
        [(headerOf key (s.payloadBytes length)).checkSum] := by
      have last := read_drop (s.setHeader key).memory s.bufferPtr headerSize 4 (by decide)
      rw [setHeader_front key ends (by omega), toBytes_eq,
        List.drop_left' (openBytes_length _)] at last
      exact last.symm
    have first : (s.setHeader key).memory (s.bufferPtr + 4) =
        (headerOf key (s.payloadBytes length)).checkSum := List.head_eq_of_cons_eq front
    rw [read_succ, first]
    exact congrArg _ (setHeader_payload key ends (by omega))
  have inputSize : (s.setHeader key).inputSize = length + 1 := by
    rw [Serializer.inputSize, header, sizeField]
    omega
  have randKey : (s.setHeader key).getPacketHeader.randKey = key := by rw [header]; rfl
  change encryptionLoop staticKey (s.setHeader key).getPacketHeader.randKey (s.bufferPtr + 4)
    (s.setHeader key).inputSize 0 0 0 (s.setHeader key).memory = _
  rw [encryptionLoop_eq, inputSize, randKey, Nat.add_zero, plain]

theorem encryption_front (short : length ≤ 32767) :
    read ((s.setHeader key).encryption staticKey).memory s.bufferPtr 4 =
      openBytes (headerOf key (s.payloadBytes length)) := by
  rw [encryption_memory key staticKey ends short,
    read_write_disjoint _ _ _ _ _ (Or.inl (Nat.le_refl _)), ← read_take _ _ headerSize 4 (by decide),
    setHeader_front key ends (by omega)]
  rfl

/-- A packet after `setHeader` and `encryption` is the closed frame of its payload. -/
theorem encryption_frame (short : length ≤ 32767) :
    read ((s.setHeader key).encryption staticKey).memory s.bufferPtr (headerSize + length) =
      closedBytes staticKey (headerOf key (s.payloadBytes length)) (s.payloadBytes length) := by
  have extent : headerSize + length = 4 + (length + 1) := by
    unfold headerSize
    omega
  have back := read_write (s.setHeader key).memory (s.bufferPtr + 4) (encryptBytes staticKey key 0 0 0
    ((headerOf key (s.payloadBytes length)).checkSum :: s.payloadBytes length))
  rw [encryptBytes_length, List.length_cons, payloadBytes_length] at back
  rw [extent, read_add, encryption_front key staticKey ends short,
    encryption_memory key staticKey ends short, back]
  rfl

end Sealing

/-- The content of a sealed packet, from a packet with its payload behind the
reserved header bytes. -/
theorem sealed_bytes (ordered : s.WellFormed) (behind : s.headPtr = s.bufferPtr + headerSize)
    (short : s.bytes.length ≤ 32767) (key staticKey : Byte) :
    ((s.setHeader key).encryption staticKey).bytes =
      closedBytes staticKey (headerOf key s.bytes) s.bytes := by
  have order := ordered.head_le_tail
  have length : s.bytes.length = s.size := read_length _ _ _
  have extent := ordered.size_eq
  have ends : s.tailPtr = s.bufferPtr + headerSize + s.size := by omega
  have payload : s.payloadBytes s.size = s.bytes := by rw [payloadBytes, ← behind, bytes]
  have headed : (s.setHeader key).WellFormed := setHeader_wellFormed ordered key
  have head := setHeader_headPtr ordered behind key
  have whole : (s.setHeader key).size = headerSize + s.size := by
    have tail : (s.setHeader key).tailPtr = s.tailPtr := rfl
    rw [headed.size_eq, head, tail]
    omega
  have frame := encryption_frame key staticKey ends (by omega)
  rw [payload] at frame
  change read ((s.setHeader key).encryption staticKey).memory (s.setHeader key).headPtr
    (s.setHeader key).size = _
  rw [head, whole, frame]

/-- Sealed packets show their payload: the cipher is injective. -/
theorem closedBytes_injective {staticKey : Byte} {header header' : NetworkHeader}
    {payload payload' : List Byte}
    (same : closedBytes staticKey header payload = closedBytes staticKey header' payload') :
    payload = payload' := by
  have plain := congrArg (plainBytes staticKey) same
  rw [plainBytes_closedBytes, plainBytes_closedBytes] at plain
  have behind := congrArg (List.drop headerSize) plain
  rwa [List.drop_left' (toBytes_length header), List.drop_left' (toBytes_length header')] at behind

/-! ## The round trip -/

/-- After `setHeader` and `encryption`, `decryption` accepts the packet and gives
the payload back.  The header's fields stay, with the checksum taken to 0, and
nothing outside the checksum and the payload is touched. -/
theorem cipher_roundTrip (s : Serializer) (length : Nat) (key staticKey : Byte)
    (ends : s.tailPtr = s.bufferPtr + headerSize + length) (short : length ≤ 32767) :
    let headed := s.setHeader key
    let sealed := headed.encryption staticKey
    let opened := sealed.decryption staticKey
    opened.1 = true ∧
      read opened.2.memory (s.bufferPtr + headerSize) length =
        read s.memory (s.bufferPtr + headerSize) length ∧
      opened.2.getPacketHeader = { headed.getPacketHeader with checkSum := 0 } ∧
      forall address, address < s.bufferPtr + 4 ∨ s.bufferPtr + headerSize + length ≤ address ->
        sealed.memory address = headed.memory address ∧
          opened.2.memory address = sealed.memory address := by
  intro headed sealed opened
  let payload := s.payloadBytes length
  let header := headerOf key payload
  have payloadLength : payload.length = length := s.payloadBytes_length length
  have sizeField : header.sizeField = length := by
    rw [← payloadLength]
    exact headerOf_sizeField key payload (by omega)
  have headedHeader : headed.getPacketHeader = header :=
    setHeader_getPacketHeader key ends (by omega)
  have sealedMemory : sealed.memory = write headed.memory (s.bufferPtr + 4)
      (encryptBytes staticKey key 0 0 0 (header.checkSum :: payload)) :=
    encryption_memory key staticKey ends short
  have sealedFrame : read sealed.memory s.bufferPtr (headerSize + length) =
      closedBytes staticKey header payload :=
    encryption_frame key staticKey ends short
  have frameLength : (closedBytes staticKey header payload).length = headerSize + length := by
    rw [closedBytes_length, payloadLength]
  have announced : (NetworkHeader.ofBytes ((closedBytes staticKey header payload).take
      headerSize)).sizeField = (closedBytes staticKey header payload).length - headerSize := by
    rw [closedBytes_sizeField, sizeField, frameLength]
    omega
  -- The frame after decryption.
  have opens := decryption_eq staticKey sealed (closedBytes staticKey header payload)
    (by rw [frameLength]; exact sealedFrame) (by omega) announced
    (by rw [frameLength]; exact ends.trans (Nat.add_assoc _ _ _))
  have sealedFront : read sealed.memory s.bufferPtr 4 = openBytes header :=
    encryption_front key staticKey ends short
  have openedMemory : opened.2.memory = write sealed.memory (s.bufferPtr + 4) (0 :: payload) := by
    have stored : opened.2.memory = write sealed.memory s.bufferPtr
        (openedBytes staticKey (closedBytes staticKey header payload)) :=
      congrArg (fun result : Bool × Serializer => result.2.memory) opens
    rw [stored, openedBytes, checkSumRest_closedBytes, plainBytes_closedBytes,
      List.drop_left' (toBytes_length header), List.append_assoc, toBytes_eq, List.append_assoc,
      List.take_left' (openBytes_length header), write_append, ← sealedFront, write_read,
      read_length]
    rfl
  refine ⟨?_, ?_, ?_, ?_⟩
  · have accepted : opened.1 = (checkSumRest staticKey (closedBytes staticKey header payload) == 0) :=
      congrArg Prod.fst opens
    rw [accepted, checkSumRest_closedBytes]
    rfl
  · have piece := read_write_inside sealed.memory (s.bufferPtr + 4) (0 :: payload) 1 length
      (by rw [List.length_cons, payloadLength]; omega)
    rw [openedMemory]
    refine piece.trans ?_
    rw [List.drop_one, List.tail_cons, List.take_of_length_le (by omega)]
    rfl
  · rw [headedHeader]
    apply getPacketHeader_of_read
    have kept : read opened.2.memory s.bufferPtr 4 = openBytes header := by
      rw [openedMemory, read_write_disjoint _ _ _ _ _ (Or.inl (Nat.le_refl _)), sealedFront]
    have zero : read opened.2.memory (s.bufferPtr + 4) 1 = [0] := by
      have piece := read_write_inside sealed.memory (s.bufferPtr + 4) (0 :: payload) 0 1
        (by rw [List.length_cons]; omega)
      rw [openedMemory]
      exact piece
    change read opened.2.memory s.bufferPtr (4 + 1) = _
    rw [read_add, kept, zero]
  · intro address outside
    have extent : 4 + (0 :: payload).length = headerSize + length := by
      rw [List.length_cons, payloadLength]
      unfold headerSize
      omega
    constructor
    · rw [sealedMemory]
      apply write_outside
      rw [encryptBytes_length, List.length_cons, payloadLength]
      unfold headerSize at outside
      omega
    · rw [openedMemory]
      apply write_outside
      omega

/-- A packet of three payload bytes. -/
theorem cipher_roundTrip_threeBytes :
    let packet : Serializer := ⟨fun address => BitVec.ofNat 8 address, 64, 1024, 69, 72⟩
    (((packet.setHeader 9).encryption 0x32).decryption 0x32).1 = true :=
  (cipher_roundTrip ⟨fun address => BitVec.ofNat 8 address, 64, 1024, 69, 72⟩ 3 9 0x32 rfl
    (by decide)).1

end Serializer
end Buffers
end LoginServer
