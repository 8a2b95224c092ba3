import LoginServer.Login.Disclosure

namespace LoginServer
namespace Login

open Memory Buffers Receiving Concurrency

/-!
# A login seen from the client

A client seals its request with `setHeader` and `encryption`, as the server does
with the response, and opens the response with `decryption`, as the server does
with the request.  Each packet passes a receive buffer and comes out in a pooled
serializer that may have held anything.

What the client wrote is what the server looks up and stores, and what the
client reads is an answer about its own account.
-/

/-! ## A sealed packet that has arrived -/

/-- The frame in front of the ring is a packet with this payload, as `setHeader` and `encryption`
leave it. -/
def Brings (frame : FrontFrame) (payload : List Byte) : Prop :=
  Exists fun packet : Serializer => Exists fun key : Byte =>
    (packet.WellFormed ∧ packet.headPtr = packet.bufferPtr + headerSize ∧ packet.bytes = payload) ∧
      frame.bytes = ((packet.setHeader key).encryption getStatickey).bytes

/-- `decryption` accepts the packet, and the payload is behind the header. -/
structure Opens (packet : Serializer) (payload : List Byte) : Prop where
  accepted : (packet.decryption getStatickey).1 = true
  length : payloadLength packet = payload.length
  content : forall offset count, offset + count ≤ payload.length ->
    read (plainMemory packet) (packet.bufferPtr + headerSize + offset) count = (payload.drop offset).take count

theorem Brings.closed {frame : FrontFrame} {payload : List Byte} (brings : Brings frame payload)
    (short : payload.length ≤ 32767) : Exists fun key : Byte =>
      frame.bytes = Serializer.closedBytes getStatickey (Serializer.headerOf key payload) payload := by
  rcases brings with ⟨packet, key, ⟨ordered, behind, rfl⟩, arrived⟩
  exact ⟨key, arrived.trans (Serializer.sealed_bytes ordered behind short key getStatickey)⟩

/-- The size field of a sealed packet is the length of its payload. -/
theorem sizeField_of_closed {frame : FrontFrame} {payload : List Byte} {key : Byte}
    (closed : frame.bytes = Serializer.closedBytes getStatickey (Serializer.headerOf key payload) payload)
    (short : payload.length ≤ 32767) : frame.header.sizeField = payload.length := by
  have length : frameSize frame.ring = headerSize + payload.length := by
    rw [← frame.bytes_length, closed, Serializer.closedBytes_length]
  have front : frame.ring.front headerSize = frame.bytes.take headerSize := by
    rw [frame.ring.front_eq, FrontFrame.bytes, List.take_take, Nat.min_eq_left (by omega)]
  rw [FrontFrame.header, front, closed, Serializer.closedBytes_sizeField, Serializer.headerOf_sizeField _ _ short]

theorem opens_of_closed {frame : FrontFrame} {payload : List Byte} {key : Byte}
    (closed : frame.bytes = Serializer.closedBytes getStatickey (Serializer.headerOf key payload) payload)
    (short : payload.length ≤ 32767) (pooled : PooledSerializer) : Opens (frame.packet pooled) payload := by
  have sizeField := sizeField_of_closed closed short
  have nonneg : 0 ≤ frame.header.sizeField := by omega
  have length : frame.bytes.length = headerSize + payload.length := by
    rw [closed, Serializer.closedBytes_length]
  refine ⟨?_, ?_, ?_⟩
  · rw [frame.decryption_eq pooled nonneg, closed, Serializer.checkSumRest_closedBytes]
    rfl
  · rw [frame.payloadLength_eq pooled nonneg]
    omega
  · intro offset count inside
    rw [FrontFrame.packet_bufferPtr, frame.read_plainMemory pooled nonneg offset count (by omega), closed,
      Serializer.plainBytes_closedBytes, ← List.drop_drop, List.drop_left' (Serializer.toBytes_length _)]

/-! ## Type and account -/

/-- Both packets of a login begin with a type and an account. -/
def addressed (type : BitVec 16) (accountNo : BitVec 64) (rest : List Byte) : List Byte :=
  littleEndianBytes 2 type.toNat ++ (littleEndianBytes 8 accountNo.toNat ++ rest)

section Addressed

variable {packet : Serializer} {type : BitVec 16} {accountNo : BitVec 64} {rest : List Byte}

theorem addressed_length (type : BitVec 16) (accountNo : BitVec 64) (rest : List Byte) :
    (addressed type accountNo rest).length = 10 + rest.length := by
  simp only [addressed, List.length_append, littleEndianBytes_length]
  omega

/-- An integer reads back what was written. -/
theorem ofNat_littleEndianBytes {bits : Nat} (count : Nat) (value : BitVec bits) (wide : bits = 8 * count) :
    BitVec.ofNat bits (littleEndian (littleEndianBytes count value.toNat)) = value := by
  subst wide
  have small : value.toNat < 256 ^ count := by
    have bound := value.isLt
    rwa [Nat.pow_mul] at bound
  rw [littleEndian_littleEndianBytes, Nat.mod_eq_of_lt small, BitVec.ofNat_toNat, BitVec.setWidth_eq]

variable (opens : Opens packet (addressed type accountNo rest))

include opens

theorem Opens.typeField_eq : typeField packet = type := by
  have content := opens.content 0 2 (by rw [addressed_length]; omega)
  rw [Nat.add_zero, List.drop_zero, addressed, List.take_left' (littleEndianBytes_length 2 _)] at content
  rw [typeField, content]
  exact ofNat_littleEndianBytes 2 type rfl

theorem Opens.accountNoField_eq : accountNoField packet = accountNo := by
  have content := opens.content 2 8 (by rw [addressed_length]; omega)
  have length := opens.length
  rw [addressed, List.drop_left' (littleEndianBytes_length 2 _),
    List.take_left' (littleEndianBytes_length 8 _)] at content
  rw [addressed_length] at length
  rw [accountNoField, Nat.min_eq_left (by omega), content]
  exact ofNat_littleEndianBytes 8 accountNo rfl

/-- What follows the account. -/
theorem Opens.rest_eq (offset count : Nat) (inside : offset + count ≤ rest.length) :
    read (plainMemory packet) (packet.bufferPtr + headerSize + (10 + offset)) count =
      (rest.drop offset).take count := by
  have content := opens.content (10 + offset) count (by rw [addressed_length]; omega)
  have front : (littleEndianBytes 2 type.toNat ++ littleEndianBytes 8 accountNo.toNat).length = 10 := by
    rw [List.length_append, littleEndianBytes_length, littleEndianBytes_length]
  rw [content, addressed, ← List.append_assoc, ← List.drop_drop, List.drop_left' front]

end Addressed

/-! ## The request -/

/-- The payload of a request to log in. -/
def loginPayload (accountNo : BitVec 64) (sessionKey : List Byte) : List Byte := addressed 101 accountNo sessionKey

section Request

variable {packet : Serializer} {accountNo : BitVec 64} {sessionKey : List Byte}

theorem taken_of_opens (opens : Opens packet (loginPayload accountNo sessionKey)) : ¬ TurnedAway packet := by
  rintro (bad | other)
  · cases bad.symm.trans opens.accepted
  · exact other opens.typeField_eq

theorem sessionKeyField_of_opens (opens : Opens packet (loginPayload accountNo sessionKey))
    (whole : sessionKey.length = 64) : sessionKeyField packet = sessionKey := by
  have length := opens.length
  have content := opens.rest_eq 0 64 (by omega)
  rw [loginPayload, addressed_length] at length
  rw [sessionKeyField, Nat.min_eq_left (by omega), content, List.drop_zero,
    List.take_of_length_le (Nat.le_of_eq whole)]

end Request

/-! ## The response -/

/-- The client finds a success for its own account, and where the chatting server is. -/
structure Answered (packet : Serializer) (accountNo : BitVec 64) : Prop where
  accepted : (packet.decryption getStatickey).1 = true
  type : typeField packet = 102
  account : accountNoField packet = accountNo
  status : read (plainMemory packet) (packet.bufferPtr + headerSize + 10) 1 = [1]
  chatIp : read (plainMemory packet) (packet.bufferPtr + headerSize + 125) 32 = chattingServerIp
  chatPort : read (plainMemory packet) (packet.bufferPtr + headerSize + 157) 2 = littleEndianBytes 2 12001

/-- What a response has behind the account. -/
def responseRest (temp : List Byte) : List Byte :=
  littleEndianBytes 1 (1 : BitVec 8).toNat ++ (temp ++ (temp ++ (temp.take 32 ++
    (littleEndianBytes 2 (0 : BitVec 16).toNat ++
      (chattingServerIp ++ littleEndianBytes 2 (12001 : BitVec 16).toNat)))))

theorem responsePayload_addressed (accountNo : BitVec 64) (temp : List Byte) :
    responsePayload accountNo temp = addressed 102 accountNo (responseRest temp) := by
  simp only [responsePayload_eq, addressed, responseRest, List.append_assoc]

theorem answered_of_opens {packet : Serializer} {accountNo : BitVec 64} {temp : StackBytes 40}
    (opens : Opens packet (responsePayload accountNo temp.bytes)) : Answered packet accountNo := by
  have chatIp : chattingServerIp.length = 32 := by decide
  have game : (temp.bytes.take 32).length = 32 := by rw [List.length_take, temp.length_eq]; rfl
  have names : (littleEndianBytes 1 (1 : BitVec 8).toNat ++ (temp.bytes ++ (temp.bytes ++ (temp.bytes.take 32 ++
      littleEndianBytes 2 (0 : BitVec 16).toNat)))).length = 115 := by
    simp only [List.length_append, littleEndianBytes_length, temp.length_eq, game]
  have parts : responseRest temp.bytes = (littleEndianBytes 1 (1 : BitVec 8).toNat ++ (temp.bytes ++
      (temp.bytes ++ (temp.bytes.take 32 ++ littleEndianBytes 2 (0 : BitVec 16).toNat)))) ++
        (chattingServerIp ++ littleEndianBytes 2 (12001 : BitVec 16).toNat) := by
    simp only [responseRest, List.append_assoc]
  have length : (responseRest temp.bytes).length = 149 := by
    rw [parts, List.length_append, names, List.length_append, chatIp, littleEndianBytes_length]
  rw [responsePayload_addressed] at opens
  refine ⟨opens.accepted, opens.typeField_eq, opens.accountNoField_eq, ?_, ?_, ?_⟩
  · exact opens.rest_eq 0 1 (by omega)
  · rw [opens.rest_eq 115 32 (by omega), parts, List.drop_left' names, List.take_left' chatIp]
  · rw [opens.rest_eq 147 2 (by omega), parts, show 147 = 115 + 32 from rfl, ← List.drop_drop,
      List.drop_left' names, List.drop_left' chatIp]
    rfl

/-! ## The dialogue -/

/-- The packets a run sends, and to whom. -/
def sentPackets (events : List (Event loginInterface)) : List (SessionID × Serializer) :=
  events.filterMap fun
    | ⟨.sendReq sessionID _ packet, _⟩ => some (sessionID, packet)
    | _ => none

/-- Whatever the pooled serializers and the stack held, and under whatever random key the client
sealed its packet, the database is asked about the client's account, Redis gets the client's
key, and the one packet that is sent tells the client that it is logged in. -/
theorem login_answered {accountNo : BitVec 64} {sessionKey : List Byte} (whole : sessionKey.length = 64)
    {request : FrontFrame} (brings : Brings request (loginPayload accountNo sessionKey))
    (pooled : PooledSerializer) {sessionID : SessionID} {events : List (Event loginInterface)}
    (run : (onRecv sessionID (request.packet pooled)).Runs events ()) :
    decisions events = [.lookUp ("select sessionkey from sessionkey where accountno = " ++ toString accountNo ++ ";"),
        .store (toString accountNo) sessionKey] ∧
      Exists fun response => sentPackets events = [(sessionID, response)] ∧
        forall back : FrontFrame, back.bytes = response.bytes ->
          forall pooled', Answered (back.packet pooled') accountNo := by
  have short : (loginPayload accountNo sessionKey).length ≤ 32767 := by
    rw [loginPayload, addressed_length]
    omega
  rcases brings.closed short with ⟨_, closed⟩
  have opens := opens_of_closed closed short pooled
  have received := request.received pooled
  have taken := taken_of_opens opens
  have account : accountNoField (request.packet pooled) = accountNo := opens.accountNoField_eq
  have key := sessionKeyField_of_opens opens whole
  rw [onRecv_runs_login sessionID _ received taken] at run
  rcases run with ⟨rows, rest, rfl, sends⟩
  rw [sendResponse_runs] at sends
  rcases sends with ⟨buffer, temp, randKey, rfl⟩
  rw [account, key]
  refine ⟨rfl, _, rfl, fun back same pooled' => ?_⟩
  have arrived := same.trans (sentResponse_bytes buffer accountNo temp randKey)
  have fits : (responsePayload accountNo temp.bytes).length ≤ 32767 := by
    rw [responsePayload_length]
    decide
  exact answered_of_opens (opens_of_closed arrived fits pooled')

/-- The key in the invented login. -/
def inventedKey : List Byte := (plainBytes getStatickey inventedLogin).drop 15

/-- The client's packet before `setHeader`. -/
def inventedRequest : Serializer := ⟨write (fun _ => 0) 69 (loginPayload 7 inventedKey), 64, 1024, 69, 143⟩

theorem inventedFrame_brings : Brings inventedFrame (loginPayload 7 inventedKey) := by
  have ordered : inventedRequest.WellFormed := ⟨by decide, by decide, by decide, by decide⟩
  have content : inventedRequest.bytes = loginPayload 7 inventedKey := by decide +kernel
  have short : inventedRequest.bytes.length ≤ 32767 := by
    rw [content]
    decide +kernel
  refine ⟨inventedRequest, 9, ⟨ordered, rfl, content⟩, ?_⟩
  rw [Serializer.sealed_bytes ordered rfl short, content]
  decide +kernel

theorem login_answered_invented : Exists fun events =>
    (onRecv 0 (inventedFrame.packet freshSerializer)).Runs events () ∧
      decisions events = [.lookUp "select sessionkey from sessionkey where accountno = 7;",
        .store "7" inventedKey] := by
  rcases exists_login_run 0 _ (inventedFrame.received freshSerializer) inventedFrame_taken
    ⟨0, freshSerializer, fun size => size⟩ with ⟨events, run⟩
  have whole : inventedKey.length = 64 := by decide +kernel
  exact ⟨events, run, (login_answered whole inventedFrame_brings freshSerializer run).1⟩

end Login
end LoginServer
