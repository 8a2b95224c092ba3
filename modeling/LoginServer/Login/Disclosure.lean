import LoginServer.Buffers.RoundTrip
import LoginServer.Login.Isolation

namespace LoginServer
namespace Login

open Memory Buffers Receiving Concurrency

/-!
# What a response discloses

The id, the nickname and the game address of a response are copied out of one
array on the stack that nothing has written to.  The checksum is taken over them
and the cipher chains them into all later bytes, but the cipher can be undone by
whoever has the frame.

So two responses to the same account under the same key are the same frame
exactly when that array held the same forty bytes.  Nothing else of what the
handler finds in its surroundings reaches the frame: not the pooled buffer it
writes to, not the session, not the packet.
-/

/-- The bytes behind the header of a response. -/
def responsePayload (accountNo : BitVec 64) (temp : List Byte) : List Byte :=
  (responseFields accountNo temp).flatten

/-- A response as it is sent: header, checksum and encrypted payload. -/
def responseFrame (accountNo : BitVec 64) (temp : List Byte) (key : Byte) : List Byte :=
  Serializer.closedBytes getStatickey (Serializer.headerOf key (responsePayload accountNo temp))
    (responsePayload accountNo temp)

theorem responsePayload_eq (accountNo : BitVec 64) (temp : List Byte) :
    responsePayload accountNo temp =
      (littleEndianBytes 2 (102 : BitVec 16).toNat ++ littleEndianBytes 8 accountNo.toNat ++
        littleEndianBytes 1 (1 : BitVec 8).toNat) ++ (temp ++ (temp ++ (temp.take 32 ++
          (littleEndianBytes 2 (0 : BitVec 16).toNat ++
            (chattingServerIp ++ littleEndianBytes 2 (12001 : BitVec 16).toNat))))) := by
  simp only [responsePayload, responseFields, List.flatten_cons, List.flatten_nil, List.append_nil,
    List.append_assoc]

theorem responsePayload_length (accountNo : BitVec 64) (temp : StackBytes 40) :
    (responsePayload accountNo temp.bytes).length = 159 := by
  have names := temp.length_eq
  have chatIp : chattingServerIp.length = 32 := by decide
  simp only [responsePayload_eq, List.length_append, littleEndianBytes_length, List.length_take]
  omega

/-- The forty bytes can be read off the payload. -/
theorem responsePayload_temp (accountNo : BitVec 64) (temp : StackBytes 40) :
    ((responsePayload accountNo temp.bytes).drop 11).take 40 = temp.bytes := by
  have front : (littleEndianBytes 2 (102 : BitVec 16).toNat ++ littleEndianBytes 8 accountNo.toNat ++
      littleEndianBytes 1 (1 : BitVec 8).toNat).length = 11 := by
    simp only [List.length_append, littleEndianBytes_length]
  rw [responsePayload_eq, List.drop_left' front, List.take_left' temp.length_eq]

/-- Under one key and for one account, frames are equal only if the array was. -/
theorem responseFrame_eq_iff (accountNo : BitVec 64) (temp temp' : StackBytes 40) (key : Byte) :
    responseFrame accountNo temp.bytes key = responseFrame accountNo temp'.bytes key ↔
      temp.bytes = temp'.bytes := by
  constructor
  · intro same
    have payloads : responsePayload accountNo temp.bytes = responsePayload accountNo temp'.bytes :=
      Serializer.closedBytes_injective same
    rw [← responsePayload_temp accountNo temp, payloads, responsePayload_temp]
  · intro same
    rw [same]

/-- The content of the serializer that `OnRecv` passes to `sendReq`.  What the
pooled buffer held before is not in it. -/
theorem sentResponse_bytes (buffer : PacketBuffer) (accountNo : BitVec 64) (temp : StackBytes 40)
    (key : Byte) :
    ((((responseFields accountNo temp.bytes).foldl Serializer.append
      (prepare buffer.pooled)).setHeader key).encryption getStatickey).bytes =
        responseFrame accountNo temp.bytes key := by
  have room := (responseBody_eq buffer accountNo temp).1
  have places := Serializer.Room.foldl_append_headPtr (responseFields accountNo temp.bytes)
    (prepare buffer.pooled)
  have behind : ((responseFields accountNo temp.bytes).foldl Serializer.append
      (prepare buffer.pooled)).headPtr =
        ((responseFields accountNo temp.bytes).foldl Serializer.append
          (prepare buffer.pooled)).bufferPtr + headerSize := by
    rw [places.1, places.2, prepare_headPtr, prepare_bufferPtr]
  have content : ((responseFields accountNo temp.bytes).foldl Serializer.append
      (prepare buffer.pooled)).bytes = responsePayload accountNo temp.bytes := by
    rw [room.foldl_append_bytes, prepare_bytes, List.nil_append, responsePayload]
  have length := responsePayload_length accountNo temp
  have closed := Serializer.sealed_bytes room.foldl_append_wellFormed behind
    (by rw [content, length]; decide) key getStatickey
  rwa [content] at closed

/-! ## Two runs -/

/-- What a run found on the stack and got as its random key, and the frame it sent. -/
structure Responds (events : List (Event loginInterface)) (temp : StackBytes 40) (key : Byte)
    (sent : List Byte) : Prop where
  stack : ⟨.stackBytes 40, temp⟩ ∈ events
  randKey : ⟨.getRandKey, key⟩ ∈ events
  frame : Exists fun sessionID => Exists fun pointer => Exists fun response : Serializer =>
    ⟨.sendReq sessionID pointer response, ()⟩ ∈ events ∧ response.bytes = sent

/-- Two runs that accept a login of the same account, and get the same key. -/
structure SameLogin (frame frame' : FrontFrame) (pooled pooled' : PooledSerializer)
    (temp temp' : StackBytes 40) (sent sent' : List Byte) : Prop where
  taken : ¬ TurnedAway (frame.packet pooled)
  taken' : ¬ TurnedAway (frame'.packet pooled')
  account : accountNoField (frame.packet pooled) = accountNoField (frame'.packet pooled')
  runs : Exists fun sessionID => Exists fun sessionID' => Exists fun events =>
    Exists fun events' => Exists fun key =>
      (onRecv sessionID (frame.packet pooled)).Runs events () ∧
        (onRecv sessionID' (frame'.packet pooled')).Runs events' () ∧
        Responds events temp key sent ∧ Responds events' temp' key sent'

/-- A run that accepts a login sends the frame of the account, the array and the key. -/
theorem sent_eq {sessionID : SessionID} {packet : Serializer} {events : List (Event loginInterface)}
    {temp : StackBytes 40} {key : Byte} {sent : List Byte} (received : Received packet)
    (taken : ¬ TurnedAway packet) (run : (onRecv sessionID packet).Runs events ())
    (responds : Responds events temp key sent) :
    sent = responseFrame (accountNoField packet) temp.bytes key := by
  rw [onRecv_runs_login sessionID packet received taken] at run
  rcases run with ⟨rows, rest, rfl, response⟩
  rw [sendResponse_runs] at response
  rcases response with ⟨buffer, found, given, rfl⟩
  rcases responds with ⟨stack, randKey, target, pointer, response, frame, bytes⟩
  have temps : temp = found := by simpa using stack
  have keys : key = given := by simpa using randKey
  have responses : response = (((responseFields (accountNoField packet) found.bytes).foldl
      Serializer.append (prepare buffer.pooled)).setHeader given).encryption getStatickey := by
    simp only [List.mem_cons, Event.mk.injEq, reduceCtorEq, false_and, LoginOp.sendReq.injEq,
      List.not_mem_nil, or_false, false_or] at frame
    exact frame.1.2.2
  rw [← bytes, responses, sentResponse_bytes, temps, keys]

/-- Whatever the pool, the stack and the key generator answer, the handler sends
the response. -/
theorem exists_response_run (sessionID : SessionID) (packet : Serializer)
    (received : Received packet) (taken : ¬ TurnedAway packet) (buffer : PacketBuffer)
    (temp : StackBytes 40) (key : Byte) :
    Exists fun events => (onRecv sessionID packet).Runs events () ∧
      Responds events temp key (responseFrame (accountNoField packet) temp.bytes key) := by
  refine ⟨_, (onRecv_runs_login sessionID packet received taken _).mpr
    ⟨[], _, rfl, (sendResponse_runs sessionID _ _).mpr ⟨buffer, temp, key, rfl⟩⟩, ?_⟩
  exact ⟨by simp, by simp, sessionID, buffer.pointer, _, by simp,
    sentResponse_bytes buffer (accountNoField packet) temp key⟩

/-- Two such runs send the same frame exactly when they found the same forty bytes in the
uninitialised array `temp`, all of which go to the client behind the fields that were written.
So the response tells the client what the stack held. -/
theorem responses_equal_iff {frame frame' : FrontFrame} {pooled pooled' : PooledSerializer}
    {temp temp' : StackBytes 40} {sent sent' : List Byte}
    (same : SameLogin frame frame' pooled pooled' temp temp' sent sent') :
    sent = sent' ↔ temp.bytes = temp'.bytes := by
  rcases same.runs with ⟨sessionID, sessionID', events, events', key, run, run', responds, responds'⟩
  rw [sent_eq (frame.received pooled) same.taken run responds,
    sent_eq (frame'.received pooled') same.taken' run' responds', ← same.account]
  exact responseFrame_eq_iff _ temp temp' key

/-- The array as forty equal bytes. -/
def filled (byte : Byte) : StackBytes 40 := ⟨List.replicate 40 byte, List.length_replicate⟩

/-- The response to the invented login, for what the array held. -/
def inventedResponse (byte : Byte) : List Byte :=
  responseFrame (accountNoField (inventedFrame.packet freshSerializer)) (filled byte).bytes 9

/-- Two runs on the invented login, with responses out of different buffers. -/
theorem inventedLogins_same (byte byte' : Byte) :
    SameLogin inventedFrame inventedFrame freshSerializer freshSerializer (filled byte)
      (filled byte') (inventedResponse byte) (inventedResponse byte') := by
  have received := inventedFrame.received freshSerializer
  rcases exists_response_run 0 _ received inventedFrame_taken
    ⟨0, freshSerializer, fun size => size⟩ (filled byte) 9 with ⟨events, run, responds⟩
  rcases exists_response_run 1 _ received inventedFrame_taken
    ⟨1, leftovers fun _ => 0xFF, fun size => size⟩ (filled byte') 9 with ⟨events', run', responds'⟩
  exact ⟨inventedFrame_taken, inventedFrame_taken, rfl, 0, 1, events, events', 9, run, run', responds,
    responds'⟩

theorem inventedResponses_equal_iff :
    inventedResponse 0 = inventedResponse 1 ↔ (filled 0).bytes = (filled 1).bytes :=
  responses_equal_iff (inventedLogins_same 0 1)

/-- The array can be told from the response. -/
theorem responses_disclose :
    ¬ forall (frame frame' : FrontFrame) (pooled pooled' : PooledSerializer)
      (temp temp' : StackBytes 40) (sent sent' : List Byte),
      SameLogin frame frame' pooled pooled' temp temp' sent sent' -> sent = sent' := by
  intro equal
  have same := equal _ _ _ _ _ _ _ _ (inventedLogins_same 0 1)
  have arrays := (responseFrame_eq_iff _ (filled 0) (filled 1) 9).mp same
  exact absurd arrays (by decide)

end Login
end LoginServer
