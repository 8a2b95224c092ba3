import LoginServer.Buffers.Writing
import LoginServer.Login.Execution

namespace LoginServer
namespace Login

open Memory Buffers Receiving Concurrency

/-!
# Login authenticity

A login is genuine when the frame presents 64 key bytes and the database holds
exactly these for the account.  `OnRecv` asks the database and then accepts
whatever it answers, so that acceptance shows only that the checksum and the
type were right.  The theorem of this module says for which packets the handler
nevertheless does what authentication requires: those it rejects anyway, and
those whose login is genuine.
-/

/-- The session keys the database holds, by account. -/
abbrev SessionKeys := BitVec 64 -> Option (List Byte)

/-- The frame presents a session key, and it is the one that the database holds for the account
that the frame names. -/
def Genuine (database : SessionKeys) (packet : Serializer) : Prop :=
  74 ≤ payloadLength packet ∧
    database (BitVec.ofNat 64 (littleEndian
      (read (plainMemory packet) (packet.bufferPtr + headerSize + 2) 8))) =
        some (read (plainMemory packet) (packet.bufferPtr + headerSize + 10) 64)

/-- The handler's own tests turn the packet away. -/
def TurnedAway (packet : Serializer) : Prop :=
  (packet.decryption getStatickey).1 = false ∨ typeField packet ≠ 101

/-- An encrypted packet whose payload starts with type 102, the account and
status 1. -/
def SuccessResponse (accountNo : BitVec 64) (response : Serializer) : Prop :=
  Exists fun plain : Serializer => response = plain.encryption getStatickey ∧
    littleEndianBytes 2 102 ++ littleEndianBytes 8 accountNo.toNat ++ [1] <+:
      plain.bytes.drop headerSize

def Stores (field : String) (value : List Byte) (event : Event loginInterface) : Prop :=
  Exists fun expire => event = ⟨.redisSet field value expire, ()⟩

def Sends (sessionID : SessionID) (response : Serializer) (event : Event loginInterface) : Prop :=
  Exists fun pointer => event = ⟨.sendReq sessionID pointer response, ()⟩

/-- The run stores the presented key under the presented account and answers
with success. -/
def LogsIn (sessionID : SessionID) (packet : Serializer) (events : List (Event loginInterface)) :
    Prop :=
  (Exists fun event => event ∈ events ∧
    Stores (toString (accountNoField packet)) (sessionKeyField packet) event) ∧
  Exists fun response => SuccessResponse (accountNoField packet) response ∧
    Exists fun event => event ∈ events ∧ Sends sessionID response event

/-- The run disconnects the session, stores nothing and sends nothing. -/
def Rejects (sessionID : SessionID) (events : List (Event loginInterface)) : Prop :=
  ⟨.disconnectReq sessionID, ()⟩ ∈ events ∧
    (forall event, event ∈ events -> forall field value, ¬ Stores field value event) ∧
    forall event, event ∈ events -> forall target response, ¬ Sends target response event

/-- What authentication asks of a run: a genuine login is logged in, or the
session is rejected. -/
def Authentic (database : SessionKeys) (sessionID : SessionID) (packet : Serializer)
    (events : List (Event loginInterface)) : Prop :=
  (Genuine database packet ∧ LogsIn sessionID packet events) ∨ Rejects sessionID events

/-! ## The response -/

/-- The fields of a response, in the order they are written. -/
def responseFields (accountNo : BitVec 64) (temp : List Byte) : List (List Byte) :=
  [littleEndianBytes 2 (102 : BitVec 16).toNat, littleEndianBytes 8 accountNo.toNat,
    littleEndianBytes 1 (1 : BitVec 8).toNat, temp, temp, temp.take 32,
    littleEndianBytes 2 (0 : BitVec 16).toNat, chattingServerIp,
    littleEndianBytes 2 (12001 : BitVec 16).toNat]

theorem prepare_room (pooled : PooledSerializer) : (prepare pooled).Room 250 where
  wellFormed := prepare_wellFormed pooled
  enough := by
    have capacity := pooled.capacity
    rw [(prepare_wellFormed pooled).useableSize_eq, prepare_tailPtr, prepare_bufferPtr,
      prepare_bufferSize]
    unfold headerSize
    omega

theorem prepare_bytes (pooled : PooledSerializer) : (prepare pooled).bytes = [] := by
  rw [Serializer.bytes, (prepare_wellFormed pooled).size_eq, prepare_tailPtr, prepare_headPtr,
    Nat.sub_self, read_zero]

/-- A prepared serializer takes all fields of a response without growing. -/
theorem responseBody_eq (buffer : PacketBuffer) (accountNo : BitVec 64) (temp : StackBytes 40) :
    (prepare buffer.pooled).Room (responseFields accountNo temp.bytes).flatten.length ∧
      responseBody buffer accountNo temp.bytes =
        some ((responseFields accountNo temp.bytes).foldl Serializer.append
          (prepare buffer.pooled)) := by
  have names := temp.length_eq
  have gameIp : (temp.bytes.take 32).length = 32 := by rw [List.length_take]; omega
  have chatIp : chattingServerIp.length = 32 := by decide
  unfold responseBody Serializer.insertUnsignedShort Serializer.insertUnsignedLongLong
    Serializer.insertByte responseFields
  have typeLength := littleEndianBytes_length 2 (102 : BitVec 16).toNat
  have accountLength := littleEndianBytes_length 8 accountNo.toNat
  have statusLength := littleEndianBytes_length 1 (1 : BitVec 8).toNat
  have gamePortLength := littleEndianBytes_length 2 (0 : BitVec 16).toNat
  have chatPortLength := littleEndianBytes_length 2 (12001 : BitVec 16).toNat
  generalize littleEndianBytes 2 (102 : BitVec 16).toNat = type at *
  generalize littleEndianBytes 8 accountNo.toNat = account at *
  generalize littleEndianBytes 1 (1 : BitVec 8).toNat = status at *
  generalize littleEndianBytes 2 (0 : BitVec 16).toNat = gamePort at *
  generalize littleEndianBytes 2 (12001 : BitVec 16).toNat = chatPort at *
  generalize temp.bytes.take 32 = game at *
  have narrowNames : temp.bytes.length < 2 ^ 31 := by omega
  have narrowGame : game.length < 2 ^ 31 := by omega
  have narrowChat : chattingServerIp.length < 2 ^ 31 := by omega
  have room : (prepare buffer.pooled).Room (type.length + (account.length + (status.length +
      (temp.bytes.length + (temp.bytes.length + (game.length + (gamePort.length +
        (chattingServerIp.length + (chatPort.length + 0))))))))) :=
    ⟨(prepare_room buffer.pooled).wellFormed,
      Nat.le_trans (by omega) (prepare_room buffer.pooled).enough⟩
  refine ⟨⟨room.wellFormed, Nat.le_trans (Nat.le_of_eq ?_) room.enough⟩, ?_⟩
  · simp only [List.flatten_cons, List.flatten_nil, List.length_append, List.length_nil]
  · simp only [room.insert_eq, room.append.insert_eq, room.append.append.insert_eq,
      room.append.append.append.setWstring_eq narrowNames,
      room.append.append.append.append.setWstring_eq narrowNames,
      room.append.append.append.append.append.setWstring_eq narrowGame,
      room.append.append.append.append.append.append.insert_eq,
      room.append.append.append.append.append.append.append.setWstring_eq narrowChat,
      room.append.append.append.append.append.append.append.append.insert_eq,
      List.foldl_cons, List.foldl_nil, Option.bind_eq_bind, Option.bind_some]

/-- What is sent is the encryption of a success response. -/
theorem successResponse_sent (buffer : PacketBuffer) (accountNo : BitVec 64)
    (temp : StackBytes 40) (key : Byte) :
    SuccessResponse accountNo
      (((((responseFields accountNo temp.bytes).foldl Serializer.append
        (prepare buffer.pooled)).setHeader key).encryption getStatickey)) := by
  have room := (responseBody_eq buffer accountNo temp).1
  have places := Serializer.Room.foldl_append_headPtr (responseFields accountNo temp.bytes)
    (prepare buffer.pooled)
  have behind : ((responseFields accountNo temp.bytes).foldl Serializer.append
      (prepare buffer.pooled)).headPtr =
        ((responseFields accountNo temp.bytes).foldl Serializer.append
          (prepare buffer.pooled)).bufferPtr + headerSize := by
    rw [places.1, places.2, prepare_headPtr, prepare_bufferPtr]
  refine ⟨_, rfl, ?_⟩
  rw [Serializer.setHeader_bytes room.foldl_append_wellFormed behind key, room.foldl_append_bytes,
    prepare_bytes, List.nil_append]
  refine ⟨(responseFields accountNo temp.bytes).drop 3 |>.flatten, ?_⟩
  simp only [responseFields, List.drop_succ_cons, List.drop_zero, List.flatten_cons,
    List.append_assoc]
  rfl

/-! ## Runs -/

/-- The runs of the response part: it always sends, and sends once. -/
theorem sendResponse_runs (sessionID : SessionID) (accountNo : BitVec 64)
    (events : List (Event loginInterface)) :
    (sendResponse sessionID accountNo).Runs events () ↔
      Exists fun buffer => Exists fun temp => Exists fun key => events =
        [⟨.packetNew, buffer⟩, ⟨.stackBytes 40, temp⟩, ⟨.getRandKey, key⟩,
          ⟨.sendReq sessionID buffer.pointer
            ((((responseFields accountNo temp.bytes).foldl Serializer.append
              (prepare buffer.pooled)).setHeader key).encryption getStatickey), ()⟩,
          ⟨.packetDelete buffer.pointer, ()⟩] := by
  have body (buffer : PacketBuffer) (temp : StackBytes 40) :=
    (responseBody_eq buffer accountNo temp).2
  simp only [sendResponse, packetNew, stackBytes, getRandKey, sendReq, packetDelete,
    Program.perform, Program.bind_step, Program.bind_done, Program.runs_step_iff, body,
    Program.runs_done_iff]
  constructor
  · rintro ⟨buffer, _, rfl, temp, _, rfl, key, _, rfl, _, _, rfl, _, _, rfl, rfl, _⟩
    exact ⟨buffer, temp, key, rfl⟩
  · rintro ⟨buffer, temp, key, rfl⟩
    exact ⟨buffer, _, rfl, temp, _, rfl, key, _, rfl, (), _, rfl, (), _, rfl, rfl, trivial⟩

/-- The runs on a packet with a bad checksum. -/
theorem onRecv_runs_checkSum (sessionID : SessionID) (packet : Serializer)
    (received : Received packet) (bad : (packet.decryption getStatickey).1 = false)
    (events : List (Event loginInterface)) :
    (onRecv sessionID packet).Runs events () ↔
      events = [⟨.log ("checkSum error ID " ++ toString sessionID), ()⟩,
        ⟨.disconnectReq sessionID, ()⟩] := by
  rw [onRecv_eq sessionID packet received, bad, if_neg Bool.false_ne_true]
  simp only [Program.runs_step_iff, Program.runs_done_iff]
  constructor
  · rintro ⟨_, _, rfl, _, _, rfl, rfl, _⟩
    rfl
  · rintro rfl
    exact ⟨(), _, rfl, (), _, rfl, rfl, trivial⟩

/-- The runs on a packet of another type. -/
theorem onRecv_runs_type (sessionID : SessionID) (packet : Serializer)
    (received : Received packet) (good : (packet.decryption getStatickey).1 = true)
    (other : typeField packet ≠ 101) (events : List (Event loginInterface)) :
    (onRecv sessionID packet).Runs events () ↔ events = [⟨.disconnectReq sessionID, ()⟩] := by
  rw [onRecv_eq sessionID packet received, if_pos good, if_pos other]
  simp only [Program.runs_step_iff, Program.runs_done_iff]
  constructor
  · rintro ⟨_, _, rfl, rfl, _⟩
    rfl
  · rintro rfl
    exact ⟨(), _, rfl, rfl, trivial⟩

/-- The runs on a packet the handler does not turn away. -/
theorem onRecv_runs_login (sessionID : SessionID) (packet : Serializer)
    (received : Received packet) (taken : ¬ TurnedAway packet)
    (events : List (Event loginInterface)) :
    (onRecv sessionID packet).Runs events () ↔
      Exists fun rows => Exists fun rest =>
        events = ⟨.query ("select sessionkey from sessionkey where accountno = " ++
            toString (accountNoField packet) ++ ";"), rows⟩ ::
          ⟨.redisSet (toString (accountNoField packet)) (sessionKeyField packet) 1, ()⟩ :: rest ∧
          (sendResponse sessionID (accountNoField packet)).Runs rest () := by
  have good : (packet.decryption getStatickey).1 = true := by
    by_contra bad
    exact taken (Or.inl (Bool.eq_false_iff.mpr bad))
  have type : ¬ typeField packet ≠ 101 := fun other => taken (Or.inr other)
  rw [onRecv_eq sessionID packet received, if_pos good, if_neg type]
  simp only [Program.runs_step_iff]
  constructor
  · rintro ⟨rows, _, rfl, _, rest, rfl, run⟩
    exact ⟨rows, rest, rfl, run⟩
  · rintro ⟨rows, rest, rfl, run⟩
    exact ⟨rows, _, rfl, (), rest, rfl, run⟩

/-! ## When the handler authenticates -/

theorem rejects_of_turnedAway (sessionID : SessionID) (packet : Serializer)
    (received : Received packet) (away : TurnedAway packet) (events : List (Event loginInterface))
    (run : (onRecv sessionID packet).Runs events ()) : Rejects sessionID events := by
  cases good : (packet.decryption getStatickey).1 with
  | false =>
      rw [onRecv_runs_checkSum sessionID packet received good] at run
      subst run
      refine ⟨by simp, ?_, ?_⟩
      · rintro event member field value ⟨expire, rfl⟩
        simp at member
      · rintro event member target response ⟨pointer, rfl⟩
        simp at member
  | true =>
      rcases away with bad | other
      · exact absurd (good.symm.trans bad) Bool.noConfusion
      · rw [onRecv_runs_type sessionID packet received good other] at run
        subst run
        refine ⟨by simp, ?_, ?_⟩
        · rintro event member field value ⟨expire, rfl⟩
          simp at member
        · rintro event member target response ⟨pointer, rfl⟩
          simp at member

/-- A packet that is not turned away is logged in, whatever the database
answered. -/
theorem logsIn_of_taken (sessionID : SessionID) (packet : Serializer)
    (received : Received packet) (taken : ¬ TurnedAway packet) (events : List (Event loginInterface))
    (run : (onRecv sessionID packet).Runs events ()) : LogsIn sessionID packet events := by
  rw [onRecv_runs_login sessionID packet received taken] at run
  rcases run with ⟨rows, rest, rfl, response⟩
  rw [sendResponse_runs] at response
  rcases response with ⟨buffer, temp, key, rfl⟩
  refine ⟨⟨⟨.redisSet (toString (accountNoField packet)) (sessionKeyField packet) 1, ()⟩,
    by simp, 1, rfl⟩, _, successResponse_sent buffer (accountNoField packet) temp key, _, ?_, buffer.pointer, rfl⟩
  simp

/-- Some pooled buffer, stack content and key always let the handler finish. -/
theorem exists_login_run (sessionID : SessionID) (packet : Serializer)
    (received : Received packet) (taken : ¬ TurnedAway packet) (buffer : PacketBuffer) :
    Exists fun events => (onRecv sessionID packet).Runs events () := by
  let temp : StackBytes 40 := ⟨List.replicate 40 0, by decide⟩
  exact ⟨_, (onRecv_runs_login sessionID packet received taken _).mpr
    ⟨[], _, rfl, (sendResponse_runs sessionID _ _).mpr ⟨buffer, temp, 0, rfl⟩⟩⟩

/-- Over every frame, every answer of the database and whatever a pooled serializer held before,
`OnRecv` authenticates exactly those packets that it turns away by their checksum or type, and
those whose login is genuine.  The comment above `sessionKeyCheckByDatabase` promises more: the
query is run, and its rows are ignored. -/
theorem onRecv_authentic_iff (database : SessionKeys) (sessionID : SessionID) (frame : FrontFrame)
    (pooled : PooledSerializer) :
    (forall events, (onRecv sessionID (frame.packet pooled)).Runs events () ->
      Authentic database sessionID (frame.packet pooled) events) ↔
        TurnedAway (frame.packet pooled) ∨ Genuine database (frame.packet pooled) := by
  have received := frame.received pooled
  constructor
  · intro authentic
    by_cases away : TurnedAway (frame.packet pooled)
    · exact Or.inl away
    · right
      rcases exists_login_run sessionID _ received away ⟨0, pooled, fun size => size⟩ with ⟨events, run⟩
      rcases authentic events run with ⟨genuine, _⟩ | ⟨_, stores, _⟩
      · exact genuine
      · rcases (logsIn_of_taken sessionID _ received away events run).1 with ⟨event, member, stored⟩
        exact absurd stored (stores event member _ _)
  · intro condition events run
    by_cases away : TurnedAway (frame.packet pooled)
    · exact Or.inr (rejects_of_turnedAway sessionID _ received away events run)
    · rcases condition with turned | genuine
      · exact absurd turned away
      · exact Or.inl ⟨genuine, logsIn_of_taken sessionID _ received away events run⟩

/-- A login frame of account 7 with an invented key. -/
def inventedLogin : List Byte :=
  [0x77, 0x4A, 0x00, 0x09, 0x95, 0x1D, 0xB2, 0x02, 0xC1, 0xFE, 0x20, 0x72, 0x97, 0x9E, 0xBA, 0xCF,
    0x02, 0x20, 0x5A, 0x89, 0xA2, 0x2E, 0xD6, 0x9F, 0x06, 0xF0, 0xA6, 0x71, 0x5E, 0xEE, 0x12, 0x6F,
    0xCA, 0xC0, 0x52, 0x89, 0xCA, 0x1E, 0x1E, 0xAF, 0x4E, 0x90, 0xCE, 0x31, 0x86, 0x9E, 0x0A, 0x0F,
    0xB2, 0x40, 0x6A, 0x89, 0xD2, 0x0E, 0x46, 0x9F, 0x36, 0xB0, 0x36, 0x91, 0xCE, 0x0E, 0x42, 0x8F,
    0x3A, 0xE0, 0x82, 0xA9, 0xFA, 0x1E, 0x6E, 0xEF, 0x7E, 0xD0, 0x7E, 0x31, 0xF6, 0x9E, 0x1A]

def inventedRing : RecvBuffer := loadedRecvBuffer (write (fun _ => 0) 1 inventedLogin) 0 79

def inventedFrame : FrontFrame where
  ring := inventedRing
  enough := by decide
  complete := by decide

theorem inventedFrame_taken : ¬ TurnedAway (inventedFrame.packet freshSerializer) := by
  have nonneg : 0 ≤ inventedFrame.header.sizeField := by decide
  have bytes : inventedFrame.bytes = inventedLogin := by decide +kernel
  have sum : checkSumRest getStatickey inventedLogin = 0 := by decide +kernel
  have type : ((plainBytes getStatickey inventedLogin).drop headerSize).take 2 = [101, 0] := by decide +kernel
  rintro (bad | other)
  · rw [inventedFrame.decryption_eq freshSerializer nonneg, bytes, sum] at bad
    exact absurd bad (by decide)
  · have field := inventedFrame.read_plainMemory freshSerializer nonneg 0 2
      (by rw [bytes]; decide)
    rw [Nat.add_zero, Nat.add_zero, bytes, type] at field
    rw [typeField, FrontFrame.packet_bufferPtr, field] at other
    exact other (by decide)

/-- With an empty database the invented login is stored and answered all the
same. -/
theorem inventedLogin_accepted :
    ¬ forall events, (onRecv 0 (inventedFrame.packet freshSerializer)).Runs events () ->
      Authentic (fun _ => none) 0 (inventedFrame.packet freshSerializer) events := by
  intro authentic
  have received := inventedFrame.received freshSerializer
  rcases exists_login_run 0 _ received inventedFrame_taken ⟨0, freshSerializer, fun size => size⟩ with
    ⟨events, run⟩
  rcases authentic events run with ⟨⟨_, stored⟩, _⟩ | ⟨_, stores, _⟩
  · cases stored
  · rcases (logsIn_of_taken 0 _ received inventedFrame_taken events run).1 with
      ⟨event, member, stored⟩
    exact stores event member _ _ stored

end Login
end LoginServer
