import LoginServer.Login.Authenticity

namespace LoginServer
namespace Login

open Memory Buffers Receiving Concurrency

/-!
# No data of another client

The pooled serializer under a frame still holds the packets of other clients.
Two runs on the same frame with different leftovers should come to the same
decision.  Since extraction reads past `tailPtr`, they do so only if the
decision falls before such a read: at the checksum, at a type byte of the
frame's own, or after a payload of full length.
-/

/-- The observable decisions of a run. -/
inductive Decision where
  | log (text : String)
  | reject (sessionID : SessionID)
  | lookUp (statement : String)
  | store (field : String) (value : List Byte)

def decision : Event loginInterface -> Option Decision
  | ⟨.log text, _⟩ => some (.log text)
  | ⟨.disconnectReq sessionID, _⟩ => some (.reject sessionID)
  | ⟨.query statement, _⟩ => some (.lookUp statement)
  | ⟨.redisSet field value _, _⟩ => some (.store field value)
  | _ => none

def decisions (events : List (Event loginInterface)) : List Decision := events.filterMap decision

/-- Equal queries had equal results. -/
def SameAnswers (first second : List (Event loginInterface)) : Prop :=
  forall statement (rows rows' : DbResult), ⟨.query statement, rows⟩ ∈ first ->
    ⟨.query statement, rows'⟩ ∈ second -> rows = rows'

/-- The decisions on a frame do not depend on what the pooled serializer held
before. -/
def Isolated (sessionID : SessionID) (frame : FrontFrame) : Prop :=
  forall (pooled pooled' : PooledSerializer) events events',
    (onRecv sessionID (frame.packet pooled)).Runs events () ->
      (onRecv sessionID (frame.packet pooled')).Runs events' () ->
        SameAnswers events events' -> decisions events = decisions events'

/-- The decrypted payload of a frame. -/
def FrontFrame.payload (frame : FrontFrame) : List Byte :=
  (plainBytes getStatickey frame.bytes).drop headerSize

/-- The frame's own bytes settle the decision: a size field from zero on, and a
bad checksum, a wrong type byte, or a payload that holds every field. -/
def SelfContained (frame : FrontFrame) : Prop :=
  0 ≤ frame.header.sizeField ∧
    (checkSumRest getStatickey frame.bytes ≠ 0 ∨
      (Exists fun byte => frame.payload[0]? = some byte ∧ byte ≠ 101) ∨
      (Exists fun byte => frame.payload[1]? = some byte ∧ byte ≠ 0) ∨
      74 ≤ frame.payload.length)

/-! ## The decisions of a packet -/

/-- The decisions every run on a packet takes. -/
def outcome (sessionID : SessionID) (packet : Serializer) : List Decision :=
  if (packet.decryption getStatickey).1 then
    if typeField packet ≠ 101 then [.reject sessionID]
    else [.lookUp ("select sessionkey from sessionkey where accountno = " ++
        toString (accountNoField packet) ++ ";"),
      .store (toString (accountNoField packet)) (sessionKeyField packet)]
  else [.log ("checkSum error ID " ++ toString sessionID), .reject sessionID]

theorem decisions_eq (sessionID : SessionID) (packet : Serializer) (received : Received packet)
    (events : List (Event loginInterface)) (run : (onRecv sessionID packet).Runs events ()) :
    decisions events = outcome sessionID packet := by
  cases good : (packet.decryption getStatickey).1 with
  | false =>
      rw [onRecv_runs_checkSum sessionID packet received good] at run
      subst run
      rw [outcome, good, if_neg Bool.false_ne_true]
      rfl
  | true =>
      by_cases other : typeField packet ≠ 101
      · rw [onRecv_runs_type sessionID packet received good other] at run
        subst run
        rw [outcome, if_pos good, if_pos other]
        rfl
      · have taken : ¬ TurnedAway packet := by
          rintro (bad | different)
          · exact absurd (good.symm.trans bad) Bool.noConfusion
          · exact other different
        rw [onRecv_runs_login sessionID packet received taken] at run
        rcases run with ⟨rows, rest, rfl, response⟩
        rw [sendResponse_runs] at response
        rcases response with ⟨buffer, temp, key, rfl⟩
        rw [outcome, if_pos good, if_neg other]
        rfl

/-- Every packet has a run in which a query returns no rows. -/
theorem exists_run (sessionID : SessionID) (packet : Serializer) (received : Received packet) :
    Exists fun events => (onRecv sessionID packet).Runs events () ∧
      forall statement (rows : DbResult), ⟨.query statement, rows⟩ ∈ events -> rows = [] := by
  cases good : (packet.decryption getStatickey).1 with
  | false =>
      refine ⟨_, (onRecv_runs_checkSum sessionID packet received good _).mpr rfl, ?_⟩
      intro statement rows member
      simp at member
  | true =>
      by_cases other : typeField packet ≠ 101
      · refine ⟨_, (onRecv_runs_type sessionID packet received good other _).mpr rfl, ?_⟩
        intro statement rows member
        simp at member
      · have taken : ¬ TurnedAway packet := by
          rintro (bad | different)
          · exact absurd (good.symm.trans bad) Bool.noConfusion
          · exact other different
        let temp : StackBytes 40 := ⟨List.replicate 40 0, by decide⟩
        refine ⟨_, (onRecv_runs_login sessionID packet received taken _).mpr
          ⟨[], _, rfl, (sendResponse_runs sessionID _ _).mpr
            ⟨⟨0, freshSerializer, fun size => size⟩, temp, 0, rfl⟩⟩, ?_⟩
        intro statement rows member
        simp at member
        exact member.2

/-- Isolation is equality of the outcomes. -/
theorem isolated_iff_outcome (sessionID : SessionID) (frame : FrontFrame) :
    Isolated sessionID frame ↔ forall pooled pooled',
      outcome sessionID (frame.packet pooled) = outcome sessionID (frame.packet pooled') := by
  constructor
  · intro isolated pooled pooled'
    rcases exists_run sessionID _ (frame.received pooled) with ⟨events, run, empty⟩
    rcases exists_run sessionID _ (frame.received pooled') with ⟨events', run', empty'⟩
    have same := isolated pooled pooled' events events' run run' (by
      intro statement rows rows' member member'
      rw [empty statement rows member, empty' statement rows' member'])
    rw [decisions_eq sessionID _ (frame.received pooled) events run,
      decisions_eq sessionID _ (frame.received pooled') events' run'] at same
    exact same
  · intro equal pooled pooled' events events' run run' _
    rw [decisions_eq sessionID _ (frame.received pooled) events run,
      decisions_eq sessionID _ (frame.received pooled') events' run', equal pooled pooled']

/-! ## Where the fields come from -/

section Fields

variable (frame : FrontFrame) (pooled : PooledSerializer)
variable (nonneg : 0 ≤ frame.header.sizeField)

include nonneg

theorem payload_length : (frame.payload.length : Int) = frame.header.sizeField := by
  have length := frame.length_eq nonneg
  rw [FrontFrame.payload, List.length_drop, plainBytes_length]
  unfold headerSize
  omega

theorem plainMemory_payload (offset : Nat) (inside : offset < frame.payload.length) :
    plainMemory (frame.packet pooled) (pooled.serializer.bufferPtr + headerSize + offset) =
      frame.payload[offset] := by
  have total := frame.length_eq nonneg
  have extent := payload_length frame nonneg
  have field := frame.read_plainMemory pooled nonneg offset 1 (by unfold headerSize; omega)
  have entry := congrArg (fun list => list[0]?) field
  simp only [read_succ, read_zero, List.getElem?_cons_zero, List.getElem?_take,
    List.getElem?_drop, if_pos Nat.one_pos, Nat.add_zero] at entry
  rw [← List.getElem?_drop, ← FrontFrame.payload, List.getElem?_eq_getElem inside] at entry
  exact Option.some.inj entry

/-- Behind the frame lies what the serializer held before. -/
theorem plainMemory_leftover (offset : Nat) (outside : frame.payload.length ≤ offset) :
    plainMemory (frame.packet pooled) (pooled.serializer.bufferPtr + headerSize + offset) =
      pooled.serializer.memory (pooled.serializer.bufferPtr + headerSize + offset) := by
  have total := frame.length_eq nonneg
  have extent := payload_length frame nonneg
  have long : headerSize ≤ frame.bytes.length := by
    unfold headerSize
    omega
  rw [plainMemory, frame.decryption_eq pooled nonneg]
  apply write_outside
  rw [openedBytes_length _ _ long]
  right
  unfold headerSize
  omega

theorem payloadLength_packet : payloadLength (frame.packet pooled) = frame.payload.length := by
  rw [frame.payloadLength_eq pooled nonneg, FrontFrame.payload, List.length_drop, plainBytes_length]

end Fields

theorem typeField_eq_iff (packet : Serializer) :
    typeField packet = 101 ↔
      plainMemory packet (packet.bufferPtr + headerSize) = 101 ∧
        plainMemory packet (packet.bufferPtr + headerSize + 1) = 0 := by
  have value : forall low high : Byte,
      BitVec.ofNat 16 (littleEndian [low, high]) = 101 ↔ low = 101 ∧ high = 0 := by
    intro low high
    have lowBound := low.isLt
    have highBound := high.isLt
    have wide : (101 : BitVec 16).toNat = 101 := rfl
    have narrow : (101 : BitVec 8).toNat = 101 := rfl
    have zero : (0 : BitVec 8).toNat = 0 := rfl
    simp only [← BitVec.toNat_inj, littleEndian, BitVec.toNat_ofNat, wide, narrow, zero]
    omega
  rw [typeField, read_succ, read_succ, read_zero, value]

/-! ## Frames that settle the decision -/

theorem outcome_eq_of_type (sessionID : SessionID) (packet packet' : Serializer)
    (sum : (packet.decryption getStatickey).1 = (packet'.decryption getStatickey).1)
    (other : typeField packet ≠ 101) (other' : typeField packet' ≠ 101) :
    outcome sessionID packet = outcome sessionID packet' := by
  simp only [outcome, sum, if_pos other, if_pos other']

theorem outcome_eq_of_fields (sessionID : SessionID) (packet packet' : Serializer)
    (sum : (packet.decryption getStatickey).1 = (packet'.decryption getStatickey).1)
    (type : typeField packet = typeField packet')
    (accountNo : accountNoField packet = accountNoField packet')
    (sessionKey : sessionKeyField packet = sessionKeyField packet') :
    outcome sessionID packet = outcome sessionID packet' := by
  simp only [outcome, sum, type, accountNo, sessionKey]

/-- With all fields inside the payload they are fields of the frame. -/
theorem fields_eq_of_long (frame : FrontFrame) (nonneg : 0 ≤ frame.header.sizeField)
    (long : 74 ≤ frame.payload.length) (pooled : PooledSerializer) :
    typeField (frame.packet pooled) = BitVec.ofNat 16 (littleEndian (frame.payload.take 2)) ∧
      accountNoField (frame.packet pooled) =
        BitVec.ofNat 64 (littleEndian ((frame.payload.drop 2).take 8)) ∧
      sessionKeyField (frame.packet pooled) = (frame.payload.drop 10).take 64 := by
  have total := frame.length_eq nonneg
  have extent := payload_length frame nonneg
  have reach : headerSize + 74 ≤ frame.bytes.length := by
    unfold headerSize
    omega
  have length := payloadLength_packet frame pooled nonneg
  have type := frame.read_plainMemory pooled nonneg 0 2 (by omega)
  have account := frame.read_plainMemory pooled nonneg 2 8 (by omega)
  have key := frame.read_plainMemory pooled nonneg 10 64 (by omega)
  rw [← List.drop_drop, ← FrontFrame.payload] at type account key
  rw [Nat.add_zero, List.drop_zero] at type
  refine ⟨?_, ?_, ?_⟩
  · rw [typeField, FrontFrame.packet_bufferPtr, type]
  · rw [accountNoField, FrontFrame.packet_bufferPtr, length, Nat.min_eq_left (by omega), account]
  · rw [sessionKeyField, FrontFrame.packet_bufferPtr, length, Nat.min_eq_left (by omega), key]

theorem outcome_eq_of_selfContained (sessionID : SessionID) (frame : FrontFrame)
    (selfContained : SelfContained frame) (pooled pooled' : PooledSerializer) :
    outcome sessionID (frame.packet pooled) = outcome sessionID (frame.packet pooled') := by
  rcases selfContained with ⟨nonneg, cause⟩
  have sum : ((frame.packet pooled).decryption getStatickey).1 =
      ((frame.packet pooled').decryption getStatickey).1 := by
    rw [frame.decryption_eq pooled nonneg, frame.decryption_eq pooled' nonneg]
  have first : forall (p : PooledSerializer) byte, frame.payload[0]? = some byte -> byte ≠ 101 ->
      typeField (frame.packet p) ≠ 101 := by
    intro p byte entry different type
    rcases List.getElem?_eq_some_iff.mp entry with ⟨inside, value⟩
    have low := ((typeField_eq_iff _).mp type).1
    have place := plainMemory_payload frame p nonneg 0 inside
    exact different (value.symm.trans (place.symm.trans low))
  have second : forall (p : PooledSerializer) byte, frame.payload[1]? = some byte -> byte ≠ 0 ->
      typeField (frame.packet p) ≠ 101 := by
    intro p byte entry different type
    rcases List.getElem?_eq_some_iff.mp entry with ⟨inside, value⟩
    have high := ((typeField_eq_iff _).mp type).2
    have place := plainMemory_payload frame p nonneg 1 inside
    exact different (value.symm.trans (place.symm.trans high))
  rcases cause with bad | ⟨byte, entry, different⟩ | ⟨byte, entry, different⟩ | long
  · have refused : forall p : PooledSerializer,
        ((frame.packet p).decryption getStatickey).1 = false := by
      intro p
      rw [frame.decryption_eq p nonneg]
      exact beq_eq_false_iff_ne.mpr bad
    simp only [outcome, refused, Bool.false_eq_true, if_false]
  · exact outcome_eq_of_type sessionID _ _ sum (first pooled byte entry different)
      (first pooled' byte entry different)
  · exact outcome_eq_of_type sessionID _ _ sum (second pooled byte entry different)
      (second pooled' byte entry different)
  · have fields := fields_eq_of_long frame nonneg long pooled
    have fields' := fields_eq_of_long frame nonneg long pooled'
    exact outcome_eq_of_fields sessionID _ _ sum (fields.1.trans fields'.1.symm)
      (fields.2.1.trans fields'.2.1.symm) (fields.2.2.trans fields'.2.2.symm)

/-! ## Frames that do not -/

/-- A pooled serializer with given leftovers. -/
def leftovers (memory : Bytes) : PooledSerializer where
  serializer := { memory := memory, bufferPtr := 0, bufferSize := 1024, headPtr := 0, tailPtr := 0 }
  wellFormed := ⟨Nat.le_refl _, Nat.le_refl _, Nat.zero_le _, (by decide : 1024 < 2 ^ 63)⟩
  capacity := (by decide : 255 ≤ 1024)

@[simp] theorem leftovers_memory (memory : Bytes) :
    (leftovers memory).serializer.memory = memory := rfl

@[simp] theorem leftovers_bufferPtr (memory : Bytes) :
    (leftovers memory).serializer.bufferPtr = 0 := rfl

/-- Under a negative size field the checksum byte is a leftover, and nothing is
decrypted or summed up. -/
theorem decryption_negative (frame : FrontFrame) (negative : frame.header.sizeField < 0)
    (checkSum : Byte) :
    ((frame.packet (leftovers (write (fun _ => 0) 0
      (frame.ring.content.take 4 ++ [checkSum])))).decryption getStatickey).1 = (checkSum == 0) := by
  have enough := frame.enough
  have complete := frame.complete
  have sizes := frame.ring.content_length
  have header : frame.header = NetworkHeader.ofBytes (frame.ring.content.take headerSize) := by
    rw [FrontFrame.header, frame.ring.front_eq]
  have short : frameSize frame.ring ≤ 4 := by
    by_cases low : frame.header.sizeField < -5
    · have missing := size_lt_frameSize frame.ring low
      omega
    · have total := frameSize_of_le frame.ring (Int.not_lt.mp low)
      unfold FrontFrame.header at negative
      omega
  unfold headerSize at enough
  have front : (frame.ring.content.take 4).length = 4 := by
    rw [List.length_take]
    omega
  -- The popped bytes are the beginning of what lies there already.
  have memory : (frame.packet (leftovers (write (fun _ => 0) 0
      (frame.ring.content.take 4 ++ [checkSum])))).memory =
        write (fun _ => 0) 0 (frame.ring.content.take 4 ++ [checkSum]) := by
    have piece := read_write_inside (fun _ => 0) 0 (frame.ring.content.take 4 ++ [checkSum]) 0
      (frameSize frame.ring) (by rw [List.length_append, front]; omega)
    rw [Nat.add_zero, List.drop_zero, List.take_append_of_le_length (by omega), List.take_take,
      Nat.min_eq_left short] at piece
    have same := write_read (write (fun _ => 0) 0 (frame.ring.content.take 4 ++ [checkSum])) 0
      (frameSize frame.ring)
    rw [piece] at same
    rw [FrontFrame.packet_memory, leftovers_bufferPtr, leftovers_memory, FrontFrame.bytes, same]
  have length : (frame.ring.content.take 4 ++ [checkSum]).length = headerSize := by
    rw [List.length_append, front]
    rfl
  have found : (frame.packet (leftovers (write (fun _ => 0) 0
      (frame.ring.content.take 4 ++ [checkSum])))).getPacketHeader =
        NetworkHeader.ofBytes (frame.ring.content.take 4 ++ [checkSum]) := by
    rw [Serializer.getPacketHeader, memory, FrontFrame.packet_bufferPtr, leftovers_bufferPtr,
      ← length, read_write]
  have size : (frame.packet (leftovers (write (fun _ => 0) 0
      (frame.ring.content.take 4 ++ [checkSum])))).getPacketHeader.sizeField =
        frame.header.sizeField := by
    rw [found, header]
    simp only [NetworkHeader.sizeField, NetworkHeader.ofBytes, List.getD_eq_getElem?_getD,
      List.getElem?_append, front, List.getElem?_take, headerSize]
    rfl
  have last : (frame.packet (leftovers (write (fun _ => 0) 0
      (frame.ring.content.take 4 ++ [checkSum])))).getPacketHeader.checkSum = checkSum := by
    rw [found]
    simp only [NetworkHeader.ofBytes, List.getD_eq_getElem?_getD, List.getElem?_append, front]
    rfl
  have tail := takenPacket_tailPtr frame.ring (leftovers (write (fun _ => 0) 0
    (frame.ring.content.take 4 ++ [checkSum]))) frame.complete
  rw [← FrontFrame.packet, ← FrontFrame.header, leftovers_bufferPtr] at tail
  have noInput : (frame.packet (leftovers (write (fun _ => 0) 0
      (frame.ring.content.take 4 ++ [checkSum])))).inputSize = 0 := by
    rw [Serializer.inputSize, size]
    omega
  have noPayload : (frame.packet (leftovers (write (fun _ => 0) 0
      (frame.ring.content.take 4 ++ [checkSum])))).payloadSize = 0 := by
    have none : max 0 frame.header.sizeField = 0 := by omega
    rw [Serializer.payloadSize, tail, FrontFrame.packet_bufferPtr, leftovers_bufferPtr, none]
    rfl
  rw [Serializer.decryption_fst_of_empty _ _ noInput noPayload, last]

theorem outcome_ne_of_negative (sessionID : SessionID) (frame : FrontFrame)
    (negative : frame.header.sizeField < 0) :
    Exists fun pooled => Exists fun pooled' =>
      outcome sessionID (frame.packet pooled) ≠ outcome sessionID (frame.packet pooled') := by
  refine ⟨leftovers (write (fun _ => 0) 0 (frame.ring.content.take 4 ++ [0])),
    leftovers (write (fun _ => 0) 0 (frame.ring.content.take 4 ++ [1])), ?_⟩
  intro equal
  have passes := (decryption_negative frame negative 0).trans (by decide : _ = true)
  have fails := (decryption_negative frame negative 1).trans (by decide : _ = false)
  rw [outcome, outcome, if_pos passes, fails, if_neg Bool.false_ne_true] at equal
  split at equal <;> cases equal

/-- The type bytes the frame does not bring along can be any. -/
theorem outcome_ne_of_type (sessionID : SessionID) (frame : FrontFrame)
    (nonneg : 0 ≤ frame.header.sizeField) (sum : checkSumRest getStatickey frame.bytes = 0)
    (first : forall byte, frame.payload[0]? = some byte -> byte = 101)
    (short : frame.payload.length < 2) :
    Exists fun pooled => Exists fun pooled' =>
      outcome sessionID (frame.packet pooled) ≠ outcome sessionID (frame.packet pooled') := by
  have passes : forall pooled : PooledSerializer,
      ((frame.packet pooled).decryption getStatickey).1 = true := by
    intro pooled
    rw [frame.decryption_eq pooled nonneg, sum]
    rfl
  have low : forall high : Byte, plainMemory (frame.packet (leftovers
      (write (fun _ => 0) 5 [101, high]))) (0 + headerSize + 0) = 101 := by
    intro high
    by_cases inside : 0 < frame.payload.length
    · exact (plainMemory_payload frame _ nonneg 0 inside).trans
        (first _ (List.getElem?_eq_getElem inside))
    · exact plainMemory_leftover frame (leftovers (write (fun _ => 0) 5 [101, high])) nonneg 0
        (Nat.not_lt.mp inside)
  have high : forall high : Byte, plainMemory (frame.packet (leftovers
      (write (fun _ => 0) 5 [101, high]))) (0 + headerSize + 1) = high := fun high =>
    plainMemory_leftover frame (leftovers (write (fun _ => 0) 5 [101, high])) nonneg 1 (by omega)
  have login : typeField (frame.packet (leftovers (write (fun _ => 0) 5 [101, 0]))) = 101 :=
    (typeField_eq_iff _).mpr ⟨low 0, high 0⟩
  have other : typeField (frame.packet (leftovers (write (fun _ => 0) 5 [101, 1]))) ≠ 101 := by
    intro type
    have zero := ((typeField_eq_iff _).mp type).2
    exact absurd ((high 1).symm.trans zero) (by decide)
  refine ⟨leftovers (write (fun _ => 0) 5 [101, 0]), leftovers (write (fun _ => 0) 5 [101, 1]), ?_⟩
  intro equal
  rw [outcome, outcome, if_pos (passes _), if_pos (passes _), if_neg (not_not_intro login),
    if_pos other] at equal
  cases equal

/-- A payload that ends inside the key leaves the key's last byte to chance. -/
theorem outcome_ne_of_key (sessionID : SessionID) (frame : FrontFrame)
    (nonneg : 0 ≤ frame.header.sizeField) (sum : checkSumRest getStatickey frame.bytes = 0)
    (first : frame.payload[0]? = some 101) (second : frame.payload[1]? = some 0)
    (short : frame.payload.length < 74) :
    Exists fun pooled => Exists fun pooled' =>
      outcome sessionID (frame.packet pooled) ≠ outcome sessionID (frame.packet pooled') := by
  have passes : forall pooled : PooledSerializer,
      ((frame.packet pooled).decryption getStatickey).1 = true := by
    intro pooled
    rw [frame.decryption_eq pooled nonneg, sum]
    rfl
  have login : forall pooled : PooledSerializer, typeField (frame.packet pooled) = 101 := by
    intro pooled
    rcases List.getElem?_eq_some_iff.mp first with ⟨inside, low⟩
    rcases List.getElem?_eq_some_iff.mp second with ⟨inside', high⟩
    exact (typeField_eq_iff _).mpr
      ⟨(plainMemory_payload frame pooled nonneg 0 inside).trans low,
        (plainMemory_payload frame pooled nonneg 1 inside').trans high⟩
  have last : forall byte : Byte, (sessionKeyField (frame.packet (leftovers fun _ => byte)))[63]? =
      some byte := by
    intro byte
    have leftover := plainMemory_leftover frame (leftovers fun _ => byte) nonneg
      (min 10 frame.payload.length + 63) (by omega)
    rw [← Nat.add_assoc] at leftover
    rw [sessionKeyField, payloadLength_packet frame _ nonneg, FrontFrame.packet_bufferPtr,
      List.getElem?_eq_getElem (by rw [read_length]; decide), read_getElem, leftover]
    rfl
  refine ⟨leftovers fun _ => 0, leftovers fun _ => 1, ?_⟩
  intro equal
  rw [outcome, outcome, if_pos (passes _), if_pos (passes _), if_neg (not_not_intro (login _)),
    if_neg (not_not_intro (login _))] at equal
  injection equal with _ rest
  injection rest with stores _
  injection stores with _ keys
  have bytes := congrArg (fun list => list[63]?) keys
  rw [last 0, last 1] at bytes
  cases bytes

/-- The handler's decisions are independent of earlier packets exactly on the frames whose own
bytes settle them: two executions on the same frame, with the same answers from outside and from
pooled serializers that may differ in every byte, decide alike.  Any other frame is completed by
what an earlier packet left behind it. -/
theorem onRecv_isolated_iff (sessionID : SessionID) (frame : FrontFrame) :
    Isolated sessionID frame ↔ SelfContained frame := by
  rw [isolated_iff_outcome]
  constructor
  · intro equal
    by_contra undecided
    have different : Exists fun pooled => Exists fun pooled' =>
        outcome sessionID (frame.packet pooled) ≠ outcome sessionID (frame.packet pooled') := by
      by_cases nonneg : 0 ≤ frame.header.sizeField
      · have open' : ¬ (checkSumRest getStatickey frame.bytes ≠ 0 ∨
            (Exists fun byte => frame.payload[0]? = some byte ∧ byte ≠ 101) ∨
            (Exists fun byte => frame.payload[1]? = some byte ∧ byte ≠ 0) ∨
            74 ≤ frame.payload.length) := fun cause => undecided ⟨nonneg, cause⟩
        simp only [not_or, not_exists, not_and, not_not, Nat.not_le, ne_eq] at open'
        rcases open' with ⟨sum, first, second, short⟩
        by_cases tiny : frame.payload.length < 2
        · exact outcome_ne_of_type sessionID frame nonneg sum first tiny
        · have one : 0 < frame.payload.length := by omega
          have two : 1 < frame.payload.length := by omega
          have low := List.getElem?_eq_getElem one
          have high := List.getElem?_eq_getElem two
          rw [first _ low] at low
          rw [second _ high] at high
          exact outcome_ne_of_key sessionID frame nonneg sum low high short
      · exact outcome_ne_of_negative sessionID frame (Int.not_le.mp nonneg)
    rcases different with ⟨pooled, pooled', ne⟩
    exact ne (equal pooled pooled')
  · intro selfContained pooled pooled'
    exact outcome_eq_of_selfContained sessionID frame selfContained pooled pooled'

/-! ## A frame of seven bytes -/

/-- A login frame that ends behind its type. -/
def truncatedRing : RecvBuffer :=
  loadedRecvBuffer (write (fun _ => 0) 1 [0x77, 0x02, 0x00, 0x09, 0x5C, 0x8F, 0xEF]) 0 7

def truncatedFrame : FrontFrame where
  ring := truncatedRing
  enough := by decide
  complete := by decide

/-- The key stored for it is what the pooled serializer held before. -/
theorem truncatedFrame_leaks : ¬ Isolated 0 truncatedFrame := by
  intro isolated
  rcases outcome_ne_of_key 0 truncatedFrame (by decide) (by decide) (by decide) (by decide)
    (by decide) with ⟨pooled, pooled', different⟩
  exact different ((isolated_iff_outcome 0 truncatedFrame).mp isolated pooled pooled')

end Login
end LoginServer
