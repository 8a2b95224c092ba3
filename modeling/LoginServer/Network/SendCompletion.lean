import LoginServer.Network.Holds

namespace LoginServer
namespace Network

open Memory Buffers Receiving Login Concurrency

/-!
# `sended`

The completion of a send takes packets off `sendedBuffer` and subtracts their
sizes from `transfer` until nothing is left of it.  The rest is unsigned, so that
only a transfer that ends on a packet boundary is taken down to zero by the
packets it belongs to.  The test for a remainder below zero never answers.

Any other transfer goes on with the packet popped last, and lets go of it again
and again.  If nothing is left in the end, the answer is the number of rounds,
which is -1 only after 2^32 - 1 of them.
-/

variable {workers contents : Nat} {settings : Settings}

/-- The serializer an event lets go of. -/
def releases (event : Event interface) : Option Pointer :=
  match event.op with
  | .decReferenceCounter pointer => some pointer
  | _ => none

/-- What `sended` promises on a buffer that holds `packets`: it lets go of the
packets it takes off the front, each once, and answers their number if they
are the whole transfer, and -1 if no packets are. -/
def Promised (slot : Slot) (packets : List Packet) (transfer tp : BitVec 32) (state : State)
    (events : List (Event interface)) : Prop :=
  Exists fun count => count ≤ packets.length ∧
    events.filterMap releases = (packets.take count).map Packet.pointer ∧
    (state.sessionArray slot).sendedBuffer = packets.drop count ∧
    ((transfer.toNat = totalSize (packets.take count) ∧ tp.toInt = count) ∨
      ((forall boundary, transfer.toNat ≠ totalSize (packets.take boundary)) ∧ tp = -1))

/-- A call of `sended`, run without interference from other threads (it works on what its caller
alone has the flag for), terminates and keeps its promise. -/
def SendedSafe (settings : Settings) (choice : Choice) (thread : Thread workers contents)
    (state : State) (slot : Slot) (transfer : BitVec 32) : Prop :=
  Exists fun fuel =>
    Machine.Alone (server settings workers contents) thread choice (sended fuel slot transfer) state
      (Promised slot (state.sessionArray slot).sendedBuffer transfer)

/-! ### The room in `sendedBuffer` -/

theorem performSession_bounded {choice : Choice} {s s' : Session} {op : SessionOp} {answer : op.Answer}
    (bounded : s.sendedBuffer.length ≤ sendedCapacity)
    (performed : performSession choice s op = some (answer, s')) : s'.sendedBuffer.length ≤ sendedCapacity := by
  cases op with
  | pushSended packet =>
      simp only [performSession] at performed
      split at performed
      next room =>
        cases performed
        rw [List.length_append, List.length_singleton]
        exact room
      next =>
        cases performed
        exact bounded
  | popSended =>
      cases performed
      rw [List.length_tail]
      exact (Nat.sub_le _ _).trans bounded
  | allocNode =>
      simp only [performSession] at performed
      split at performed <;> cases performed <;> exact bounded
  | unlinkNode =>
      rcases Option.map_eq_some_iff.mp performed with ⟨result, _, same⟩
      cases same
      exact bounded
  | wsaSend batch =>
      simp only [performSession] at performed
      split at performed <;> cases performed <;> exact bounded
  | wsaRecv buffers =>
      simp only [performSession] at performed
      split at performed <;> cases performed <;> exact bounded
  | compareExchangeIo =>
      cases performed
      split <;> exact bounded
  | cancelIoEx direction =>
      cases performed
      cases direction <;> exact bounded
  | _ =>
      cases performed
      exact bounded

theorem perform_bounded {choice : Choice} {state state' : State} {op : Op} {answer : op.Answer} {slot : Slot}
    (bounded : (state.sessionArray slot).sendedBuffer.length ≤ sendedCapacity)
    (performed : perform choice state op = some (answer, state')) :
    (state'.sessionArray slot).sendedBuffer.length ≤ sendedCapacity := by
  cases op with
  | session target op =>
      rcases perform_session performed with ⟨s', inner, rfl⟩
      by_cases same : slot = target
      · subst same
        rw [State.setSession_same]
        exact performSession_bounded bounded inner
      · rw [State.setSession_other state s' same]
        exact bounded
  | _ =>
      rw [(perform_sameBut performed).sessionArray (by simp [Op.component])]
      exact bounded

/-- In every state of every run `sendedBuffer` holds no more pointers than its ring has room
for. -/
theorem sendedBuffer_bounded {rule : (server settings workers contents).Rule}
    {c : (server settings workers contents).Config}
    (reach : (server settings workers contents).Reach rule c) (slot : Slot) :
    (c.state.sessionArray slot).sendedBuffer.length ≤ sendedCapacity := by
  induction reach with
  | start => exact Nat.zero_le _
  | @step c c' _ step inductionHypothesis =>
      cases step with
      | takeUp thread job program idle chosen => exact inductionHypothesis
      | surround change state changed =>
          change (state.sessionArray slot).sendedBuffer.length ≤ _
          rw [((surround_sameFields changed).1 slot).sendedBuffer]
          exact inductionHypothesis
      | act thread choice op next answer state turn performed lawful =>
          exact perform_bounded inductionHypothesis performed

/-! ### The loop -/

@[simp] theorem totalSize_nil : totalSize [] = 0 := rfl

@[simp] theorem totalSize_cons (packet : Packet) (packets : List Packet) :
    totalSize (packet :: packets) = packet.size + totalSize packets := by
  simp [totalSize]

/-- The counter goes down by the size of a packet that is part of the transfer. -/
theorem toNat_sub_size {transfer : BitVec 32} {size rest : Nat} (total : transfer.toNat = size + rest) :
    (transfer - BitVec.ofNat 32 size).toNat = rest := by
  have bound := transfer.isLt
  rw [BitVec.toNat_sub, BitVec.toNat_ofNat]
  omega

section Loop

variable {thread : Thread workers contents} {choice : Choice}

/-- Letting go of a packet touches no session. -/
theorem releaseSerializer_alone (pointer : Pointer) (state : State) :
    Machine.Alone (server settings workers contents) thread choice (releaseSerializer pointer) state
      fun _ state' events => state'.sessionArray = state.sessionArray ∧
        events.filterMap releases = [pointer] := by
  refine ⟨(state.referenceCounter pointer - 1, _), rfl, ?_⟩
  change Machine.Alone _ _ _ (if _ = (0 : Int) then netOp (.serializerFree pointer) else pure ()) _ _
  split
  · exact ⟨((), _), rfl, rfl, rfl⟩
  · exact ⟨rfl, rfl⟩

/-- A transfer that ends on a packet boundary is taken down by the packets in
front of the boundary. -/
theorem sendedLoop_alone (slot : Slot) (packets : List Packet) {fuel : Nat} (enough : packets.length < fuel)
    {transfer : BitVec 32} {boundary : Nat} (ends : transfer.toNat = totalSize (packets.take boundary))
    (last : Option Packet) (sendedCount : BitVec 32) (state : State)
    (sent : (state.sessionArray slot).sendedBuffer = packets) :
    Machine.Alone (server settings workers contents) thread choice
      (sendedLoop slot fuel transfer last sendedCount) state fun tp state' events =>
        Exists fun count => count ≤ packets.length ∧
          events.filterMap releases = (packets.take count).map Packet.pointer ∧
          (state'.sessionArray slot).sendedBuffer = packets.drop count ∧
          transfer.toNat = totalSize (packets.take count) ∧ tp = sendedCount + BitVec.ofNat 32 count := by
  induction packets generalizing fuel transfer boundary last sendedCount state with
  | nil =>
      rcases fuel with - | fuel
      · cases enough
      have nothing : transfer = 0 := by
        apply BitVec.eq_of_toNat_eq
        simpa using ends
      unfold sendedLoop
      rw [if_pos nothing]
      exact ⟨0, Nat.le_refl 0, rfl, sent, by simpa using ends, by simp⟩
  | cons packet packets inductionHypothesis =>
      rcases fuel with - | fuel
      · cases enough
      unfold sendedLoop
      by_cases nothing : transfer = 0
      · rw [if_pos nothing]
        exact ⟨0, Nat.zero_le _, rfl, sent, by simp [nothing], by simp⟩
      rw [if_neg nothing]
      rcases boundary with - | boundary
      · exact absurd (BitVec.eq_of_toNat_eq (by simpa using ends)) nothing
      have rest : (transfer - BitVec.ofNat 32 packet.size).toNat = totalSize (packets.take boundary) :=
        toNat_sub_size (by simpa using ends)
      let popped := state.setSession slot { state.sessionArray slot with
        sendedBuffer := (state.sessionArray slot).sendedBuffer.tail }
      have front : (state.sessionArray slot).sendedBuffer.head? = some packet := by rw [sent]; rfl
      refine ⟨((state.sessionArray slot).sendedBuffer.head?, popped), rfl, ?_⟩
      rw [front]
      change Machine.Alone (server settings workers contents) thread choice
        (releaseSerializer packet.pointer >>= fun _ => sendedLoop slot fuel
          (transfer - BitVec.ofNat 32 packet.size) (some packet) (sendedCount + 1)) popped _
      apply Machine.Alone.bind
      apply (releaseSerializer_alone packet.pointer popped).mono
      rintro _ state' events ⟨kept, released⟩
      have left : (state'.sessionArray slot).sendedBuffer = packets := by
        rw [kept, State.setSession_same, sent]
        rfl
      apply (inductionHypothesis (Nat.lt_of_succ_lt_succ enough) rest (some packet) (sendedCount + 1)
        state' left).mono
      rintro tp final later ⟨count, bound, taken, after, total, answer⟩
      refine ⟨count + 1, Nat.succ_le_succ bound, ?_, after, ?_, ?_⟩
      · change (events ++ later).filterMap releases = _
        rw [List.filterMap_append, released, taken]
        simp
      · rw [rest] at total
        rw [ends, List.take_succ_cons, List.take_succ_cons, totalSize_cons, totalSize_cons, total]
      · rw [answer, BitVec.add_assoc, Nat.add_comm count 1, BitVec.ofNat_add]
        rfl

theorem releaseSerializer_releases {pointer : Pointer} {events : List (Event interface)} {value : Unit}
    (run : (releaseSerializer pointer).Runs events value) : events.filterMap releases = [pointer] := by
  rcases (Program.runs_step_iff _ _ _ _).mp run with ⟨count, later, rfl, freeing⟩
  change Program.Runs (if count = (0 : Int) then netOp (.serializerFree pointer) else pure ()) later value
    at freeing
  split at freeing
  · cases freeing with
    | step answer rest =>
        cases rest
        rfl
  · cases freeing
    rfl

/-- Each round lets go of one packet, and is counted. -/
theorem sendedLoop_counted (slot : Slot) (fuel : Nat) (transfer : BitVec 32) (last : Option Packet)
    (sendedCount : BitVec 32) {events : List (Event interface)} {tp : BitVec 32}
    (run : (sendedLoop slot fuel transfer last sendedCount).Runs events tp) :
    tp = sendedCount + BitVec.ofNat 32 (events.filterMap releases).length := by
  induction fuel generalizing transfer last sendedCount events with
  | zero =>
      rcases (Program.runs_step_iff _ _ _ _).mp run with ⟨answer, _⟩
      exact answer.elim
  | succ fuel inductionHypothesis =>
      unfold sendedLoop at run
      split at run
      next =>
        cases run
        simp
      next =>
        rcases (Program.runs_step_iff _ _ _ _).mp run with ⟨popped, later, rfl, popping⟩
        simp only [Program.bind] at popping
        split at popping
        next =>
          rcases (Program.runs_step_iff _ _ _ _).mp popping with ⟨answer, _⟩
          exact answer.elim
        next packet _ =>
          rcases (Program.runs_bind_iff _ _ _ _).mp popping with ⟨frees, rest, _, rfl, freeing, looping⟩
          have unpopped : releases ⟨.session slot .popSended, popped⟩ = none := rfl
          rw [inductionHypothesis _ _ _ looping, List.filterMap_cons_none unpopped, List.filterMap_append,
            releaseSerializer_releases freeing, List.length_append, List.length_singleton, BitVec.ofNat_add,
            BitVec.add_assoc]
          rfl

/-- Few packets are not counted round to -1. -/
theorem toInt_of_few {count : Nat} (few : count ≤ sendedCapacity) : (BitVec.ofNat 32 count).toInt = count := by
  have small : count < 2 ^ 31 := few.trans_lt (by decide)
  rw [BitVec.toInt_eq_toNat_of_lt, BitVec.toNat_ofNat, Nat.mod_eq_of_lt (by omega)]
  rw [BitVec.toNat_ofNat, Nat.mod_eq_of_lt (by omega)]
  omega

/-- `sended` lets go of popped packets only, each once, so that it cannot have answered -1, and
keeps its promise only to transfers that end on a packet boundary. -/
theorem boundary_of_sendedSafe {state : State} {slot : Slot} {transfer : BitVec 32}
    (bounded : (state.sessionArray slot).sendedBuffer.length ≤ sendedCapacity)
    (something : transfer ≠ 0)
    (safe : SendedSafe settings choice thread state slot transfer) :
    Exists fun boundary =>
      transfer.toNat = totalSize ((state.sessionArray slot).sendedBuffer.take boundary) := by
  rcases safe with ⟨fuel, alone⟩
  have returned : (sended fuel slot transfer).Returns fun _ => True := Program.returns_of_forall _ fun _ => trivial
  rcases alone.runs.returned returned with
    ⟨tp, state', events, _, run, count, few, released, _, ⟨total, _⟩ | ⟨_, failed⟩⟩
  · exact ⟨count, total⟩
  · unfold sended at run
    rw [if_neg something] at run
    have answered := sendedLoop_counted slot fuel transfer none 0 run
    rw [released, List.length_map, List.length_take, Nat.min_eq_left few, failed] at answered
    replace answered := answered.trans (BitVec.zero_add _)
    have counted := toInt_of_few (few.trans bounded)
    rw [← answered] at counted
    exact absurd counted (by simp)

/-- For a `sendedBuffer` of any packets, as many as its ring has room for, `sended` terminates,
lets go of popped packets only and answers as documented just when the transfer ends on a
packet boundary of `sendedBuffer`.  The room is never exceeded (`sendedBuffer_bounded`). -/
theorem sended_safe_iff (state : State) (slot : Slot) (transfer : BitVec 32) (something : transfer ≠ 0)
    (bounded : (state.sessionArray slot).sendedBuffer.length ≤ sendedCapacity) :
    SendedSafe settings choice thread state slot transfer ↔
      Exists fun boundary =>
        transfer.toNat = totalSize ((state.sessionArray slot).sendedBuffer.take boundary) := by
  constructor
  · intro safe
    exact boundary_of_sendedSafe bounded something safe
  · rintro ⟨boundary, ends⟩
    refine ⟨(state.sessionArray slot).sendedBuffer.length + 1, ?_⟩
    unfold sended
    rw [if_neg something]
    apply (sendedLoop_alone slot _ (Nat.lt_succ_self _) ends none 0 state rfl).mono
    rintro tp state' events ⟨count, few, taken, left, total, answer⟩
    refine ⟨count, few, taken, left, Or.inl ⟨total, ?_⟩⟩
    have counted : tp = BitVec.ofNat 32 count := answer.trans (BitVec.zero_add _)
    rw [counted]
    exact toInt_of_few (few.trans bounded)

end Loop

/-- A slot with some packets on their way. -/
def packetsSent (packets : List Packet) : State :=
  { (State.initial 1).setSession 0 { Session.fresh with sendedBuffer := packets } with
    referenceCounter := fun _ => 1 }

/-- The first of two packets has been transferred. -/
theorem sended_safe_firstOfTwo :
    SendedSafe oneSession usual (.worker 0 : Thread 1 0) (packetsSent [⟨1, [7, 7, 7, 7, 7]⟩, ⟨2, [8, 8, 8]⟩]) 0 5 ↔
      Exists fun boundary => (5 : BitVec 32).toNat = totalSize
        (((packetsSent [⟨1, [7, 7, 7, 7, 7]⟩, ⟨2, [8, 8, 8]⟩]).sessionArray 0).sendedBuffer.take boundary) :=
  sended_safe_iff _ 0 5 (by decide) (by decide)

/-- A transfer of ten bytes lets go of the packet of five bytes twice. -/
theorem longTransfer_releasesTwice :
    ¬ SendedSafe oneSession usual (.worker 0 : Thread 1 0) (packetsSent [⟨1, [7, 7, 7, 7, 7]⟩]) 0 10 ∧
      Machine.Alone (server oneSession 1 0) (.worker 0) usual (sended 3 0 10)
        (packetsSent [⟨1, [7, 7, 7, 7, 7]⟩])
        fun tp _ events => tp = 2 ∧ events.filterMap releases = [1, 1] := by
  constructor
  · intro safe
    rcases boundary_of_sendedSafe (by decide) (by decide) safe with ⟨boundary, ends⟩
    rcases boundary with - | boundary
    · exact absurd ends (by decide)
    · rw [show ((packetsSent [⟨1, [7, 7, 7, 7, 7]⟩]).sessionArray 0).sendedBuffer.take (boundary + 1) =
          [⟨1, [7, 7, 7, 7, 7]⟩] by simp [packetsSent]] at ends
      exact absurd ends (by decide)
  · exact ⟨_, rfl, _, rfl, _, rfl, _, rfl, _, rfl, rfl, rfl⟩

end Network
end LoginServer
