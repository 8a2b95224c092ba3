import LoginServer.Network.Holds
import LoginServer.Network.Routine

namespace LoginServer
namespace Network

open Memory Buffers Receiving Login Concurrency

/-!
# Senders

The stages of a thread in the sending of one session.  A packet is linked,
counted, and `sendIO` is due.  The winner of `sendFlag` reads the size, gathers
and calls `WSASend`.  The completion lets go of what was sent, gives the flag
back and looks at the queue.  The thread that deletes the session empties its
buffers, and the accept thread gives the next session a free flag.

On other sessions a thread does what it likes meanwhile, but it takes up no
new work and gives no hold back.
-/

inductive Sending where
  | away
  /-- A packet is linked and not counted. -/
  | uncounted
  /-- `sendIO` is to be called. -/
  | due
  /-- The flag is taken, and the size not read. -/
  | won
  /-- The size was 0, and the flag is to be given back. -/
  | empty
  | gathering (batch : List Packet)
  /-- A packet is taken off the count. -/
  | popping (batch : List Packet)
  /-- The count was used up. -/
  | missing (batch : List Packet)
  /-- A packet is taken off the links. -/
  | taken (batch : List Packet) (packet : Packet)
  /-- `WSASend` failed, and the flag is to be given back. -/
  | failing
  /-- `WSASend` failed, and the session is to be cancelled. -/
  | failed
  /-- The rest of the transfer to be let go of, unless `sendedBuffer` ran out. -/
  | completing (left : Option (BitVec 32))
  /-- The flag is given back, and the size is to be read. -/
  | checking
  /-- `bufferClear` empties the queue, as `gathering`, `popping` and `missing`. -/
  | clearing
  | dropping
  | dropped
  /-- The queue is empty. -/
  | cleared
  /-- `sendedBuffer` is empty as well. -/
  | emptied
  /-- `init` has stored the ID. -/
  | opening
  /-- And reset the flag. -/
  | opened
  deriving DecidableEq

namespace Sending

/-- What a stage permits on the session itself. -/
def permits (stage : Sending) : SessionOp -> Prop
  | .decrementIo => stage = .away
  | .compareExchangeIo => stage = .away
  | .wsaRecv _ => stage = .away
  | .linkNode _ => stage = .away
  | .incrementSize => stage = .uncounted ∨ (Exists fun batch => stage = .missing batch) ∨ stage = .dropped
  | .decrementSize => (Exists fun batch => stage = .gathering batch) ∨ stage = .clearing
  | .unlinkNode => (Exists fun batch => stage = .popping batch) ∨ stage = .dropping
  | .loadSize => stage = .won ∨ stage = .checking
  | .exchangeSendFlag true => stage = .due
  | .exchangeSendFlag false => stage = .empty ∨ stage = .failing
  | .storeSendFlag value => value = false ∧
      (stage = .completing (some 0) ∨ stage = .completing none ∨ stage = .opening)
  | .pushSended packet => Exists fun batch => stage = .taken batch packet
  | .popSended => (Exists fun left => stage = .completing left) ∨ stage = .cleared
  | .emptySended => stage = .cleared
  | .wsaSend batch => stage = .gathering batch
  | .storeCancelIoFlag true => stage = .away ∨ stage = .failed
  | .storeCancelIoFlag false => stage = .opened
  | .storeId _ => stage = .away
  | .clearDeleted => stage = .opened
  | _ => True

/-- Where an operation on the session leads. -/
def step (stage : Sending) : (op : SessionOp) -> op.Answer -> Sending
  | .compareExchangeIo, previous => if previous.isZero = true then .clearing else stage
  | .linkNode _, _ => .uncounted
  | .incrementSize, _ =>
      match stage with
      | .uncounted => .due
      | .missing batch => .gathering batch
      | .dropped => .cleared
      | _ => stage
  | .decrementSize, size =>
      match stage with
      | .gathering batch => if (0 : Int) ≤ size then .popping batch else .missing batch
      | .clearing => if (0 : Int) ≤ size then .dropping else .dropped
      | _ => stage
  | .unlinkNode, packet =>
      match stage with
      | .popping batch => .taken batch packet
      | .dropping => .clearing
      | _ => stage
  | .loadSize, size =>
      match stage with
      | .won => if size = (0 : Int) then .empty else .gathering []
      | .checking => if (0 : Int) < size then .due else .away
      | _ => stage
  | .exchangeSendFlag true, busy => if busy = true then .away else .won
  | .exchangeSendFlag false, _ =>
      match stage with
      | .empty => .away
      | .failing => .failed
      | _ => stage
  | .storeSendFlag _, _ =>
      match stage with
      | .completing _ => .checking
      | .opening => .opened
      | _ => stage
  | .pushSended packet, stored =>
      match stage with
      | .taken batch _ => if stored = true then .gathering (batch ++ [packet]) else stage
      | _ => stage
  | .popSended, popped =>
      match stage with
      | .completing (some left) =>
          .completing (popped.map fun packet => left - BitVec.ofNat 32 packet.size)
      | _ => stage
  | .emptySended, isEmpty =>
      match stage with
      | .cleared => if isEmpty = true then .emptied else .cleared
      | _ => stage
  | .wsaSend _, result =>
      match result with
      | .success => .away
      | .pending => .away
      | .error code => if connectionLost code = true then .failed else .failing
  | .storeCancelIoFlag _, _ =>
      match stage with
      | .failed => .away
      | _ => stage
  | .loadCancelIoFlag, cancelled =>
      match stage with
      | .due => if cancelled = true then .away else .due
      | _ => stage
  | .storeId _, _ => .opening
  | .clearDeleted, _ => .away
  | _, _ => stage

end Sending

/-- The completion of a send of the session. -/
def Completion.sent (completion : Completion) (slot : Slot) : Bool :=
  completion.slot == slot && match completion.overlapped with
    | .send _ => true
    | _ => false

/-- One that `workerThread` handles as such. -/
def Completion.handled (completion : Completion) (slot : Slot) : Bool :=
  completion.sent slot && completion.success && completion.transfer != 0

/-- What it brings a thread to. -/
def Completion.brings (completion : Completion) (slot : Slot) (stage : Sending) : Sending :=
  if completion.handled slot = true then .completing (some completion.transfer) else stage

def Sending.track (slot : Slot) (stage : Sending) : Event interface -> Sending
  | ⟨.session target op, answer⟩ => if target = slot then stage.step op answer else stage
  | ⟨.getQueuedCompletionStatus, completion⟩ => Completion.brings completion slot stage
  | ⟨.mark (.sendedFailed target), _⟩ => if target = slot then .away else stage
  | ⟨.pushIndex _, _⟩ =>
      match stage with
      | .emptied => .away
      | _ => stage
  | _ => stage

/-- The part of a thread in the sending of one session. -/
def sending (slot : Slot) : Discipline interface where
  Ghost := Sending
  start := .away
  track := Sending.track slot
  permits := fun stage op =>
    match op with
    | .session _ .decrementIo => stage = .away
    | .session target op => target = slot -> stage.permits op
    | .getQueuedCompletionStatus => stage = .away
    | .postQueuedCompletionStatus _ _ => stage = .away
    | .popIndex => stage = .away
    | .pushIndex _ => stage = .away ∨ stage = .emptied
    | .mark (.findSession _) => stage = .away
    | .mark (.sendedFailed target) =>
        target = slot -> stage = .completing (some 0) ∨ stage = .completing none
    | _ => True
  expects := fun _ _ => True
  finish := fun stage => stage = .away
  finish_start := rfl

/-! ## Programs that do not send -/

/-- Operations that have nothing to do with sending. -/
def SessionOp.aside : SessionOp -> Bool
  | .incrementIo => true
  | .loadId => true
  | .loadSocket => true
  | .storeSocket _ => true
  | .loadCancelIoFlag => true
  | .storeCancelIoFlag value => value
  | .allocNode => true
  | .recved _ => true
  | .recvedPacket _ => true
  | .recvBuffers => true
  | .clearRecvBuffer => true
  | .wsaRecv _ => true
  | .cancelIoEx _ => true
  | _ => false

def Op.aside : Op -> Bool
  | .session _ op => op.aside
  | .getQueuedCompletionStatus => false
  | .mark (.sendedFailed _) => false
  | _ => true

section Functions

variable {slot : Slot} {fuel : Nat}

/-- A program of such operations and of returned holds. -/
abbrev Aside (fuel : Nat) {α : Type} (program : NetProgram α) : Prop := Routine Op.aside fuel program

theorem releaseSerializer_aside (pointer : Pointer) : Aside fuel (releaseSerializer pointer) := by
  refine .step rfl fun (count : Int) => ?_
  change Aside fuel (if count = 0 then _ else _)
  split
  · exact .net rfl
  · exact .done ()

theorem findSession_aside (sessionID : SessionID) : Aside fuel (findSession fuel sessionID) := by
  refine .step rfl fun _ => .step rfl fun (temp : IoCount) => ?_
  change Aside fuel (if temp.deleted then _ else _)
  split
  · exact .giveBack _ fun _ => .done none
  · refine .step rfl fun (id : SessionID) => ?_
    change Aside fuel (if id ≠ sessionID then _ else _)
    split
    · exact .giveBack _ fun _ => .done none
    · exact .done _

theorem disconnectReq_aside (sessionID : SessionID) : Aside fuel (disconnectReq fuel sessionID) := by
  refine (findSession_aside sessionID).bind fun found => ?_
  cases found with
  | none => exact .done ()
  | some target => exact .step rfl fun _ => .step rfl fun _ => .step rfl fun _ => .returns target

theorem sendReq_aside (sessionID : SessionID) (packet : Packet) :
    Aside fuel (sendReq fuel sessionID packet) := by
  refine (findSession_aside sessionID).bind fun found => ?_
  cases found with
  | none => exact .done ()
  | some target => exact .step rfl fun _ => .step rfl fun _ => .step rfl fun _ => .returns target

theorem sendReqPacket_aside (sessionID : SessionID) (packet : Packet) :
    Aside fuel (sendReqPacket fuel sessionID packet) :=
  .step rfl fun _ => (sendReq_aside sessionID packet).bind fun _ => releaseSerializer_aside packet.pointer

theorem recvIo_aside (target : Slot) : Aside fuel (recvIo fuel target) := by
  refine .step rfl fun (cancelled : Bool) => ?_
  cases cancelled with
  | true => exact .done ()
  | false =>
      refine .step rfl fun _ => .step rfl fun _ => .step rfl fun (result : IoResult) => ?_
      cases result with
      | success => exact .done ()
      | pending =>
          refine .step rfl fun (cancelled : Bool) => ?_
          cases cancelled with
          | true => exact .step rfl fun _ => .done ()
          | false => exact .done ()
      | error code => exact .step rfl fun _ => .step rfl fun _ => .returns target

theorem handleLogin_aside (op : LoginOp) : Aside fuel (handleLogin fuel op) := by
  cases op with
  | disconnectReq sessionID => exact disconnectReq_aside sessionID
  | sendReq sessionID pointer packet => exact sendReqPacket_aside sessionID _
  | packetNew => exact .step rfl fun buffer => .step rfl fun _ => .done buffer
  | packetDelete pointer => exact releaseSerializer_aside pointer
  | _ => exact .net rfl

theorem onRecv_aside (target : Slot) (sessionID : SessionID) (packet : Serializer) :
    Aside fuel (onRecv fuel target sessionID packet) := by
  refine .step rfl fun _ => ?_
  generalize Login.onRecv sessionID packet = program
  induction program with
  | done value => exact .done value
  | step op next inductionHypothesis =>
      exact (handleLogin_aside op).bind fun answer => inductionHypothesis answer

theorem extraction_aside (target : Slot) (rounds : Nat) : Aside fuel (extraction fuel target rounds) := by
  induction rounds with
  | zero => exact .step rfl (by simp)
  | succ rounds inductionHypothesis =>
      refine .step rfl fun p => .step rfl fun _ => .step rfl fun (result : Bool × Serializer) => ?_
      rcases result with ⟨extracted, packet⟩
      cases extracted with
      | false => exact releaseSerializer_aside _
      | true =>
          refine .step rfl fun id => (onRecv_aside target id packet).bind fun _ => ?_
          exact (releaseSerializer_aside _).bind fun _ => inductionHypothesis

theorem handleRecv_aside (target : Slot) (transfer : BitVec 32) :
    Aside fuel (handleRecv fuel target transfer) := by
  refine .step rfl fun (accepted : Bool) => ?_
  cases accepted with
  | false => exact .done false
  | true => exact (extraction_aside target fuel).bind fun _ => (recvIo_aside target).bind fun _ => .done true

theorem update_aside (timeoutThreshold : BitVec 64) : Aside fuel (update fuel timeoutThreshold) := by
  have each (currentTick : BitVec 64) (connections : List (SessionID × ConnectionData)) :
      Aside fuel (timeOut fuel timeoutThreshold currentTick connections) := by
    induction connections with
    | nil => exact .done ()
    | cons entry rest inductionHypothesis =>
        unfold timeOut
        split
        · exact (disconnectReq_aside entry.1).bind fun _ => inductionHypothesis
        · exact inductionHypothesis
  exact .step rfl fun currentTick => .step rfl fun _ => .step rfl fun connections =>
    (each currentTick connections).bind fun _ => .net rfl

theorem scopeRules_aside : ScopeRules fuel fun {_} program => Aside fuel program where
  done := .done
  bind := fun aside rest => aside.bind rest
  mark := fun _ => .net rfl
  alloc := .net rfl
  increment := fun _ => .net rfl
  release := releaseSerializer_aside
  sendReq := sendReq_aside
  sendReqPacket := sendReqPacket_aside

theorem contentCall_aside (call : ContentCall) : Aside fuel (call.program fuel) := by
  cases call with
  | disconnectReq sessionID => exact disconnectReq_aside sessionID
  | sendReq sessionID packet => exact sendReq_aside sessionID packet
  | sendReqPacket sessionID packet => exact sendReqPacket_aside sessionID packet
  | findSession sessionID =>
      refine (findSession_aside sessionID).bind fun found => ?_
      cases found with
      | none => exact .done ()
      | some target => exact .returns target
  | packets statements => exact scopeRules_aside.packetScope statements []

theorem onNewConnect_aside (sessionID : SessionID) : Aside fuel (onNewConnect fuel sessionID) := by
  refine .step rfl fun _ => (findSession_aside sessionID).bind fun found => ?_
  cases found with
  | none => exact .done ()
  | some target =>
      exact .step rfl fun _ => .step rfl fun _ => .step rfl fun _ => .step rfl fun _ =>
        .step rfl fun _ => .returns target

/-! ## Work on a session -/

/-- The stage that work on `target` has for `slot`. -/
def seen (slot target : Slot) (stage : Sending) : Sending := if target = slot then stage else .away

@[simp] theorem seen_away (slot target : Slot) : seen slot target .away = .away := by simp [seen]

variable {target : Slot} {α : Type}

/-- An operation on the session. -/
theorem obeys_session {op : SessionOp} {next : op.Answer -> NetProgram α} {stage : Sending}
    {post : Sending -> α -> Prop} (permitted : stage.permits op)
    (rest : forall answer, (sending slot).Obeys (next answer) (seen slot target (stage.step op answer)) post) :
    (sending slot).Obeys (Program.step (I := interface) (.session target op) next) (seen slot target stage)
      post := by
  have moved (answer : op.Answer) : (seen slot target stage).track slot ⟨.session target op, answer⟩ =
      seen slot target (stage.step op answer) := by
    unfold seen
    by_cases same : target = slot
    · simp only [if_pos same, Sending.track]
    · simp only [if_neg same, Sending.track]
  refine ⟨?_, fun answer _ => ?_⟩
  · by_cases same : target = slot
    · cases op <;> simp only [sending, seen, if_pos same] <;> first | exact permitted | exact fun _ => permitted
    · cases op <;> simp only [sending, seen, if_neg same] <;>
        first | exact rfl | exact fun equal => absurd equal same
  · change (sending slot).Obeys (next answer) ((seen slot target stage).track slot ⟨.session target op, answer⟩) post
    rw [moved answer]
    exact rest answer

/-- An operation that no stage minds. -/
theorem obeys_other {op : Op} {next : op.Answer -> NetProgram α} {stage : Sending}
    {post : Sending -> α -> Prop} (permitted : (sending slot).permits stage op)
    (kept : forall answer, stage.track slot ⟨op, answer⟩ = stage)
    (rest : forall answer, (sending slot).Obeys (next answer) stage post) :
    (sending slot).Obeys (Program.step (I := interface) op next) stage post := by
  refine ⟨permitted, fun answer _ => ?_⟩
  change (sending slot).Obeys (next answer) (stage.track slot ⟨op, answer⟩) post
  rw [kept answer]
  exact rest answer

theorem obeys_halt {stage : Sending} {post : Sending -> α -> Prop} :
    (sending slot).Obeys (halt : NetProgram α) stage post := ⟨trivial, fun answer => answer.elim⟩

theorem releaseSerializer_sending (pointer : Pointer) (stage : Sending) :
    (sending slot).Keeps (releaseSerializer pointer) stage := by
  refine obeys_other trivial (fun _ => rfl) fun (count : Int) => ?_
  change (sending slot).Keeps (if count = 0 then _ else _) stage
  split
  · exact obeys_other trivial (fun _ => rfl) fun _ => rfl
  · rfl

theorem aside_sending {program : NetProgram α} (aside : Aside fuel program)
    (returned : forall target, (sending slot).Keeps (giveBack fuel target) .away) :
    (sending slot).Keeps program .away := by
  refine aside.keeps (D := sending slot) ?_ returned
  intro op isAside
  cases op with
  | session target op =>
      cases op with
      | storeCancelIoFlag value =>
          cases (isAside : value = true)
          exact ⟨fun _ => Or.inl rfl, fun _ _ => ite_self _⟩
      | _ =>
          first
            | exact Bool.noConfusion isAside
            | exact ⟨fun _ => trivial, fun _ _ => ite_self _⟩
            | exact ⟨fun _ => rfl, fun _ _ => ite_self _⟩
  | getQueuedCompletionStatus => exact Bool.noConfusion isAside
  | pushIndex index => exact ⟨Or.inl rfl, fun _ _ => rfl⟩
  | mark note =>
      cases note <;> first
        | exact ⟨trivial, fun _ _ => rfl⟩
        | exact ⟨rfl, fun _ _ => rfl⟩
        | exact Bool.noConfusion isAside
  | _ => first | exact ⟨trivial, fun _ _ => rfl⟩ | exact ⟨rfl, fun _ _ => rfl⟩

/-! ## Giving back -/

/-- `pop` while `bufferClear` empties the queue. -/
theorem pop_clearing : (sending slot).Obeys (pop target) (seen slot target .clearing)
    fun stage popped => stage = seen slot target (if popped.isSome then .clearing else .cleared) := by
  refine obeys_session (Or.inr rfl) fun (size : Int) => ?_
  change (sending slot).Obeys (if size < 0 then _ else _)
    (seen slot target (if (0 : Int) ≤ size then .dropping else .dropped)) _
  by_cases negative : size < 0
  · rw [if_pos negative, if_neg (Int.not_le.mpr negative)]
    exact obeys_session (Or.inr (Or.inr rfl)) fun _ => rfl
  · rw [if_neg negative, if_pos (Int.not_lt.mp negative)]
    exact obeys_session (Or.inr rfl) fun packet => rfl

theorem clearSendBuffer_sending (rounds : Nat) :
    (sending slot).Obeys (clearSendBuffer target rounds) (seen slot target .clearing)
      fun stage _ => stage = seen slot target .cleared := by
  induction rounds with
  | zero => exact obeys_halt
  | succ rounds inductionHypothesis =>
      refine pop_clearing.bind fun stage popped reached => ?_
      cases popped with
      | none => exact reached
      | some packet =>
          rw [reached]
          exact (releaseSerializer_sending packet.pointer _).bindTo fun _ => inductionHypothesis

theorem clearSendedBuffer_sending (rounds : Nat) :
    (sending slot).Obeys (clearSendedBuffer target rounds) (seen slot target .cleared)
      fun stage _ => stage = seen slot target .emptied := by
  induction rounds with
  | zero => exact obeys_halt
  | succ rounds inductionHypothesis =>
      refine obeys_session rfl fun (isEmpty : Bool) => ?_
      cases isEmpty with
      | true => rfl
      | false =>
          refine obeys_session (Or.inr rfl) fun (popped : Option Packet) => ?_
          cases popped with
          | none => exact obeys_halt
          | some packet => exact (releaseSerializer_sending packet.pointer _).bindTo fun _ => inductionHypothesis

theorem bufferClear_sending : (sending slot).Obeys (bufferClear fuel target) (seen slot target .clearing)
    fun stage _ => stage = seen slot target .emptied := by
  refine (clearSendBuffer_sending fuel).bindTo fun _ => ?_
  refine (clearSendedBuffer_sending fuel).bindTo fun _ => ?_
  exact obeys_session trivial fun _ => rfl

theorem onDisconnect_sending (sessionID : SessionID) : (sending slot).Keeps (onDisconnect sessionID) .away :=
  obeys_other trivial (fun _ => rfl) fun _ => obeys_other trivial (fun _ => rfl) fun _ =>
    obeys_other trivial (fun _ => rfl) fun _ => obeys_other trivial (fun _ => rfl) fun _ => rfl

theorem pushIndex_sending {index : Slot} : (sending slot).Obeys (netOp (.pushIndex index))
    (seen slot target .emptied) fun stage _ => stage = .away := by
  unfold seen
  split
  · exact ⟨Or.inr rfl, fun _ _ => rfl⟩
  · exact ⟨Or.inl rfl, fun _ _ => rfl⟩

theorem deleteSession_sending : (sending slot).Keeps (deleteSession fuel target) .away := by
  rw [← seen_away slot target]
  refine obeys_session rfl fun (previous : IoCount) => ?_
  change (sending slot).Obeys (if previous.isZero then _ else _)
    (seen slot target (if previous.isZero = true then .clearing else .away)) _
  by_cases zero : previous.isZero = true
  · rw [if_pos zero, if_pos zero]
    refine obeys_session trivial fun (targetID : SessionID) => obeys_session trivial fun sock => ?_
    refine obeys_other trivial (fun _ => rfl) fun closed => ?_
    refine bufferClear_sending.bindTo fun _ => pushIndex_sending.bindTo fun _ => ?_
    rw [seen_away]
    exact onDisconnect_sending targetID
  · rw [if_neg zero, if_neg zero]
    rfl

theorem giveBack_sending (target : Slot) : (sending slot).Keeps (giveBack fuel target) .away := by
  rw [← seen_away slot target]
  refine obeys_session rfl fun (count : IoCount) => ?_
  change (sending slot).Keeps (if count.isZero then _ else _) (seen slot target .away)
  rw [seen_away]
  split
  · exact deleteSession_sending
  · rfl

theorem Aside.keeps {program : NetProgram α} (aside : Aside fuel program) :
    (sending slot).Keeps program .away := aside_sending aside giveBack_sending

/-! ## `sendIO` -/

theorem push_sending (packet : Packet) : (sending slot).Obeys (push target packet) (seen slot target .away)
    fun stage pushed => stage = seen slot target (if pushed then .due else .away) := by
  refine obeys_session trivial fun (allocated : Bool) => ?_
  cases allocated with
  | false => rfl
  | true => exact obeys_session rfl fun _ => obeys_session (Or.inl rfl) fun _ => rfl

/-- `pop` while packets are gathered. -/
theorem pop_gathering (batch : List Packet) :
    (sending slot).Obeys (pop target) (seen slot target (.gathering batch)) fun stage popped =>
      stage = seen slot target (match popped with
        | none => .gathering batch
        | some packet => .taken batch packet) := by
  refine obeys_session (Or.inl ⟨batch, rfl⟩) fun (size : Int) => ?_
  change (sending slot).Obeys (if size < 0 then _ else _)
    (seen slot target (if (0 : Int) ≤ size then .popping batch else .missing batch)) _
  by_cases negative : size < 0
  · rw [if_pos negative, if_neg (Int.not_le.mpr negative)]
    exact obeys_session (Or.inr (Or.inl ⟨batch, rfl⟩)) fun _ => rfl
  · rw [if_neg negative, if_pos (Int.not_lt.mp negative)]
    exact obeys_session (Or.inl ⟨batch, rfl⟩) fun packet => rfl

theorem gather_sending (packetCount rounds : Nat) (batch : List Packet) :
    (sending slot).Obeys (gather target packetCount rounds batch) (seen slot target (.gathering batch))
      fun stage gathered => stage = seen slot target (.gathering gathered) := by
  induction rounds generalizing batch with
  | zero => exact obeys_halt
  | succ rounds inductionHypothesis =>
      unfold gather
      split
      · refine (pop_gathering batch).bind fun stage popped reached => ?_
        rw [reached]
        cases popped with
        | none => exact inductionHypothesis batch
        | some packet =>
            dsimp only
            split
            · refine obeys_session ⟨batch, rfl⟩ fun (stored : Bool) => ?_
              cases stored with
              | true => exact inductionHypothesis (batch ++ [packet])
              | false => exact obeys_halt
            · exact obeys_halt
      · rfl

theorem sendIo_sending : (sending slot).Obeys (sendIo fuel target) (seen slot target .due)
    fun stage _ => stage = .away := by
  have gone : (sending slot).Obeys (pure () : NetProgram Unit) (seen slot target .away)
      fun stage _ => stage = .away := seen_away slot target
  refine obeys_session trivial fun (cancelled : Bool) => ?_
  cases cancelled with
  | true => exact gone
  | false =>
      refine obeys_session rfl fun (busy : Bool) => ?_
      cases busy with
      | true => exact gone
      | false =>
          refine obeys_session (Or.inl rfl) fun (sendBufferSize : Int) => ?_
          change (sending slot).Obeys (if sendBufferSize = 0 then _ else _)
            (seen slot target (if sendBufferSize = (0 : Int) then .empty else .gathering [])) _
          by_cases zero : sendBufferSize = 0
          · rw [if_pos zero, if_pos zero]
            exact obeys_session (Or.inl rfl) fun _ => gone
          rw [if_neg zero, if_neg zero]
          refine obeys_session trivial fun _ => (gather_sending _ fuel []).bind ?_
          rintro _ buffer rfl
          refine obeys_session rfl fun (result : IoResult) => ?_
          cases result with
          | success => exact gone
          | pending =>
              refine obeys_session trivial fun (cancelled : Bool) => ?_
              cases cancelled with
              | true => exact obeys_session trivial fun _ => gone
              | false => exact gone
          | error code =>
              have rest : (sending slot).Obeys (do
                  sessionOp target (.storeCancelIoFlag true)
                  let _ ← sessionOp target (.cancelIoEx .recv)
                  giveBack fuel target) (seen slot target .failed) fun stage _ => stage = .away := by
                refine obeys_session (Or.inr rfl) fun _ => obeys_session trivial fun _ => ?_
                change (sending slot).Obeys (giveBack fuel target) (seen slot target .away) _
                rw [seen_away]
                exact giveBack_sending target
              change (sending slot).Obeys (if connectionLost code then _ else _)
                (seen slot target (if connectionLost code = true then .failed else .failing)) _
              by_cases lost : connectionLost code = true
              · rw [if_pos lost, if_pos lost]
                exact rest
              · rw [if_neg lost, if_neg lost]
                exact obeys_session (Or.inr rfl) fun _ => rest

theorem handleRequest_sending (packet : Packet) :
    (sending slot).Keeps (handleRequest fuel target packet) .away := by
  rw [← seen_away slot target]
  refine (push_sending packet).bind ?_
  rintro _ collected rfl
  rw [seen_away]
  cases collected with
  | true => exact sendIo_sending
  | false =>
      have away : seen slot target (if false = true then .due else .away) = .away := seen_away slot target
      rw [away]
      exact releaseSerializer_sending packet.pointer .away

/-! ## Completions -/

/-- What is left of the transfer, or nobody knows. -/
theorem sendedLoop_sending (rounds : Nat) (transfer : BitVec 32) (packetBuffer : Option Packet)
    (sendedCount : BitVec 32) (left : Option (BitVec 32)) (known : left = some transfer ∨ left = none) :
    (sending slot).Obeys (sendedLoop target rounds transfer packetBuffer sendedCount)
      (seen slot target (.completing left)) fun stage _ =>
        stage = seen slot target (.completing (some 0)) ∨ stage = seen slot target (.completing none) := by
  induction rounds generalizing transfer packetBuffer sendedCount left with
  | zero => exact obeys_halt
  | succ rounds inductionHypothesis =>
      unfold sendedLoop
      split
      next nothing =>
        rcases known with rfl | rfl
        · rw [nothing]
          exact Or.inl rfl
        · exact Or.inr rfl
      next =>
        refine obeys_session (Or.inl ⟨left, rfl⟩) fun (popped : Option Packet) => ?_
        simp only [Program.bind]
        rcases popped with - | packet
        · cases packetBuffer with
          | none => exact obeys_halt
          | some last =>
              refine (releaseSerializer_sending last.pointer _).bindTo fun _ => ?_
              rcases known with rfl | rfl <;> exact inductionHypothesis _ _ _ none (Or.inr rfl)
        · refine (releaseSerializer_sending packet.pointer _).bindTo fun _ => ?_
          rcases known with rfl | rfl
          · exact inductionHypothesis _ _ _ (some _) (Or.inl rfl)
          · exact inductionHypothesis _ _ _ none (Or.inr rfl)

/-- A completion that `sended` answers -1 to takes the flag with it. -/
theorem sendedFailed_sending {stage : Sending}
    (ready : stage = .completing (some 0) ∨ stage = .completing none) :
    (sending slot).Obeys (mark (.sendedFailed target)) (seen slot target stage) fun stage _ => stage = .away := by
  by_cases same : target = slot
  · rw [seen, if_pos same]
    exact ⟨fun _ => ready, fun _ _ => if_pos same⟩
  · rw [seen, if_neg same]
    exact ⟨fun here => absurd here same, fun _ _ => if_neg same⟩

theorem handleSend_sending {transfer : BitVec 32} (something : transfer ≠ 0) :
    (sending slot).Obeys (handleSend fuel target transfer) (seen slot target (.completing (some transfer)))
      fun stage _ => stage = .away := by
  refine obeys_session trivial fun id => obeys_other trivial (fun _ => rfl) fun _ => ?_
  have counted : (sending slot).Obeys (sended fuel target transfer)
      (seen slot target (.completing (some transfer))) fun stage _ =>
        stage = seen slot target (.completing (some 0)) ∨ stage = seen slot target (.completing none) := by
    unfold sended
    rw [if_neg something]
    exact sendedLoop_sending fuel transfer none 0 _ (Or.inl rfl)
  refine counted.bind fun stage tp left => ?_
  split
  · rcases left with rfl | rfl
    · exact (sendedFailed_sending (Or.inl rfl)).bindTo fun _ => rfl
    · exact (sendedFailed_sending (Or.inr rfl)).bindTo fun _ => rfl
  have rest (stage : Sending) (ready : stage = .completing (some 0) ∨ stage = .completing none) :
      (sending slot).Obeys (do
        sessionOp target (.storeSendFlag false)
        let size ← sessionOp target .loadSize
        if size > 0 then sendIo fuel target
        return true) (seen slot target stage) fun stage _ => stage = .away := by
    refine obeys_session ⟨rfl, ready.imp_right Or.inl⟩ fun _ => ?_
    have checking : stage.step (.storeSendFlag false) () = .checking := by
      rcases ready with rfl | rfl <;> rfl
    rw [checking]
    refine obeys_session (Or.inr rfl) fun (size : Int) => ?_
    change (sending slot).Obeys (if size > 0 then _ else _)
      (seen slot target (if (0 : Int) < size then .due else .away)) _
    by_cases more : size > 0
    · rw [if_pos more, if_pos more]
      exact sendIo_sending.bindTo fun _ => rfl
    · rw [if_neg more, if_neg more]
      exact seen_away slot target
  rcases left with rfl | rfl
  · exact rest _ (Or.inl rfl)
  · exact rest _ (Or.inr rfl)

theorem brings_nothing {completion : Completion} (unhandled : completion.handled slot = false) (stage : Sending) :
    completion.brings slot stage = stage := by
  unfold Completion.brings
  rw [unhandled]
  rfl

theorem brings_send {transfer : BitVec 32} (something : transfer ≠ 0) (batch : List Packet) :
    Completion.brings ⟨target, true, transfer, .send batch⟩ slot .away =
      seen slot target (.completing (some transfer)) := by
  unfold seen
  refine if_congr ?_ rfl rfl
  simpa [Completion.handled, Completion.sent] using fun _ => something

theorem handleCompletion_sending (completion : Completion) (successful : completion.success = true) :
    (sending slot).Obeys (handleCompletion fuel completion) (completion.brings slot .away)
      fun stage _ => stage = .away := by
  rcases completion with ⟨target, success, transfer, overlapped⟩
  cases (successful : success = true)
  unfold handleCompletion
  by_cases nothing : transfer = 0
  · rw [if_pos nothing, brings_nothing (by simp [Completion.handled, nothing])]
    split
    · exact (handleRequest_sending _).bindTo fun _ => rfl
    · rfl
  · rw [if_neg nothing]
    cases overlapped with
    | send batch =>
        rw [brings_send nothing]
        exact handleSend_sending nothing
    | recv =>
        rw [brings_nothing (by simp [Completion.handled, Completion.sent])]
        exact (handleRecv_aside target transfer).keeps
    | request packet =>
        rw [brings_nothing (by simp [Completion.handled, Completion.sent])]
        rfl

theorem workerThread_sending : (sending slot).Keeps (workerThread fuel) .away := by
  refine ⟨rfl, fun (completion : Completion) _ => ?_⟩
  change (sending slot).Obeys (if completion.success then _ else _) (completion.brings slot .away) _
  by_cases successful : completion.success = true
  · rw [if_pos successful]
    refine (handleCompletion_sending completion successful).bind ?_
    rintro _ handled rfl
    cases handled with
    | true => exact giveBack_sending completion.slot
    | false => rfl
  · rw [if_neg successful, brings_nothing (by simp [Completion.handled, successful])]
    exact giveBack_sending completion.slot

/-! ## Jobs -/

theorem init_sending (sessionID : SessionID) (sock : Nat) :
    (sending slot).Obeys (init target sessionID sock) (seen slot target .away) fun stage _ => stage = .away :=
  obeys_session rfl fun _ => obeys_session trivial fun _ => obeys_session trivial fun _ =>
    obeys_session ⟨rfl, Or.inr (Or.inr rfl)⟩ fun _ => obeys_session rfl fun _ => obeys_session rfl fun _ =>
      seen_away slot target

theorem acceptThread_sending : (sending slot).Keeps (acceptThread fuel) .away := by
  refine obeys_other trivial (fun _ => rfl) fun (accepted : Option Nat) => ?_
  cases accepted with
  | none => rfl
  | some clientSock =>
      refine obeys_other rfl (fun _ => rfl) fun (popped : Option Slot) => ?_
      cases popped with
      | none => exact obeys_other trivial (fun _ => rfl) fun _ => rfl
      | some index =>
          refine obeys_other trivial (fun _ => rfl) fun sessionCount => ?_
          have opened : (sending slot).Obeys (init index (makeSessionId sessionCount index) clientSock)
              (seen slot index .away) fun stage _ => stage = .away := init_sending _ _
          rw [seen_away] at opened
          refine opened.bindTo fun _ => (onNewConnect_aside _).keeps.bindTo fun _ => ?_
          exact (recvIo_aside index).keeps.bindTo fun _ => giveBack_sending index

theorem jobs_sending {workers contents : Nat} {settings : Settings} {thread : Thread workers contents}
    {job : Job} {program : NetProgram Unit} (chosen : jobProgram settings thread job = some program) :
    (sending slot).Obeys program (sending slot).start fun stage _ => (sending slot).finish stage := by
  cases thread <;> cases job <;> cases chosen
  case accept.loop => exact acceptThread_sending
  case worker.loop => exact workerThread_sending
  case timeout.loop => exact (update_aside settings.timeoutThreshold).keeps
  case content.call => exact (contentCall_aside _).keeps

end Functions

end Network
end LoginServer
