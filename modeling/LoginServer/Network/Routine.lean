import LoginServer.Concurrency.Discipline
import LoginServer.Network.Quiet

namespace LoginServer
namespace Network

open Memory Buffers Receiving Login Concurrency

/-!
# Routine programs

Most functions are built from plain operations and from giving back a hold,
which may delete the session.  What a discipline says about these two, it says
about all such functions.
-/

/-- Operations on a session that do not belong to its birth, its deletion or its
sending. -/
def SessionOp.plain : SessionOp -> Bool
  | .incrementIo => true
  | .loadId => true
  | .loadSocket => true
  | .loadCancelIoFlag => true
  | .storeCancelIoFlag _ => true
  | .recved _ => true
  | .recvedPacket _ => true
  | .recvBuffers => true
  | .wsaRecv _ => true
  | .cancelIoEx _ => true
  | _ => false

def Mark.plain : Mark -> Bool
  | .onNewConnect _ => false
  | .onDisconnect _ => false
  | _ => true

def Op.plain : Op -> Bool
  | .session _ op => op.plain
  | .postQueuedCompletionStatus _ _ => true
  | .closesocket _ => true
  | .serializerAlloc => true
  | .serializerFree _ => true
  | .incReferenceCounter _ => true
  | .decReferenceCounter _ => true
  | .getTickCount => true
  | .login _ => true
  | .mark call => call.plain
  | .halt => true
  | _ => false

/-- Operations on what a session sends. -/
def SessionOp.sends : SessionOp -> Bool
  | .exchangeSendFlag _ => true
  | .storeSendFlag _ => true
  | .allocNode => true
  | .linkNode _ => true
  | .incrementSize => true
  | .decrementSize => true
  | .unlinkNode => true
  | .loadSize => true
  | .pushSended _ => true
  | .popSended => true
  | .wsaSend _ => true
  | _ => false

/-- The operations of the worker threads. -/
def Op.works : Op -> Bool
  | .session _ op => op.plain || op.sends
  | .getQueuedCompletionStatus => true
  | op => op.plain

/-- Programs of allowed operations and returned holds. -/
inductive Routine (allowed : Op -> Bool) (fuel : Nat) : {α : Type} -> NetProgram α -> Prop
  | done {α : Type} (value : α) : Routine allowed fuel (.done value)
  | step {α : Type} {op : Op} {next : op.Answer -> NetProgram α} (permitted : allowed op = true)
      (rest : forall answer, Routine allowed fuel (next answer)) :
      Routine allowed fuel (Program.step (I := interface) op next)
  | giveBack {α : Type} (slot : Slot) {continuation : Unit -> NetProgram α}
      (rest : forall value, Routine allowed fuel (continuation value)) :
      Routine allowed fuel (giveBack fuel slot >>= continuation)

namespace Routine

variable {allowed : Op -> Bool} {fuel : Nat} {α β : Type}

theorem bind {program : NetProgram α} {continuation : α -> NetProgram β}
    (routine : Routine allowed fuel program)
    (rest : forall value, Routine allowed fuel (continuation value)) :
    Routine allowed fuel (program >>= continuation) := by
  induction routine with
  | done value => exact rest value
  | step permitted _ inductionHypothesis =>
      exact .step permitted fun answer => inductionHypothesis answer
  | giveBack slot _ inductionHypothesis =>
      rw [Program.bind_assoc]
      exact .giveBack slot fun value => inductionHypothesis value

theorem mono {weak : Op -> Bool} {program : NetProgram α} (routine : Routine allowed fuel program)
    (implies : forall op, allowed op = true -> weak op = true) : Routine weak fuel program := by
  induction routine with
  | done value => exact .done value
  | step permitted _ inductionHypothesis =>
      exact .step (implies _ permitted) fun answer => inductionHypothesis answer
  | giveBack slot _ inductionHypothesis =>
      exact .giveBack slot fun value => inductionHypothesis value

theorem returns (slot : Slot) : Routine allowed fuel (Network.giveBack fuel slot) := by
  rw [← Program.bind_pure (Network.giveBack fuel slot)]
  exact .giveBack slot fun value => .done value

theorem session {slot : Slot} {op : SessionOp} (permitted : allowed (.session slot op) = true) :
    Routine allowed fuel (sessionOp slot op) := .step permitted fun answer => .done answer

theorem net {op : Op} (permitted : allowed op = true) : Routine allowed fuel (netOp op) :=
  .step permitted fun answer => .done answer

/-- A property of operations that holds of the allowed ones, and of those of giving
back, holds of all. -/
theorem uses {property : Op -> Prop} {program : NetProgram α} (routine : Routine allowed fuel program)
    (implies : forall op, allowed op = true -> property op)
    (returned : forall slot, (Network.giveBack fuel slot).Uses property) : program.Uses property := by
  induction routine with
  | done value => trivial
  | step permitted _ inductionHypothesis => exact ⟨implies _ permitted, inductionHypothesis⟩
  | giveBack slot _ inductionHypothesis => exact (returned slot).bind inductionHypothesis

/-- A discipline that ignores the operations and is kept by giving back is kept by
every routine. -/
theorem keeps {D : Discipline interface} {ghost : D.Ghost} {program : NetProgram α}
    (routine : Routine allowed fuel program)
    (ignored : forall (op : Op), allowed op = true -> D.permits ghost op ∧
      forall answer : op.Answer, D.expects ghost ⟨op, answer⟩ -> D.track ghost ⟨op, answer⟩ = ghost)
    (returned : forall slot, D.Keeps (Network.giveBack fuel slot) ghost) :
    D.Keeps program ghost := by
  induction routine with
  | done value => rfl
  | step permitted _ inductionHypothesis =>
      refine ⟨(ignored _ permitted).1, fun answer expected => ?_⟩
      rw [(ignored _ permitted).2 answer expected]
      exact inductionHypothesis answer
  | giveBack slot _ inductionHypothesis =>
      exact (returned slot).bindTo fun value => inductionHypothesis value

end Routine

/-! ## Functions made of blocks -/

/-- The functions in which a session sends, receives, is cancelled and is deleted. -/
inductive Block (fuel : Nat) : NetProgram Unit -> Prop
  | giveBack (slot : Slot) : Block fuel (giveBack fuel slot)
  | disconnectReq (sessionID : SessionID) : Block fuel (disconnectReq fuel sessionID)
  | recvIo (slot : Slot) : Block fuel (recvIo fuel slot)
  | sendIo (slot : Slot) : Block fuel (sendIo fuel slot)

/-- Programs of allowed operations and blocks. -/
inductive Composed (allowed : Op -> Bool) (fuel : Nat) : {α : Type} -> NetProgram α -> Prop
  | done {α : Type} (value : α) : Composed allowed fuel (.done value)
  | step {α : Type} {op : Op} {next : op.Answer -> NetProgram α} (permitted : allowed op = true)
      (rest : forall answer, Composed allowed fuel (next answer)) :
      Composed allowed fuel (Program.step (I := interface) op next)
  | block {α : Type} {program : NetProgram Unit} (block : Block fuel program)
      {continuation : Unit -> NetProgram α}
      (rest : forall value, Composed allowed fuel (continuation value)) :
      Composed allowed fuel (program >>= continuation)

namespace Composed

variable {allowed : Op -> Bool} {fuel : Nat} {α β : Type}

theorem bind {program : NetProgram α} {continuation : α -> NetProgram β}
    (composed : Composed allowed fuel program)
    (rest : forall value, Composed allowed fuel (continuation value)) :
    Composed allowed fuel (program >>= continuation) := by
  induction composed with
  | done value => exact rest value
  | step permitted _ inductionHypothesis =>
      exact .step permitted fun answer => inductionHypothesis answer
  | block block _ inductionHypothesis =>
      rw [Program.bind_assoc]
      exact .block block fun value => inductionHypothesis value

theorem mono {weak : Op -> Bool} {program : NetProgram α} (composed : Composed allowed fuel program)
    (implies : forall op, allowed op = true -> weak op = true) : Composed weak fuel program := by
  induction composed with
  | done value => exact .done value
  | step permitted _ inductionHypothesis =>
      exact .step (implies _ permitted) fun answer => inductionHypothesis answer
  | block block _ inductionHypothesis =>
      exact .block block fun value => inductionHypothesis value

theorem single {program : NetProgram Unit} (block : Block fuel program) :
    Composed allowed fuel program := by
  rw [← Program.bind_pure program]
  exact .block block fun value => .done value

theorem net {op : Op} (permitted : allowed op = true) : Composed allowed fuel (netOp op) :=
  .step permitted fun answer => .done answer

/-- Giving back is a block. -/
theorem of_routine {program : NetProgram α} (routine : Routine allowed fuel program) :
    Composed allowed fuel program := by
  induction routine with
  | done value => exact .done value
  | step permitted _ inductionHypothesis =>
      exact .step permitted fun answer => inductionHypothesis answer
  | giveBack slot _ inductionHypothesis =>
      exact .block (.giveBack slot) fun value => inductionHypothesis value

/-- A discipline that ignores the operations and is kept by the blocks is kept. -/
theorem keeps {D : Discipline interface} {ghost : D.Ghost} {program : NetProgram α}
    (composed : Composed allowed fuel program)
    (ignored : forall (op : Op), allowed op = true -> D.permits ghost op ∧
      forall answer : op.Answer, D.expects ghost ⟨op, answer⟩ -> D.track ghost ⟨op, answer⟩ = ghost)
    (blocks : forall program, Block fuel program -> D.Keeps program ghost) :
    D.Keeps program ghost := by
  induction composed with
  | done value => rfl
  | step permitted _ inductionHypothesis =>
      refine ⟨(ignored _ permitted).1, fun answer expected => ?_⟩
      rw [(ignored _ permitted).2 answer expected]
      exact inductionHypothesis answer
  | block block _ inductionHypothesis =>
      exact (blocks _ block).bindTo fun value => inductionHypothesis value

/-- With blocks that are routine, the program is. -/
theorem routine {weak : Op -> Bool} {program : NetProgram α} (composed : Composed allowed fuel program)
    (implies : forall op, allowed op = true -> weak op = true)
    (blocks : forall program, Block fuel program -> Routine weak fuel program) :
    Routine weak fuel program := by
  induction composed with
  | done value => exact .done value
  | step permitted _ inductionHypothesis =>
      exact .step (implies _ permitted) fun answer => inductionHypothesis answer
  | block block _ inductionHypothesis =>
      exact (blocks _ block).bind fun value => inductionHypothesis value

end Composed

/-- Operations on a session between the blocks. -/
def SessionOp.between : SessionOp -> Bool
  | .incrementIo => true
  | .loadId => true
  | .recved _ => true
  | .recvedPacket _ => true
  | .allocNode => true
  | .linkNode _ => true
  | .incrementSize => true
  | .popSended => true
  | .storeSendFlag _ => true
  | .loadSize => true
  | _ => false

def Op.between : Op -> Bool
  | .session _ op => op.between
  | .getQueuedCompletionStatus => true
  | .postQueuedCompletionStatus _ _ => true
  | .serializerAlloc => true
  | .serializerFree _ => true
  | .incReferenceCounter _ => true
  | .decReferenceCounter _ => true
  | .login _ => true
  | .mark call => call.plain
  | .halt => true
  | _ => false

section Functions

variable {fuel : Nat}

abbrev Assembled (fuel : Nat) {α : Type} (program : NetProgram α) : Prop :=
  Composed Op.between fuel program

theorem releaseSerializer_assembled (pointer : Pointer) :
    Assembled fuel (releaseSerializer pointer) := by
  refine .step rfl fun (count : Int) => ?_
  change Assembled fuel (if count = 0 then _ else _)
  split
  · exact .net rfl
  · exact .done ()

theorem findSession_routine (sessionID : SessionID) :
    Routine Op.between fuel (findSession fuel sessionID) := by
  refine .step rfl fun _ => .step rfl fun (temp : IoCount) => ?_
  change Routine Op.between fuel (if temp.deleted then _ else _)
  split
  · exact .giveBack _ fun _ => .done none
  · refine .step rfl fun (id : SessionID) => ?_
    change Routine Op.between fuel (if id ≠ sessionID then _ else _)
    split
    · exact .giveBack _ fun _ => .done none
    · exact .done _

theorem findSession_assembled (sessionID : SessionID) :
    Assembled fuel (findSession fuel sessionID) := .of_routine (findSession_routine sessionID)

theorem sendReq_assembled (sessionID : SessionID) (packet : Packet) :
    Assembled fuel (sendReq fuel sessionID packet) := by
  refine (findSession_assembled sessionID).bind fun found => ?_
  cases found with
  | none => exact .done ()
  | some slot => exact .step rfl fun _ => .step rfl fun _ => .step rfl fun _ => .single (.giveBack slot)

theorem sendReqPacket_assembled (sessionID : SessionID) (packet : Packet) :
    Assembled fuel (sendReqPacket fuel sessionID packet) :=
  .step rfl fun _ => (sendReq_assembled sessionID packet).bind fun _ =>
    releaseSerializer_assembled packet.pointer

theorem handleLogin_assembled (op : LoginOp) : Assembled fuel (handleLogin fuel op) := by
  cases op with
  | disconnectReq sessionID => exact .single (.disconnectReq sessionID)
  | sendReq sessionID pointer packet => exact sendReqPacket_assembled sessionID _
  | packetNew => exact .step rfl fun buffer => .step rfl fun _ => .done buffer
  | packetDelete pointer => exact releaseSerializer_assembled pointer
  | _ => exact .net rfl

theorem onRecv_assembled (slot : Slot) (sessionID : SessionID) (packet : Serializer) :
    Assembled fuel (onRecv fuel slot sessionID packet) := by
  refine .step rfl fun _ => ?_
  generalize Login.onRecv sessionID packet = program
  induction program with
  | done value => exact .done value
  | step op next inductionHypothesis =>
      exact (handleLogin_assembled op).bind fun answer => inductionHypothesis answer

theorem extraction_assembled (slot : Slot) (rounds : Nat) :
    Assembled fuel (extraction fuel slot rounds) := by
  induction rounds with
  | zero => exact .step rfl (by simp)
  | succ rounds inductionHypothesis =>
      refine .step rfl fun p => .step rfl fun _ => .step rfl fun (result : Bool × Serializer) => ?_
      rcases result with ⟨extracted, packet⟩
      cases extracted with
      | false => exact releaseSerializer_assembled _
      | true =>
          refine .step rfl fun id => (onRecv_assembled slot id packet).bind fun _ => ?_
          exact (releaseSerializer_assembled _).bind fun _ => inductionHypothesis

theorem handleRecv_assembled (slot : Slot) (transfer : BitVec 32) :
    Assembled fuel (handleRecv fuel slot transfer) := by
  refine .step rfl fun (accepted : Bool) => ?_
  cases accepted with
  | false => exact .done false
  | true =>
      refine (extraction_assembled slot fuel).bind fun _ => ?_
      exact .block (.recvIo slot) fun _ => .done true

theorem push_assembled (slot : Slot) (packet : Packet) : Assembled fuel (push slot packet) := by
  refine .step rfl fun (allocated : Bool) => ?_
  cases allocated with
  | true => exact .step rfl fun _ => .step rfl fun _ => .done true
  | false => exact .done false

theorem sendedLoop_assembled (slot : Slot) (rounds : Nat) (transfer : BitVec 32)
    (packetBuffer : Option Packet) (sendedCount : BitVec 32) :
    Assembled fuel (sendedLoop slot rounds transfer packetBuffer sendedCount) := by
  induction rounds generalizing transfer packetBuffer sendedCount with
  | zero => exact .step rfl (by simp)
  | succ rounds inductionHypothesis =>
      unfold sendedLoop
      split
      · exact .done sendedCount
      · refine .step rfl fun popped => ?_
        simp only [Program.bind]
        split
        · exact .step rfl (by simp)
        · exact (releaseSerializer_assembled _).bind fun _ => inductionHypothesis _ _ _

theorem handleRequest_assembled (slot : Slot) (packet : Packet) :
    Assembled fuel (handleRequest fuel slot packet) := by
  refine (push_assembled slot packet).bind fun collected => ?_
  cases collected with
  | true => exact .single (.sendIo slot)
  | false => exact releaseSerializer_assembled _

theorem handleSend_assembled (slot : Slot) (transfer : BitVec 32) :
    Assembled fuel (handleSend fuel slot transfer) := by
  have counted : Assembled fuel (sended fuel slot transfer) := by
    unfold sended
    split
    · exact .done (-1)
    · exact sendedLoop_assembled slot fuel transfer none 0
  refine .step rfl fun id => .step rfl fun _ => counted.bind fun tp => ?_
  split
  · exact .step rfl fun _ => .done false
  · refine .step rfl fun _ => .step rfl fun (size : Int) => ?_
    change Assembled fuel (if size > 0 then _ else _)
    split
    · exact .block (.sendIo slot) fun _ => .done true
    · exact .done true

theorem handleCompletion_assembled (completion : Completion) :
    Assembled fuel (handleCompletion fuel completion) := by
  unfold handleCompletion
  split
  · split
    · exact (handleRequest_assembled _ _).bind fun _ => .done true
    · exact .done true
  · split
    · exact handleSend_assembled _ _
    · exact handleRecv_assembled _ _
    · exact .done true

theorem workerThread_assembled : Assembled fuel (workerThread fuel) := by
  refine .step rfl fun (completion : Completion) => ?_
  change Assembled fuel (if completion.success then _ else _)
  split
  · refine (handleCompletion_assembled completion).bind fun handled => ?_
    cases handled with
    | true => exact .single (.giveBack _)
    | false => exact .done ()
  · exact .single (.giveBack _)

theorem timeOut_assembled (timeoutThreshold currentTick : BitVec 64)
    (connections : List (SessionID × ConnectionData)) :
    Assembled fuel (timeOut fuel timeoutThreshold currentTick connections) := by
  induction connections with
  | nil => exact .done ()
  | cons entry rest inductionHypothesis =>
      unfold timeOut
      split
      · exact .block (.disconnectReq entry.1) fun _ => inductionHypothesis
      · exact inductionHypothesis

theorem scopeRules_assembled : ScopeRules fuel fun {_} program => Assembled fuel program where
  done := .done
  bind := fun assembled rest => assembled.bind rest
  mark := fun _ => .net rfl
  alloc := .net rfl
  increment := fun _ => .net rfl
  release := releaseSerializer_assembled
  sendReq := sendReq_assembled
  sendReqPacket := sendReqPacket_assembled

theorem contentCall_assembled (call : ContentCall) : Assembled fuel (call.program fuel) := by
  cases call with
  | disconnectReq sessionID => exact .single (.disconnectReq sessionID)
  | sendReq sessionID packet => exact sendReq_assembled sessionID packet
  | sendReqPacket sessionID packet => exact sendReqPacket_assembled sessionID packet
  | findSession sessionID =>
      refine (findSession_assembled sessionID).bind fun found => ?_
      cases found with
      | none => exact .done ()
      | some slot => exact .single (.giveBack slot)
  | packets statements => exact scopeRules_assembled.packetScope statements []

end Functions

/-! ## The operations of the blocks -/

section Works

variable {fuel : Nat}

abbrev Works (fuel : Nat) {α : Type} (program : NetProgram α) : Prop :=
  Routine Op.works fuel program

/-- The operations of `sendIO` and `recvIO`. -/
def Op.io : Op -> Bool
  | .session _ op => op.plain || op.sends
  | .halt => true
  | _ => false

theorem works_of_io {op : Op} (io : op.io = true) : op.works = true := by
  cases op <;> first | exact io | exact Bool.noConfusion io

theorem pop_io (slot : Slot) : Routine Op.io fuel (pop slot) := by
  refine .step rfl fun (size : Int) => ?_
  change Routine Op.io fuel (if size < 0 then _ else _)
  split
  · exact .step rfl fun _ => .done none
  · exact .step rfl fun packet => .done (some packet)

theorem gather_io (slot : Slot) (packetCount rounds : Nat) (batch : List Packet) :
    Routine Op.io fuel (gather slot packetCount rounds batch) := by
  induction rounds generalizing batch with
  | zero => exact .step rfl (by simp)
  | succ rounds inductionHypothesis =>
      unfold gather
      split
      · refine (pop_io slot).bind fun popped => ?_
        cases popped with
        | none => exact inductionHypothesis batch
        | some packet =>
            dsimp only
            split
            · refine .step rfl fun (stored : Bool) => ?_
              cases stored with
              | true => exact inductionHypothesis _
              | false => exact .step rfl (by simp)
            · exact .step rfl (by simp)
      · exact .done batch

theorem sendIo_io (slot : Slot) : Routine Op.io fuel (sendIo fuel slot) := by
  refine .step rfl fun (cancelled : Bool) => ?_
  change Routine Op.io fuel (if cancelled then _ else _)
  split
  · exact .done ()
  refine .step rfl fun (busy : Bool) => ?_
  change Routine Op.io fuel (if busy then _ else _)
  split
  · exact .done ()
  refine .step rfl fun (sendBufferSize : Int) => ?_
  change Routine Op.io fuel (if sendBufferSize = 0 then _ else _)
  have reset : Routine Op.io fuel (resetSendFlag slot) := .step rfl fun _ => .done ()
  split
  · exact reset
  refine .step rfl fun _ => (gather_io slot _ fuel []).bind fun buffer => ?_
  refine .step rfl fun (result : IoResult) => ?_
  cases result with
  | success => exact .done ()
  | pending =>
      refine .step rfl fun (cancelled : Bool) => ?_
      change Routine Op.io fuel (if cancelled then _ else _)
      split
      · exact .step rfl fun _ => .done ()
      · exact .done ()
  | error code =>
      change Routine Op.io fuel (if connectionLost code then _ else _)
      split
      · exact .step rfl fun _ => .step rfl fun _ => .returns slot
      · exact reset.bind fun _ => .step rfl fun _ => .step rfl fun _ => .returns slot

theorem recvIo_io (slot : Slot) : Routine Op.io fuel (recvIo fuel slot) := by
  refine .step rfl fun (cancelled : Bool) => ?_
  change Routine Op.io fuel (if cancelled then _ else _)
  split
  · exact .done ()
  refine .step rfl fun buffer => .step rfl fun _ => .step rfl fun (result : IoResult) => ?_
  cases result with
  | success => exact .done ()
  | pending =>
      refine .step rfl fun (cancelled : Bool) => ?_
      change Routine Op.io fuel (if cancelled then _ else _)
      split
      · exact .step rfl fun _ => .done ()
      · exact .done ()
  | error code => exact .step rfl fun _ => .step rfl fun _ => .returns slot

theorem sendIo_works (slot : Slot) : Works fuel (sendIo fuel slot) :=
  (sendIo_io slot).mono fun _ => works_of_io

theorem recvIo_works (slot : Slot) : Works fuel (recvIo fuel slot) :=
  (recvIo_io slot).mono fun _ => works_of_io

theorem works_of_between {op : Op} (between : op.between = true) : op.works = true := by
  cases op with
  | session slot op => cases op <;> first | rfl | exact Bool.noConfusion between
  | mark note => exact between
  | _ => first | rfl | exact Bool.noConfusion between

theorem disconnectReq_works (sessionID : SessionID) : Works fuel (disconnectReq fuel sessionID) := by
  refine ((findSession_routine sessionID).mono fun _ => works_of_between).bind fun found => ?_
  cases found with
  | none => exact .done ()
  | some slot => exact .step rfl fun _ => .step rfl fun _ => .step rfl fun _ => .returns slot

theorem Block.works {program : NetProgram Unit} (block : Block fuel program) : Works fuel program := by
  cases block with
  | giveBack slot => exact .returns slot
  | disconnectReq sessionID => exact disconnectReq_works sessionID
  | recvIo slot => exact recvIo_works slot
  | sendIo slot => exact sendIo_works slot

theorem Composed.works {α : Type} {program : NetProgram α} (assembled : Assembled fuel program) :
    Works fuel program :=
  assembled.routine (fun _ => works_of_between) fun _ => Block.works

end Works

/-! ## Giving back -/

/-- Session operations of giving back a hold and deleting the session. -/
def SessionOp.closes : SessionOp -> Bool
  | .decrementIo => true
  | .compareExchangeIo => true
  | .loadId => true
  | .loadSocket => true
  | .decrementSize => true
  | .incrementSize => true
  | .unlinkNode => true
  | .emptySended => true
  | .popSended => true
  | .clearRecvBuffer => true
  | _ => false

def Op.closes : Op -> Bool
  | .session _ op => op.closes
  | .decReferenceCounter _ => true
  | .serializerFree _ => true
  | .closesocket _ => true
  | .pushIndex _ => true
  | .mark (.onDisconnect _) => true
  | .acquireContainorLock .exclusive => true
  | .eraseConnection _ => true
  | .releaseContainorLock .exclusive => true
  | .halt => true
  | _ => false

/-- A program of closing operations. -/
abbrev Closes {α : Type} (program : NetProgram α) : Prop := program.Uses fun (op : Op) => op.closes = true

theorem pop_closes (slot : Slot) : Closes (pop slot) := by
  refine ⟨rfl, fun size => ?_⟩
  change Closes (if size < 0 then _ else _)
  split
  · exact ⟨rfl, fun _ => trivial⟩
  · exact ⟨rfl, fun packet => trivial⟩

theorem releaseSerializer_closes (pointer : Pointer) : Closes (releaseSerializer pointer) := by
  refine ⟨rfl, fun (count : Int) => ?_⟩
  change Closes (if count = 0 then _ else _)
  split
  · exact ⟨rfl, fun _ => trivial⟩
  · trivial

theorem bufferClear_closes (fuel : Nat) (slot : Slot) : Closes (bufferClear fuel slot) := by
  have queued : forall rounds, Closes (clearSendBuffer slot rounds) := by
    intro rounds
    induction rounds with
    | zero => exact ⟨rfl, by simp⟩
    | succ rounds inductionHypothesis =>
        refine (pop_closes slot).bind fun popped => ?_
        cases popped with
        | none => trivial
        | some packet => exact (releaseSerializer_closes packet.pointer).bind fun _ => inductionHypothesis
  have sent : forall rounds, Closes (clearSendedBuffer slot rounds) := by
    intro rounds
    induction rounds with
    | zero => exact ⟨rfl, by simp⟩
    | succ rounds inductionHypothesis =>
        refine ⟨rfl, fun (empty : Bool) => ?_⟩
        cases empty with
        | true => trivial
        | false =>
            refine ⟨rfl, fun (popped : Option Packet) => ?_⟩
            cases popped with
            | none => exact ⟨rfl, by simp⟩
            | some packet =>
                exact (releaseSerializer_closes packet.pointer).bind fun _ => inductionHypothesis
  exact (queued fuel).bind fun _ => (sent fuel).bind fun _ => ⟨rfl, fun _ => trivial⟩

theorem giveBack_closes (fuel : Nat) (slot : Slot) : Closes (giveBack fuel slot) := by
  refine ⟨rfl, fun (count : IoCount) => ?_⟩
  change Closes (if count.isZero then _ else _)
  split
  · refine ⟨rfl, fun (previous : IoCount) => ?_⟩
    change Closes (if previous.isZero then _ else _)
    split
    · refine ⟨rfl, fun targetID => ⟨rfl, fun sock => ⟨rfl, fun closed => ?_⟩⟩⟩
      refine (bufferClear_closes fuel slot).bind fun _ => ?_
      exact ⟨rfl, fun _ => ⟨rfl, fun _ => ⟨rfl, fun _ => ⟨rfl, fun _ => ⟨rfl, fun _ => trivial⟩⟩⟩⟩⟩
    · trivial
  · trivial

/-! ## Jobs -/

/-- Operations of the jobs outside the blocks: also those of the accept thread, of
`init` and of `update`. -/
def Op.outside : Op -> Bool
  | .session _ (.storeId _) => true
  | .session _ (.storeSocket _) => true
  | .session _ (.storeCancelIoFlag value) => !value
  | .session _ .clearDeleted => true
  | .session _ op => op.between
  | .accept => true
  | .closesocket _ => true
  | .popIndex => true
  | .nextSessionCount => true
  | .getTickCount => true
  | .connectionNew _ => true
  | .acquireContainorLock _ => true
  | .releaseContainorLock _ => true
  | .insertConnection _ _ => true
  | .scanConnections => true
  | .mark (.onNewConnect _) => true
  | op => op.between

theorem outside_of_between {op : Op} (between : op.between = true) : op.outside = true := by
  cases op with
  | session slot op => cases op <;> first | rfl | exact Bool.noConfusion between
  | mark note => cases note <;> first | rfl | exact Bool.noConfusion between
  | _ => first | rfl | exact Bool.noConfusion between

theorem acceptThread_composed (fuel : Nat) : Composed Op.outside fuel (acceptThread fuel) := by
  refine .step rfl fun (accepted : Option Nat) => ?_
  cases accepted with
  | none => exact .done ()
  | some clientSock =>
      refine .step rfl fun (popped : Option Slot) => ?_
      cases popped with
      | none => exact .step rfl fun _ => .done ()
      | some index =>
          have connected (sessionID : SessionID) :
              Composed Op.outside fuel (onNewConnect fuel sessionID) := by
            refine .step rfl fun _ => ((findSession_assembled sessionID).mono
              fun _ => outside_of_between).bind fun found => ?_
            cases found with
            | none => exact .done ()
            | some slot =>
                exact .step rfl fun _ => .step rfl fun _ => .step rfl fun _ => .step rfl fun _ =>
                  .step rfl fun _ => .single (.giveBack slot)
          refine .step rfl fun sessionCount => .step rfl fun _ => .step rfl fun _ => .step rfl fun _ =>
            .step rfl fun _ => .step rfl fun _ => .step rfl fun _ => (connected _).bind fun _ => ?_
          exact .block (.recvIo index) fun _ => .single (.giveBack index)

theorem jobs_composed {workers contents : Nat} {settings : Settings} {thread : Thread workers contents}
    {job : Job} {program : NetProgram Unit} (chosen : jobProgram settings thread job = some program) :
    Composed Op.outside settings.fuel program := by
  cases thread <;> cases job <;> cases chosen
  case accept.loop => exact acceptThread_composed settings.fuel
  case worker.loop => exact workerThread_assembled.mono fun _ => outside_of_between
  case timeout.loop =>
    refine .step rfl fun currentTick => .step rfl fun _ => .step rfl fun connections => ?_
    refine ((timeOut_assembled settings.timeoutThreshold currentTick connections).mono
      fun _ => outside_of_between).bind fun _ => ?_
    exact .net rfl
  case content.call => exact (contentCall_assembled _).mono fun _ => outside_of_between

/-- A property of the operations of workers, of giving back and of `update` holds
of the operations of all jobs but the accept thread's. -/
theorem jobs_use {workers contents : Nat} {settings : Settings} {property : Op -> Prop}
    {thread : Thread workers contents} {job : Job} {program : NetProgram Unit}
    (works : forall op, op.works = true -> property op)
    (closes : forall op, op.closes = true -> property op)
    (locks : property (.acquireContainorLock .shared) ∧ property (.releaseContainorLock .shared) ∧
      property .scanConnections)
    (other : thread ≠ .accept) (chosen : jobProgram settings thread job = some program) :
    program.Uses property := by
  have routine {program : NetProgram Unit} (routine : Works settings.fuel program) :
      program.Uses property :=
    routine.uses works fun slot => (giveBack_closes settings.fuel slot).mono closes
  cases thread <;> cases job <;> cases chosen
  case accept.loop => exact absurd rfl other
  case worker.loop => exact routine workerThread_assembled.works
  case timeout.loop =>
    refine ⟨works _ rfl, fun currentTick => ⟨locks.1, fun _ => ⟨locks.2.2, fun connections => ?_⟩⟩⟩
    refine (routine (timeOut_assembled settings.timeoutThreshold currentTick connections).works).bind
      fun _ => ?_
    exact ⟨locks.2.1, fun _ => trivial⟩
  case content.call => exact routine (contentCall_assembled _).works

end Network
end LoginServer
