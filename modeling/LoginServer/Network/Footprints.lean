import LoginServer.Concurrency.Layer
import LoginServer.Network.Lifecycle
import LoginServer.Network.Routine

namespace LoginServer
namespace Network

open Memory Buffers Receiving Login Concurrency

/-!
# Footprints

The operations that single functions are made of.  A layer over `living` that
gives no meaning to these operations is obeyed by the function as soon as
`living` is, and its own value stays as it was.
-/

/-! ## Layers over `living` -/

section Layers

variable {L : Layer living} {α : Type}

/-- Where a thread stands between the functions, with the value of the layer. -/
abbrev standsWith (L : Layer living) (extra : L.Extra) (account : Account) (ghost : L.whole.Ghost) : Prop :=
  standsAt account ghost.1 ∧ ghost.2 = extra

/-- What a function does to an account in `living` it does in the whole. -/
theorem Moves.lift {program : NetProgram α} {account : Account} {post : Account -> α -> Prop}
    {extra : L.Extra} (moves : Moves living standsAt program account post)
    (uses : program.Uses (L.Ignores extra)) :
    Moves L.whole (standsWith L extra) program account post := by
  rintro ⟨position, _⟩ ⟨stands, rfl⟩
  refine (Layer.lift (moves position stands) uses).mono ?_
  rintro ⟨position', _⟩ value ⟨⟨account', there, holds⟩, rfl⟩
  exact ⟨account', ⟨there, rfl⟩, holds⟩

end Layers

/-! ## Deletion -/

/-- Operations of giving back, after the hold is gone. -/
def Op.deletes : Op -> Bool
  | .session _ .decrementIo => false
  | op => op.closes

theorem deletes_of_local {slot : Slot} {op : Op} (both : op.closes = true ∧ op.localTo slot = true) :
    op.deletes = true := by
  rcases both with ⟨closes, near⟩
  cases op with
  | session target op =>
      have quiet : op.quiet = true := (Bool.and_eq_true_iff.mp near).2
      cases op <;> first | exact closes | exact Bool.noConfusion quiet
  | _ => exact closes

theorem deleteSession_deletes (fuel : Nat) (slot : Slot) :
    (deleteSession fuel slot).Uses fun (op : Op) => op.deletes = true := by
  have cleared : (bufferClear fuel slot).Uses fun (op : Op) => op.deletes = true :=
    ((bufferClear_closes fuel slot).and (bufferClear_local fuel slot)).mono fun _ => deletes_of_local
  refine ⟨rfl, fun (previous : IoCount) => ?_⟩
  change Program.Uses _ (if previous.isZero then _ else _)
  split
  · refine ⟨rfl, fun targetID => ⟨rfl, fun sock => ⟨rfl, fun closed => cleared.bind fun _ => ?_⟩⟩⟩
    exact ⟨rfl, fun _ => ⟨rfl, fun _ => ⟨rfl, fun _ => ⟨rfl, fun _ => ⟨rfl, fun _ => trivial⟩⟩⟩⟩⟩
  · trivial

/-! ## Requests -/

/-- Operations of `findSession`, `disconnectReq` and `sendReq`, and on packets. -/
def Op.requests : Op -> Bool
  | .session _ .incrementIo => true
  | .session _ (.storeCancelIoFlag value) => value
  | .session _ (.cancelIoEx _) => true
  | .mark (.findSession _) => true
  | .mark (.packets _) => true
  | .serializerAlloc => true
  | .incReferenceCounter _ => true
  | .postQueuedCompletionStatus _ _ => true
  | op => op.closes

/-- A program of such operations. -/
abbrev Requests {α : Type} (program : NetProgram α) : Prop :=
  program.Uses fun (op : Op) => op.requests = true

theorem requests_of_closes {op : Op} (closes : op.closes = true) : op.requests = true := by
  cases op with
  | session slot op => cases op <;> first | rfl | exact Bool.noConfusion closes
  | mark note => cases note <;> first | rfl | exact Bool.noConfusion closes
  | _ => first | exact closes | exact Bool.noConfusion closes

section Functions

variable {fuel : Nat}

theorem giveBack_requests (slot : Slot) : Requests (giveBack fuel slot) :=
  (giveBack_closes fuel slot).mono fun _ => requests_of_closes

theorem findSession_requests (sessionID : SessionID) : Requests (findSession fuel sessionID) := by
  refine ⟨rfl, fun _ => ⟨rfl, fun (temp : IoCount) => ?_⟩⟩
  change Requests (if temp.deleted then _ else _)
  split
  · exact (giveBack_requests _).bind fun _ => trivial
  · refine ⟨rfl, fun (id : SessionID) => ?_⟩
    change Requests (if id ≠ sessionID then _ else _)
    split
    · exact (giveBack_requests _).bind fun _ => trivial
    · trivial

theorem disconnectReq_requests (sessionID : SessionID) : Requests (disconnectReq fuel sessionID) := by
  refine (findSession_requests sessionID).bind fun found => ?_
  cases found with
  | none => trivial
  | some slot => exact ⟨rfl, fun _ => ⟨rfl, fun _ => ⟨rfl, fun _ => giveBack_requests slot⟩⟩⟩

theorem sendReq_requests (sessionID : SessionID) (packet : Packet) :
    Requests (sendReq fuel sessionID packet) := by
  refine (findSession_requests sessionID).bind fun found => ?_
  cases found with
  | none => trivial
  | some slot => exact ⟨rfl, fun _ => ⟨rfl, fun _ => ⟨rfl, fun _ => giveBack_requests slot⟩⟩⟩

theorem releaseSerializer_requests (pointer : Pointer) : Requests (releaseSerializer pointer) :=
  (releaseSerializer_closes pointer).mono fun _ => requests_of_closes

theorem sendReqPacket_requests (sessionID : SessionID) (packet : Packet) :
    Requests (sendReqPacket fuel sessionID packet) :=
  ⟨rfl, fun _ => (sendReq_requests sessionID packet).bind fun _ => releaseSerializer_requests packet.pointer⟩

theorem scopeRules_requests : ScopeRules fuel fun {_} program => Requests program where
  done := fun _ => trivial
  bind := fun requests rest => requests.bind rest
  mark := fun _ => ⟨rfl, fun _ => trivial⟩
  alloc := ⟨rfl, fun _ => trivial⟩
  increment := fun _ => ⟨rfl, fun _ => trivial⟩
  release := releaseSerializer_requests
  sendReq := sendReq_requests
  sendReqPacket := sendReqPacket_requests

theorem contentCall_requests (call : ContentCall) : Requests (call.program fuel) := by
  cases call with
  | disconnectReq sessionID => exact disconnectReq_requests sessionID
  | sendReq sessionID packet => exact sendReq_requests sessionID packet
  | sendReqPacket sessionID packet => exact sendReqPacket_requests sessionID packet
  | findSession sessionID =>
      refine (findSession_requests sessionID).bind fun found => ?_
      cases found with
      | none => trivial
      | some slot => exact giveBack_requests slot
  | packets statements => exact scopeRules_requests.packetScope statements []

/-- Operations of `update`, and of `OnNewConnect` after its call of `findSession`. -/
def Op.registers : Op -> Bool
  | .getTickCount => true
  | .acquireContainorLock _ => true
  | .releaseContainorLock _ => true
  | .scanConnections => true
  | .connectionNew _ => true
  | .insertConnection _ _ => true
  | op => op.requests

theorem registers_of_requests {op : Op} (requests : op.requests = true) : op.registers = true := by
  cases op <;> first | rfl | exact requests

theorem update_registers (timeoutThreshold : BitVec 64) :
    (update fuel timeoutThreshold).Uses fun (op : Op) => op.registers = true := by
  have each (currentTick : BitVec 64) (connections : List (SessionID × ConnectionData)) :
      Requests (timeOut fuel timeoutThreshold currentTick connections) := by
    induction connections with
    | nil => trivial
    | cons entry rest inductionHypothesis =>
        unfold timeOut
        split
        · exact (disconnectReq_requests entry.1).bind fun _ => inductionHypothesis
        · exact inductionHypothesis
  refine ⟨rfl, fun currentTick => ⟨rfl, fun _ => ⟨rfl, fun connections => ?_⟩⟩⟩
  refine ((each currentTick connections).mono fun _ => registers_of_requests).bind fun _ => ?_
  exact ⟨rfl, fun _ => trivial⟩

/-! ## Sending -/

/-- Operations of `sendIO`, and of what leads to it. -/
def Op.sends : Op -> Bool
  | .session _ .loadCancelIoFlag => true
  | .session _ .incrementIo => true
  | .session _ (.storeCancelIoFlag value) => value
  | .session _ (.cancelIoEx _) => true
  | .session _ op => op.sends || op.closes
  | .mark (.onSend _ _ _) => true
  | .mark (.sendedFailed _) => true
  | op => op.closes

/-- A program of such operations. -/
abbrev Sends {α : Type} (program : NetProgram α) : Prop :=
  program.Uses fun (op : Op) => op.sends = true

theorem sends_of_closes {op : Op} (closes : op.closes = true) : op.sends = true := by
  cases op with
  | session slot op => cases op <;> first | rfl | exact Bool.noConfusion closes
  | mark note => cases note <;> first | rfl | exact Bool.noConfusion closes
  | _ => exact closes

theorem push_sends (slot : Slot) (packet : Packet) : Sends (push slot packet) := by
  refine ⟨rfl, fun (allocated : Bool) => ?_⟩
  cases allocated with
  | true => exact ⟨rfl, fun _ => ⟨rfl, fun _ => trivial⟩⟩
  | false => trivial

theorem gather_sends (slot : Slot) (packetCount rounds : Nat) (batch : List Packet) :
    Sends (gather slot packetCount rounds batch) := by
  induction rounds generalizing batch with
  | zero => exact ⟨rfl, by simp⟩
  | succ rounds inductionHypothesis =>
      unfold gather
      split
      · refine ((pop_closes slot).mono fun _ => sends_of_closes).bind fun popped => ?_
        cases popped with
        | none => exact inductionHypothesis batch
        | some packet =>
            dsimp only
            split
            · refine ⟨rfl, fun (stored : Bool) => ?_⟩
              cases stored with
              | true => exact inductionHypothesis _
              | false => exact ⟨rfl, by simp⟩
            · exact ⟨rfl, by simp⟩
      · trivial

theorem giveBack_sends (slot : Slot) : Sends (giveBack fuel slot) :=
  (giveBack_closes fuel slot).mono fun _ => sends_of_closes

theorem sendIo_sends (slot : Slot) : Sends (sendIo fuel slot) := by
  refine ⟨rfl, fun (cancelled : Bool) => ?_⟩
  cases cancelled with
  | true => trivial
  | false =>
      refine ⟨rfl, fun (busy : Bool) => ?_⟩
      cases busy with
      | true => trivial
      | false =>
          refine ⟨rfl, fun (sendBufferSize : Int) => ?_⟩
          change Sends (if sendBufferSize = 0 then _ else _)
          have reset : Sends (resetSendFlag slot) := ⟨rfl, fun _ => trivial⟩
          split
          · exact reset
          refine ⟨rfl, fun _ => (gather_sends slot _ fuel []).bind fun buffer => ?_⟩
          refine ⟨rfl, fun (result : IoResult) => ?_⟩
          cases result with
          | success => trivial
          | pending =>
              refine ⟨rfl, fun (cancelled : Bool) => ?_⟩
              cases cancelled with
              | true => exact ⟨rfl, fun _ => trivial⟩
              | false => trivial
          | error code =>
              have rest : Sends (do
                  sessionOp slot (.storeCancelIoFlag true)
                  let _ ← sessionOp slot (.cancelIoEx .recv)
                  giveBack fuel slot) := ⟨rfl, fun _ => ⟨rfl, fun _ => giveBack_sends slot⟩⟩
              change Sends (if connectionLost code then _ else _)
              split
              · exact rest
              · exact reset.bind fun _ => rest

theorem handleRequest_sends (slot : Slot) (packet : Packet) :
    Sends (handleRequest fuel slot packet) := by
  refine (push_sends slot packet).bind fun collected => ?_
  cases collected with
  | true => exact sendIo_sends slot
  | false => exact (releaseSerializer_closes packet.pointer).mono fun _ => sends_of_closes

theorem sended_sends (slot : Slot) (transfer : BitVec 32) : Sends (sended fuel slot transfer) := by
  have each (rounds : Nat) (transfer : BitVec 32) (packetBuffer : Option Packet) (sendedCount : BitVec 32) :
      Sends (sendedLoop slot rounds transfer packetBuffer sendedCount) := by
    induction rounds generalizing transfer packetBuffer sendedCount with
    | zero => exact ⟨rfl, by simp⟩
    | succ rounds inductionHypothesis =>
        unfold sendedLoop
        split
        · trivial
        · refine ⟨rfl, fun popped => ?_⟩
          simp only [Program.bind]
          split
          · exact ⟨rfl, by simp⟩
          · refine ((releaseSerializer_closes _).mono fun _ => sends_of_closes).bind fun _ => ?_
            exact inductionHypothesis _ _ _
  unfold sended
  split
  · trivial
  · exact each fuel transfer none 0

theorem handleSend_sends (slot : Slot) (transfer : BitVec 32) : Sends (handleSend fuel slot transfer) := by
  refine ⟨rfl, fun id => ⟨rfl, fun _ => (sended_sends slot transfer).bind fun tp => ?_⟩⟩
  split
  · exact ⟨rfl, fun _ => trivial⟩
  · refine ⟨rfl, fun _ => ⟨rfl, fun (size : Int) => ?_⟩⟩
    change Sends (if size > 0 then _ else _)
    split
    · exact (sendIo_sends slot).bind fun _ => trivial
    · trivial

end Functions

end Network
end LoginServer
