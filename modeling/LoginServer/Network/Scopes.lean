import LoginServer.Network.Functions

namespace LoginServer
namespace Network

open Memory Buffers Receiving Login Concurrency

/-!
# Packets of content code

Content code works with `packet` objects.  It constructs them and writes into
them, copies, assigns and destroys them, and hands them to `sendReq`.  What is
in scope at its end is destroyed, the latest first.

A packet is filled before it is copied or sent.  `packet(serializer*)` takes
over a reference that its caller has counted, and `operator = (serializer*)`
does so after it has let go of its own one.  For the counters, the first is
nothing at all, and the second the destruction of an object.
-/

/-- `packet()`, and what is written into it. -/
def constructPacket (bytes : List Byte) : NetProgram Packet := do
  let buffer ← netOp .serializerAlloc
  let _ ← netOp (.incReferenceCounter buffer.pointer)
  return ⟨buffer.pointer, bytes⟩

/-- `packet(packet& p)` -/
def copyPacket (p : Packet) : NetProgram Packet := do
  let _ ← netOp (.incReferenceCounter p.pointer)
  return p

/-- `operator = (const packet& p)` -/
def assignPacket (buffer : Pointer) (p : Packet) : NetProgram Packet := do
  let _ ← netOp (.incReferenceCounter p.pointer)
  releaseSerializer buffer
  return p

/-- A statement about `packet` objects.  Those in scope go by their position, the latest first. -/
inductive PacketStatement where
  | construct (bytes : List Byte)
  | copy (source : Nat)
  /-- The copy of a packet that is not in scope. -/
  | copyOther (source : Packet)
  | assign (target source : Nat)
  | destroy (target : Nat)
  | sendReq (sessionID : SessionID) (source : Nat)
  | sendReqPacket (sessionID : SessionID) (source : Nat)

/-- What is done with an object in scope. -/
def withObject (objects : List Packet) (position : Nat) (use : Packet -> NetProgram (List Packet)) :
    NetProgram (List Packet) :=
  match objects[position]? with
  | none => return objects
  | some packet => use packet

/-- The objects in scope after a statement. -/
def PacketStatement.program (fuel : Nat) (objects : List Packet) : PacketStatement -> NetProgram (List Packet)
  | .construct bytes => do
      let packet ← constructPacket bytes
      return packet :: objects
  | .copy source => withObject objects source fun q => do
      let packet ← copyPacket q
      return packet :: objects
  | .copyOther source => do
      let packet ← copyPacket source
      return packet :: objects
  | .assign target source => withObject objects target fun p => withObject objects source fun q => do
      let packet ← assignPacket p.pointer q
      return objects.set target packet
  | .destroy target => withObject objects target fun p => do
      releaseSerializer p.pointer
      return objects.eraseIdx target
  | .sendReq sessionID source => withObject objects source fun q => do
      Network.sendReq fuel sessionID q
      return objects
  | .sendReqPacket sessionID source => withObject objects source fun q => do
      Network.sendReqPacket fuel sessionID q
      return objects

/-- The destructors at the end of a scope. -/
def destroyPackets : List Packet -> NetProgram Unit
  | [] => return
  | packet :: objects => do
      releaseSerializer packet.pointer
      destroyPackets objects

/-- A scope with its statements. -/
def packetScope (fuel : Nat) : List PacketStatement -> List Packet -> NetProgram Unit
  | [], objects => do
      mark (.packets (objects.map Packet.pointer))
      destroyPackets objects
  | statement :: rest, objects => do
      mark (.packets (objects.map Packet.pointer))
      let objects ← statement.program fuel objects
      packetScope fuel rest objects

/-! ## Scopes and what their parts have in common -/

/-- What holds of the parts of a scope, and goes on to sequences of them. -/
structure ScopeRules (fuel : Nat) (P : forall {α : Type}, NetProgram α -> Prop) : Prop where
  done : forall {α : Type} (value : α), P (.done value : NetProgram α)
  bind : forall {α β : Type} {program : NetProgram α} {continuation : α -> NetProgram β}, P program ->
    (forall value, P (continuation value)) -> P (program >>= continuation)
  mark : forall buffers, P (mark (.packets buffers))
  alloc : P (netOp .serializerAlloc)
  increment : forall pointer, P (netOp (.incReferenceCounter pointer))
  release : forall pointer, P (releaseSerializer pointer)
  sendReq : forall sessionID packet, P (sendReq fuel sessionID packet)
  sendReqPacket : forall sessionID packet, P (sendReqPacket fuel sessionID packet)

namespace ScopeRules

variable {fuel : Nat} {P : forall {α : Type}, NetProgram α -> Prop} (rules : ScopeRules fuel P)
include rules

theorem withObject {use : Packet -> NetProgram (List Packet)} (objects : List Packet) (position : Nat)
    (uses : forall packet, P (use packet)) : P (withObject objects position use) := by
  unfold Network.withObject
  split
  · exact rules.done objects
  · exact uses _

theorem copyPacket (p : Packet) : P (copyPacket p) :=
  rules.bind (rules.increment p.pointer) fun _ => rules.done p

theorem statement (objects : List Packet) (statement : PacketStatement) : P (statement.program fuel objects) := by
  cases statement with
  | construct bytes =>
      have constructed : P (constructPacket bytes) :=
        rules.bind rules.alloc fun buffer => rules.bind (rules.increment buffer.pointer) fun _ => rules.done _
      exact rules.bind constructed fun packet => rules.done (packet :: objects)
  | copy source =>
      exact rules.withObject objects source fun q =>
        rules.bind (rules.copyPacket q) fun packet => rules.done (packet :: objects)
  | copyOther source => exact rules.bind (rules.copyPacket source) fun packet => rules.done (packet :: objects)
  | assign target source =>
      refine rules.withObject objects target fun p => rules.withObject objects source fun q => ?_
      have assigned : P (assignPacket p.pointer q) :=
        rules.bind (rules.increment q.pointer) fun _ => rules.bind (rules.release p.pointer) fun _ => rules.done q
      exact rules.bind assigned fun packet => rules.done (objects.set target packet)
  | destroy target =>
      exact rules.withObject objects target fun p =>
        rules.bind (rules.release p.pointer) fun _ => rules.done (objects.eraseIdx target)
  | sendReq sessionID source =>
      exact rules.withObject objects source fun q =>
        rules.bind (rules.sendReq sessionID q) fun _ => rules.done objects
  | sendReqPacket sessionID source =>
      exact rules.withObject objects source fun q =>
        rules.bind (rules.sendReqPacket sessionID q) fun _ => rules.done objects

theorem destroyPackets (objects : List Packet) : P (destroyPackets objects) := by
  induction objects with
  | nil => exact rules.done ()
  | cons packet objects inductionHypothesis =>
      exact rules.bind (rules.release packet.pointer) fun _ => inductionHypothesis

theorem packetScope (statements : List PacketStatement) (objects : List Packet) :
    P (packetScope fuel statements objects) := by
  induction statements generalizing objects with
  | nil => exact rules.bind (rules.mark _) fun _ => rules.destroyPackets objects
  | cons statement rest inductionHypothesis =>
      refine rules.bind (rules.mark _) fun _ => ?_
      exact rules.bind (rules.statement objects statement) fun objects' => inductionHypothesis objects'

end ScopeRules

end Network
end LoginServer
