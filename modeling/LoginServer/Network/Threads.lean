import Mathlib.Data.Fintype.Sum
import Mathlib.Tactic.DeriveFintype
import LoginServer.Network.Scopes

namespace LoginServer
namespace Network

open Memory Buffers Receiving Login Concurrency

/-!
# Threads

The loops of the server's threads, one round to a job: `acceptThread`, the
worker threads, and the timeout thread's `update`.  Content threads stand for
any other code that calls the public requests and works with packets.  The
server runs until it is stopped, and stopping is not modelled.
-/

/-! ## Callbacks of the login server -/

def onNewConnect (fuel : Nat) (sessionID : SessionID) : NetProgram Unit := do
  mark (.onNewConnect sessionID)
  match ← findSession fuel sessionID with
  | some slot =>
      let timeOutTick ← netOp .getTickCount
      let connection ← netOp (.connectionNew timeOutTick)
      netOp (.acquireContainorLock .exclusive)
      netOp (.insertConnection sessionID connection)
      netOp (.releaseContainorLock .exclusive)
      giveBack fuel slot
  | none => return

def onConnectionRequest : Bool := true

/-- The login handler's operations in terms of the network's. -/
def handleLogin (fuel : Nat) : (op : LoginOp) -> NetProgram op.Answer
  | .disconnectReq sessionID => disconnectReq fuel sessionID
  | .sendReq sessionID pointer packet => sendReqPacket fuel sessionID ⟨pointer, packet.bytes⟩
  | .packetNew => do
      let buffer ← netOp .serializerAlloc
      let _ ← netOp (.incReferenceCounter buffer.pointer)
      return buffer
  | .packetDelete pointer => releaseSerializer pointer
  | .log text => netOp (.login (.log text))
  | .query statement => netOp (.login (.query statement))
  | .redisSet field value expire => netOp (.login (.redisSet field value expire))
  | .stackBytes count => netOp (.login (.stackBytes count))
  | .getRandKey => netOp (.login .getRandKey)

def onRecv (fuel : Nat) (slot : Slot) (sessionID : SessionID) (packet : Serializer) :
    NetProgram Unit := do
  mark (.onRecv slot sessionID)
  (Login.onRecv sessionID packet).interpret (handleLogin fuel)

/-- Does nothing. -/
def onSend (slot : Slot) (sessionID : SessionID) (transfer : BitVec 32) : NetProgram Unit :=
  mark (.onSend slot sessionID transfer)

/-! ## `acceptThread` -/

def acceptThread (fuel : Nat) : NetProgram Unit := do
  match ← netOp .accept with
  | none => return
  | some clientSock =>
      if !onConnectionRequest then
        let _ ← netOp (.closesocket clientSock)
        return
      else
        match ← netOp .popIndex with
        | none =>
            let _ ← netOp (.closesocket clientSock)
            return
        | some index =>
            let sessionCount ← netOp .nextSessionCount
            let sessionID := makeSessionId sessionCount index
            init index sessionID clientSock
            onNewConnect fuel sessionID
            recvIo fuel index
            giveBack fuel index

/-! ## `workerThread` -/

/-- The reason a completion was posted for, by the tag of its pointer. -/
def requestCheck : Overlapped -> Option Packet
  | .request packet => some packet
  | .send _ => none
  | .recv => none

/-- The `while (true)` loop over the received packets. -/
def extraction (fuel : Nat) (slot : Slot) : Nat -> NetProgram Unit
  | 0 => halt
  | rounds + 1 => do
      let p ← netOp .serializerAlloc
      let _ ← netOp (.incReferenceCounter p.pointer)
      let (extracted, packet) ← sessionOp slot (.recvedPacket (prepare p.pooled))
      if extracted then
        let id ← sessionOp slot .loadId
        onRecv fuel slot id packet
        releaseSerializer p.pointer
        extraction fuel slot rounds
      else releaseSerializer p.pointer

/-- A request to send a packet. -/
def handleRequest (fuel : Nat) (slot : Slot) (packet : Packet) : NetProgram Unit := do
  if ← collectSendPacket slot packet then sendIo fuel slot
  else releaseSerializer packet.pointer

/-- A send completion; `false` when the round ends without giving the hold
back. -/
def handleSend (fuel : Nat) (slot : Slot) (transfer : BitVec 32) : NetProgram Bool := do
  let id ← sessionOp slot .loadId
  onSend slot id transfer
  let tp ← sended fuel slot transfer
  if tp = -1 then
    mark (.sendedFailed slot)
    return false
  else
    sessionOp slot (.storeSendFlag false)
    let size ← sessionOp slot .loadSize
    if size > 0 then sendIo fuel slot
    return true

/-- A receive completion; `false` when the round ends without giving the hold
back. -/
def handleRecv (fuel : Nat) (slot : Slot) (transfer : BitVec 32) : NetProgram Bool := do
  if !(← sessionOp slot (.recved transfer)) then return false
  else
    extraction fuel slot fuel
    recvIo fuel slot
    return true

def handleCompletion (fuel : Nat) (completion : Completion) : NetProgram Bool := do
  if completion.transfer = 0 then
    match requestCheck completion.overlapped with
    | some packet => handleRequest fuel completion.slot packet
    | none => pure ()
    return true
  else
    match completion.overlapped with
    | .send _ => handleSend fuel completion.slot completion.transfer
    | .recv => handleRecv fuel completion.slot completion.transfer
    | .request _ => return true

def workerThread (fuel : Nat) : NetProgram Unit := do
  let completion ← netOp .getQueuedCompletionStatus
  if completion.success then
    if ← handleCompletion fuel completion then giveBack fuel completion.slot
    else return
  else giveBack fuel completion.slot

/-! ## `update` -/

/-- The loop over `connectionMap`, under the lock. -/
def timeOut (fuel : Nat) (timeoutThreshold currentTick : BitVec 64) :
    List (SessionID × ConnectionData) -> NetProgram Unit
  | [] => return
  | (sessionID, connection) :: rest => do
      if currentTick - connection.timeOutTick > timeoutThreshold then
        disconnectReq fuel sessionID
      timeOut fuel timeoutThreshold currentTick rest

def update (fuel : Nat) (timeoutThreshold : BitVec 64) : NetProgram Unit := do
  let currentTick ← netOp .getTickCount
  netOp (.acquireContainorLock .shared)
  let connections ← netOp .scanConnections
  timeOut fuel timeoutThreshold currentTick connections
  netOp (.releaseContainorLock .shared)

/-! ## The machine -/

inductive Thread (workers contents : Nat) where
  | accept
  | worker (index : Fin workers)
  | timeout
  | content (index : Fin contents)
  deriving DecidableEq, Fintype

/-- A call from content code, or a scope in which it works with packets.  A session it finds is
given back later. -/
inductive ContentCall where
  | disconnectReq (sessionID : SessionID)
  | sendReq (sessionID : SessionID) (packet : Packet)
  | sendReqPacket (sessionID : SessionID) (packet : Packet)
  | findSession (sessionID : SessionID)
  | packets (statements : List PacketStatement)

def ContentCall.program (fuel : Nat) : ContentCall -> NetProgram Unit
  | .disconnectReq sessionID => Network.disconnectReq fuel sessionID
  | .sendReq sessionID packet => Network.sendReq fuel sessionID packet
  | .sendReqPacket sessionID packet => Network.sendReqPacket fuel sessionID packet
  | .findSession sessionID => do
      match ← Network.findSession fuel sessionID with
      | none => return
      | some slot => giveBack fuel slot
  | .packets statements => packetScope fuel statements []

inductive Job where
  | loop
  | call (call : ContentCall)

structure Settings where
  maxSession : Nat
  maxSession_lt : maxSession < 2 ^ 16
  timeoutThreshold : BitVec 64
  fuel : Nat

variable {workers contents : Nat}

/-- The program of a job. -/
def jobProgram (settings : Settings) : Thread workers contents -> Job -> Option (NetProgram Unit)
  | .accept, .loop => some (acceptThread settings.fuel)
  | .worker _, .loop => some (workerThread settings.fuel)
  | .timeout, .loop => some (update settings.fuel settings.timeoutThreshold)
  | .content _, .call call => some (call.program settings.fuel)
  | _, _ => none

/-- The server with its threads. -/
def server (settings : Settings) (workers contents : Nat) :
    Machine interface (Thread workers contents) where
  State := State
  initial := State.initial settings.maxSession
  Choice := Choice
  perform := fun _ op choice state => perform choice state op
  Surroundings := Surroundings
  surround := fun change state => surround state change
  Job := Job
  program := jobProgram settings

/-! ## Schedules -/

/-- Outcomes for schedules: a client connects, operations stay pending, the pool
hands out fresh packets, and the database knows nothing. -/
def usual : Choice where
  accepted := some 1
  result := .pending
  closed := true
  buffer := ⟨1, freshSerializer, id⟩
  login
    | .log _ => ()
    | .disconnectReq _ => ()
    | .query _ => []
    | .redisSet _ _ _ => ()
    | .packetNew => ⟨1, freshSerializer, id⟩
    | .packetDelete _ => ()
    | .stackBytes count => ⟨List.replicate count 0, List.length_replicate⟩
    | .getRandKey => 0
    | .sendReq _ _ _ => ()

/-- A server with one slot. -/
def oneSession : Settings := ⟨1, by decide, 10, 10⟩

/-- A number of steps of one thread. -/
def acts {settings : Settings} (thread : Thread workers contents) (count : Nat)
    (choice : Choice) : List (Machine.Move (server settings workers contents)) :=
  List.replicate count (.act thread choice)

end Network
end LoginServer
