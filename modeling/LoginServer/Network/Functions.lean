import LoginServer.Network.Operations

namespace LoginServer
namespace Network

open Memory Buffers Receiving Login Concurrency

/-!
# The functions of `session` and `Network`

Transcribed as programs over the atomic operations.  A `session*` is the slot
it points to.  Loops take the number of rounds after which they are given up;
every theorem about runs holds for each such number.

Statistics counters, log lines of the network layer, and the client's port and
address are left out, since nothing reads them.
-/

def sessionOp (slot : Slot) (op : SessionOp) : NetProgram op.Answer :=
  Program.perform (I := interface) (.session slot op)

def netOp (op : Op) : NetProgram op.Answer := Program.perform (I := interface) op

def mark (mark : Mark) : NetProgram Unit := netOp (.mark mark)

/-- The end of a run that the model does not follow any further. -/
def halt {α : Type} : NetProgram α := Program.step (I := interface) .halt nofun

/-! ## `LockFreeQueue`

The steps of `push` and `pop` that others can see: a node is taken from the
pool, linked and counted; the count is lowered, and the oldest packet unlinked
while a node goes back.  How the loops over `_tail`, `_head` and the keys find
their nodes is the subject of the modules on the queue itself, and
`Queue.sendBuffer_refines` says when they come to these steps in this order.
-/

/-- A node is taken from the pool and linked by the successful compare-exchange on the key of the
last one.  Only then is it counted. -/
def push (slot : Slot) (packet : Packet) : NetProgram Bool := do
  if ← sessionOp slot .allocNode then
    sessionOp slot (.linkNode packet)
    let _ ← sessionOp slot .incrementSize
    return true
  else return false

/-- A packet is first taken off the count, and then off the links. -/
def pop (slot : Slot) : NetProgram (Option Packet) := do
  let size ← sessionOp slot .decrementSize
  if size < 0 then
    let _ ← sessionOp slot .incrementSize
    return none
  else
    let packet ← sessionOp slot .unlinkNode
    return some packet

/-! ## Packets -/

/-- `if (p->decReferenceCounter() == 0) serializerFree(p);` -/
def releaseSerializer (pointer : Pointer) : NetProgram Unit := do
  let count ← netOp (.decReferenceCounter pointer)
  if count = 0 then netOp (.serializerFree pointer)

/-! ## Deleting a session -/

/-- The first loop of `bufferClear`. -/
def clearSendBuffer (slot : Slot) : Nat -> NetProgram Unit
  | 0 => halt
  | fuel + 1 => do
      match ← pop slot with
      | none => return
      | some packet =>
          releaseSerializer packet.pointer
          clearSendBuffer slot fuel

/-- The second loop of `bufferClear`. -/
def clearSendedBuffer (slot : Slot) : Nat -> NetProgram Unit
  | 0 => halt
  | fuel + 1 => do
      if ← sessionOp slot .emptySended then return
      else
        match ← sessionOp slot .popSended with
        | none => halt
        | some packet =>
            releaseSerializer packet.pointer
            clearSendedBuffer slot fuel

def bufferClear (fuel : Nat) (slot : Slot) : NetProgram Unit := do
  clearSendBuffer slot fuel
  clearSendedBuffer slot fuel
  sessionOp slot .clearRecvBuffer

def onDisconnect (sessionID : SessionID) : NetProgram Unit := do
  mark (.onDisconnect sessionID)
  netOp (.acquireContainorLock .exclusive)
  netOp (.eraseConnection sessionID)
  netOp (.releaseContainorLock .exclusive)

def deleteSession (fuel : Nat) (slot : Slot) : NetProgram Unit := do
  let previous ← sessionOp slot .compareExchangeIo
  if previous.isZero then
    let targetID ← sessionOp slot .loadId
    let sock ← sessionOp slot .loadSocket
    let _ ← netOp (.closesocket sock)
    bufferClear fuel slot
    netOp (.pushIndex (getIndex targetID))
    onDisconnect targetID
  else return

/-- `if (decrementIO() == 0) deleteSession(this);` -/
def giveBack (fuel : Nat) (slot : Slot) : NetProgram Unit := do
  let count ← sessionOp slot .decrementIo
  if count.isZero then deleteSession fuel slot else return

/-! ## Sending -/

/-- The gathering loop of `sendIO`.  A pop that fails steps the counter back
before the loop steps it forward again. -/
def gather (slot : Slot) (packetCount : Nat) : (fuel : Nat) -> (batch : List Packet) ->
    NetProgram (List Packet)
  | 0, _ => halt
  | fuel + 1, batch => do
      if batch.length < packetCount then
        match ← pop slot with
        | none => gather slot packetCount fuel batch
        | some packet =>
            -- `WSABUF buffer[100]`
            if batch.length < 100 then
              -- a pointer that does not fit is stored in part, and read back as another one
              if ← sessionOp slot (.pushSended packet) then
                gather slot packetCount fuel (batch ++ [packet])
              else halt
            else halt
      else return batch

/-- The error codes after which `sendIO` and `recvIO` say nothing. -/
def connectionLost (code : Nat) : Bool := code == 10053 || code == 10054

/-- `InterlockedExchange16(&sendFlag, 0);` -/
def resetSendFlag (slot : Slot) : NetProgram Unit := do
  let _ ← sessionOp slot (.exchangeSendFlag false)
  return

def sendIo (fuel : Nat) (slot : Slot) : NetProgram Unit := do
  if ← sessionOp slot .loadCancelIoFlag then return
  else if ← sessionOp slot (.exchangeSendFlag true) then return
  else
    let sendBufferSize ← sessionOp slot .loadSize
    if sendBufferSize = 0 then resetSendFlag slot
    else
      let _ ← sessionOp slot .incrementIo
      let buffer ← gather slot (Serializer.sizeT sendBufferSize) fuel []
      match ← sessionOp slot (.wsaSend buffer) with
      | .success => return
      | .pending =>
          if ← sessionOp slot .loadCancelIoFlag then
            let _ ← sessionOp slot (.cancelIoEx .send)
            return
          else return
      | .error code =>
          if connectionLost code then pure () else resetSendFlag slot
          sessionOp slot (.storeCancelIoFlag true)
          let _ ← sessionOp slot (.cancelIoEx .recv)
          giveBack fuel slot

/-- The loop of `sended`.  `packetBuffer` keeps its value when there is nothing
to pop, and has none at first.  `sendedCount` is an `int` and comes round after
2^32 rounds. -/
def sendedLoop (slot : Slot) : (fuel : Nat) -> (transfer : BitVec 32) ->
    (packetBuffer : Option Packet) -> (sendedCount : BitVec 32) -> NetProgram (BitVec 32)
  | 0, _, _, _ => halt
  | fuel + 1, transfer, packetBuffer, sendedCount => do
      if transfer = 0 then return sendedCount
      else
        let popped ← sessionOp slot .popSended
        match popped.or packetBuffer with
        | none => halt
        | some packet =>
            releaseSerializer packet.pointer
            sendedLoop slot fuel (transfer - BitVec.ofNat 32 packet.size) (some packet)
              (sendedCount + 1)

/-- The closing test `transfer < 0` is on an unsigned value and never true. -/
def sended (fuel : Nat) (slot : Slot) (transfer : BitVec 32) : NetProgram (BitVec 32) := do
  if transfer = 0 then return -1
  else sendedLoop slot fuel transfer none 0

def collectSendPacket (slot : Slot) (packet : Packet) : NetProgram Bool := push slot packet

/-! ## Receiving -/

def recvIo (fuel : Nat) (slot : Slot) : NetProgram Unit := do
  if ← sessionOp slot .loadCancelIoFlag then return
  else
    let buffer ← sessionOp slot .recvBuffers
    let _ ← sessionOp slot .incrementIo
    match ← sessionOp slot (.wsaRecv buffer) with
    | .success => return
    | .pending =>
        if ← sessionOp slot .loadCancelIoFlag then
          let _ ← sessionOp slot (.cancelIoEx .recv)
          return
        else return
    | .error _ =>
        sessionOp slot (.storeCancelIoFlag true)
        let _ ← sessionOp slot (.cancelIoEx .send)
        giveBack fuel slot

/-! ## Requests -/

def init (slot : Slot) (id : SessionID) (sock : Nat) : NetProgram Unit := do
  sessionOp slot (.storeId id)
  sessionOp slot (.storeSocket sock)
  let _ ← sessionOp slot .incrementIo
  sessionOp slot (.storeSendFlag false)
  sessionOp slot (.storeCancelIoFlag false)
  sessionOp slot .clearDeleted

def findSession (fuel : Nat) (sessionID : SessionID) : NetProgram (Option Slot) := do
  let slot := getIndex sessionID
  mark (.findSession sessionID)
  let temp ← sessionOp slot .incrementIo
  if temp.deleted then
    giveBack fuel slot
    return none
  else
    let id ← sessionOp slot .loadId
    if id ≠ sessionID then
      giveBack fuel slot
      return none
    else return some slot

def disconnectReq (fuel : Nat) (sessionID : SessionID) : NetProgram Unit := do
  match ← findSession fuel sessionID with
  | none => return
  | some slot =>
      sessionOp slot (.storeCancelIoFlag true)
      let _ ← sessionOp slot (.cancelIoEx .recv)
      let _ ← sessionOp slot (.cancelIoEx .send)
      giveBack fuel slot

/-- `sendReq(sessionID, serializer*)` -/
def sendReq (fuel : Nat) (sessionID : SessionID) (packet : Packet) : NetProgram Unit := do
  match ← findSession fuel sessionID with
  | none => return
  | some slot =>
      let _ ← netOp (.incReferenceCounter packet.pointer)
      let _ ← sessionOp slot .incrementIo
      netOp (.postQueuedCompletionStatus slot packet)
      giveBack fuel slot

/-- `sendReq(sessionID, packet)`, with the copy its argument is passed by. -/
def sendReqPacket (fuel : Nat) (sessionID : SessionID) (packet : Packet) : NetProgram Unit := do
  let _ ← netOp (.incReferenceCounter packet.pointer)
  sendReq fuel sessionID packet
  releaseSerializer packet.pointer

end Network
end LoginServer
