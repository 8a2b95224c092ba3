import LoginServer.Concurrency.Machine
import LoginServer.Network.State

namespace LoginServer
namespace Network

open Memory Buffers Receiving Login Concurrency

/-!
# Atomic operations

The steps of the programs: every `Interlocked` operation, every access to a
field that other threads use, every locked section of `indexStackLock`, and
every call to the kernel or to a pool.  Work on `recvBuffer` is one step for
each function of `session`, since only the thread that handles a receive
completion touches it.

Marks have no effect.  They note in the course of events that `findSession` or
a callback is called, that `workerThread` leaves a send completion at
`sended`'s answer -1, and which `packet` objects content code has in scope.
-/

/-- What a `WSASend` or `WSARecv` returns, with `GetLastError` if it failed. -/
inductive IoResult where
  | success
  | pending
  | error (code : Nat)
  deriving DecidableEq

/-- One of the two `OVERLAPPED`s of a session. -/
inductive Direction where
  | send
  | recv
  deriving DecidableEq

/-- Operations on one session. -/
inductive SessionOp where
  | incrementIo
  | decrementIo
  /-- `InterlockedCompareExchange(&IOcount, 0x80000000, 0)` -/
  | compareExchangeIo
  /-- `InterlockedAnd(&IOcount, 0x7fffffff)` -/
  | clearDeleted
  | loadId
  | storeId (id : SessionID)
  | loadSocket
  | storeSocket (socket : Nat)
  | loadCancelIoFlag
  | storeCancelIoFlag (value : Bool)
  | exchangeSendFlag (value : Bool)
  | storeSendFlag (value : Bool)
  /-- `np.Alloc()` of `sendBuffer` -/
  | allocNode
  | linkNode (packet : Packet)
  | incrementSize
  | decrementSize
  /-- The end of `pop`, which spins while no node is linked. -/
  | unlinkNode
  | loadSize
  /-- Whether there was room for the whole pointer. -/
  | pushSended (packet : Packet)
  | popSended
  | emptySended
  | recved (transfer : BitVec 32)
  | recvedPacket (p : Serializer)
  | recvBuffers
  | clearRecvBuffer
  | wsaSend (batch : List Packet)
  | wsaRecv (buffers : List WsaBuf)
  | cancelIoEx (direction : Direction)

abbrev SessionOp.Answer : SessionOp -> Type
  | .incrementIo => IoCount
  | .decrementIo => IoCount
  | .compareExchangeIo => IoCount
  | .clearDeleted => Unit
  | .loadId => SessionID
  | .storeId _ => Unit
  | .loadSocket => Nat
  | .storeSocket _ => Unit
  | .loadCancelIoFlag => Bool
  | .storeCancelIoFlag _ => Unit
  | .exchangeSendFlag _ => Bool
  | .storeSendFlag _ => Unit
  | .allocNode => Bool
  | .linkNode _ => Unit
  | .incrementSize => Int
  | .decrementSize => Int
  | .unlinkNode => Packet
  | .loadSize => Int
  | .pushSended _ => Bool
  | .popSended => Option Packet
  | .emptySended => Bool
  | .recved _ => Bool
  | .recvedPacket _ => Bool × Serializer
  | .recvBuffers => List WsaBuf
  | .clearRecvBuffer => Unit
  | .wsaSend _ => IoResult
  | .wsaRecv _ => IoResult
  | .cancelIoEx _ => Bool

inductive LockMode where
  | shared
  | exclusive
  deriving DecidableEq

inductive Mark where
  | findSession (sessionID : SessionID)
  | onNewConnect (sessionID : SessionID)
  | onRecv (slot : Slot) (sessionID : SessionID)
  | onSend (slot : Slot) (sessionID : SessionID) (transfer : BitVec 32)
  /-- The `continue` after `sended` answered -1. -/
  | sendedFailed (slot : Slot)
  | packets (buffers : List Pointer)
  | onDisconnect (sessionID : SessionID)

inductive Op where
  | session (slot : Slot) (op : SessionOp)
  | getQueuedCompletionStatus
  | postQueuedCompletionStatus (slot : Slot) (packet : Packet)
  | accept
  | closesocket (socket : Nat)
  | popIndex
  | pushIndex (index : Slot)
  /-- `sessionCount++` -/
  | nextSessionCount
  | serializerAlloc
  | serializerFree (pointer : Pointer)
  | incReferenceCounter (pointer : Pointer)
  | decReferenceCounter (pointer : Pointer)
  | acquireContainorLock (mode : LockMode)
  | releaseContainorLock (mode : LockMode)
  | connectionNew (timeOutTick : BitVec 64)
  | insertConnection (sessionID : SessionID) (connection : ConnectionData)
  | eraseConnection (sessionID : SessionID)
  | scanConnections
  | getTickCount
  /-- An operation of the login handler that is local to its thread. -/
  | login (op : LoginOp)
  | mark (mark : Mark)
  /-- Undefined behaviour, or a loop beyond the number of rounds considered. -/
  | halt

abbrev Op.Answer : Op -> Type
  | .session _ op => op.Answer
  | .getQueuedCompletionStatus => Completion
  | .postQueuedCompletionStatus _ _ => Unit
  | .accept => Option Nat
  | .closesocket _ => Bool
  | .popIndex => Option Slot
  | .pushIndex _ => Unit
  | .nextSessionCount => BitVec 32
  | .serializerAlloc => PacketBuffer
  | .serializerFree _ => Unit
  | .incReferenceCounter _ => Int
  | .decReferenceCounter _ => Int
  | .acquireContainorLock _ => Unit
  | .releaseContainorLock _ => Unit
  | .connectionNew _ => ConnectionData
  | .insertConnection _ _ => Unit
  | .eraseConnection _ => Unit
  | .scanConnections => List (SessionID × ConnectionData)
  | .getTickCount => BitVec 64
  | .login op => op.Answer
  | .mark _ => Unit
  | .halt => Empty

abbrev interface : Interface := ⟨Op, Op.Answer⟩

abbrev NetProgram := Program interface

/-- Outcomes decided outside the program, each for the operations it belongs
to. -/
structure Choice where
  accepted : Option Nat
  result : IoResult
  closed : Bool
  buffer : PacketBuffer
  login : (op : LoginOp) -> op.Answer

/-! ## Effects on a session -/

namespace LockFreeQueue

def unlink (queue : LockFreeQueue) : Option (Packet × LockFreeQueue) :=
  match queue.nodes with
  | [] => none
  | packet :: nodes => some (packet, { queue with nodes := nodes, freeNodes := queue.freeNodes + 1 })

end LockFreeQueue

/-- Whether an outstanding operation can still be cancelled. -/
def PendingSend.cancellable (pending : PendingSend) : Bool := !pending.finished

def PendingRecv.cancellable (pending : PendingRecv) : Bool := !pending.finished

/-- `CancelIoEx` marks what is outstanding under the given `OVERLAPPED`. -/
def Session.cancel (s : Session) : Direction -> Session
  | .send =>
      { s with
        pendingSends := s.pendingSends.map fun pending =>
          if pending.cancellable then { pending with cancelled := true } else pending }
  | .recv =>
      { s with
        pendingRecvs := s.pendingRecvs.map fun pending =>
          if pending.cancellable then { pending with cancelled := true } else pending }

def Session.cancellable (s : Session) : Direction -> Bool
  | .send => s.pendingSends.any PendingSend.cancellable
  | .recv => s.pendingRecvs.any PendingRecv.cancellable

/-- The answer and the session after an operation. -/
def performSession (choice : Choice) (s : Session) :
    (op : SessionOp) -> Option (op.Answer × Session)
  | .incrementIo => some (s.ioCount.increment, { s with ioCount := s.ioCount.increment })
  | .decrementIo => some (s.ioCount.decrement, { s with ioCount := s.ioCount.decrement })
  | .compareExchangeIo =>
      some (s.ioCount, if s.ioCount.isZero then { s with ioCount := ⟨true, 0⟩ } else s)
  | .clearDeleted => some ((), { s with ioCount := ⟨false, s.ioCount.refs⟩ })
  | .loadId => some (s.id, s)
  | .storeId id => some ((), { s with id := id })
  | .loadSocket => some (s.socket, s)
  | .storeSocket socket => some ((), { s with socket := socket })
  | .loadCancelIoFlag => some (s.cancelIoFlag, s)
  | .storeCancelIoFlag value => some ((), { s with cancelIoFlag := value })
  | .exchangeSendFlag value => some (s.sendFlag, { s with sendFlag := value })
  | .storeSendFlag value => some ((), { s with sendFlag := value })
  | .allocNode =>
      if s.sendBuffer.freeNodes = 0 then some (false, s)
      else some (true, { s with sendBuffer := { s.sendBuffer with
        freeNodes := s.sendBuffer.freeNodes - 1 } })
  | .linkNode packet =>
      some ((), { s with sendBuffer := { s.sendBuffer with
        nodes := s.sendBuffer.nodes ++ [packet] } })
  | .incrementSize =>
      some (s.sendBuffer.size + 1, { s with sendBuffer := { s.sendBuffer with
        size := s.sendBuffer.size + 1 } })
  | .decrementSize =>
      some (s.sendBuffer.size - 1, { s with sendBuffer := { s.sendBuffer with
        size := s.sendBuffer.size - 1 } })
  | .unlinkNode =>
      s.sendBuffer.unlink.map fun result => (result.1, { s with sendBuffer := result.2 })
  | .loadSize => some (s.sendBuffer.size, s)
  | .pushSended packet =>
      if s.sendedBuffer.length < sendedCapacity then
        some (true, { s with sendedBuffer := s.sendedBuffer ++ [packet] })
      else some (false, s)
  | .popSended => some (s.sendedBuffer.head?, { s with sendedBuffer := s.sendedBuffer.tail })
  | .emptySended => some (s.sendedBuffer.isEmpty, s)
  | .recved transfer =>
      let result := Receiving.recved s.recvBuffer transfer
      some (result.1, { s with recvBuffer := result.2 })
  | .recvedPacket p =>
      let result := Receiving.recvedPacket s.recvBuffer p
      some ((result.1, result.2.2), { s with recvBuffer := result.2.1 })
  | .recvBuffers => some (Receiving.recvBuffers s.recvBuffer, s)
  | .clearRecvBuffer => some ((), { s with recvBuffer := s.recvBuffer.clear })
  | .wsaSend batch =>
      match choice.result with
      | .error code => some (.error code, s)
      | .pending => some (.pending, { s with
          pendingSends := s.pendingSends ++ [⟨batch, false, false⟩] })
      | .success => some (.success, { s with
          pendingSends := s.pendingSends ++ [⟨batch, true, false⟩] })
  | .wsaRecv buffers =>
      match choice.result with
      | .error code => some (.error code, s)
      | .pending => some (.pending, { s with
          pendingRecvs := s.pendingRecvs ++ [⟨buffers, false, false⟩] })
      | .success => some (.success, { s with
          pendingRecvs := s.pendingRecvs ++ [⟨buffers, true, false⟩] })
  | .cancelIoEx direction => some (s.cancellable direction, s.cancel direction)

/-! ## Effects on the state -/

def SrwLock.acquire (lock : SrwLock) : LockMode -> Option SrwLock
  | .shared => if lock.exclusive then none else some { lock with shared := lock.shared + 1 }
  | .exclusive =>
      if lock.exclusive ∨ lock.shared ≠ 0 then none else some { lock with exclusive := true }

def SrwLock.release (lock : SrwLock) : LockMode -> SrwLock
  | .shared => { lock with shared := lock.shared - 1 }
  | .exclusive => { lock with exclusive := false }

/-- `connectionMap[sessionID] = connection` -/
def assignConnection (connections : List (SessionID × ConnectionData)) (sessionID : SessionID)
    (connection : ConnectionData) : List (SessionID × ConnectionData) :=
  connections.filter (fun entry => entry.1 != sessionID) ++ [(sessionID, connection)]

def perform (choice : Choice) (state : State) : (op : Op) -> Option (op.Answer × State)
  | .session slot op =>
      (performSession choice (state.sessionArray slot) op).map fun result =>
        (result.1, state.setSession slot result.2)
  | .getQueuedCompletionStatus =>
      match state.port with
      | [] => none
      | completion :: rest => some (completion, { state with port := rest })
  | .postQueuedCompletionStatus slot packet =>
      some ((), { state with port := state.port ++ [⟨slot, true, 0, .request packet⟩] })
  | .accept => some (choice.accepted, state)
  | .closesocket _ => some (choice.closed, state)
  | .popIndex =>
      match state.indexStack with
      | [] => some (none, state)
      | index :: rest => some (some index, { state with indexStack := rest })
  | .pushIndex index => some ((), { state with indexStack := index :: state.indexStack })
  | .nextSessionCount =>
      some (state.sessionCount, { state with sessionCount := state.sessionCount + 1 })
  | .serializerAlloc =>
      if state.allocated choice.buffer.pointer then none
      else some (choice.buffer, { state with
        allocated := Function.update state.allocated choice.buffer.pointer true })
  | .serializerFree pointer =>
      some ((), { state with allocated := Function.update state.allocated pointer false })
  | .incReferenceCounter pointer =>
      some (state.referenceCounter pointer + 1, { state with
        referenceCounter := Function.update state.referenceCounter pointer
          (state.referenceCounter pointer + 1) })
  | .decReferenceCounter pointer =>
      some (state.referenceCounter pointer - 1, { state with
        referenceCounter := Function.update state.referenceCounter pointer
          (state.referenceCounter pointer - 1) })
  | .acquireContainorLock mode =>
      (state.containorLock.acquire mode).map fun lock =>
        ((), { state with containorLock := lock })
  | .releaseContainorLock mode =>
      some ((), { state with containorLock := state.containorLock.release mode })
  | .connectionNew timeOutTick =>
      let connection := ⟨state.connectionPool.length, timeOutTick⟩
      some (connection, { state with connectionPool := state.connectionPool ++ [connection] })
  | .insertConnection sessionID connection =>
      some ((), { state with
        connectionMap := assignConnection state.connectionMap sessionID connection })
  | .eraseConnection sessionID =>
      some ((), { state with
        connectionMap := state.connectionMap.filter fun entry => entry.1 != sessionID })
  | .scanConnections => some (state.connectionMap, state)
  | .getTickCount => some (state.clock, state)
  | .login op => some (choice.login op, state)
  | .mark _ => some ((), state)
  | .halt => none

/-! ## The kernel's own steps -/

/-- Completions of outstanding operations, by their position, and the clock. -/
inductive Surroundings where
  | completeSend (slot : Slot) (position : Nat) (success : Bool) (transfer : BitVec 32)
  | completeRecv (slot : Slot) (position : Nat) (success : Bool) (data : List Byte)
  | tick (count : BitVec 64)

/-- The bytes a batch adds up to. -/
def totalSize (batch : List Packet) : Nat := (batch.map Packet.size).sum

/-- The bytes a receive can take. -/
def totalLength (buffers : List WsaBuf) : Nat := (buffers.map WsaBuf.length).sum

/-- An outstanding operation completes.  A successful one transfers at most what
was asked for, and received data is stored in the posted buffers; a failed one
transfers nothing.  One that was answered at once does not fail.  The clock does not go
back. -/
def surround (state : State) : Surroundings -> Option State
  | .completeSend slot position success transfer =>
      let s := state.sessionArray slot
      match s.pendingSends[position]? with
      | none => none
      | some pending =>
          if transfer.toNat ≤ totalSize pending.batch ∧ (success = false -> transfer = 0) ∧
              (pending.finished = true -> success = true) then
            some { state.setSession slot { s with
                pendingSends := s.pendingSends.eraseIdx position } with
              port := state.port ++ [⟨slot, success, transfer, .send pending.batch⟩] }
          else none
  | .completeRecv slot position success data =>
      let s := state.sessionArray slot
      match s.pendingRecvs[position]? with
      | none => none
      | some pending =>
          if data.length ≤ totalLength pending.buffers ∧ (success = false -> data = []) ∧
              (pending.finished = true -> success = true) then
            some { state.setSession slot { s with
                pendingRecvs := s.pendingRecvs.eraseIdx position
                recvBuffer := { s.recvBuffer with
                  buffer := fill s.recvBuffer.buffer pending.buffers data } } with
              port := state.port ++ [⟨slot, success, BitVec.ofNat 32 data.length, .recv⟩] }
          else none
  | .tick count =>
      if state.clock.toNat + count.toNat < 2 ^ 64 then
        some { state with clock := state.clock + count }
      else none

end Network
end LoginServer
