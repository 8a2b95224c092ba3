import LoginServer.Login.Handler

namespace LoginServer
namespace Network

open Memory Buffers Receiving Login

/-!
# State of the network layer

Sessions live in the slots of `sessionArray`.  A slot's `IOcount` counts the
holds on its session, and its top bit marks the session deleted.  The two
parts are kept apart here, which agrees with the 32-bit word as long as there
are fewer than `2 ^ 31` holds.

The kernel's side of a session is the list of its outstanding operations.  One
that has been answered at once is only waiting for its completion to be
queued.
-/

/-- A position in `sessionArray`. -/
abbrev Slot := BitVec 16

abbrev Pointer := BitVec 64

/-! ## `IOcount` -/

structure IoCount where
  deleted : Bool
  refs : Nat
  deriving DecidableEq

namespace IoCount

/-- The 32-bit word. -/
def word (count : IoCount) : BitVec 32 :=
  BitVec.ofNat 32 ((if count.deleted then 2 ^ 31 else 0) + count.refs)

def increment (count : IoCount) : IoCount := { count with refs := count.refs + 1 }

/-- Taking one from an empty count borrows from the top bit. -/
def decrement (count : IoCount) : IoCount :=
  if count.refs = 0 then ⟨!count.deleted, 2 ^ 31 - 1⟩ else { count with refs := count.refs - 1 }

/-- `== 0` -/
def isZero (count : IoCount) : Bool := !count.deleted && count.refs == 0

theorem word_increment (count : IoCount) : count.increment.word = count.word + 1 := by
  have one : (1 : BitVec 32).toNat = 1 := rfl
  rcases count with ⟨deleted, refs⟩
  apply BitVec.eq_of_toNat_eq
  cases deleted <;>
    simp only [word, increment, BitVec.toNat_add, BitVec.toNat_ofNat, one, if_true,
      Bool.false_eq_true, if_false] <;> omega

theorem word_decrement (count : IoCount) : count.decrement.word = count.word - 1 := by
  have one : (1 : BitVec 32).toNat = 1 := rfl
  rcases count with ⟨deleted, refs⟩
  apply BitVec.eq_of_toNat_eq
  unfold decrement
  cases deleted <;> split <;>
    simp only [word, BitVec.toNat_sub, BitVec.toNat_ofNat, one, Bool.not_false, Bool.not_true,
      if_true, Bool.false_eq_true, if_false] at * <;> omega

/-- The source's test `& 0x80000000` looks at the top bit. -/
theorem deleted_eq_msb (count : IoCount) (small : count.refs < 2 ^ 31) :
    count.deleted = count.word.msb := by
  rcases count with ⟨deleted, refs⟩
  rw [BitVec.msb_eq_decide]
  cases deleted <;>
    simp only [word, BitVec.toNat_ofNat, if_true, Bool.false_eq_true, if_false] at * <;>
    simp <;> omega

theorem isZero_iff_word (count : IoCount) (small : count.refs < 2 ^ 31) :
    count.isZero = true ↔ count.word = 0 := by
  have zero : (0 : BitVec 32).toNat = 0 := rfl
  rcases count with ⟨deleted, refs⟩
  rw [← BitVec.toNat_inj, zero]
  cases deleted <;>
    simp only [isZero, word, BitVec.toNat_ofNat, Bool.not_false, Bool.not_true, Bool.true_and,
      Bool.false_and, beq_iff_eq, Bool.false_eq_true, if_false, if_true, false_iff] at * <;>
    omega

@[simp] theorem isZero_iff (count : IoCount) :
    count.isZero = true ↔ count.deleted = false ∧ count.refs = 0 := by
  simp [isZero]

end IoCount

/-! ## Sessions -/

/-- A packet on its way out: its serializer and the bytes to send. -/
structure Packet where
  pointer : Pointer
  bytes : List Byte
  deriving DecidableEq

def Packet.size (packet : Packet) : Nat := packet.bytes.length

/-- `LockFreeQueue`, without its nodes: the linked values, the counter `_size` and the number
of free nodes in the pool.  The counter lags behind a push and runs ahead of a pop.  The queue
over its nodes refines this one as long as every node is linked to one in the queue and every
node taken from the pool leaves the one behind it (`Queue.sendBuffer_refines`). -/
structure LockFreeQueue where
  nodes : List Packet
  size : Int
  freeNodes : Nat

/-- An outstanding `WSASend`. -/
structure PendingSend where
  batch : List Packet
  finished : Bool
  cancelled : Bool

/-- An outstanding `WSARecv`. -/
structure PendingRecv where
  buffers : List WsaBuf
  finished : Bool
  cancelled : Bool

structure Session where
  id : SessionID
  socket : Nat
  ioCount : IoCount
  sendFlag : Bool
  cancelIoFlag : Bool
  sendBuffer : LockFreeQueue
  sendedBuffer : List Packet
  recvBuffer : RecvBuffer
  pendingSends : List PendingSend
  pendingRecvs : List PendingRecv

/-- The constructor.  One of the queue's 256 nodes is its dummy. -/
def Session.fresh : Session where
  id := 0
  socket := 0
  ioCount := ⟨false, 0⟩
  sendFlag := false
  cancelIoFlag := false
  sendBuffer := ⟨[], 0, 255⟩
  sendedBuffer := []
  recvBuffer := emptyRecvBuffer
  pendingSends := []
  pendingRecvs := []

/-- Pointers that fit in `sendedBuffer(2048)`. -/
def sendedCapacity : Nat := 255

/-! ## The whole state -/

/-- The `OVERLAPPED*` of a completion: one of the session's two, with the batch
sent under it, or a request tagged in its upper bits. -/
inductive Overlapped where
  | send (batch : List Packet)
  | recv
  | request (packet : Packet)

structure Completion where
  slot : Slot
  success : Bool
  transfer : BitVec 32
  overlapped : Overlapped

/-- A `connectionData` object with its `timeOutTick`. -/
structure ConnectionData where
  object : Nat
  timeOutTick : BitVec 64

/-- A slim reader/writer lock: who holds it, without names. -/
structure SrwLock where
  shared : Nat
  exclusive : Bool

structure State where
  sessionArray : Slot -> Session
  indexStack : List Slot
  sessionCount : BitVec 32
  port : List Completion
  containorLock : SrwLock
  connectionMap : List (SessionID × ConnectionData)
  connectionPool : List ConnectionData
  clock : BitVec 64
  referenceCounter : Pointer -> Int
  allocated : Pointer -> Bool

/-- `start`: the indices are pushed downwards, so that 0 is on top. -/
def State.initial (maxSession : Nat) : State where
  sessionArray := fun _ => Session.fresh
  indexStack := (List.range maxSession).map (BitVec.ofNat 16)
  sessionCount := 0
  port := []
  containorLock := ⟨0, false⟩
  connectionMap := []
  connectionPool := []
  clock := 0
  referenceCounter := fun _ => 0
  allocated := fun _ => false

/-- Change one slot. -/
def State.setSession (state : State) (slot : Slot) (session : Session) : State :=
  { state with sessionArray := Function.update state.sessionArray slot session }

@[simp] theorem State.setSession_same (state : State) (slot : Slot) (session : Session) :
    (state.setSession slot session).sessionArray slot = session := by
  simp [State.setSession]

@[simp] theorem State.setSession_other (state : State) {slot other : Slot} (session : Session)
    (different : other ≠ slot) :
    (state.setSession slot session).sessionArray other = state.sessionArray other := by
  simp [State.setSession, different]

@[simp] theorem State.setSession_indexStack (state : State) (slot : Slot) (session : Session) :
    (state.setSession slot session).indexStack = state.indexStack := rfl

@[simp] theorem State.setSession_port (state : State) (slot : Slot) (session : Session) :
    (state.setSession slot session).port = state.port := rfl

@[simp] theorem State.setSession_sessionCount (state : State) (slot : Slot) (session : Session) :
    (state.setSession slot session).sessionCount = state.sessionCount := rfl

@[simp] theorem State.setSession_containorLock (state : State) (slot : Slot) (session : Session) :
    (state.setSession slot session).containorLock = state.containorLock := rfl

/-- `MAKE_SESSION_ID`.  Of the 32-bit counter, 16 bits survive the shift. -/
def makeSessionId (sessionCount : BitVec 32) (index : Slot) : SessionID :=
  index.zeroExtend 64 ||| (sessionCount.zeroExtend 64 <<< 48)

/-- `(USHORT)sessionID` -/
def getIndex (sessionID : SessionID) : Slot := sessionID.truncate 16

theorem getIndex_makeSessionId (sessionCount : BitVec 32) (index : Slot) :
    getIndex (makeSessionId sessionCount index) = index := by
  apply BitVec.eq_of_getLsbD_eq
  intro position inside
  simp [getIndex, makeSessionId, inside]

end Network
end LoginServer
