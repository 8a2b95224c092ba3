import Mathlib.Logic.Function.Basic
import LoginServer.Concurrency.Machine

namespace LoginServer
namespace Queue

open Concurrency

/-!
# The lock-free queue

`LockFreeQueue` and its `nodePool` over a memory of nodes, as programs over
atomic operations: the `Interlocked` calls, and each load and store of a shared
field.  Both lists run through the same nodes, the queue by `key` and the pool by
`poolNext`.  A key is the address of a node with a number in its upper 16 bits.

Loops take the number of rounds after which they are given up.
-/

abbrev Address := BitVec 64

abbrev Key := BitVec 64

/-- `serializer*` -/
abbrev Value := BitVec 64

def makeKey (nodePtr : Address) (pushNo : BitVec 64) : Key := (pushNo <<< 48) ||| nodePtr

def makeNodePtr (key : Key) : Address := 0x0000FFFFFFFFFFFF &&& key

structure Node where
  value : Value
  key : Key
  poolNext : Key

/-- The queue with its pool. -/
structure State where
  node : Address -> Node
  maxSize : BitVec 64
  useSize : BitVec 64
  topKey : Key
  pushCount : BitVec 64
  pushs : BitVec 64
  head : Key
  tail : Key
  size : BitVec 32

inductive Op where
  | loadTopKey
  | compareExchangeTopKey (exchange comparand : Key)
  | loadPoolNext (node : Address)
  | storePoolNext (node : Address) (key : Key)
  | incrementUseSize
  | decrementUseSize
  | incrementPushCount
  | incrementPushs
  | loadHead
  | storeHead (key : Key)
  | loadTail
  | storeTail (key : Key)
  | compareExchangeTail (exchange comparand : Key)
  | loadKey (node : Address)
  | storeKey (node : Address) (key : Key)
  | compareExchangeKey (node : Address) (exchange comparand : Key)
  | loadValue (node : Address)
  | storeValue (node : Address) (value : Value)
  | incrementSize
  | decrementSize
  | halt

@[reducible] def Op.Answer : Op -> Type
  | .loadTopKey => Key
  | .compareExchangeTopKey _ _ => Key
  | .loadPoolNext _ => Key
  | .storePoolNext _ _ => Unit
  | .incrementUseSize => BitVec 64
  | .decrementUseSize => BitVec 64
  | .incrementPushCount => BitVec 64
  | .incrementPushs => BitVec 64
  | .loadHead => Key
  | .storeHead _ => Unit
  | .loadTail => Key
  | .storeTail _ => Unit
  | .compareExchangeTail _ _ => Key
  | .loadKey _ => Key
  | .storeKey _ _ => Unit
  | .compareExchangeKey _ _ _ => Key
  | .loadValue _ => Value
  | .storeValue _ _ => Unit
  | .incrementSize => BitVec 32
  | .decrementSize => BitVec 32
  | .halt => Empty

abbrev operations : Interface := ⟨Op, Op.Answer⟩

abbrev QueueProgram := Program operations

def op (op : Op) : QueueProgram op.Answer := Program.perform (I := operations) op

def halt {α : Type} : QueueProgram α := Program.step (I := operations) .halt fun answer => answer.elim

/-! ## The pool -/

/-- `nodePool::Alloc`, with zero for `nullptr`. -/
def alloc : (fuel : Nat) -> QueueProgram Address
  | 0 => halt
  | fuel + 1 => do
      let compareKey ← op .loadTopKey
      let popNode := makeNodePtr compareKey
      if popNode = 0 then return 0
      else
        let poolNext ← op (.loadPoolNext popNode)
        let previous ← op (.compareExchangeTopKey poolNext compareKey)
        if previous = compareKey then do
          let _ ← op .incrementUseSize
          return popNode
        else alloc fuel

/-- `nodePool::Free` -/
def free (freeNode : Address) : (fuel : Nat) -> QueueProgram Unit
  | 0 => halt
  | fuel + 1 => do
      let compareKey ← op .loadTopKey
      op (.storePoolNext freeNode compareKey)
      let pushCount ← op .incrementPushCount
      let previous ← op (.compareExchangeTopKey (makeKey freeNode pushCount) compareKey)
      if previous = compareKey then do
        let _ ← op .decrementUseSize
        return
      else free freeNode fuel

/-! ## The queue -/

/-- The loop of `push`. -/
def link (newKey : Key) : (fuel : Nat) -> QueueProgram Unit
  | 0 => halt
  | fuel + 1 => do
      let tail ← op .loadTail
      let _head ← op .loadHead
      let key ← op (.loadKey (makeNodePtr tail))
      if key = 0 then do
        let previous ← op (.compareExchangeKey (makeNodePtr tail) newKey key)
        if previous = key then do
          let _ ← op (.compareExchangeTail newKey tail)
          return
        else link newKey fuel
      else do
        let _ ← op (.compareExchangeTail key tail)
        link newKey fuel

def push (fuel : Nat) (t : Value) : QueueProgram Bool := do
  let pushCount ← op .incrementPushs
  let n ← alloc fuel
  if n = 0 then return false
  else
    let newKey := makeKey n pushCount
    op (.storeValue n t)
    op (.storeKey n 0)
    link newKey fuel
    let _ ← op .incrementSize
    return true

/-- The loop of `pop`. -/
def take (freeFuel : Nat) : (fuel : Nat) -> QueueProgram Value
  | 0 => halt
  | fuel + 1 => do
      let head ← op .loadHead
      let tail ← op .loadTail
      let key ← op (.loadKey (makeNodePtr head))
      if key = 0 then take freeFuel fuel
      else if head = tail then do
        let next ← op (.loadKey (makeNodePtr tail))
        let _ ← op (.compareExchangeTail next tail)
        take freeFuel fuel
      else do
        let again ← op .loadHead
        if again = head then do
          op (.storeHead key)
          free (makeNodePtr head) freeFuel
          op (.loadValue (makeNodePtr key))
        else take freeFuel fuel

/-- `pop`, with the value it stores through its argument. -/
def pop (fuel : Nat) : QueueProgram (Option Value) := do
  let size ← op .decrementSize
  if size.toInt < 0 then do
    let _ ← op .incrementSize
    return none
  else do
    let value ← take fuel fuel
    return some value

/-! ## The machine -/

def State.setNode (s : State) (address : Address) (node : Node) : State :=
  { s with node := Function.update s.node address node }

/-- Null cannot be dereferenced. -/
def perform (s : State) : (op : Op) -> Option (op.Answer × State)
  | .loadTopKey => some (s.topKey, s)
  | .compareExchangeTopKey exchange comparand =>
      some (s.topKey, if s.topKey = comparand then { s with topKey := exchange } else s)
  | .loadPoolNext node => if node = 0 then none else some ((s.node node).poolNext, s)
  | .storePoolNext node key =>
      if node = 0 then none else some ((), s.setNode node { s.node node with poolNext := key })
  | .incrementUseSize => some (s.useSize + 1, { s with useSize := s.useSize + 1 })
  | .decrementUseSize => some (s.useSize - 1, { s with useSize := s.useSize - 1 })
  | .incrementPushCount => some (s.pushCount + 1, { s with pushCount := s.pushCount + 1 })
  | .incrementPushs => some (s.pushs + 1, { s with pushs := s.pushs + 1 })
  | .loadHead => some (s.head, s)
  | .storeHead key => some ((), { s with head := key })
  | .loadTail => some (s.tail, s)
  | .storeTail key => some ((), { s with tail := key })
  | .compareExchangeTail exchange comparand =>
      some (s.tail, if s.tail = comparand then { s with tail := exchange } else s)
  | .loadKey node => if node = 0 then none else some ((s.node node).key, s)
  | .storeKey node key =>
      if node = 0 then none else some ((), s.setNode node { s.node node with key := key })
  | .compareExchangeKey node exchange comparand =>
      if node = 0 then none
      else some ((s.node node).key, if (s.node node).key = comparand then
        s.setNode node { s.node node with key := exchange } else s)
  | .loadValue node => if node = 0 then none else some ((s.node node).value, s)
  | .storeValue node value =>
      if node = 0 then none else some ((), s.setNode node { s.node node with value := value })
  | .incrementSize => some (s.size + 1, { s with size := s.size + 1 })
  | .decrementSize => some (s.size - 1, { s with size := s.size - 1 })
  | .halt => none

section Dereference

variable {s : State} {node : Address} (usable : node ≠ 0)
include usable

theorem perform_loadPoolNext : perform s (.loadPoolNext node) = some ((s.node node).poolNext, s) :=
  if_neg usable

theorem perform_storePoolNext (key : Key) : perform s (.storePoolNext node key) =
    some ((), s.setNode node { s.node node with poolNext := key }) := if_neg usable

theorem perform_loadKey : perform s (.loadKey node) = some ((s.node node).key, s) := if_neg usable

theorem perform_storeKey (key : Key) : perform s (.storeKey node key) =
    some ((), s.setNode node { s.node node with key := key }) := if_neg usable

theorem perform_compareExchangeKey (exchange comparand : Key) :
    perform s (.compareExchangeKey node exchange comparand) = some ((s.node node).key,
      if (s.node node).key = comparand then
        s.setNode node { s.node node with key := exchange } else s) := if_neg usable

theorem perform_loadValue : perform s (.loadValue node) = some ((s.node node).value, s) :=
  if_neg usable

theorem perform_storeValue (value : Value) : perform s (.storeValue node value) =
    some ((), s.setNode node { s.node node with value := value }) := if_neg usable

end Dereference

inductive Call where
  | push (t : Value)
  | pop

inductive Outcome where
  | pushed (accepted : Bool)
  | popped (value : Option Value)
  deriving DecidableEq

def Call.program (fuel : Nat) : Call -> QueueProgram Outcome
  | .push t => do
      let accepted ← Queue.push fuel t
      return .pushed accepted
  | .pop => do
      let value ← Queue.pop fuel
      return .popped value

/-- Threads that push and pop, from a given state. -/
def queue (Thread : Type) (initial : State) (fuel : Nat) : Machine operations Thread where
  State := State
  initial := initial
  Choice := Unit
  perform := fun _ op _ s => perform s op
  Surroundings := Empty
  surround := fun change _ => change.elim
  Job := Call
  program := fun _ call => some (do let _ ← call.program fuel; return)

/-! ## Construction -/

/-- The loop of `nodePool(int _size)`, over the blocks that `malloc` answers.  The
other fields of a node keep what was in the memory. -/
def addNodes : List Address -> State -> State
  | [], s => s
  | newNode :: rest, s => addNodes rest
      { s.setNode newNode { s.node newNode with poolNext := s.topKey } with
        topKey := makeKey newNode s.pushCount
        pushCount := s.pushCount + 1 }

/-- The nodes of a pool, where `malloc i` is the answer to the call of round `i`. -/
def poolNodes (malloc : Nat -> Address) (size : BitVec 32) : List Address :=
  (List.range size.toInt.toNat).map malloc

/-- `nodePool(int _size)`.  It does not initialize `pushCount`. -/
def nodePool (malloc : Nat -> Address) (size : BitVec 32) (memory : State) : State :=
  addNodes (poolNodes malloc size)
    { memory with maxSize := size.signExtend 64, useSize := 0, topKey := 0 }

/-- `LockFreeQueue(size_t initailSize)`, up to its body: the size is handed to the pool
as an `int`. -/
def members (malloc : Nat -> Address) (initailSize : BitVec 64) (memory : State) : State :=
  { nodePool malloc (initailSize.setWidth 32) memory with size := 0, pushs := 0 }

/-- The rest of `LockFreeQueue(size_t initailSize)`. -/
def construct (fuel : Nat) : QueueProgram Unit := do
  let head ← alloc fuel
  op (.storeHead head)
  op (.storeKey (← op .loadHead) 0)
  op (.storeTail (← op .loadHead))

end Queue
end LoginServer
