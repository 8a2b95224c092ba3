import LoginServer.Concurrency.Refinement
import LoginServer.Concurrency.Tally
import LoginServer.Network.Delivery
import LoginServer.Network.Gathering
import LoginServer.Queue.Producers

namespace LoginServer
namespace Queue

open Concurrency Memory

/-!
# The queue of the network layer

The network layer takes a node for a packet, links the packet behind the others,
unlinks the oldest one and moves the counter, each in one operation.  Here these
operations are found in the runs of the queue over its nodes, one thread popping at
a time.  As long as whoever links its node links it to one that is in the queue, and
whoever takes a node from the pool leaves the node behind it, every such run shows a
run of the network layer's `push` and `pop`.

A push takes its node in a successful exchange of `topKey`, and links it in a
successful exchange of the last key.  A pop unlinks its packet when the old dummy is
back in the pool: only then can another push take that node.  The value is loaded
after that, from the new dummy.
-/

/-! ## The operations in a run -/

/-- The operation of the network layer that takes place in an event.  A push that
reads a null `topKey` finds the pool empty. -/
def takesPlace (slot : Network.Slot) (packet : Value -> Network.Packet) (stage : Stage) :
    Event operations -> Option Network.Op
  | ⟨.loadTopKey, key⟩ =>
      match stage with
      | .counted _ => if makeNodePtr key = 0 then some (.session slot .allocNode) else none
      | _ => none
  | ⟨.compareExchangeTopKey _ comparand, previous⟩ =>
      match stage with
      | .counted _ => if previous = comparand then some (.session slot .allocNode) else none
      | .freeing _ _ _ => if previous = comparand then some (.session slot .unlinkNode) else none
      | _ => none
  | ⟨.compareExchangeKey _ _ comparand, previous⟩ =>
      match stage with
      | .ready _ _ value =>
          if previous = comparand then some (.session slot (.linkNode (packet value))) else none
      | _ => none
  | ⟨.incrementSize, _⟩ => some (.session slot .incrementSize)
  | ⟨.decrementSize, _⟩ => some (.session slot .decrementSize)
  | _ => none

/-- The answers by which a call goes on. -/
def answersAlike : Event operations -> Event Network.interface -> Prop
  | ⟨.loadTopKey, _⟩, ⟨.session _ .allocNode, allocated⟩ => allocated = false
  | ⟨.compareExchangeTopKey _ _, _⟩, ⟨.session _ .allocNode, allocated⟩ => allocated = true
  | ⟨.incrementSize, size⟩, ⟨.session _ .incrementSize, counted⟩ => counted = BitVec.toInt size
  | ⟨.decrementSize, size⟩, ⟨.session _ .decrementSize, counted⟩ => counted = BitVec.toInt size
  | _, _ => True

/-- With the packet that each pointer stands for. -/
def queueView (slot : Network.Slot) (packet : Value -> Network.Packet) : View calling Network.interface where
  shows := takesPlace slot packet
  agrees := answersAlike

/-! ## The programs -/

section Programs

variable {slot : Network.Slot} {packet : Value -> Network.Packet} {fuel : Nat}

theorem alloc_follows (pushCount : BitVec 64) (next : Bool -> Network.NetProgram Unit) :
    (queueView slot packet).Follows (alloc fuel) (.counted pushCount)
      (.step (I := Network.interface) (.session slot .allocNode) next) fun stage node rest =>
        node = 0 ∧ rest = next false ∨ node ≠ 0 ∧ stage = .holding pushCount node ∧ rest = next true := by
  induction fuel with
  | zero => exact fun answer => answer.elim
  | succ fuel inductionHypothesis =>
      intro (compareKey : Key)
      refine ⟨fun nothing => ?_, fun op takes => ?_⟩
      · have usable : makeNodePtr compareKey ≠ 0 := fun null => by
          cases (if_pos null).symm.trans nothing
        change (queueView slot packet).Follows (if makeNodePtr compareKey = 0 then _ else _) (.counted pushCount) _ _
        rw [if_neg usable]
        refine .quiet (fun _ => rfl) fun poolNext => fun (previous : Key) => ⟨fun missed => ?_, fun op takes => ?_⟩
        · have failed : previous ≠ compareKey := fun same => by
            cases (if_pos same).symm.trans missed
          change (queueView slot packet).Follows (if previous = compareKey then _ else _)
            (if previous = compareKey then .holding pushCount (makeNodePtr compareKey) else .counted pushCount) _ _
          rw [if_neg failed, if_neg failed]
          exact inductionHypothesis
        · rcases Option.ite_none_right_eq_some.mp takes with ⟨taken, same⟩
          cases same
          refine ⟨next, rfl, fun (allocated : Bool) (found : allocated = true) => ?_⟩
          change (queueView slot packet).Follows (if previous = compareKey then _ else _)
            (if previous = compareKey then .holding pushCount (makeNodePtr compareKey) else .counted pushCount) _ _
          rw [if_pos taken, if_pos taken, found]
          exact .quiet (fun _ => rfl) fun _ => .inr ⟨usable, rfl, rfl⟩
      · rcases Option.ite_none_right_eq_some.mp takes with ⟨null, same⟩
        cases same
        refine ⟨next, rfl, fun (allocated : Bool) (none : allocated = false) => ?_⟩
        change (queueView slot packet).Follows (if makeNodePtr compareKey = 0 then _ else _) (.counted pushCount) _ _
        rw [if_pos null, none]
        exact .inl ⟨rfl, rfl⟩

theorem free_follows (node behind : Address) (stored : Option Key)
    (next : Network.Packet -> Network.NetProgram Unit) :
    (queueView slot packet).Follows (free node fuel) (.freeing node behind stored)
      (.step (I := Network.interface) (.session slot .unlinkNode) next) fun stage _ rest =>
        stage = .loading behind ∧ Exists fun oldest => rest = next oldest := by
  induction fuel generalizing stored with
  | zero => exact fun answer => answer.elim
  | succ fuel inductionHypothesis =>
      refine .quiet (fun _ => rfl) fun (compareKey : Key) => .quiet (fun _ => rfl) fun _ => ?_
      refine .quiet (fun _ => rfl) fun pushCount => fun (previous : Key) => ⟨fun missed => ?_, fun op takes => ?_⟩
      · have failed : previous ≠ compareKey := fun same => by
          cases (if_pos same).symm.trans missed
        change (queueView slot packet).Follows (if previous = compareKey then _ else _)
          (if previous = compareKey then .loading behind else .freeing node behind (some compareKey)) _ _
        rw [if_neg failed, if_neg failed]
        exact inductionHypothesis (some compareKey)
      · rcases Option.ite_none_right_eq_some.mp takes with ⟨given, same⟩
        cases same
        refine ⟨next, rfl, fun oldest _ => ?_⟩
        change (queueView slot packet).Follows (if previous = compareKey then _ else _)
          (if previous = compareKey then .loading behind else .freeing node behind (some compareKey)) _ _
        rw [if_pos given, if_pos given]
        exact .quiet (fun _ => rfl) fun _ => ⟨rfl, oldest, rfl⟩

theorem link_follows (pushCount : BitVec 64) (node : Address) (value : Value)
    (next : Unit -> Network.NetProgram Unit) :
    (queueView slot packet).Follows (link (makeKey node pushCount) fuel) (.ready pushCount node value)
      (.step (I := Network.interface) (.session slot (.linkNode (packet value))) next) fun stage _ rest =>
        stage = .linked ∧ rest = next () := by
  induction fuel with
  | zero => exact fun answer => answer.elim
  | succ fuel inductionHypothesis =>
      refine .quiet (fun _ => rfl) fun (tail : Key) => .quiet (fun _ => rfl) fun _ => ?_
      refine .quiet (fun _ => rfl) fun (key : Key) => ?_
      change (queueView slot packet).Follows (if key = 0 then _ else _) (.ready pushCount node value) _ _
      by_cases null : key = 0
      · rw [if_pos null]
        intro (previous : Key)
        refine ⟨fun missed => ?_, fun op takes => ?_⟩
        · have failed : previous ≠ key := fun same => by
            cases (if_pos same).symm.trans missed
          change (queueView slot packet).Follows (if previous = key then _ else _)
            (if previous = key then .linked else .ready pushCount node value) _ _
          rw [if_neg failed, if_neg failed]
          exact inductionHypothesis
        · rcases Option.ite_none_right_eq_some.mp takes with ⟨given, same⟩
          cases same
          refine ⟨next, rfl, fun _ _ => ?_⟩
          change (queueView slot packet).Follows (if previous = key then _ else _)
            (if previous = key then .linked else .ready pushCount node value) _ _
          rw [if_pos given, if_pos given]
          exact .quiet (fun _ => rfl) fun _ => ⟨rfl, rfl⟩
      · rw [if_neg null]
        exact .quiet (fun _ => rfl) fun _ => inductionHypothesis

theorem take_follows (freeFuel : Nat) (before : Option Key) (known : Key)
    (next : Network.Packet -> Network.NetProgram Unit) :
    (queueView slot packet).Follows (take freeFuel fuel) (.popping before known)
      (.step (I := Network.interface) (.session slot .unlinkNode) next) fun _ _ rest =>
        Exists fun oldest => rest = next oldest := by
  induction fuel generalizing before known with
  | zero => exact fun answer => answer.elim
  | succ fuel inductionHypothesis =>
      refine .quiet (fun _ => rfl) fun (head : Key) => ?_
      have seen : Exists fun known' => Stage.track (.popping before known) ⟨.loadHead, head⟩ =
          .popping (some head) known' := by
        by_cases same : before = some head
        · exact ⟨known, by simp [Stage.track, same]⟩
        · exact ⟨0, by simp [Stage.track, same]⟩
      rcases seen with ⟨known', seen⟩
      change (queueView slot packet).Follows _ (Stage.track (.popping before known) ⟨.loadHead, head⟩) _ _
      rw [seen]
      refine .quiet (fun _ => rfl) fun (tail : Key) => .quiet (fun _ => rfl) fun (key : Key) => ?_
      change (queueView slot packet).Follows (if key = 0 then _ else if head = tail then _ else _)
        (if makeNodePtr head = makeNodePtr head then .popping (some head) key
          else .popping (some head) known') _ _
      rw [if_pos (rfl : makeNodePtr head = makeNodePtr head)]
      by_cases null : key = 0
      · rw [if_pos null]
        exact inductionHypothesis (some head) key
      rw [if_neg null]
      by_cases last : head = tail
      · rw [if_pos last]
        refine .quiet (fun _ => rfl) fun (next : Key) => .quiet (fun _ => rfl) fun _ => ?_
        change (queueView slot packet).Follows _ (if makeNodePtr tail = makeNodePtr head then
          .popping (some head) next else .popping (some head) key) _ _
        rw [if_pos (by rw [last])]
        exact inductionHypothesis (some head) next
      rw [if_neg last]
      refine .quiet (fun _ => rfl) fun (again : Key) => ?_
      change (queueView slot packet).Follows (if again = head then _ else _)
        (if some head = some again then .popping (some head) key else .popping (some again) 0) _ _
      by_cases same : again = head
      · rw [if_pos same, if_pos (by rw [same])]
        refine .quiet (fun _ => rfl) fun _ => ?_
        refine (free_follows (makeNodePtr head) (makeNodePtr key) none next).bind ?_
        rintro stage _ rest ⟨rfl, oldest, rfl⟩
        exact .quiet (fun _ => rfl) fun _ => ⟨oldest, rfl⟩
      · rw [if_neg same, if_neg (by simpa using Ne.symm same)]
        exact inductionHypothesis (some again) 0

/-! ## The calls of the network layer -/

end Programs

inductive NetworkCall where
  | push (packet : Network.Packet)
  | pop

def NetworkCall.program (slot : Network.Slot) : NetworkCall -> Network.NetProgram Unit
  | .push packet => do
      let _ ← Network.push slot packet
      return
  | .pop => do
      let _ ← Network.pop slot
      return

/-- Threads that push to and pop from the `sendBuffer` of one session, with so many free
nodes to begin with.  The operations do not depend on the choice. -/
def networkQueue (Thread : Type) (choice : Network.Choice) (slot : Network.Slot) (freeNodes : Nat) :
    Machine Network.interface Thread where
  State := Network.Session
  initial := { Network.Session.fresh with sendBuffer := ⟨[], 0, freeNodes⟩ }
  Choice := Unit
  perform := fun _ op _ s => Network.performQueue choice s op
  Surroundings := Empty
  surround := fun change _ => change.elim
  Job := NetworkCall
  program := fun _ call => some (call.program slot)

section Calls

variable {slot : Network.Slot} {packet : Value -> Network.Packet} {fuel : Nat}

/-- A push of the network layer does what the push does, and answers the same. -/
theorem push_follows (t : Value) (next : Bool -> Network.NetProgram Unit) :
    (queueView slot packet).Follows (push fuel t) .idle (Network.push slot (packet t) >>= next)
      fun _ accepted rest => rest = next accepted := by
  refine .quiet (fun _ => rfl) fun (pushCount : BitVec 64) => ?_
  refine (alloc_follows pushCount _).bind ?_
  rintro stage node rest (⟨rfl, rfl⟩ | ⟨usable, rfl, rfl⟩)
  · rfl
  · rw [if_neg usable]
    refine .quiet (fun _ => rfl) fun _ => .quiet (fun _ => rfl) fun _ => ?_
    refine (link_follows pushCount node t _).bind ?_
    rintro _ _ _ ⟨rfl, rfl⟩
    exact .shown (fun _ => rfl) fun _ _ _ => rfl

theorem pop_follows (next : Option Network.Packet -> Network.NetProgram Unit) :
    (queueView slot packet).Follows (pop fuel) .idle (Network.pop slot >>= next)
      fun _ value rest => Exists fun popped => rest = next popped ∧ popped.isSome = value.isSome := by
  refine .shown (fun _ => rfl) fun (size : BitVec 32) (counted : Int) (same : counted = size.toInt) => ?_
  subst same
  change (queueView slot packet).Follows (if size.toInt < 0 then _ else _)
    (if size.toInt < 0 then .refused else .popping none 0) ((if size.toInt < 0 then _ else _) >>= next) _
  by_cases negative : size.toInt < 0
  · rw [if_pos negative, if_pos negative, if_pos negative]
    exact .shown (fun _ => rfl) fun _ _ _ => ⟨none, rfl, rfl⟩
  · rw [if_neg negative, if_neg negative, if_neg negative]
    refine (take_follows fuel none 0 _).bind ?_
    rintro _ value _ ⟨oldest, rfl⟩
    exact ⟨some oldest, rfl, rfl⟩

theorem calls_follow {Thread : Type} {initial : State} {choice : Network.Choice} {freeNodes : Nat}
    (thread : Thread) (call : Call) (program : QueueProgram Unit)
    (chosen : (queue Thread initial fuel).program thread call = some program) :
    Exists fun call' => Exists fun program' =>
      (networkQueue Thread choice slot freeNodes).program thread call' = some program' ∧
        (queueView slot packet).Follows program calling.start program' fun _ _ rest => rest = .done () := by
  cases chosen
  cases call with
  | push t =>
      refine ⟨.push (packet t), _, rfl, ?_⟩
      refine ((push_follows t _).bind fun _ _ _ done => ?_).bind fun _ _ _ done => done
      exact done
  | pop =>
      refine ⟨.pop, _, rfl, ?_⟩
      refine ((pop_follows _).bind ?_).bind fun _ _ _ done => done
      rintro _ value _ ⟨popped, rfl, _⟩
      rfl

end Calls

/-! ## What the threads keep -/

namespace Stage

/-- A value unlinked and not loaded yet. -/
def loads : Stage -> Nat
  | .loading _ => 1
  | _ => 0

/-- A value linked and not counted, one taken off the count and not unlinked, or a
count to be given back. -/
def owes : Stage -> Nat
  | .linked => 1
  | .popping _ _ => 1
  | .refused => 1
  | .freeing _ _ _ => 1
  | _ => 0

/-- A count to be given back. -/
def refuses : Stage -> Nat
  | .refused => 1
  | _ => 0

/-- A node taken from the pool and not linked. -/
def keeps : Stage -> Nat
  | .holding _ _ => 1
  | .filled _ _ _ => 1
  | .ready _ _ _ => 1
  | _ => 0

end Stage

def loaded : Op -> Nat
  | .loadValue _ => 1
  | _ => 0

/-- A step in which nothing takes place passes on what the thread keeps. -/
structure Stage.Alike (before after : Stage) (op : Op) : Prop where
  loads : after.loads + loaded op = before.loads
  owes : after.owes = before.owes
  refuses : after.refuses = before.refuses
  keeps : after.keeps = before.keeps

theorem Stage.alike_of_quiet {slot : Network.Slot} {packet : Value -> Network.Packet} {stage : Stage} {op : Op}
    {answer : op.Answer} (permitted : stage.permits op) (quiet : takesPlace slot packet stage ⟨op, answer⟩ = none) :
    Stage.Alike stage (stage.track ⟨op, answer⟩) op ∧ stage.takes ⟨op, answer⟩ = 0 ∧
      stage.gives ⟨op, answer⟩ = 0 := by
  cases op with
  | compareExchangeTopKey exchange comparand =>
      rcases permitted with ⟨pushCount, rfl, usable⟩ | ⟨node, next, count, rfl, rfl⟩
      · have missed : ¬ answer = comparand := fun same => by cases (if_pos same).symm.trans quiet
        have tracked : Stage.track (.counted pushCount) ⟨.compareExchangeTopKey exchange comparand, answer⟩ =
            .counted pushCount := if_neg missed
        rw [tracked]
        exact ⟨⟨rfl, rfl, rfl, rfl⟩, if_neg missed, rfl⟩
      · have missed : ¬ answer = comparand := fun same => by cases (if_pos same).symm.trans quiet
        have tracked : Stage.track (.freeing node next (some comparand))
            ⟨.compareExchangeTopKey (makeKey node count) comparand, answer⟩ =
              .freeing node next (some comparand) := if_neg missed
        rw [tracked]
        exact ⟨⟨rfl, rfl, rfl, rfl⟩, rfl, if_neg missed⟩
  | compareExchangeKey node exchange comparand =>
      rcases permitted with ⟨rfl, pushCount, own, value, rfl, rfl⟩
      have missed : ¬ answer = (0 : Key) := fun same => by cases (if_pos same).symm.trans quiet
      have tracked : Stage.track (.ready pushCount own value)
          ⟨.compareExchangeKey node (makeKey own pushCount) 0, answer⟩ = .ready pushCount own value :=
        if_neg missed
      rw [tracked]
      exact ⟨⟨rfl, rfl, rfl, rfl⟩, rfl, rfl⟩
  | incrementSize => cases quiet
  | decrementSize => cases quiet
  | incrementPushs =>
      cases (permitted : stage = .idle)
      exact ⟨⟨rfl, rfl, rfl, rfl⟩, rfl, rfl⟩
  | storeValue node value =>
      rcases permitted with ⟨pushCount, rfl⟩
      exact ⟨⟨rfl, rfl, rfl, rfl⟩, rfl, rfl⟩
  | storeKey node key =>
      rcases permitted with ⟨rfl, pushCount, value, rfl⟩
      exact ⟨⟨rfl, rfl, rfl, rfl⟩, rfl, rfl⟩
  | storeHead key =>
      rcases permitted with ⟨known, head, rfl⟩
      exact ⟨⟨rfl, rfl, rfl, rfl⟩, rfl, rfl⟩
  | storePoolNext node key =>
      rcases permitted with ⟨next, stored, rfl⟩
      exact ⟨⟨rfl, rfl, rfl, rfl⟩, rfl, rfl⟩
  | loadValue node =>
      cases (permitted : stage = .loading node)
      exact ⟨⟨rfl, rfl, rfl, rfl⟩, rfl, rfl⟩
  | loadHead =>
      cases stage with
      | popping head key =>
          refine ⟨?_, rfl, rfl⟩
          dsimp only [Stage.track]
          split <;> exact ⟨rfl, rfl, rfl, rfl⟩
      | _ => exact ⟨⟨rfl, rfl, rfl, rfl⟩, rfl, rfl⟩
  | loadKey node =>
      cases stage with
      | popping head key =>
          cases head with
          | none => exact ⟨⟨rfl, rfl, rfl, rfl⟩, rfl, rfl⟩
          | some head =>
              refine ⟨?_, rfl, rfl⟩
              dsimp only [Stage.track]
              split <;> exact ⟨rfl, rfl, rfl, rfl⟩
      | _ => exact ⟨⟨rfl, rfl, rfl, rfl⟩, rfl, rfl⟩
  | _ => cases stage <;> exact ⟨⟨rfl, rfl, rfl, rfl⟩, rfl, rfl⟩

/-- Such a step links no value. -/
theorem recorded_of_quiet {Thread : Type} [DecidableEq Thread] {slot : Network.Slot}
    {packet : Value -> Network.Packet} {stage : Stage} {op : Op} {answer : op.Answer} (ledger : Ledger Thread)
    (thread : Thread) (permitted : stage.permits op) (quiet : takesPlace slot packet stage ⟨op, answer⟩ = none) :
    (ledger.next thread ⟨op, answer⟩).linked = ledger.linked ∧
      (ledger.next thread ⟨op, answer⟩).popped.length = ledger.popped.length + loaded op := by
  cases op with
  | compareExchangeKey node exchange comparand =>
      rcases permitted with ⟨rfl, pushCount, own, value, rfl, rfl⟩
      have missed : ¬ answer = (0 : Key) := fun same => by cases (if_pos same).symm.trans quiet
      have recorded : ledger.record thread ⟨.compareExchangeKey node (makeKey own pushCount) 0, answer⟩ = ledger :=
        if_neg missed
      rw [Ledger.next, recorded]
      exact ⟨rfl, rfl⟩
  | incrementSize => cases quiet
  | decrementSize => cases quiet
  | loadValue node => exact ⟨rfl, List.length_append⟩
  | _ => exact ⟨rfl, rfl⟩

/-- Two operations move the counter. -/
theorem perform_size {s s' : State} {op : Op} {answer : op.Answer} (performed : perform s op = some (answer, s'))
    (increments : op ≠ .incrementSize) (decrements : op ≠ .decrementSize) : s'.size = s.size := by
  cases op with
  | incrementSize => exact absurd rfl increments
  | decrementSize => exact absurd rfl decrements
  | compareExchangeKey node exchange comparand =>
      rcases Option.ite_none_left_eq_some.mp performed with ⟨_, performed⟩
      cases performed
      split <;> rfl
  | compareExchangeTopKey exchange comparand =>
      cases performed
      split <;> rfl
  | compareExchangeTail exchange comparand =>
      cases performed
      split <;> rfl
  | halt => cases performed
  | _ =>
      first
        | (cases performed; rfl)
        | (rcases Option.ite_none_left_eq_some.mp performed with ⟨_, performed⟩; cases performed; rfl)

/-! ## Related states -/

def unlinkedNext (slot : Network.Slot) (packets : List Network.Packet) :
    Event Network.interface -> List Network.Packet
  | ⟨.session target .unlinkNode, packet⟩ => if target = slot then packets ++ [packet] else packets
  | _ => packets

/-- The packets that pops of the network layer have unlinked, first to last. -/
def unlinked {Thread : Type} (slot : Network.Slot) (history : List (Thread × Event Network.interface)) :
    List Network.Packet :=
  history.foldr (fun entry packets => unlinkedNext slot packets entry.2) []

section Relation

variable {Thread : Type} [Fintype Thread] [DecidableEq Thread]

/-- The values linked are those of the packets unlinked and of those still linked.  Both
counters are the same number, and so are the free nodes. -/
structure Mirrors (slot : Network.Slot) (capacity : Nat) (s : State) (stages : Thread -> Stage)
    (history : List (Thread × Event operations)) (above : Network.Session)
    (events : List (Thread × Event Network.interface)) : Prop where
  shape : Exists fun queued => Exists fun free => Shape s stages (ledger history) queued free ∧
    above.sendBuffer.freeNodes = free.length
  linked : (ledger history).linked.map Push.value = (Network.linked slot events).map Network.Packet.pointer
  queued : Network.linked slot events = unlinked slot events ++ above.sendBuffer.nodes
  popped : (unlinked slot events).length = (ledger history).popped.length + tally Stage.loads stages
  size : above.sendBuffer.size = s.size.toInt
  counted : above.sendBuffer.size + tally Stage.owes stages = above.sendBuffer.nodes.length
  positive : 0 ≤ above.sendBuffer.size + tally Stage.refuses stages
  pool : above.sendBuffer.nodes.length + above.sendBuffer.freeNodes + tally Stage.keeps stages = capacity

namespace Mirrors

variable {slot : Network.Slot} {packet : Value -> Network.Packet} {capacity : Nat} {s s' : State}
  {stages : Thread -> Stage} {history : List (Thread × Event operations)} {above above' : Network.Session}
  {events events' : List (Thread × Event Network.interface)} {thread : Thread} {op : Op} {answer : op.Answer}

/-- What is known of the lists after a step. -/
abbrev Steps (s s' : State) (stages : Thread -> Stage) (history : List (Thread × Event operations))
    (thread : Thread) (event : Event operations) : Prop :=
  forall queued free, Shape s stages (ledger history) queued free ->
    Exists fun queued' => Exists fun free' =>
      free'.length + (stages thread).takes event = free.length + (stages thread).gives event ∧
        Shape s' (Function.update stages thread ((stages thread).track event))
          ((ledger history).next thread event) queued' free'

/-- One thread takes a step: what is left to show is about this thread and the numbers. -/
theorem next (mirrors : Mirrors slot capacity s stages history above events) {after : Stage}
    (steps : Steps s s' stages history thread ⟨op, answer⟩)
    (tracked : (stages thread).track ⟨op, answer⟩ = after)
    (linked : ((ledger history).next thread ⟨op, answer⟩).linked.map Push.value =
      (Network.linked slot events').map Network.Packet.pointer)
    (queued : Network.linked slot events' = unlinked slot events' ++ above'.sendBuffer.nodes)
    (popped : (unlinked slot events').length + (ledger history).popped.length + (stages thread).loads =
      (unlinked slot events).length + ((ledger history).next thread ⟨op, answer⟩).popped.length + after.loads)
    (size : above'.sendBuffer.size = s'.size.toInt)
    (counted : above'.sendBuffer.size + after.owes + above.sendBuffer.nodes.length =
      above.sendBuffer.size + (stages thread).owes + above'.sendBuffer.nodes.length)
    (positive : 0 ≤ above'.sendBuffer.size ∨
      above.sendBuffer.size + (stages thread).refuses ≤ above'.sendBuffer.size + after.refuses)
    (room : above'.sendBuffer.freeNodes + (stages thread).takes ⟨op, answer⟩ =
      above.sendBuffer.freeNodes + (stages thread).gives ⟨op, answer⟩)
    (pool : above'.sendBuffer.nodes.length + above'.sendBuffer.freeNodes + after.keeps =
      above.sendBuffer.nodes.length + above.sendBuffer.freeNodes + (stages thread).keeps) :
    Mirrors slot capacity s' (Function.update stages thread ((stages thread).track ⟨op, answer⟩))
      ((thread, ⟨op, answer⟩) :: history) above' events' := by
  rcases mirrors.shape with ⟨chained, free, shape, free_⟩
  rcases steps chained free shape with ⟨chained', free', count, shape'⟩
  rw [tracked] at shape' ⊢
  refine ⟨⟨chained', free', shape', by omega⟩, linked, queued, ?_, size, ?_, ?_, ?_⟩
  · have before := mirrors.popped
    have sum := tally_update Stage.loads stages thread after
    change _ = ((ledger history).next thread ⟨op, answer⟩).popped.length + _
    omega
  · have before := mirrors.counted
    have sum := tally_update Stage.owes stages thread after
    omega
  · have before := mirrors.positive
    have sum := tally_update Stage.refuses stages thread after
    omega
  · have before := mirrors.pool
    have sum := tally_update Stage.keeps stages thread after
    omega

/-- A step in which nothing takes place. -/
theorem quiet (mirrors : Mirrors slot capacity s stages history above events)
    (permitted : (stages thread).permits op) (performed : perform s op = some (answer, s'))
    (steps : Steps s s' stages history thread ⟨op, answer⟩)
    (quiet : takesPlace slot packet (stages thread) ⟨op, answer⟩ = none) :
    Mirrors slot capacity s' (Function.update stages thread ((stages thread).track ⟨op, answer⟩))
      ((thread, ⟨op, answer⟩) :: history) above events := by
  rcases Stage.alike_of_quiet permitted quiet with ⟨⟨loads, owes, refuses, keeps⟩, takes, gives⟩
  rcases recorded_of_quiet (ledger history) thread permitted quiet with ⟨linked, popped⟩
  have size : s'.size = s.size :=
    perform_size performed (by rintro rfl; cases quiet) (by rintro rfl; cases quiet)
  refine mirrors.next steps rfl ?_ mirrors.queued (by omega) ?_ (by omega) (.inr (by omega)) (by omega) (by omega)
  · rw [linked]
    exact mirrors.linked
  · rw [size]
    exact mirrors.size

section Shown

variable (choice : Network.Choice)

/-- A push finds the pool empty. -/
theorem findsEmpty (mirrors : Mirrors slot capacity s stages history above events) {pushCount : BitVec 64}
    (stage : stages thread = .counted pushCount) (null : makeNodePtr s.topKey = 0)
    (steps : Steps s s stages history thread ⟨.loadTopKey, s.topKey⟩) :
    Network.performQueue choice above (.session slot .allocNode) = some (false, above) ∧
      Mirrors slot capacity s (Function.update stages thread ((stages thread).track ⟨.loadTopKey, s.topKey⟩))
        ((thread, ⟨.loadTopKey, s.topKey⟩) :: history) above
        ((thread, ⟨.session slot .allocNode, false⟩) :: events) := by
  have empty : above.sendBuffer.freeNodes = 0 := by
    rcases mirrors.shape with ⟨queued, free, shape, room⟩
    cases free with
    | nil => exact room
    | cons node rest =>
        have first : makeNodePtr s.topKey = node := shape.pooled.1
        exact absurd (first.symm.trans null) (shape.blocks.usable node (by simp))
  have still : (stages thread).track ⟨.loadTopKey, s.topKey⟩ = .counted pushCount := by
    rw [stage]
    rfl
  refine ⟨if_pos empty, mirrors.next steps still mirrors.linked mirrors.queued ?_ mirrors.size ?_ (.inr ?_) ?_ ?_⟩
  all_goals rw [stage]
  all_goals rfl

/-- A push takes a node. -/
theorem takesNode (mirrors : Mirrors slot capacity s stages history above events) {pushCount : BitVec 64}
    {exchange : Key} (stage : stages thread = .counted pushCount)
    (steps : Steps s s' stages history thread ⟨.compareExchangeTopKey exchange s.topKey, s.topKey⟩)
    (size : s'.size = s.size) :
    Exists fun above' => Network.performQueue choice above (.session slot .allocNode) = some (true, above') ∧
      Mirrors slot capacity s'
        (Function.update stages thread
          ((stages thread).track ⟨.compareExchangeTopKey exchange s.topKey, s.topKey⟩))
        ((thread, ⟨.compareExchangeTopKey exchange s.topKey, s.topKey⟩) :: history) above'
        ((thread, ⟨.session slot .allocNode, true⟩) :: events) := by
  have tracked : (stages thread).track ⟨.compareExchangeTopKey exchange s.topKey, s.topKey⟩ =
      .holding pushCount (makeNodePtr s.topKey) := by
    rw [stage]
    exact if_pos rfl
  have taken : (stages thread).takes ⟨.compareExchangeTopKey exchange s.topKey, s.topKey⟩ = 1 ∧
      (stages thread).gives ⟨.compareExchangeTopKey exchange s.topKey, s.topKey⟩ = 0 := by
    rw [stage]
    exact ⟨if_pos rfl, rfl⟩
  have some_ : above.sendBuffer.freeNodes ≠ 0 := by
    rcases mirrors.shape with ⟨queued, free, shape, room⟩
    rcases steps queued free shape with ⟨queued', free', count, _⟩
    omega
  have fewer : above.sendBuffer.freeNodes - 1 + 1 = above.sendBuffer.freeNodes := Nat.succ_pred some_
  refine ⟨_, if_neg some_, mirrors.next steps tracked mirrors.linked mirrors.queued ?_ (mirrors.size.trans (by rw [size])) ?_
    (.inr ?_) ?_ ?_⟩
  · rw [stage]
    rfl
  · rw [stage]
    rfl
  · rw [stage]
    exact Int.le_refl _
  · rw [taken.1, taken.2]
    exact fewer
  · rw [stage]
    exact congrArg (above.sendBuffer.nodes.length + ·) fewer

/-- A push links its node. -/
theorem links (mirrors : Mirrors slot capacity s stages history above events)
    (kept : Kept (ledger history) stages) (named : forall value, (packet value).pointer = value)
    {pushCount : BitVec 64} {node own : Address} {value : Value} {exchange : Key}
    (stage : stages thread = .ready pushCount own value)
    (steps : Steps s s' stages history thread ⟨.compareExchangeKey node exchange 0, (0 : Key)⟩)
    (size : s'.size = s.size) :
    Exists fun above' =>
      Network.performQueue choice above (.session slot (.linkNode (packet value))) = some ((), above') ∧
        Mirrors slot capacity s'
          (Function.update stages thread ((stages thread).track ⟨.compareExchangeKey node exchange 0, (0 : Key)⟩))
          ((thread, ⟨.compareExchangeKey node exchange 0, (0 : Key)⟩) :: history) above'
          ((thread, ⟨.session slot (.linkNode (packet value)), ()⟩) :: events) := by
  have tracked : (stages thread).track ⟨.compareExchangeKey node exchange 0, (0 : Key)⟩ = .linked := by
    rw [stage]
    rfl
  have carried := (kept.carried thread value (by rw [stage]; rfl)).1
  have recorded : ((ledger history).next thread ⟨.compareExchangeKey node exchange 0, (0 : Key)⟩).linked =
      (ledger history).linked ++ [⟨(ledger history).began thread, value⟩] := by
    simp [Ledger.next, Ledger.record, carried]
  have unpopped : ((ledger history).next thread ⟨.compareExchangeKey node exchange 0, (0 : Key)⟩).popped =
      (ledger history).popped := by
    simp [Ledger.next, Ledger.record]
  have lengths : (above.sendBuffer.nodes ++ [packet value]).length = above.sendBuffer.nodes.length + 1 :=
    List.length_append
  have more : Network.linked slot ((thread, ⟨.session slot (.linkNode (packet value)), ()⟩) :: events) =
      Network.linked slot events ++ [packet value] := if_pos rfl
  refine ⟨_, rfl, mirrors.next steps tracked ?_ ?_ ?_ (mirrors.size.trans (by rw [size])) ?_ (.inr ?_) ?_ ?_⟩
  · rw [recorded, more, List.map_append, List.map_append, mirrors.linked]
    simp [named]
  · rw [more, mirrors.queued, List.append_assoc]
    rfl
  · rw [stage, unpopped]
    rfl
  · rw [stage]
    change above.sendBuffer.size + 1 + _ = above.sendBuffer.size + 0 + ((_ ++ [packet value]).length : Int)
    rw [lengths]
    omega
  · rw [stage]
    exact Int.le_refl _
  · rw [stage]
    rfl
  · rw [stage]
    change (above.sendBuffer.nodes ++ [packet value]).length + above.sendBuffer.freeNodes + 0 =
      above.sendBuffer.nodes.length + above.sendBuffer.freeNodes + 1
    rw [lengths]
    omega

/-- Nobody but a pop that gives its count back takes the counter below zero. -/
theorem refuses_le (mirrors : Mirrors slot capacity s stages history above events) :
    tally Stage.refuses stages ≤ 1 := by
  rcases mirrors.shape with ⟨queued, free, shape, room⟩
  have pops (other : Thread) (refuses : (stages other).refuses ≠ 0) : (stages other).pops = true := by
    cases stage : stages other <;> simp [stage, Stage.refuses, Stage.pops] at refuses ⊢
  by_cases refusing : Exists fun other => (stages other).refuses ≠ 0
  · rcases refusing with ⟨first, refuses⟩
    have alone : tally Stage.refuses stages = (stages first).refuses := by
      refine tally_eq_of_alone Stage.refuses stages first fun other different => ?_
      by_contra more
      exact different (shape.alone other first (pops other more) (pops first refuses))
    rw [alone]
    cases stages first <;> simp [Stage.refuses]
  · have none : tally Stage.refuses stages = 0 := by
      rw [tally_eq_zero_iff]
      exact fun other => by simpa using fun more => refusing ⟨other, more⟩
    omega

/-- A push counts its value, or a pop gives its count back. -/
theorem counts (mirrors : Mirrors slot capacity s stages history above events) (few : capacity < 2 ^ 31)
    (stage : stages thread = .linked ∨ stages thread = .refused)
    (steps : Steps s { s with size := s.size + 1 } stages history thread ⟨.incrementSize, s.size + 1⟩) :
    Exists fun above' =>
      Network.performQueue choice above (.session slot .incrementSize) = some ((s.size + 1).toInt, above') ∧
        Mirrors slot capacity { s with size := s.size + 1 }
          (Function.update stages thread ((stages thread).track ⟨.incrementSize, s.size + 1⟩))
          ((thread, ⟨.incrementSize, s.size + 1⟩) :: history) above'
          ((thread, ⟨.session slot .incrementSize, (s.size + 1).toInt⟩) :: events) := by
  have tracked : (stages thread).track ⟨.incrementSize, s.size + 1⟩ = .idle := by
    rcases stage with stage | stage
    · rw [stage]
      rfl
    · rw [stage]
      rfl
  have owes : (stages thread).owes = 1 := by rcases stage with stage | stage <;> rw [stage] <;> rfl
  have part := le_tally Stage.owes stages thread
  have counted := mirrors.counted
  have pool := mirrors.pool
  have same := mirrors.size
  have step : (s.size + 1).toInt = above.sendBuffer.size + 1 := by
    rw [increment_toInt (by omega), same]
  have refuses : (stages thread).refuses ≤ 1 :=
    (le_tally Stage.refuses stages thread).trans mirrors.refuses_le
  have unpopped : ((ledger history).next thread ⟨.incrementSize, s.size + 1⟩).popped = (ledger history).popped := rfl
  rw [step]
  refine ⟨_, rfl, mirrors.next steps tracked mirrors.linked mirrors.queued ?_ step.symm ?_ (.inr ?_) ?_ ?_⟩
  · rw [unpopped]
    rcases stage with stage | stage <;> rw [stage] <;> rfl
  · rw [owes]
    change above.sendBuffer.size + 1 + 0 + (above.sendBuffer.nodes.length : Int) =
      above.sendBuffer.size + 1 + above.sendBuffer.nodes.length
    omega
  · change above.sendBuffer.size + _ ≤ above.sendBuffer.size + 1 + 0
    omega
  · rcases stage with stage | stage <;> rw [stage] <;> rfl
  · rcases stage with stage | stage <;> rw [stage] <;> rfl

/-- A pop takes a value off the count, or finds none. -/
theorem claims (mirrors : Mirrors slot capacity s stages history above events)
    (idle : stages thread = .idle) (others : forall other, other ≠ thread -> (stages other).pops = false)
    (steps : Steps s { s with size := s.size - 1 } stages history thread ⟨.decrementSize, s.size - 1⟩) :
    Exists fun above' =>
      Network.performQueue choice above (.session slot .decrementSize) = some ((s.size - 1).toInt, above') ∧
        Mirrors slot capacity { s with size := s.size - 1 }
          (Function.update stages thread ((stages thread).track ⟨.decrementSize, s.size - 1⟩))
          ((thread, ⟨.decrementSize, s.size - 1⟩) :: history) above'
          ((thread, ⟨.session slot .decrementSize, (s.size - 1).toInt⟩) :: events) := by
  have nobody : tally Stage.refuses stages = 0 := by
    rw [tally_eq_zero_iff]
    intro other
    by_cases same : other = thread
    · rw [same, idle]
      rfl
    · have unpopping := others other same
      cases stage : stages other <;> simp [stage, Stage.refuses, Stage.pops] at unpopping ⊢
  have positive := mirrors.positive
  have same := mirrors.size
  have step : (s.size - 1).toInt = above.sendBuffer.size - 1 := by
    rw [decrement_toInt (by omega), same]
  have unpopped : ((ledger history).next thread ⟨.decrementSize, s.size - 1⟩).popped = (ledger history).popped := rfl
  have tracked : (stages thread).track ⟨.decrementSize, s.size - 1⟩ =
      if (s.size - 1).toInt < 0 then .refused else .popping none 0 := by
    rw [idle]
    rfl
  have claimed : Exists fun after => (stages thread).track ⟨.decrementSize, s.size - 1⟩ = after ∧ after.owes = 1 ∧
      after.loads = 0 ∧ after.keeps = 0 ∧ (0 ≤ above.sendBuffer.size - 1 ∨ after.refuses = 1) := by
    by_cases negative : (s.size - 1).toInt < 0
    · exact ⟨.refused, tracked.trans (if_pos negative), rfl, rfl, rfl, .inr rfl⟩
    · exact ⟨.popping none 0, tracked.trans (if_neg negative), rfl, rfl, rfl, .inl (by omega)⟩
  rcases claimed with ⟨after, moved, owes, loads, keeps, refuses⟩
  rw [step]
  refine ⟨_, rfl, mirrors.next steps moved mirrors.linked mirrors.queued ?_ step.symm ?_ ?_ ?_ ?_⟩
  · rw [unpopped, idle, loads]
    rfl
  · rw [idle, owes]
    change above.sendBuffer.size - 1 + 1 + (above.sendBuffer.nodes.length : Int) =
      above.sendBuffer.size + 0 + above.sendBuffer.nodes.length
    omega
  · refine refuses.imp id fun one => ?_
    rw [idle, one]
    change above.sendBuffer.size + 0 ≤ above.sendBuffer.size - 1 + 1
    omega
  · rw [idle]
    rfl
  · rw [idle, keeps]
    rfl

/-- The old dummy is back in the pool, and the oldest packet unlinked. -/
theorem unlinks (mirrors : Mirrors slot capacity s stages history above events) {node behind : Address}
    {exchange : Key} (stage : stages thread = .freeing node behind (some s.topKey))
    (steps : Steps s s' stages history thread ⟨.compareExchangeTopKey exchange s.topKey, s.topKey⟩)
    (size : s'.size = s.size) :
    Exists fun oldest => Exists fun above' =>
      Network.performQueue choice above (.session slot .unlinkNode) = some (oldest, above') ∧
        Mirrors slot capacity s'
          (Function.update stages thread
            ((stages thread).track ⟨.compareExchangeTopKey exchange s.topKey, s.topKey⟩))
          ((thread, ⟨.compareExchangeTopKey exchange s.topKey, s.topKey⟩) :: history) above'
          ((thread, ⟨.session slot .unlinkNode, oldest⟩) :: events) := by
  have tracked : (stages thread).track ⟨.compareExchangeTopKey exchange s.topKey, s.topKey⟩ = .loading behind := by
    rw [stage]
    exact if_pos rfl
  have given : (stages thread).takes ⟨.compareExchangeTopKey exchange s.topKey, s.topKey⟩ = 0 ∧
      (stages thread).gives ⟨.compareExchangeTopKey exchange s.topKey, s.topKey⟩ = 1 := by
    rw [stage]
    exact ⟨rfl, if_pos rfl⟩
  have some_ : above.sendBuffer.nodes ≠ [] := by
    rcases mirrors.shape with ⟨queued, free, shape, room⟩
    -- no other thread pops, so none has a value to load
    have loads : tally Stage.loads stages = 0 := by
      rw [tally_eq_zero_iff]
      intro other
      by_cases same : other = thread
      · rw [same, stage]
        rfl
      · by_contra more
        have pops : (stages other).pops = true := by
          cases here : stages other <;> simp [here, Stage.loads, Stage.pops] at more ⊢
        exact same (shape.alone other thread pops (by rw [stage]; rfl))
    have values := congrArg List.length (shape.removing thread (by rw [stage]; rfl))
    have linked := congrArg List.length mirrors.linked
    have queued := congrArg List.length mirrors.queued
    have popped := mirrors.popped
    have positive := List.length_pos_of_ne_nil shape.nonempty
    simp only [List.length_map, List.length_append] at values linked queued
    rintro empty
    rw [empty, List.length_nil] at queued
    omega
  rcases List.exists_cons_of_ne_nil some_ with ⟨oldest, rest, nodes⟩
  have unlinked_ : above.sendBuffer.unlink = some (oldest,
      { above.sendBuffer with nodes := rest, freeNodes := above.sendBuffer.freeNodes + 1 }) := by
    unfold Network.LockFreeQueue.unlink
    rw [nodes]
  have more : unlinked slot ((thread, ⟨.session slot .unlinkNode, oldest⟩) :: events) =
      unlinked slot events ++ [oldest] := if_pos rfl
  refine ⟨oldest, _, congrArg (Option.map _) unlinked_,
    mirrors.next steps tracked mirrors.linked ?_ ?_ (mirrors.size.trans (by rw [size])) ?_ (.inr ?_) ?_ ?_⟩
  · refine mirrors.queued.trans ?_
    rw [more, nodes, List.append_assoc, List.singleton_append]
  · rw [more, List.length_append, stage]
    change (unlinked slot events).length + 1 + (ledger history).popped.length + 0 =
      (unlinked slot events).length + (ledger history).popped.length + 1
    omega
  · rw [stage, nodes]
    change above.sendBuffer.size + 0 + ((oldest :: rest).length : Int) = above.sendBuffer.size + 1 + rest.length
    rw [List.length_cons]
    omega
  · rw [stage]
    exact Int.le_refl _
  · rw [given.1, given.2]
  · rw [stage, nodes]
    change rest.length + (above.sendBuffer.freeNodes + 1) + 0 =
      (oldest :: rest).length + above.sendBuffer.freeNodes + 0
    rw [List.length_cons]
    omega

end Shown

end Mirrors

/-! ## Runs -/

variable {slot : Network.Slot} {packet : Value -> Network.Packet} {choice : Network.Choice} {initial : State}
  {fuel : Nat} {nodes : List Address}

/-- Every step that keeps the rule shows an operation that the network layer's queue can perform, or
none. -/
theorem mirrors_simulates (blocks : Blocks nodes) (holds : Holds nodes initial [])
    (named : forall value, (packet value).pointer = value) (few : nodes.length - 1 < 2 ^ 31) :
    (queueView slot packet).Simulates (queue Thread initial fuel)
      (networkQueue Thread choice slot (nodes.length - 1)) current (Mirrors slot (nodes.length - 1)) where
  initial := by
    have fresh : Exists fun queued => Exists fun free => free.length + 1 = nodes.length ∧
        Shape initial (fun _ : Thread => Stage.idle) (ledger []) queued free := shape_initial blocks holds
    rcases fresh with ⟨queued, free, length, shape⟩
    have none (weight : Stage -> Nat) (idle : weight .idle = 0) :
        tally weight (fun _ : Thread => Stage.idle) = 0 := (tally_eq_zero_iff _ _).mpr fun _ => idle
    have size := holds.counted
    refine ⟨⟨queued, free, shape, ?_⟩, rfl, rfl, ?_, size.symm, ?_, ?_, ?_⟩
    · change nodes.length - 1 = free.length
      omega
    · change 0 = 0 + tally Stage.loads (fun _ : Thread => Stage.idle)
      rw [none Stage.loads rfl]
    · change (0 : Int) + tally Stage.owes (fun _ : Thread => Stage.idle) = (0 : Nat)
      rw [none Stage.owes rfl]
      rfl
    · change (0 : Int) ≤ 0 + tally Stage.refuses (fun _ : Thread => Stage.idle)
      omega
    · change 0 + (nodes.length - 1) + tally Stage.keeps (fun _ : Thread => Stage.idle) = nodes.length - 1
      rw [none Stage.keeps rfl, Nat.zero_add, Nat.add_zero]
  quiet := by
    intro c thread op next _ answer s above events reach turn mirrors permitted performed lawful quiet
    exact mirrors.quiet permitted performed
      (fun _ _ shape => shape_lawful reach shape permitted performed lawful) quiet
  shown := by
    intro c thread op next _ answer s above events op' reach turn mirrors permitted performed lawful takes
    have kept := (Discipline.sound kept_preserved calls_calling reach).1
    have steps : Mirrors.Steps c.state s (calling.ghosts c) c.history thread ⟨op, answer⟩ :=
      fun _ _ shape => shape_lawful reach shape permitted performed lawful
    have uncounted (increments : op ≠ .incrementSize) (decrements : op ≠ .decrementSize) :
        s.size = State.size c.state := by
      have performed' : perform c.state op = some (answer, s) := performed
      exact perform_size performed' increments decrements
    cases op with
    | loadTopKey =>
        cases performed
        cases stage : calling.ghosts c thread with
        | counted pushCount =>
            rw [stage] at takes
            rcases Option.ite_none_right_eq_some.mp takes with ⟨null, same⟩
            cases same
            rw [← stage]
            rcases mirrors.findsEmpty choice stage null steps with ⟨found, mirrors'⟩
            exact ⟨(), false, above, found, rfl, mirrors'⟩
        | _ =>
            rw [stage] at takes
            cases takes
    | compareExchangeTopKey exchange comparand =>
        have size := uncounted nofun nofun
        cases performed
        rcases permitted with ⟨pushCount, stage, usable⟩ | ⟨node, behind, count, stage, rfl⟩
        · rw [stage] at takes
          rcases Option.ite_none_right_eq_some.mp takes with ⟨taken, same⟩
          cases same
          subst taken
          rcases mirrors.takesNode choice stage steps size with ⟨above', found, mirrors'⟩
          exact ⟨(), true, above', found, rfl, mirrors'⟩
        · rw [stage] at takes
          rcases Option.ite_none_right_eq_some.mp takes with ⟨given, same⟩
          cases same
          subst given
          rcases mirrors.unlinks choice stage steps size with ⟨oldest, above', found, mirrors'⟩
          exact ⟨(), oldest, above', found, trivial, mirrors'⟩
    | compareExchangeKey node exchange comparand =>
        rcases permitted with ⟨rfl, pushCount, own, value, stage, rfl⟩
        rw [stage] at takes
        rcases Option.ite_none_right_eq_some.mp takes with ⟨given, same⟩
        cases same
        subst given
        have size := uncounted nofun nofun
        rcases mirrors.links choice kept named stage steps size with ⟨above', found, mirrors'⟩
        exact ⟨(), (), above', found, trivial, mirrors'⟩
    | incrementSize =>
        cases performed
        cases takes
        rcases mirrors.counts choice few permitted steps with ⟨above', found, mirrors'⟩
        exact ⟨(), _, above', found, rfl, mirrors'⟩
    | decrementSize =>
        cases performed
        cases takes
        have others : forall other, other ≠ thread -> (calling.ghosts c other).pops = false := by
          intro other different
          by_contra pops
          have popping := inPop_of_pops (c.past other) (by simpa [Discipline.ghosts] using pops)
          rw [lawful rfl other different] at popping
          cases popping
        rcases mirrors.claims choice permitted others steps with ⟨above', found, mirrors'⟩
        exact ⟨(), _, above', found, rfl, mirrors'⟩
    | _ => cases takes
  takeUp := by
    intro s stages history above events thread mirrors finished
    have same (weight : Stage -> Nat) (idle : weight .idle = 0) (counted : forall pushCount, weight (.counted pushCount) = 0) :
        tally weight (Function.update stages thread .idle) = tally weight stages := by
      have sum := tally_update weight stages thread .idle
      rcases finished with stage | ⟨pushCount, stage⟩
      · rw [stage] at sum
        omega
      · rw [stage, idle, counted] at sum
        exact sum
    rcases mirrors.shape with ⟨queued, free, shape, room⟩
    refine ⟨⟨queued, free, shape.rest finished, room⟩, mirrors.linked, mirrors.queued, ?_, mirrors.size, ?_, ?_, ?_⟩
    · rw [same Stage.loads rfl fun _ => rfl]
      exact mirrors.popped
    · rw [same Stage.owes rfl fun _ => rfl]
      exact mirrors.counted
    · rw [same Stage.refuses rfl fun _ => rfl]
      exact mirrors.positive
    · rw [same Stage.keeps rfl fun _ => rfl]
      exact mirrors.pool
  surround := fun _ _ _ _ _ change => change.elim

/-- What the run of the network layer has of the run over the nodes. -/
structure Shows (slot : Network.Slot) {freeNodes : Nat} (c : (queue Thread initial fuel).Config)
    (d : (networkQueue Thread choice slot freeNodes).Config) : Prop where
  /-- The same values are linked, in the same order. -/
  linked : (ledger c.history).linked.map Push.value = (Network.linked slot d.history).map Network.Packet.pointer
  /-- They are unlinked in this order. -/
  queued : Network.linked slot d.history = unlinked slot d.history ++ (Network.Session.sendBuffer d.state).nodes
  /-- These are the values that pops deliver; the latest may still have to be loaded. -/
  popped : (ledger c.history).popped <+: (unlinked slot d.history).map Network.Packet.pointer
  loaded : (forall thread, c.running thread = .done ()) ->
    (ledger c.history).popped = (unlinked slot d.history).map Network.Packet.pointer
  size : (Network.Session.sendBuffer d.state).size = (State.size c.state).toInt
  idle : forall thread, c.running thread = .done () -> d.running thread = .done ()

theorem shows_of_mirrors {freeNodes capacity : Nat} {c : (queue Thread initial fuel).Config}
    {d : (networkQueue Thread choice slot freeNodes).Config} (reach : (queue Thread initial fuel).Reach current c)
    (mirrors : Mirrors slot capacity c.state (calling.ghosts c) c.history d.state d.history)
    (follows : forall thread, (queueView slot packet).Follows (c.running thread) (calling.ghosts c thread)
      (d.running thread) fun _ _ rest => rest = .done ()) : Shows slot c d := by
  have lengths := mirrors.popped
  have popped : (ledger c.history).popped <+: (unlinked slot d.history).map Network.Packet.pointer := by
    have both : (ledger c.history).linked.map Push.value = (unlinked slot d.history).map Network.Packet.pointer ++
        (Network.Session.sendBuffer d.state).nodes.map Network.Packet.pointer := by
      rw [mirrors.linked, mirrors.queued, List.map_append]
    have front : (ledger c.history).popped <+: (ledger c.history).linked.map Push.value := by
      rcases mirrors.shape with ⟨queued, free, shape, room⟩
      by_cases removing : Exists fun thread => (calling.ghosts c thread).removing = true
      · rcases removing with ⟨thread, removing⟩
        exact ⟨_, (shape.removing thread removing).symm⟩
      · exact ⟨_, (shape.resting fun thread => by simpa using fun removes => removing ⟨thread, removes⟩).symm⟩
    refine List.prefix_of_prefix_length_le front ⟨_, both.symm⟩ ?_
    rw [List.length_map]
    omega
  refine ⟨mirrors.linked, mirrors.queued, popped, fun done => ?_, mirrors.size, fun thread done => ?_⟩
  · refine popped.eq_of_length ?_
    have obedient := (Discipline.sound kept_preserved calls_calling reach).2
    have none : tally Stage.loads (calling.ghosts c) = 0 := by
      rw [tally_eq_zero_iff]
      intro thread
      have finished := obedient thread
      rw [done thread] at finished
      rcases (finished : Stage.finished _) with stage | ⟨pushCount, stage⟩
      · rw [stage]
        rfl
      · rw [stage]
        rfl
    rw [List.length_map]
    omega
  · have own := follows thread
    rw [done] at own
    exact own

/-- Whatever packets the pointers stand for, every run of threads that push and pop, one popping
at a time, is a run of the network layer's `push` and `pop` on a `sendBuffer` with one node less
free than the pool has, if each node is linked to one in the queue and each node taken from the
pool leaves the one behind it (`current`). -/
theorem sendBuffer_refines (Thread : Type) [Fintype Thread] [DecidableEq Thread] (malloc : Nat -> Address)
    (initailSize : BitVec 64) (memory : State) (fuel rounds : Nat) (choice : Network.Choice)
    (slot : Network.Slot) (packet : Value -> Network.Packet)
    (named : forall value, (packet value).pointer = value)
    (positive : 0 < (initailSize.setWidth 32).toInt)
    (blocks : Blocks (poolNodes malloc (initailSize.setWidth 32))) :
    Alone memory (fuel + 1) (construct (fuel + 1)) (members malloc initailSize memory) fun _ s =>
      forall c : (queue Thread s rounds).Config, (queue Thread s rounds).Reach current c ->
        Exists fun d : (networkQueue Thread choice slot ((initailSize.setWidth 32).toInt.toNat - 1)).Config =>
          (networkQueue Thread choice slot ((initailSize.setWidth 32).toInt.toNat - 1)).Reach
            (Machine.anyEvent _) d ∧ Shows slot c d := by
  rw [← poolNodes_length malloc]
  refine (constructed malloc initailSize memory blocks positive).mono fun _ s _ holds c reach => ?_
  have few := poolNodes_few malloc (initailSize.setWidth 32)
  have simulates : (queueView slot packet).Simulates (queue Thread s rounds)
      (networkQueue Thread choice slot ((poolNodes malloc (initailSize.setWidth 32)).length - 1)) current
      (Mirrors slot ((poolNodes malloc (initailSize.setWidth 32)).length - 1)) :=
    mirrors_simulates blocks holds named (by omega)
  have obedient (c : (queue Thread s rounds).Config) (reach : (queue Thread s rounds).Reach current c) :=
    (Discipline.sound kept_preserved calls_calling reach).2
  rcases View.sound simulates obedient calls_follow reach with ⟨d, reach', mirrors, follows⟩
  exact ⟨d, reach', shows_of_mirrors reach mirrors follows⟩

end Relation

end Queue
end LoginServer
