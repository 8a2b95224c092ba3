import Mathlib.Data.Fintype.Sum
import Mathlib.Tactic.DeriveFintype
import LoginServer.Concurrency.Discipline
import LoginServer.Concurrency.Tally
import LoginServer.Network.Threads

namespace LoginServer
namespace Network

open Memory Buffers Receiving Login Concurrency

/-!
# The buffers of one send

`sendIO` reads the size of `sendBuffer` once and gathers as many packets into an
array of 100.  Whoever calls it holds `sendFlag`, so it is the only one to pop.
Packets are pushed all the time.

The counter `_size` follows the links: the packets linked but not counted yet,
and those taken off the count but still linked, are with the threads.
-/

/-- The threads around one `sendBuffer`. -/
inductive Party (pushers : Nat) where
  | sender
  | pusher (index : Fin pushers)
  deriving DecidableEq, Fintype

inductive QueueJob where
  | push (packet : Packet)
  | pop
  | send

/-- `sendIO` between taking `sendFlag` and `WSASend`. -/
def collect (fuel : Nat) (slot : Slot) : NetProgram Unit := do
  let sendBufferSize ← sessionOp slot .loadSize
  let _ ← gather slot (Serializer.sizeT sendBufferSize) fuel []
  return

/-- The operations on the session.  A `sendedBuffer` without room takes no more
pointers, and the loop goes on. -/
def performQueue (choice : Choice) (s : Session) : (op : Op) -> Option (op.Answer × Session)
  | .session _ (.pushSended packet) =>
      some (true, { s with sendedBuffer :=
        if s.sendedBuffer.length < sendedCapacity then s.sendedBuffer ++ [packet] else s.sendedBuffer })
  | .session _ op => performSession choice s op
  | _ => none

variable {pushers : Nat}

def queueProgram (fuel : Nat) (slot : Slot) : Party pushers -> QueueJob -> Option (NetProgram Unit)
  | .pusher _, .push packet => some (do let _ ← push slot packet; return)
  | .sender, .pop => some (do let _ ← pop slot; return)
  | .sender, .send => some (collect fuel slot)
  | _, _ => none

/-- One `sendBuffer` and its threads. -/
def sendQueue (pushers fuel : Nat) (slot : Slot) : Machine interface (Party pushers) where
  State := Session
  initial := Session.fresh
  Choice := Choice
  perform := fun _ op choice s => performQueue choice s op
  Surroundings := Empty
  surround := fun change _ => change.elim
  Job := QueueJob
  program := queueProgram fuel slot

/-! ## What each thread keeps from the count -/

/-- Nodes that a thread has taken from the pool and not linked; packets it has
linked and not counted, or taken off the count and not unlinked; how many it may
count on; and the size it read last. -/
structure Counted where
  allocated : Nat
  uncounted : Nat
  assured : Int
  read : Int

namespace Counted

def track (counted : Counted) : Event interface -> Counted
  | ⟨.session _ .allocNode, ok⟩ =>
      { counted with allocated := if ok = true then counted.allocated + 1 else counted.allocated }
  | ⟨.session _ (.linkNode _), _⟩ =>
      { counted with allocated := counted.allocated - 1, uncounted := counted.uncounted + 1 }
  | ⟨.session _ .unlinkNode, _⟩ => { counted with uncounted := counted.uncounted - 1 }
  | ⟨.session _ .incrementSize, _⟩ =>
      { counted with uncounted := counted.uncounted - 1, assured := counted.assured + 1 }
  | ⟨.session _ .decrementSize, size⟩ =>
      { counted with
        uncounted := counted.uncounted + 1
        assured := if (0 : Int) ≤ size then max (counted.assured - 1) 0 else counted.assured - 1 }
  | ⟨.session _ .loadSize, size⟩ => { counted with assured := size, read := size }
  | _ => counted

/-- A loop that read a size above 100 may come to a halt. -/
def permits (counted : Counted) : Op -> Prop
  | .session _ .allocNode => True
  | .session _ (.linkNode _) => 0 < counted.allocated
  | .session _ .unlinkNode => 0 < counted.uncounted ∧ 0 ≤ counted.assured
  | .session _ .incrementSize => 0 < counted.uncounted
  | .session _ .decrementSize => True
  | .session _ .loadSize => 0 ≤ counted.assured
  | .session _ (.pushSended _) => True
  | .halt => 100 < counted.read
  | _ => False

def expects (counted : Counted) : Event interface -> Prop
  | ⟨.session _ .decrementSize, size⟩ => 0 < counted.assured -> (0 : Int) ≤ size
  | ⟨.session _ .loadSize, size⟩ => (0 : Int) ≤ size
  | ⟨.session _ (.pushSended _), stored⟩ => stored = true
  | _ => True

end Counted

def counting : Discipline interface where
  Ghost := Counted
  start := ⟨0, 0, 0, 0⟩
  track := Counted.track
  permits := Counted.permits
  expects := Counted.expects
  finish := fun counted => counted.allocated = 0 ∧ counted.uncounted = 0 ∧ 0 ≤ counted.assured
  finish_start := ⟨rfl, rfl, Int.le_refl 0⟩

/-- The pool, the links and the counter, with what the threads keep from them.
The sender's assurance holds because nobody else pops. -/
structure QueueBalanced (s : Session) (shares : Party pushers -> Counted) : Prop where
  pool : s.sendBuffer.nodes.length + s.sendBuffer.freeNodes + tally Counted.allocated shares = 255
  links : (s.sendBuffer.nodes.length : Int) = s.sendBuffer.size + tally Counted.uncounted shares
  assured : (shares .sender).assured ≤ s.sendBuffer.size

/-! ## The programs obey -/

variable {slot : Slot} {fuel : Nat}

theorem push_obeys (packet : Packet) :
    counting.Obeys (push slot packet) counting.start fun counted _ => counting.finish counted := by
  refine ⟨trivial, ?_⟩
  intro ok _
  rcases ok with - | -
  · exact ⟨rfl, rfl, Int.le_refl 0⟩
  · refine ⟨Nat.one_pos, fun _ _ => ⟨Nat.one_pos, fun _ _ => ?_⟩⟩
    exact ⟨rfl, rfl, Int.le_add_one (Int.le_refl 0)⟩

theorem pop_obeys {assured read : Int} (positive : 0 ≤ assured) :
    counting.Obeys (pop slot) ⟨0, 0, assured, read⟩ fun counted popped =>
      if popped.isSome then counted = ⟨0, 0, max (assured - 1) 0, read⟩
      else assured = 0 ∧ counted = ⟨0, 0, assured, read⟩ := by
  refine ⟨trivial, ?_⟩
  intro (size : Int) (expected : 0 < assured -> 0 ≤ size)
  change counting.Obeys (if size < 0 then (do let _ ← sessionOp slot .incrementSize; return none)
    else do let packet ← sessionOp slot .unlinkNode; return some packet)
    ⟨0, 1, if 0 ≤ size then max (assured - 1) 0 else assured - 1, read⟩ _
  by_cases negative : size < 0
  · rw [if_pos negative, if_neg (by omega)]
    have back : assured - 1 + 1 = assured := by omega
    refine ⟨Nat.one_pos, fun _ _ => ?_⟩
    exact ⟨by omega, congrArg (fun value => Counted.mk 0 0 value read) back⟩
  · rw [if_neg negative, if_pos (by omega)]
    exact ⟨⟨Nat.one_pos, Int.le_max_right _ _⟩, fun _ _ => rfl⟩

theorem gather_obeys {packetCount : Nat} (fuel : Nat) (batch : List Packet) {assured read : Int}
    (positive : 0 ≤ assured) (within : batch.length ≤ packetCount)
    (enough : (packetCount : Int) ≤ assured + batch.length)
    (roomy : read ≤ 100 -> packetCount ≤ 100 ∧ packetCount < fuel + batch.length) :
    counting.Obeys (gather slot packetCount fuel batch) ⟨0, 0, assured, read⟩ fun counted _ =>
      counting.finish counted := by
  induction fuel generalizing batch assured with
  | zero =>
      refine ⟨?_, fun answer => answer.elim⟩
      change 100 < read
      by_contra small
      have bounds := roomy (Int.not_lt.mp small)
      omega
  | succ fuel inductionHypothesis =>
      unfold gather
      by_cases more : batch.length < packetCount
      case neg =>
        rw [if_neg more]
        exact ⟨rfl, rfl, positive⟩
      rw [if_pos more]
      apply (pop_obeys positive).bind
      intro counted popped outcome
      rcases popped with - | packet
      · have nothing := outcome.1
        omega
      · cases (outcome : counted = _)
        have length : (batch ++ [packet]).length = batch.length + 1 := List.length_append
        change counting.Obeys (if batch.length < 100 then _ else _) _ _
        by_cases inside : batch.length < 100
        · rw [if_pos inside]
          refine ⟨trivial, fun _ (stored : _ = true) => ?_⟩
          rw [stored]
          apply inductionHypothesis (batch ++ [packet]) (Int.le_max_right _ _)
          · omega
          · omega
          · intro small
            have bounds := roomy small
            omega
        · rw [if_neg inside]
          refine ⟨?_, fun answer => answer.elim⟩
          change 100 < read
          by_contra small
          have bounds := roomy (Int.not_lt.mp small)
          omega

theorem sizeT_le {value : Int} (positive : 0 ≤ value) : (Serializer.sizeT value : Int) ≤ value := by
  unfold Serializer.sizeT
  omega

theorem collect_obeys (enough : 101 ≤ fuel) :
    counting.Obeys (collect fuel slot) counting.start fun counted _ => counting.finish counted := by
  refine ⟨Int.le_refl 0, ?_⟩
  intro (size : Int) (positive : 0 ≤ size)
  have within := sizeT_le positive
  apply (gather_obeys fuel [] positive (Nat.zero_le _) _ _).bind
  · intro counted _ finished
    exact finished
  · rw [List.length_nil]
    omega
  · intro small
    rw [List.length_nil]
    omega

theorem queueJobs_obey (enough : 101 ≤ fuel) (party : Party pushers) (job : QueueJob)
    (program : NetProgram Unit) (chosen : queueProgram fuel slot party job = some program) :
    counting.Obeys program counting.start fun counted _ => counting.finish counted := by
  cases party with
  | sender =>
      cases job with
      | push packet => cases chosen
      | pop =>
          cases chosen
          apply (pop_obeys (Int.le_refl 0)).bind
          intro counted popped outcome
          rcases popped with - | packet
          · cases outcome.2
            exact ⟨rfl, rfl, Int.le_refl 0⟩
          · cases (outcome : counted = _)
            exact ⟨rfl, rfl, Int.le_max_right _ _⟩
      | send =>
          cases chosen
          exact collect_obeys enough
  | pusher index =>
      cases job with
      | push packet =>
          cases chosen
          apply (push_obeys packet).bind
          intro counted _ finished
          exact finished
      | pop => cases chosen
      | send => cases chosen

/-! ## Every run keeps the balance -/

/-- One thread changes the queue and its share. -/
theorem QueueBalanced.update {s : Session} {shares : Party pushers -> Counted}
    (balanced : QueueBalanced s shares) (s' : Session) (party : Party pushers) (share : Counted)
    (pool : s'.sendBuffer.nodes.length + s'.sendBuffer.freeNodes + share.allocated =
      s.sendBuffer.nodes.length + s.sendBuffer.freeNodes + (shares party).allocated)
    (links : (s'.sendBuffer.nodes.length : Int) - s'.sendBuffer.size - share.uncounted =
      s.sendBuffer.nodes.length - s.sendBuffer.size - (shares party).uncounted)
    (own : party = .sender -> share.assured ≤ s'.sendBuffer.size)
    (others : party ≠ .sender -> s.sendBuffer.size ≤ s'.sendBuffer.size) :
    QueueBalanced s' (Function.update shares party share) where
  pool := by
    have change := tally_update Counted.allocated shares party share
    have before := balanced.pool
    omega
  links := by
    have change := tally_update Counted.uncounted shares party share
    have before := balanced.links
    omega
  assured := by
    by_cases same : party = .sender
    · subst same
      rw [Function.update_self]
      exact own rfl
    · rw [Function.update_of_ne (Ne.symm same)]
      exact Int.le_trans balanced.assured (others same)

/-- Operations of the pushers. -/
def pushes : Op -> Prop
  | .session _ .decrementSize => False
  | .session _ .loadSize => False
  | _ => True

def allowedTo (party : Party pushers) (op : Op) : Prop := party ≠ .sender -> pushes op

theorem queueJobs_allowed (party : Party pushers) (job : QueueJob) (program : NetProgram Unit)
    (chosen : queueProgram fuel slot party job = some program) : program.Uses (allowedTo party) := by
  cases party with
  | sender => exact Program.uses_of_forall program fun op impossible => absurd rfl impossible
  | pusher index =>
      cases job with
      | push packet =>
          cases chosen
          refine ⟨fun _ => trivial, fun ok => ?_⟩
          rcases ok with - | -
          · trivial
          · exact ⟨fun _ => trivial, fun _ => ⟨fun _ => trivial, fun _ => trivial⟩⟩
      | pop => cases chosen
      | send => cases chosen

theorem pusher_pushes {rule : (sendQueue pushers fuel slot).Rule}
    {c : (sendQueue pushers fuel slot).Config} (reach : (sendQueue pushers fuel slot).Reach rule c)
    {party : Party pushers} (other : party ≠ .sender) : (c.running party).Uses pushes :=
  (reach.running_uses queueJobs_allowed party).mono fun _ allowed => allowed other

theorem queueBalanced_preserved {rule : (sendQueue pushers fuel slot).Rule} :
    counting.Preserved (sendQueue pushers fuel slot) rule fun s shares _ => QueueBalanced s shares where
  initial := ⟨by simp [sendQueue, Session.fresh, tally, counting], by simp [sendQueue, Session.fresh, tally, counting],
    Int.le_refl 0⟩
  takeUp := by
    intro s shares history party balanced finished
    refine balanced.update s party counting.start ?_ ?_ ?_ ?_
    · rw [finished.1]
      rfl
    · rw [finished.2.1]
      rfl
    · rintro rfl
      exact Int.le_trans finished.2.2 balanced.assured
    · exact fun _ => Int.le_refl _
  surround := fun _ _ _ change => change.elim
  act := by
    intro c party op next choice answer s reach turn balanced permitted performed lawful
    change performQueue choice c.state op = some (answer, s) at performed
    have links := balanced.links
    have sender := balanced.assured
    have own : party = .sender -> (counting.ghosts c party).assured ≤ c.state.sendBuffer.size := by
      rintro rfl
      exact balanced.assured
    have shared := le_tally Counted.uncounted (counting.ghosts c) party
    change Counted.permits (counting.ghosts c party) op at permitted
    change Counted.expects (counting.ghosts c party) ⟨op, answer⟩ ∧ QueueBalanced s
      (Function.update (counting.ghosts c) party ((counting.ghosts c party).track ⟨op, answer⟩))
    have update := balanced.update s party ((counting.ghosts c party).track ⟨op, answer⟩)
    generalize counting.ghosts c party = share at *
    cases op with
    | session target op =>
        cases op with
        | allocNode =>
            dsimp only [performQueue, performSession] at performed
            split at performed <;> cases performed
            · exact ⟨trivial, update rfl rfl own fun _ => Int.le_refl _⟩
            · refine ⟨trivial, update ?_ rfl own fun _ => Int.le_refl _⟩
              simp only [Counted.track, if_true]
              omega
        | linkNode packet =>
            cases performed
            have taken : 0 < share.allocated := permitted
            refine ⟨trivial, update ?_ ?_ own fun _ => Int.le_refl _⟩
            · simp only [Counted.track, List.length_append, List.length_singleton]
              omega
            · simp only [Counted.track, List.length_append, List.length_singleton]
              omega
        | unlinkNode =>
            rcases Option.map_eq_some_iff.mp performed with ⟨⟨packet, queue⟩, unlinked, same⟩
            cases same
            have counted : 0 < share.uncounted := permitted.1
            unfold LockFreeQueue.unlink at unlinked
            split at unlinked
            next => cases unlinked
            next nodes remaining =>
              cases unlinked
              rw [remaining, List.length_cons] at update
              refine ⟨trivial, update ?_ ?_ own fun _ => Int.le_refl _⟩
              · simp only [Counted.track]
                omega
              · simp only [Counted.track]
                omega
        | incrementSize =>
            cases performed
            have counted : 0 < share.uncounted := permitted
            refine ⟨trivial, update rfl ?_ ?_ ?_⟩
            · simp only [Counted.track]
              omega
            · intro same
              have before := own same
              simp only [Counted.track]
              omega
            · intro _
              dsimp only
              omega
        | decrementSize =>
            have alone : party = .sender := by
              by_contra other
              have uses := pusher_pushes reach other
              rw [turn] at uses
              exact uses.1
            have before := own alone
            cases performed
            refine ⟨?_, update rfl ?_ ?_ ?_⟩
            · change 0 < share.assured -> 0 ≤ c.state.sendBuffer.size - 1
              omega
            · simp only [Counted.track]
              omega
            · intro _
              simp only [Counted.track]
              split <;> omega
            · exact fun other => absurd alone other
        | loadSize =>
            have alone : party = .sender := by
              by_contra other
              have uses := pusher_pushes reach other
              rw [turn] at uses
              exact uses.1
            have before := own alone
            have positive : 0 ≤ share.assured := permitted
            cases performed
            exact ⟨Int.le_trans positive before, update rfl rfl (fun _ => Int.le_refl _) fun _ => Int.le_refl _⟩
        | pushSended packet =>
            cases performed
            exact ⟨rfl, update rfl rfl own fun _ => Int.le_refl _⟩
        | _ => exact absurd permitted id
    | _ => cases performed

/-! ## One round -/

/-- The thread is done, or its next operation can happen. -/
def Able (c : (sendQueue pushers fuel slot).Config) (party : Party pushers) : Prop :=
  match c.running party with
  | .done _ => True
  | .step op _ => Exists fun choice => (performQueue choice c.state op).isSome = true

/-- The sender reads the size. -/
def readSize (c : (sendQueue pushers fuel slot).Config) : (sendQueue pushers fuel slot).Config :=
  c.record .sender ⟨.session slot .loadSize, c.state.sendBuffer.size⟩ c.state
    (do let _ ← gather slot (Serializer.sizeT c.state.sendBuffer.size) fuel []; return)

def readsSize : Op -> Bool
  | .session _ .loadSize => true
  | _ => false

theorem Counted.track_read (share : Counted) {event : Event interface} (other : readsSize event.op = false) :
    (share.track event).read = share.read := by
  rcases event with ⟨op, answer⟩
  cases op with
  | session target op =>
      cases op with
      | loadSize => cases other
      | _ => rfl
  | _ => rfl

/-- Until the sender reads the size again. -/
def sameRound : (sendQueue pushers fuel slot).Rule := fun _ party event =>
  party = .sender -> readsSize event.op = false

/-- From here to the next round, whatever the other threads push, the sender never comes to a
halt: it writes inside its array, and ends the loop before the rounds it is given are used up.
-/
def RoundSafe (c : (sendQueue pushers fuel slot).Config) : Prop :=
  forall c', Machine.Run sameRound (readSize c) c' -> Able c' .sender

/-- What the sender is permitted can happen, but for a halt. -/
theorem able_of_permits {s : Session} {shares : Party pushers -> Counted} (balanced : QueueBalanced s shares)
    {op : Op} (permitted : (shares .sender).permits op) (going : op ≠ .halt) :
    (performQueue usual s op).isSome = true := by
  cases op with
  | session target op =>
      cases op with
      | allocNode =>
          dsimp only [performQueue, performSession]
          split <;> rfl
      | unlinkNode =>
          have links := balanced.links
          have assured := balanced.assured
          have own := le_tally Counted.uncounted shares .sender
          have counted : 0 < (shares .sender).uncounted ∧ 0 ≤ (shares .sender).assured := permitted
          rcases remaining : s.sendBuffer.nodes with - | ⟨packet, nodes⟩
          · rw [remaining, List.length_nil] at links
            omega
          · simp [performQueue, performSession, LockFreeQueue.unlink, remaining]
      | linkNode packet => rfl
      | incrementSize => rfl
      | decrementSize => rfl
      | loadSize => rfl
      | pushSended packet => rfl
      | _ => exact absurd permitted id
  | halt => exact absurd rfl going
  | _ => exact absurd permitted id

/-- Within a round the size read stays known. -/
theorem read_of_run {c c' : (sendQueue pushers fuel slot).Config} (run : Machine.Run sameRound c c')
    (reach : (sendQueue pushers fuel slot).Reach (Machine.anyEvent _) c)
    (small : (counting.ghosts c .sender).read ≤ 100) :
    (sendQueue pushers fuel slot).Reach (Machine.anyEvent _) c' ∧
      (counting.ghosts c' .sender).read ≤ 100 := by
  induction run with
  | refl => exact ⟨reach, small⟩
  | @tail middle c' before step inductionHypothesis =>
      rcases inductionHypothesis with ⟨reach, small⟩
      cases step with
      | takeUp party job program idle chosen =>
          refine ⟨reach.step (.takeUp party job program idle chosen), ?_⟩
          rw [Discipline.ghosts_takeUp]
          by_cases same : party = .sender
          · subst same
            rw [Function.update_self]
            decide
          · rwa [Function.update_of_ne (Ne.symm same)]
      | act party choice op next answer s turn performed lawful =>
          refine ⟨reach.step (.act party choice op next answer s turn performed trivial), ?_⟩
          rw [Discipline.ghosts_record]
          by_cases same : party = .sender
          · subst same
            rw [Function.update_self]
            exact (Counted.track_read _ (lawful rfl)).trans_le small
          · rwa [Function.update_of_ne (Ne.symm same)]
      | surround change => exact change.elim

theorem sender_step {c : (sendQueue pushers fuel slot).Config} (op : Op)
    (next : op.Answer -> NetProgram Unit) (answer : op.Answer) (s : Session)
    (turn : c.running Party.sender = Program.step (I := interface) op next)
    (performed : performQueue usual c.state op = some (answer, s)) (other : readsSize op = false) :
    Machine.Run sameRound c (c.record Party.sender ⟨op, answer⟩ s (next answer)) := by
  have step : Machine.Step sameRound c (c.record Party.sender ⟨op, answer⟩ s (next answer)) :=
    Machine.Step.act (M := sendQueue pushers fuel slot) Party.sender usual op next answer s turn performed
      fun _ => other
  exact .single step

/-- A pop with something to count on. -/
theorem sender_pops {c : (sendQueue pushers fuel slot).Config} {next : Option Packet -> NetProgram Unit}
    (turn : c.running Party.sender = pop slot >>= next) (counted : 0 < c.state.sendBuffer.size)
    (linked : c.state.sendBuffer.size ≤ c.state.sendBuffer.nodes.length) :
    Exists fun c' => Exists fun packet => Machine.Run sameRound c c' ∧
      c'.running Party.sender = next (some packet) ∧
      c'.state.sendBuffer.size = c.state.sendBuffer.size - 1 ∧
      c'.state.sendBuffer.nodes.length + 1 = c.state.sendBuffer.nodes.length := by
  rcases queue : c.state.sendBuffer.nodes with - | ⟨packet, nodes⟩
  · rw [queue, List.length_nil] at linked
    omega
  let lowered : Session := { c.state with sendBuffer := { c.state.sendBuffer with
    size := c.state.sendBuffer.size - 1 } }
  let taken : Session := { lowered with sendBuffer := { lowered.sendBuffer with
    nodes := nodes, freeNodes := lowered.sendBuffer.freeNodes + 1 } }
  let unlinking : NetProgram Unit := Program.step (I := interface) (.session slot .unlinkNode) fun packet =>
    next (some packet)
  have first := sender_step (.session slot .decrementSize) _ (c.state.sendBuffer.size - 1) lowered turn rfl rfl
  have going : (if c.state.sendBuffer.size - 1 < 0 then (do let _ ← sessionOp slot .incrementSize; return none)
      else do let packet ← sessionOp slot .unlinkNode; return some packet : NetProgram (Option Packet)) >>=
        next = unlinking := by
    rw [if_neg (by omega)]
    rfl
  let middle := c.record Party.sender ⟨.session slot .decrementSize, c.state.sendBuffer.size - 1⟩ lowered unlinking
  have firstRun : Machine.Run sameRound c middle := by
    change Machine.Run sameRound c (c.record Party.sender _ lowered unlinking)
    rw [← going]
    exact first
  have second : Machine.Run sameRound middle
      (middle.record Party.sender ⟨.session slot .unlinkNode, packet⟩ taken (next (some packet))) := by
    apply sender_step (.session slot .unlinkNode) fun packet => next (some packet)
    · simp [middle, Machine.Config.record, unlinking]
    · simp [performQueue, performSession, middle, Machine.Config.record, LockFreeQueue.unlink, lowered, taken, queue]
    · rfl
  exact ⟨_, packet, firstRun.trans second, by simp [Machine.Config.record], rfl, rfl⟩

/-- With more than 100 packets to gather the sender comes to a halt. -/
theorem gather_overruns {packetCount : Nat} (many : 100 < packetCount) (rounds : Nat) (batch : List Packet)
    (c : (sendQueue pushers fuel slot).Config)
    (turn : c.running Party.sender = (do let _ ← gather slot packetCount rounds batch; return))
    (short : batch.length ≤ 100) (counted : (packetCount : Int) ≤ c.state.sendBuffer.size + batch.length)
    (linked : c.state.sendBuffer.size ≤ c.state.sendBuffer.nodes.length) :
    Exists fun c' => Machine.Run sameRound c c' ∧ ¬ Able c' .sender := by
  induction rounds generalizing batch c with
  | zero =>
      refine ⟨c, .refl, ?_⟩
      unfold Able
      rw [turn]
      rintro ⟨choice, impossible⟩
      cases impossible
  | succ rounds inductionHypothesis =>
      have more : batch.length < packetCount := by omega
      have looping : Exists fun next : Option Packet -> NetProgram Unit =>
          c.running Party.sender = pop slot >>= next ∧ forall packet, next (some packet) =
            ((if batch.length < 100 then do
                if ← sessionOp slot (.pushSended packet) then
                  gather slot packetCount rounds (batch ++ [packet])
                else halt
              else halt) >>= fun _ => return) := by
        rw [turn, gather, if_pos more, Program.bind_assoc]
        exact ⟨_, rfl, fun _ => rfl⟩
      rcases looping with ⟨next, popping, found⟩
      rcases sender_pops popping (by omega) linked with ⟨c', packet, run, turn', size, length⟩
      rw [found] at turn'
      by_cases inside : batch.length < 100
      · rw [if_pos inside] at turn'
        have length' : (batch ++ [packet]).length = batch.length + 1 := List.length_append
        let next' : NetProgram Unit := do let _ ← gather slot packetCount rounds (batch ++ [packet]); return
        have pushing : Exists fun pushed => Machine.Run sameRound c' pushed ∧
            pushed.running Party.sender = next' ∧ pushed.state.sendBuffer = c'.state.sendBuffer :=
          ⟨_, sender_step (.session slot (.pushSended packet)) _ _ _ turn' rfl rfl,
            by simp only [Machine.Config.record, Function.update_self]; rfl, rfl⟩
        rcases pushing with ⟨pushed, pushing, turn'', state⟩
        rw [← state] at size length
        rcases inductionHypothesis (batch ++ [packet]) pushed turn'' (by omega) (by omega) (by omega) with
          ⟨c'', later, stuck⟩
        exact ⟨c'', run.trans (pushing.trans later), stuck⟩
      · rw [if_neg inside] at turn'
        refine ⟨c', run, ?_⟩
        unfold Able
        rw [turn']
        rintro ⟨choice, impossible⟩
        cases impossible

section Round

variable {c : (sendQueue pushers fuel slot).Config}
  (reach : (sendQueue pushers fuel slot).Reach (Machine.anyEvent _) c) (enough : 101 ≤ fuel)
include reach enough

theorem roundSafe_of_few (turn : c.running .sender = collect fuel slot)
    (few : c.state.sendBuffer.size ≤ 100) : RoundSafe c := by
  have begins : (sendQueue pushers fuel slot).Reach (Machine.anyEvent _) (readSize c) :=
    reach.step (.act (I := interface) Party.sender usual (.session slot .loadSize) _ c.state.sendBuffer.size
      c.state turn rfl trivial)
  have read : (counting.ghosts (readSize c) .sender).read ≤ 100 := by
    rw [readSize, Discipline.ghosts_record, Function.update_self]
    exact few
  intro c' run
  rcases read_of_run run begins read with ⟨reach', read'⟩
  rcases Discipline.sound queueBalanced_preserved (queueJobs_obey enough) reach' with ⟨balanced, obedient⟩
  have obeys := obedient .sender
  unfold Able
  cases running : c'.running .sender with
  | done value => trivial
  | step op next =>
      rw [running] at obeys
      have going : op ≠ .halt := by
        rintro rfl
        have many : 100 < (counting.ghosts c' .sender).read := obeys.1
        omega
      exact ⟨usual, able_of_permits balanced obeys.1 going⟩

theorem few_of_roundSafe (safe : RoundSafe c) : c.state.sendBuffer.size ≤ 100 := by
  have balanced := (Discipline.sound queueBalanced_preserved (queueJobs_obey enough) reach).1
  by_contra many
  have links := balanced.links
  have pool := balanced.pool
  -- The pool keeps the size far below the range of `size_t`.
  have exactly : (Serializer.sizeT c.state.sendBuffer.size : Int) = c.state.sendBuffer.size := by
    unfold Serializer.sizeT
    omega
  have state : (readSize c).state.sendBuffer = c.state.sendBuffer := rfl
  have turn' : (readSize c).running Party.sender =
      (do let _ ← gather slot (Serializer.sizeT c.state.sendBuffer.size) fuel []; return) := by
    simp [readSize, Machine.Config.record]
  rcases gather_overruns (by omega) fuel [] (readSize c) turn' (Nat.zero_le _)
      (by rw [state, List.length_nil]; omega) (by rw [state]; omega) with ⟨c', run, stuck⟩
  exact stuck (safe c' run)

end Round

/-- In every run of pushes and pops, by any number of threads and with no rule on their order:
`sendIO` gathers inside its array and comes to the end of its loop, whatever is pushed
meanwhile, just when the size it reads is at most 100. The array has that many places, while the
node pool lets 255 packets be queued. -/
theorem collect_safe_iff {c : (sendQueue pushers fuel slot).Config}
    (reach : (sendQueue pushers fuel slot).Reach (Machine.anyEvent _) c)
    (turn : c.running .sender = collect fuel slot) (enough : 101 ≤ fuel) :
    RoundSafe c ↔ c.state.sendBuffer.size ≤ 100 :=
  ⟨few_of_roundSafe reach enough, roundSafe_of_few reach enough turn⟩

/-- Take up a round. -/
theorem reach_collect {c : (sendQueue pushers fuel slot).Config}
    (reach : (sendQueue pushers fuel slot).Reach (Machine.anyEvent _) c)
    (idle : c.running .sender = .done ()) :
    (sendQueue pushers fuel slot).Reach (Machine.anyEvent _) (c.takeUp Party.sender (collect fuel slot)) ∧
      (c.takeUp Party.sender (collect fuel slot)).running .sender = collect fuel slot :=
  ⟨reach.step (.takeUp Party.sender QueueJob.send _ idle rfl), by simp [Machine.Config.takeUp]⟩

/-- One push after another. -/
def manyPushes (count : Nat) : List (Machine.Move (sendQueue 1 101 0)) :=
  (List.replicate count
    [.takeUp (.pusher ⟨0, Nat.one_pos⟩) (QueueJob.push ⟨1, [7]⟩), .act (.pusher ⟨0, Nat.one_pos⟩) usual,
      .act (.pusher ⟨0, Nat.one_pos⟩) usual, .act (.pusher ⟨0, Nat.one_pos⟩) usual]).flatten

theorem reach_manyPushes {count : Nat} (counted : ((Machine.runSchedule (Machine.anyEvent _) (manyPushes count)
    (sendQueue 1 101 0).start).any fun c =>
      (c.running Party.sender).isDone && c.state.sendBuffer.size == (count : Int)) = true) :
    Exists fun c : (sendQueue 1 101 0).Config => (sendQueue 1 101 0).Reach (Machine.anyEvent _) c ∧
      c.running .sender = collect 101 0 ∧ c.state.sendBuffer.size = count := by
  rcases Machine.exists_of_runSchedule (manyPushes count) _ counted with ⟨c, reach, checked⟩
  simp only [Bool.and_eq_true, beq_iff_eq, Program.isDone_iff] at checked
  rcases reach_collect reach checked.1 with ⟨reach', turn⟩
  exact ⟨_, reach', turn, checked.2⟩

/-- A round with three packets in the queue. -/
theorem collect_safe_threeQueued : Exists fun c : (sendQueue 1 101 0).Config =>
    c.running .sender = collect 101 0 ∧ c.state.sendBuffer.size = 3 ∧ RoundSafe c := by
  have pushed : Exists fun c : (sendQueue 1 101 0).Config => (sendQueue 1 101 0).Reach (Machine.anyEvent _) c ∧
      c.running .sender = collect 101 0 ∧ c.state.sendBuffer.size = (3 : Nat) :=
    reach_manyPushes (by decide +kernel)
  rcases pushed with ⟨c, reach, turn, size⟩
  refine ⟨c, turn, size, (collect_safe_iff reach turn (Nat.le_refl _)).mpr ?_⟩
  rw [size]
  decide

/-- After 101 pushes, a round of `sendIO` writes behind its array. -/
theorem manyPushes_overrun : Exists fun c : (sendQueue 1 101 0).Config =>
    (sendQueue 1 101 0).Reach (Machine.anyEvent _) c ∧ c.running .sender = collect 101 0 ∧
      c.state.sendBuffer.size = 101 ∧ ¬ RoundSafe c := by
  have pushed : Exists fun c : (sendQueue 1 101 0).Config => (sendQueue 1 101 0).Reach (Machine.anyEvent _) c ∧
      c.running .sender = collect 101 0 ∧ c.state.sendBuffer.size = (101 : Nat) :=
    reach_manyPushes (by decide +kernel)
  rcases pushed with ⟨c, reach, turn, size⟩
  refine ⟨c, reach, turn, size, fun safe => ?_⟩
  have few := few_of_roundSafe reach (Nat.le_refl _) safe
  omega

end Network
end LoginServer
