import Mathlib.Data.BitVec
import LoginServer.Concurrency.Ownership
import LoginServer.Network.Matching
import LoginServer.Network.Owning

namespace LoginServer
namespace Network

open Memory Buffers Receiving Login Concurrency

/-!
# The life of a serializer

`referenceCounter` says how many owners a serializer has: nodes of the queues,
entries of `sendedBuffer`, messages on the port, and references that threads
have in hand.  The same serializer may be in several sessions at once.  Nothing
but the programs' discipline keeps the counter and the owners together, since
most owners come and go without touching it.

The conditions are those under which `sendedBuffer` matches what is sent, for
all sessions: no empty packets, completions of whole batches, and no `WSASend`
that fails in such a way that its batch is left behind.
-/

/-! ## Conditions -/

/-- The event leads away from the conditions. -/
def breaksOff : Event interface -> Bool
  | ⟨.getQueuedCompletionStatus, completion⟩ => Completion.partial_ completion completion.slot
  | ⟨.session _ (.linkNode packet), _⟩ => packet.size == 0
  | ⟨.session _ (.wsaSend _), result⟩ => IoResult.givesBack result
  | _ => false

theorem breaksUp_of_breaksOff {event : Event interface} (kept : breaksOff event = false) (slot : Slot) :
    breaksUp slot event = false := by
  rcases event with ⟨op, answer⟩
  cases op with
  | getQueuedCompletionStatus =>
      by_cases same : answer.slot = slot
      · rw [← same]
        exact kept
      · simp [breaksUp, Completion.partial_, Completion.sent, same]
  | session target op =>
      cases op with
      | linkNode packet =>
          have something : (packet.size == 0) = false := kept
          simp [breaksUp, something]
      | _ => rfl
  | _ => rfl

section Rules

variable {workers contents : Nat} {settings : Settings}

/-- Content code copies and sends only packets that somebody owns when they are counted, and
constructs its own ones. -/
def lent (c : (server settings workers contents).Config) (thread : Thread workers contents) (event : Event interface) :
    Prop :=
  match event.op with
  | .incReferenceCounter pointer => thread.isContent = true ->
      (Owning.hands (owning.ghosts c thread)).loose = some (.fresh pointer) ∨ 0 < State.referenceCounter c.state pointer
  | _ => True

/-- The conditions under which ownership of serializers is followed: the runs are `wholly` for
every session, no send fails in a way after which `sendIO` gives the flag back while its batch
stays in `sendedBuffer`, and content code copies and sends only serializers that somebody owns. -/
def orderly : (server settings workers contents).Rule := fun c thread event =>
  handedOut c thread event ∧ breaksOff event = false ∧ lent c thread event

instance (c : (server settings workers contents).Config) (thread : Thread workers contents)
    (event : Event interface) : Decidable (lent c thread event) := by
  rcases event with ⟨op, answer⟩
  cases op with
  | incReferenceCounter pointer =>
      exact inferInstanceAs (Decidable (thread.isContent = true -> _ = some (Loose.fresh pointer) ∨
        0 < State.referenceCounter c.state pointer))
  | _ => exact inferInstanceAs (Decidable True)

instance (c : (server settings workers contents).Config) (thread : Thread workers contents)
    (event : Event interface) : Decidable (orderly c thread event) :=
  inferInstanceAs (Decidable (_ ∧ _ = false ∧ lent c thread event))

theorem wholly_of_orderly {c : (server settings workers contents).Config}
    (reach : (server settings workers contents).Reach orderly c) (slot : Slot) :
    (server settings workers contents).Reach (wholly slot) c :=
  reach.mono fun _ _ _ kept => ⟨kept.1, breaksUp_of_breaksOff kept.2.1 slot⟩

theorem handedOut_of_orderly {c : (server settings workers contents).Config}
    (reach : (server settings workers contents).Reach orderly c) :
    (server settings workers contents).Reach handedOut c := reach.mono fun _ _ _ kept => kept.1

theorem nothing_lingers {c : (server settings workers contents).Config}
    (reach : (server settings workers contents).Reach orderly c) (slot : Slot) :
    batchLingers slot c.history = false := by
  induction reach with
  | start => rfl
  | @step c c' _ step inductionHypothesis =>
      cases step with
      | takeUp thread job program idle chosen => exact inductionHypothesis
      | act thread choice op next answer state turn performed lawful =>
          change lingersNext slot (batchLingers slot c.history) ⟨op, answer⟩ = false
          rw [inductionHypothesis]
          cases op with
          | session target op =>
              cases op with
              | wsaSend batch =>
                  have held : IoResult.givesBack answer = false := lawful.2.1
                  simp [lingersNext, held]
              | storeId id => exact ite_self _
              | _ => rfl
          | _ => rfl
      | surround change state changed => exact inductionHypothesis

end Rules

/-! ## Owners -/

instance : Fintype Slot := Fintype.ofEquiv (Fin (2 ^ 16)) BitVec.equivFin.symm.toEquiv

/-- How often the pointer is among the packets. -/
def occurrences (pointer : Pointer) (packets : List Packet) : Nat := (packets.map Packet.pointer).count pointer

def Session.owns (pointer : Pointer) (s : Session) : Nat :=
  occurrences pointer s.sendBuffer.nodes + occurrences pointer s.sendedBuffer

/-- The packets of the messages on the port. -/
def requestedPackets (port : List Completion) : List Packet :=
  port.filterMap fun completion => requestCheck completion.overlapped

def Hands.owns (hands : Hands) (pointer : Pointer) : Nat := hands.held.count pointer

/-- Whether the thread has the serializer loose in hand. -/
def Hands.frees (hands : Hands) (pointer : Pointer) : Nat := if hands.loose.map Loose.pointer = some pointer then 1 else 0

section Counting

variable {Thread : Type} [Fintype Thread]

def owners (state : State) (ghosts : Thread -> Owning) (pointer : Pointer) : Nat :=
  tally (Session.owns pointer) state.sessionArray + occurrences pointer (requestedPackets state.port) +
    tally (fun ghost => (Owning.hands ghost).owns pointer) ghosts

/-- How many threads have the serializer loose in hand. -/
def looseIn (ghosts : Thread -> Owning) (pointer : Pointer) : Nat :=
  tally (fun ghost => (Owning.hands ghost).frees pointer) ghosts

/-- The counters are right, and a request comes off the port as `PostQueuedCompletionStatus` put
it there. -/
structure Owned (state : State) (ghosts : Thread -> Owning) : Prop where
  counted : RefCounted state.referenceCounter state.allocated (owners state ghosts) (looseIn ghosts)
  posts : forall completion, completion ∈ state.port -> forall packet, completion.overlapped = .request packet ->
    completion.success = true ∧ completion.transfer = 0

end Counting

@[simp] theorem occurrences_nil (pointer : Pointer) : occurrences pointer [] = 0 := rfl

@[simp] theorem occurrences_cons (pointer : Pointer) (packet : Packet) (packets : List Packet) :
    occurrences pointer (packet :: packets) =
      occurrences pointer packets + if packet.pointer = pointer then 1 else 0 := by
  simp [occurrences, List.count_cons]

@[simp] theorem occurrences_append (pointer : Pointer) (first second : List Packet) :
    occurrences pointer (first ++ second) = occurrences pointer first + occurrences pointer second := by
  simp [occurrences]

theorem Hands.owns_take (hands : Hands) (pointer taken : Pointer) :
    (hands.take taken).owns pointer = hands.owns pointer + if taken = pointer then 1 else 0 := by
  simp [Hands.owns, Hands.take, List.count_cons]

theorem Hands.owns_give (hands : Hands) (pointer given : Pointer) (held : given ∈ hands.held) :
    hands.owns pointer = (hands.give given).owns pointer + if given = pointer then 1 else 0 := by
  have parts := (List.perm_cons_erase held).count_eq pointer
  simpa [Hands.owns, Hands.give, List.count_cons] using parts

/-! ## What operations do to the owners -/

/-- Operations on a session pass references on, and neither make nor lose any. -/
theorem performSession_owns {choice : Choice} {s s' : Session} {slot : Slot} {op : SessionOp} {answer : op.Answer}
    {hands : Hands} (permitted : hands.permits (.session slot op))
    (performed : performSession choice s op = some (answer, s')) (pointer : Pointer) :
    s'.owns pointer + (hands.track ⟨.session slot op, answer⟩).owns pointer = s.owns pointer + hands.owns pointer := by
  cases op with
  | linkNode packet =>
      cases performed
      have given := hands.owns_give pointer packet.pointer permitted.2
      change _ + (hands.give packet.pointer).owns pointer = _
      rw [given]
      simp only [Session.owns, occurrences_append, occurrences_cons, occurrences_nil]
      omega
  | unlinkNode =>
      rcases Option.map_eq_some_iff.mp performed with ⟨⟨packet, queue⟩, unlinked, same⟩
      cases same
      unfold LockFreeQueue.unlink at unlinked
      split at unlinked
      next => cases unlinked
      next packet' nodes queued =>
        cases unlinked
        change _ + (hands.take packet.pointer).owns pointer = _
        rw [hands.owns_take pointer]
        simp only [Session.owns, queued, occurrences_cons]
        omega
  | pushSended packet =>
      simp only [performSession] at performed
      split at performed <;> cases performed
      next room =>
        have given := hands.owns_give pointer packet.pointer permitted.2
        change _ + (hands.give packet.pointer).owns pointer = _
        rw [given]
        simp only [Session.owns, occurrences_append, occurrences_cons, occurrences_nil]
        omega
      next full => rfl
  | popSended =>
      cases performed
      cases sended : s.sendedBuffer with
      | nil =>
          change _ + hands.owns pointer = _
          simp [Session.owns, sended]
      | cons packet rest =>
          change _ + (hands.take packet.pointer).owns pointer = _
          rw [hands.owns_take pointer]
          simp only [Session.owns, sended, List.tail_cons, occurrences_cons]
          omega
  | _ =>
      have same := performSession_buffers (by rfl) performed
      change _ + hands.owns pointer = _
      rw [Session.owns, Session.owns, same.1, same.2]

section Steps

variable {Thread : Type} [Fintype Thread] [DecidableEq Thread]

/-- The owners before and after a step, as far as the step concerns them. -/
theorem owners_update (state state' : State) (ghosts : Thread -> Owning) (thread : Thread) (ghost : Owning)
    (pointer : Pointer) :
    owners state' (Function.update ghosts thread ghost) pointer + (tally (Session.owns pointer) state.sessionArray +
        occurrences pointer (requestedPackets state.port) + (ghosts thread).hands.owns pointer) =
      owners state ghosts pointer + (tally (Session.owns pointer) state'.sessionArray +
        occurrences pointer (requestedPackets state'.port) + ghost.hands.owns pointer) := by
  have hands := tally_update (fun ghost => (Owning.hands ghost).owns pointer) ghosts thread ghost
  unfold owners
  omega

theorem looseIn_update (ghosts : Thread -> Owning) (thread : Thread) (ghost : Owning) (pointer : Pointer) :
    looseIn (Function.update ghosts thread ghost) pointer + (ghosts thread).hands.frees pointer =
      looseIn ghosts pointer + ghost.hands.frees pointer :=
  tally_update (fun ghost => (Owning.hands ghost).frees pointer) ghosts thread ghost

theorem looseIn_same (ghosts : Thread -> Owning) (thread : Thread) (ghost : Owning)
    (loose : ghost.hands.loose = (ghosts thread).hands.loose) (pointer : Pointer) :
    looseIn (Function.update ghosts thread ghost) pointer = looseIn ghosts pointer := by
  have change := looseIn_update ghosts thread ghost pointer
  rw [Hands.frees, Hands.frees, loose] at change
  omega

omit [DecidableEq Thread] in
/-- A reference in hand is an owner. -/
theorem owned_of_held {state : State} {ghosts : Thread -> Owning} {thread : Thread} {pointer : Pointer}
    (held : pointer ∈ (ghosts thread).hands.held) : 1 ≤ owners state ghosts pointer := by
  have own := le_tally (fun ghost => (Owning.hands ghost).owns pointer) ghosts thread
  have some_ : 0 < (ghosts thread).hands.owns pointer := List.count_pos_iff.mpr held
  unfold owners
  omega

omit [Fintype Thread] [DecidableEq Thread] in
theorem Hands.frees_loose {hands : Hands} {loose : Loose} (same : hands.loose = some loose) :
    hands.frees loose.pointer = 1 := by
  unfold Hands.frees
  rw [same]
  exact if_pos rfl

omit [DecidableEq Thread] in
theorem loose_of_hand {ghosts : Thread -> Owning} {thread : Thread} (loose : Loose)
    (same : (ghosts thread).hands.loose = some loose) : 1 ≤ looseIn ghosts loose.pointer := by
  have own := le_tally (fun ghost => (Owning.hands ghost).frees loose.pointer) ghosts thread
  have one := Hands.frees_loose same
  unfold looseIn
  omega

variable {state state' : State} {ghosts : Thread -> Owning} {thread : Thread} {ghost : Owning}

/-- References passed on leave the counters right. -/
theorem Owned.pass (owned : Owned state ghosts) (counters : state'.referenceCounter = state.referenceCounter)
    (allocated : state'.allocated = state.allocated)
    (passed : forall pointer, tally (Session.owns pointer) state'.sessionArray +
        occurrences pointer (requestedPackets state'.port) + ghost.hands.owns pointer =
      tally (Session.owns pointer) state.sessionArray + occurrences pointer (requestedPackets state.port) +
        (ghosts thread).hands.owns pointer)
    (loose : ghost.hands.loose = (ghosts thread).hands.loose)
    (posts : forall completion, completion ∈ state'.port -> forall packet, completion.overlapped = .request packet ->
      completion.success = true ∧ completion.transfer = 0) :
    Owned state' (Function.update ghosts thread ghost) where
  counted := by
    rw [counters, allocated]
    refine owned.counted.congr (fun pointer => ?_) (looseIn_same ghosts thread ghost loose)
    have change := owners_update state state' ghosts thread ghost pointer
    have same := passed pointer
    omega
  posts := posts

theorem Owned.session {choice : Choice} {slot : Slot} {op : SessionOp} {answer : op.Answer}
    (owned : Owned state ghosts) (permitted : (ghosts thread).hands.permits (.session slot op))
    (performed : perform choice state (.session slot op) = some (answer, state'))
    (hands : ghost.hands = (ghosts thread).hands.track ⟨.session slot op, answer⟩) :
    Owned state' (Function.update ghosts thread ghost) := by
  rcases perform_session performed with ⟨s', inner, rfl⟩
  refine owned.pass rfl rfl (fun pointer => ?_) ?_ owned.posts
  · have moved := performSession_owns permitted inner pointer
    have sum := tally_update (Session.owns pointer) state.sessionArray slot s'
    rw [hands]
    change tally (Session.owns pointer) (Function.update state.sessionArray slot s') +
      occurrences pointer (requestedPackets state.port) + _ = _
    omega
  · rw [hands]
    cases op with
    | popSended => cases answer <;> rfl
    | pushSended packet => cases answer <;> rfl
    | _ => rfl

theorem requests_append (port : List Completion) (completion : Completion) :
    requestedPackets (port ++ [completion]) =
      requestedPackets port ++ (requestCheck completion.overlapped).toList := by
  unfold requestedPackets
  rw [List.filterMap_append]
  cases asked : requestCheck completion.overlapped with
  | none => simp [asked]
  | some packet => simp [asked]

theorem Owned.post {slot : Slot} {packet : Packet} (owned : Owned state ghosts)
    (held : packet.pointer ∈ (ghosts thread).hands.held)
    (hands : ghost.hands = (ghosts thread).hands.give packet.pointer) :
    Owned { state with port := state.port ++ [⟨slot, true, 0, .request packet⟩] }
      (Function.update ghosts thread ghost) := by
  refine owned.pass rfl rfl (fun pointer => ?_) ?_ ?_
  · have given := (ghosts thread).hands.owns_give pointer packet.pointer held
    simp only [hands, requests_append, occurrences_append, requestCheck, Option.toList, occurrences_cons,
      occurrences_nil]
    omega
  · rw [hands]
    rfl
  · intro completion member packet' asks
    rcases List.mem_append.mp member with queued | new
    · exact owned.posts completion queued packet' asks
    · cases List.mem_singleton.mp new
      exact ⟨rfl, rfl⟩

theorem Owned.dequeue {completion : Completion} {rest : List Completion} (owned : Owned state ghosts)
    (queued : state.port = completion :: rest)
    (hands : ghost.hands = (ghosts thread).hands.track ⟨.getQueuedCompletionStatus, completion⟩) :
    Owned { state with port := rest } (Function.update ghosts thread ghost) := by
  have before : requestedPackets state.port =
      (requestCheck completion.overlapped).toList ++ requestedPackets rest := by
    unfold requestedPackets
    rw [queued]
    cases asked : requestCheck completion.overlapped <;> simp [asked]
  refine owned.pass rfl rfl (fun pointer => ?_) ?_ fun other member => owned.posts other ?_
  · rw [hands, before]
    simp only [Hands.track, occurrences_append]
    cases completion.overlapped with
    | request packet =>
        have taken := (ghosts thread).hands.owns_take pointer packet.pointer
        change _ + ((ghosts thread).hands.take packet.pointer).owns pointer = _
        rw [taken]
        simp only [requestCheck, Option.toList, occurrences_cons, occurrences_nil]
        omega
    | _ =>
        simp only [requestCheck, Option.toList, occurrences_nil, Nat.zero_add]
        rfl
  · rw [hands]
    simp only [Hands.track]
    cases completion.overlapped <;> rfl
  · rw [queued]
    exact List.mem_cons_of_mem _ member

/-- A step that changes only what a thread has in hand. -/
theorem owners_balance (sessions : state'.sessionArray = state.sessionArray) (port : state'.port = state.port)
    (pointer : Pointer) :
    owners state' (Function.update ghosts thread ghost) pointer + (ghosts thread).hands.owns pointer =
      owners state ghosts pointer + ghost.hands.owns pointer := by
  have change := owners_update state state' ghosts thread ghost pointer
  rw [sessions, port] at change
  omega

theorem owners_same (sessions : state'.sessionArray = state.sessionArray) (port : state'.port = state.port)
    (held : ghost.hands.held = (ghosts thread).hands.held) (pointer : Pointer) :
    owners state' (Function.update ghosts thread ghost) pointer = owners state ghosts pointer := by
  have balance := @owners_balance Thread _ _ state state' ghosts thread ghost sessions port pointer
  unfold Hands.owns at balance
  rw [held] at balance
  exact Nat.add_right_cancel balance

omit [Fintype Thread] [DecidableEq Thread] in
theorem Hands.oneMore_held {hands hands' : Hands} {pointer : Pointer} (held : hands'.held = pointer :: hands.held) :
    OneMore pointer hands.owns hands'.owns := by
  unfold Hands.owns
  rw [held]
  exact ⟨List.count_cons_self, fun other different => List.count_cons_of_ne (Ne.symm different)⟩

omit [Fintype Thread] [DecidableEq Thread] in
theorem Hands.oneMore_give {hands : Hands} {pointer : Pointer} (held : pointer ∈ hands.held) :
    OneMore pointer (hands.give pointer).owns hands.owns := by
  constructor
  · rw [hands.owns_give pointer pointer held, if_pos rfl]
  · intro other different
    rw [hands.owns_give other pointer held, if_neg (Ne.symm different), Nat.add_zero]

omit [Fintype Thread] [DecidableEq Thread] in
theorem Hands.oneMore_loose {hands hands' : Hands} (loose : Loose) (before : hands.loose = none)
    (after : hands'.loose = some loose) : OneMore loose.pointer hands.frees hands'.frees := by
  unfold Hands.frees
  rw [before, after]
  exact ⟨by simp, fun other different => by simp [Ne.symm different]⟩

/-- A serializer comes out of the pool. -/
theorem Owned.alloc {choice : Choice} {buffer : PacketBuffer} (owned : Owned state ghosts)
    (empty : (ghosts thread).hands.loose = none)
    (performed : perform choice state .serializerAlloc = some (buffer, state'))
    (hands : ghost.hands = { (ghosts thread).hands with loose := some (.fresh buffer.pointer) }) :
    Owned state' (Function.update ghosts thread ghost) := by
  simp only [perform] at performed
  split at performed
  next => cases performed
  next inside =>
    cases performed
    have idle : state.allocated choice.buffer.pointer = false := by simpa using inside
    refine ⟨(owned.counted.takeOut idle ?_).congr (owners_same rfl rfl ?_) fun _ => rfl, owned.posts⟩
    · exact .shift (looseIn_update ghosts thread ghost) (Hands.oneMore_loose (.fresh _) empty (by rw [hands]))
    · rw [hands]

/-- And goes back. -/
theorem Owned.free {pointer : Pointer} (owned : Owned state ghosts)
    (loose : (ghosts thread).hands.loose = some (.last pointer))
    (hands : ghost.hands = { (ghosts thread).hands with loose := none }) :
    Owned { state with allocated := Function.update state.allocated pointer false }
      (Function.update ghosts thread ghost) := by
  refine ⟨(owned.counted.putBack ?_).congr (owners_same rfl rfl ?_) fun _ => rfl, owned.posts⟩
  · refine .shift (fun other => (looseIn_update ghosts thread ghost other).symm) ?_
    exact Hands.oneMore_loose (.last pointer) (by rw [hands]) loose
  · rw [hands]

/-- The first owner, or a further one. -/
theorem Owned.increment {pointer : Pointer} (owned : Owned state ghosts)
    (known : (ghosts thread).hands.loose = some (.fresh pointer) ∨
      (ghosts thread).hands.loose = none ∧ 1 ≤ owners state ghosts pointer)
    (hands : ghost.hands = { (ghosts thread).hands.take pointer with loose := none }) :
    Owned { state with referenceCounter :=
        Function.update state.referenceCounter pointer (state.referenceCounter pointer + 1) }
      (Function.update ghosts thread ghost) := by
  have one : OneMore pointer (ghosts thread).hands.owns ghost.hands.owns := Hands.oneMore_held (by rw [hands]; rfl)
  refine ⟨?_, owned.posts⟩
  rcases known with loose | ⟨empty, shared⟩
  · refine owned.counted.adopt ?_ (.shift (owners_balance rfl rfl) one)
    refine .shift (fun other => (looseIn_update ghosts thread ghost other).symm) ?_
    exact Hands.oneMore_loose (.fresh pointer) (by rw [hands]) loose
  · refine (owned.counted.share shared (.shift (owners_balance rfl rfl) one)).congr (fun _ => rfl)
      (looseIn_same ghosts thread ghost ?_)
    rw [hands, empty]

/-- An owner lets go. -/
theorem Owned.decrement {pointer : Pointer} (owned : Owned state ghosts)
    (empty : (ghosts thread).hands.loose = none) (held : pointer ∈ (ghosts thread).hands.held)
    (hands : ghost.hands = { (ghosts thread).hands.give pointer with
      loose := if state.referenceCounter pointer - 1 = 0 then some (.last pointer) else none }) :
    Owned { state with referenceCounter :=
        Function.update state.referenceCounter pointer (state.referenceCounter pointer - 1) }
      (Function.update ghosts thread ghost) := by
  refine ⟨owned.counted.letGo ?_ (fun others => funext ?_) fun last => ?_, owned.posts⟩
  · refine .shift (fun other => (owners_balance rfl rfl other).symm) ?_
    have given : ghost.hands.owns = ((ghosts thread).hands.give pointer).owns := by rw [hands]; rfl
    rw [given]
    exact Hands.oneMore_give held
  · refine looseIn_same ghosts thread ghost ?_
    rw [hands, empty]
    exact if_neg others
  · refine .shift (looseIn_update ghosts thread ghost) (Hands.oneMore_loose (.last pointer) empty ?_)
    rw [hands]
    exact if_pos last

/-- Every permitted operation keeps the counters right. -/
theorem Owned.track {choice : Choice} {op : Op} {answer : op.Answer} (owned : Owned state ghosts)
    (permitted : (ghosts thread).hands.permits op) (performed : perform choice state op = some (answer, state'))
    (borrowed : forall pointer, op = .incReferenceCounter pointer -> (ghosts thread).hands.outside = true ->
      (ghosts thread).hands.loose = some (.fresh pointer) ∨ 0 < state.referenceCounter pointer) :
    Owned state' (Function.update ghosts thread ((ghosts thread).track ⟨op, answer⟩)) := by
  have kept := perform_sameBut performed
  have still (sessions : op.component ≠ .sessionArray) (port : op.component ≠ .port)
      (serializers : op.component ≠ .serializers)
      (held : ((ghosts thread).hands.track ⟨op, answer⟩).held = (ghosts thread).hands.held)
      (loose : ((ghosts thread).hands.track ⟨op, answer⟩).loose = (ghosts thread).hands.loose) :
      Owned state' (Function.update ghosts thread ((ghosts thread).track ⟨op, answer⟩)) := by
    refine owned.pass (kept.referenceCounter serializers) (kept.allocated serializers) (fun pointer => ?_) loose ?_
    · rw [kept.sessionArray sessions, kept.port port]
      change _ + List.count pointer ((ghosts thread).hands.track ⟨op, answer⟩).held = _
      rw [held]
      rfl
    · rw [kept.port port]
      exact owned.posts
  cases op with
  | session slot op => exact owned.session permitted performed rfl
  | getQueuedCompletionStatus =>
      simp only [perform] at performed
      split at performed
      next => cases performed
      next completion rest queued =>
        cases performed
        exact owned.dequeue queued rfl
  | postQueuedCompletionStatus slot packet =>
      cases performed
      exact owned.post permitted.2 rfl
  | serializerAlloc => exact owned.alloc permitted performed rfl
  | serializerFree pointer =>
      cases performed
      exact owned.free permitted rfl
  | incReferenceCounter pointer =>
      cases performed
      refine owned.increment ?_ rfl
      rcases permitted with loose | ⟨empty, held | outside⟩
      · exact Or.inl loose
      · exact Or.inr ⟨empty, owned_of_held held⟩
      · rcases borrowed pointer rfl outside with loose | counted
        · exact Or.inl loose
        · exact Or.inr ⟨empty, owned.counted.owned_of_counter counted⟩
  | decReferenceCounter pointer =>
      cases performed
      exact owned.decrement permitted.1 permitted.2 rfl
  | _ => exact still (by simp [Op.component]) (by simp [Op.component]) (by simp [Op.component]) rfl rfl

omit [Fintype Thread] [DecidableEq Thread] in
/-- The kernel queues completions of its own, and no requests. -/
theorem surround_serializers {change : Surroundings} (changed : Network.surround state change = some state') :
    state'.referenceCounter = state.referenceCounter ∧ state'.allocated = state.allocated ∧
      (state'.port = state.port ∨ Exists fun completion => state'.port = state.port ++ [completion] ∧
        requestCheck completion.overlapped = none) := by
  cases change with
  | completeSend slot position success transfer =>
      simp only [Network.surround] at changed
      split at changed
      next => cases changed
      next =>
        split at changed <;> cases changed
        exact ⟨rfl, rfl, Or.inr ⟨_, rfl, rfl⟩⟩
  | completeRecv slot position success data =>
      simp only [Network.surround] at changed
      split at changed
      next => cases changed
      next =>
        split at changed <;> cases changed
        exact ⟨rfl, rfl, Or.inr ⟨_, rfl, rfl⟩⟩
  | tick count =>
      simp only [Network.surround] at changed
      split at changed <;> cases changed
      exact ⟨rfl, rfl, Or.inl rfl⟩

omit [DecidableEq Thread] in
theorem Owned.surround {change : Surroundings} (owned : Owned state ghosts)
    (changed : Network.surround state change = some state') : Owned state' ghosts := by
  have same := (surround_sameFields changed).1
  rcases surround_serializers changed with ⟨counters, allocated, port⟩
  have asked : requestedPackets state'.port = requestedPackets state.port := by
    rcases port with same | ⟨completion, queued, unasked⟩
    · rw [same]
    · rw [queued, requests_append, unasked]
      exact List.append_nil _
  have sessions (pointer : Pointer) : tally (Session.owns pointer) state'.sessionArray =
      tally (Session.owns pointer) state.sessionArray := by
    refine Finset.sum_congr rfl fun slot _ => ?_
    rw [Session.owns, Session.owns, (same slot).sendBuffer, (same slot).sendedBuffer]
  refine ⟨?_, fun completion member packet asks => ?_⟩
  · rw [counters, allocated]
    refine owned.counted.congr (fun pointer => ?_) fun _ => rfl
    rw [owners, owners, sessions pointer, asked]
  · refine owned.posts completion ?_ packet asks
    rcases port with same | ⟨new, queued, unasked⟩
    · rw [← same]
      exact member
    · rw [queued] at member
      rcases List.mem_append.mp member with before | last
      · exact before
      · cases List.mem_singleton.mp last
        rw [asks] at unasked
        cases unasked

end Steps

/-! ## Threads of the server -/

/-- The operations that the server's own loops begin with. -/
def Op.enters : Op -> Bool
  | .getQueuedCompletionStatus => true
  | .accept => true
  | .getTickCount => true
  | _ => false

theorem Hands.track_outside (hands : Hands) (op : Op) (answer : op.Answer) :
    (hands.track ⟨op, answer⟩).outside = (hands.outside && !op.enters) := by
  cases op with
  | session slot op =>
      change _ = (hands.outside && true)
      rw [Bool.and_true]
      cases op with
      | popSended => cases answer <;> rfl
      | pushSended packet => cases answer <;> rfl
      | _ => rfl
  | getQueuedCompletionStatus =>
      change _ = (hands.outside && false)
      rw [Bool.and_false]
      simp only [Hands.track]
      cases answer.overlapped <;> rfl
  | _ => first | exact (Bool.and_true _).symm | exact (Bool.and_false _).symm

/-- A thread counts references only after it has begun with such an operation. -/
def entering : Discipline interface where
  Ghost := Bool
  start := true
  track := fun outside event => outside && !event.op.enters
  permits := fun outside op => (Exists fun pointer => op = .incReferenceCounter pointer) -> outside = false
  expects := fun _ _ => True
  finish := fun _ => True
  finish_start := trivial

/-- Afterwards everything is permitted. -/
theorem obeys_inside {α : Type} (program : NetProgram α) : entering.Obeys program false fun _ _ => True := by
  induction program with
  | done value => trivial
  | step op next inductionHypothesis => exact ⟨fun _ => rfl, fun answer _ => inductionHypothesis answer⟩

section Runs

variable {workers contents : Nat} {settings : Settings}

theorem jobs_entering {thread : Thread workers contents} {job : Job} {program : NetProgram Unit}
    (own : thread.isContent = false) (chosen : jobProgram settings thread job = some program) :
    entering.Obeys program entering.start fun _ _ => True := by
  have begins {op : Op} {next : op.Answer -> NetProgram Unit} (enters : op.enters = true) :
      entering.Obeys (Program.step (I := interface) op next) true fun _ _ => True := by
    refine ⟨?_, fun answer _ => ?_⟩
    · rintro ⟨pointer, rfl⟩
      cases enters
    · change entering.Obeys (next answer) (true && !op.enters) _
      rw [enters]
      exact obeys_inside (next answer)
  cases thread <;> cases job <;> cases chosen
  case accept.loop => exact begins rfl
  case worker.loop => exact begins rfl
  case timeout.loop => exact begins rfl
  case content.call => exact Bool.noConfusion own

/-- A thread of the server that counts a reference up is not outside. -/
theorem inside_of_increment {rule : (server settings workers contents).Rule}
    {c : (server settings workers contents).Config} (reach : (server settings workers contents).Reach rule c)
    {thread : Thread workers contents} (own : thread.isContent = false) {pointer : Pointer}
    {next : Int -> NetProgram Unit}
    (turn : c.running thread = .step (I := interface) (.incReferenceCounter pointer) next) :
    (Owning.hands (owning.ghosts c thread)).outside = false := by
  have obeys := Discipline.obeys_running (D := entering) (fun _ _ => trivial)
    (fun job program chosen => jobs_entering own chosen) reach
  rw [turn] at obeys
  have same : (Owning.hands (owning.ghost (c.past thread))).outside = entering.ghost (c.past thread) :=
    Discipline.map_ghost (D := entering) (E := owning) (fun ghost => (Owning.hands ghost).outside) rfl
      (fun ghost event => Hands.track_outside _ event.op event.answer) (c.past thread)
  exact same.trans (obeys.1 ⟨pointer, rfl⟩)

/-! ## Completions of sends -/

/-- What the sender's stage says about the transfer and about deleting. -/
structure Sending.Agrees (slot : Slot) (stage : Sending) (ghost : Owning) : Prop where
  completing : forall left, stage = .completing left -> ghost.completing = left.map fun rest => (slot, rest)
  deleted : stage.clears = true -> ghost.deleted = true

/-- Operations on the session that neither take from `sendedBuffer` nor delete leave both as
they are. -/
theorem Sending.step_kept (stage : Sending) {op : SessionOp} (answer : op.Answer) (popless : op ≠ .popSended)
    (exchangeless : op ≠ .compareExchangeIo) :
    (forall left, stage.step op answer = .completing left -> stage = .completing left) ∧
      ((stage.step op answer).clears = true -> stage.clears = true) := by
  cases op with
  | popSended => exact absurd rfl popless
  | compareExchangeIo => exact absurd rfl exchangeless
  | exchangeSendFlag value =>
      cases value with
      | true =>
          dsimp only [Sending.step]
          split <;> exact ⟨fun _ same => (by cases same), fun clears => (by cases clears)⟩
      | false => cases stage <;> first | exact ⟨fun _ same => same, id⟩ | exact ⟨fun _ same => (by cases same), id⟩
  | wsaSend batch =>
      cases answer with
      | error code =>
          dsimp only [Sending.step]
          split <;> exact ⟨fun _ same => (by cases same), fun clears => (by cases clears)⟩
      | _ => exact ⟨fun _ same => (by cases same), fun clears => (by cases clears)⟩
  | linkNode packet => exact ⟨fun _ same => (by cases same), fun clears => (by cases clears)⟩
  | storeId id => exact ⟨fun _ same => (by cases same), fun clears => (by cases clears)⟩
  | clearDeleted => exact ⟨fun _ same => (by cases same), fun clears => (by cases clears)⟩
  | _ =>
      first
        | exact ⟨fun _ same => same, id⟩
        | cases stage <;> dsimp only [Sending.step] <;> (try split) <;>
            first
              | exact ⟨fun _ same => same, id⟩
              | exact ⟨fun _ same => (by cases same), fun clears => clears⟩

theorem Owning.deletedAfter_of_deleted {deleted : Bool} (before : deleted = true) (event : Event interface) :
    Owning.deletedAfter deleted event = true := by
  rw [before]
  rcases event with ⟨op, answer⟩
  cases op with
  | session slot op => cases op <;> rfl
  | _ => rfl

section Agreement

variable {slot : Slot} {stage : Sending} {ghost : Owning}

theorem Sending.Agrees.popSended (agrees : stage.Agrees slot ghost) (popped : Option Packet) :
    (stage.step .popSended popped).Agrees slot (ghost.track ⟨.session slot .popSended, popped⟩) := by
  refine ⟨fun left reached => ?_, fun clears => agrees.deleted ?_⟩
  · cases stage with
    | completing rest =>
        have before := agrees.completing rest rfl
        have after : (ghost.track ⟨.session slot .popSended, popped⟩).completing =
            Owning.transferAfter (rest.map fun rest => (slot, rest)) ⟨.session slot .popSended, popped⟩ := by
          rw [← before]
          rfl
        rw [after]
        cases rest with
        | none =>
            cases reached
            rfl
        | some rest =>
            cases reached
            refine (if_pos rfl).trans ?_
            cases popped <;> rfl
    | _ => cases reached
  · cases stage with
    | completing rest => cases rest <;> cases clears
    | _ => exact clears

theorem Sending.Agrees.exchange (agrees : stage.Agrees slot ghost) (previous : IoCount) :
    (stage.step .compareExchangeIo previous).Agrees slot
      (ghost.track ⟨.session slot .compareExchangeIo, previous⟩) := by
  dsimp only [Sending.step]
  split
  next zero =>
    refine ⟨fun left reached => (by cases reached), fun _ => ?_⟩
    change (ghost.deleted || previous.isZero) = true
    rw [zero, Bool.or_true]
  · exact ⟨agrees.completing, fun clears =>
      Owning.deletedAfter_of_deleted (agrees.deleted clears) ⟨.session slot .compareExchangeIo, previous⟩⟩

/-- An operation on another session. -/
theorem Sending.Agrees.elsewhere {target : Slot} (different : target ≠ slot) {op : SessionOp} (answer : op.Answer)
    (agrees : stage.Agrees slot ghost) : stage.Agrees slot (ghost.track ⟨.session target op, answer⟩) := by
  refine ⟨fun left reached => ?_, fun clears => Owning.deletedAfter_of_deleted (agrees.deleted clears) _⟩
  have before := agrees.completing left reached
  cases op with
  | popSended =>
      change Owning.transferAfter ghost.completing ⟨.session target .popSended, answer⟩ = _
      rw [before]
      cases left with
      | none => rfl
      | some left => exact if_neg different
  | _ => exact before

theorem Sending.Agrees.track {op : Op} {answer : op.Answer} (agrees : stage.Agrees slot ghost)
    (permitted : (sending slot).permits stage op) :
    (stage.track slot ⟨op, answer⟩).Agrees slot (ghost.track ⟨op, answer⟩) := by
  cases op with
  | session target op =>
      by_cases same : target = slot
      · subst same
        have moved : stage.track target ⟨.session target op, answer⟩ = stage.step op answer := if_pos rfl
        rw [moved]
        by_cases pops : op = .popSended
        · subst pops
          exact agrees.popSended answer
        by_cases exchanges : op = .compareExchangeIo
        · subst exchanges
          exact agrees.exchange answer
        have kept := stage.step_kept answer pops exchanges
        have still : (ghost.track ⟨.session target op, answer⟩).completing = ghost.completing ∧
            (ghost.track ⟨.session target op, answer⟩).deleted = ghost.deleted := by
          cases op <;> first | exact ⟨rfl, rfl⟩ | exact absurd rfl pops | exact absurd rfl exchanges
        refine ⟨fun left reached => ?_, fun clears => ?_⟩
        · rw [still.1]
          exact agrees.completing left (kept.1 left reached)
        · rw [still.2]
          exact agrees.deleted (kept.2 clears)
      · have moved : stage.track slot ⟨.session target op, answer⟩ = stage := if_neg same
        rw [moved]
        exact agrees.elsewhere same answer
  | getQueuedCompletionStatus =>
      cases (permitted : stage = .away)
      change (Completion.brings answer slot .away).Agrees slot _
      unfold Completion.brings
      split
      next handled =>
        have here : answer.slot = slot := by
          simp only [Completion.handled, Completion.sent, Bool.and_eq_true, beq_iff_eq] at handled
          exact handled.1.1.1
        refine ⟨fun left reached => ?_, fun clears => (by cases clears)⟩
        cases reached
        subst here
        exact if_pos handled
      · exact ⟨fun left reached => (by cases reached), fun clears => (by cases clears)⟩
  | pushIndex index =>
      rcases (permitted : stage = .away ∨ stage = .emptied) with rfl | rfl <;>
        exact ⟨fun left reached => (by cases reached), fun clears => (by cases clears)⟩
  | mark mark =>
      cases mark with
      | sendedFailed target =>
          by_cases same : target = slot
          · have failed : stage.track slot ⟨.mark (.sendedFailed target), answer⟩ = .away := if_pos same
            rw [failed]
            exact ⟨fun left reached => (by cases reached), fun clears => (by cases clears)⟩
          · have elsewhere : stage.track slot ⟨.mark (.sendedFailed target), answer⟩ = stage := if_neg same
            rw [elsewhere]
            exact ⟨agrees.completing, agrees.deleted⟩
      | _ => exact ⟨agrees.completing, agrees.deleted⟩
  | _ => exact ⟨agrees.completing, agrees.deleted⟩

end Agreement

section Transfers

variable {c : (server settings workers contents).Config}
  (reach : (server settings workers contents).Reach orderly c) (slot : Slot) {thread : Thread workers contents}
include reach

theorem sending_permits {op : Op} {next : op.Answer -> NetProgram Unit}
    (turn : c.running thread = .step (I := interface) op next) :
    (sending slot).permits (senders slot c thread) op := by
  have obeys := (Discipline.sound (matches_preserved slot) (fun _ _ _ => jobs_sending)
    (wholly_of_orderly reach slot)).2 thread
  rw [turn] at obeys
  exact obeys.1

theorem sending_agrees (thread : Thread workers contents) :
    (senders slot c thread).Agrees slot (owning.ghosts c thread) :=
  Discipline.related (D := sending slot) (E := owning)
    ⟨fun left reached => (by cases reached), fun clears => (by cases clears)⟩
    (fun c thread op next reach turn => sending_permits reach slot turn)
    (fun stage ghost op answer agrees permitted => agrees.track permitted) reach thread

theorem matches_of_works (works : (senders slot c thread).works = true) :
    Matches slot c.state (senders slot c) c.history := by
  have reach' := handedOut_of_orderly reach
  rcases (alive_of_reach (informed_of_reach reach').1).slots slot with ⟨life, current, _⟩
  exact matches_of_reach (wholly_of_orderly reach slot) current
    (Phase.occupied_of_isRunning (running_of_works reach' works current)) (nothing_lingers reach slot)

/-- `sendedBuffer` does not run out while there is transfer left. -/
theorem sended_of_transfer {next : Option Packet -> NetProgram Unit}
    (turn : c.running thread = .step (I := interface) (.session slot .popSended) next)
    (undeleted : Owning.deleted (owning.ghosts c thread) = false) {left : BitVec 32} (something : left ≠ 0)
    (completing : Owning.completing (owning.ghosts c thread) = some (slot, left)) :
    (c.state.sessionArray slot).sendedBuffer ≠ [] := by
  have agrees := sending_agrees reach slot thread
  have permitted := sending_permits reach slot turn
  rcases (permits_session permitted : (Exists fun left => senders slot c thread = .completing left) ∨
      senders slot c thread = .cleared) with ⟨rest, stage⟩ | stage
  · have same := agrees.completing rest stage
    rw [completing] at same
    cases rest with
    | none => cases same
    | some rest =>
        cases same
        have fits := (matches_of_works reach slot (by rw [stage]; rfl)).stages thread
        rw [stage] at fits
        intro empty
        rw [empty] at fits
        exact something (BitVec.eq_of_toNat_eq (Eq.symm fits))
  · have deleted := agrees.deleted (by rw [stage]; rfl)
    cases undeleted.symm.trans deleted

end Transfers

/-! ## Runs -/

theorem owned_initial : Owned (State.initial settings.maxSession)
    fun _ : Thread workers contents => (⟨⟨[], none, true⟩, none, false⟩ : Owning) := by
  have unowned (pointer : Pointer) : owners (State.initial settings.maxSession)
      (fun _ : Thread workers contents => (⟨⟨[], none, true⟩, none, false⟩ : Owning)) pointer = 0 := by
    have sessions : tally (Session.owns pointer) (State.initial settings.maxSession).sessionArray = 0 :=
      (tally_eq_zero_iff _ _).mpr fun _ => rfl
    have threads : tally (fun ghost => (Owning.hands ghost).owns pointer)
        (fun _ : Thread workers contents => (⟨⟨[], none, true⟩, none, false⟩ : Owning)) = 0 :=
      (tally_eq_zero_iff _ _).mpr fun _ => rfl
    rw [owners, sessions, threads]
    rfl
  have fixed (pointer : Pointer) : looseIn
      (fun _ : Thread workers contents => (⟨⟨[], none, true⟩, none, false⟩ : Owning)) pointer = 0 :=
    (tally_eq_zero_iff _ _).mpr fun _ => rfl
  refine ⟨⟨fun pointer => ?_, fun pointer => ?_, fun pointer => Or.inr (fixed pointer)⟩, fun completion member => ?_⟩
  · rw [unowned pointer]
    rfl
  · rw [unowned pointer, fixed pointer]
    exact ⟨fun impossible => absurd impossible Bool.false_ne_true, fun positive => absurd positive (by decide)⟩
  · exact absurd member List.not_mem_nil

theorem owned_preserved : owning.Preserved (server settings workers contents) orderly fun state ghosts _ =>
    Owned state ghosts where
  initial := owned_initial
  act := by
    intro c thread op next choice answer state reach turn owned permitted performed lawful
    refine ⟨?_, owned.track permitted performed ?_⟩
    · cases op with
      | session slot op =>
          cases op with
          | popSended =>
              intro undeleted left something completing nothing
              have more := sended_of_transfer reach slot turn undeleted something completing
              have performed : perform choice c.state (.session slot .popSended) = some (answer, state) := performed
              rcases perform_session performed with ⟨s', popped, _⟩
              cases popped
              exact more (List.head?_eq_none_iff.mp nothing)
          | _ => trivial
      | getQueuedCompletionStatus =>
          simp only [server, perform] at performed
          split at performed
          next => cases performed
          next completion rest queued =>
            cases performed
            refine owned.posts _ ?_
            rw [queued]
            exact List.mem_cons_self
      | _ => trivial
    · rintro pointer rfl outside
      cases own : thread.isContent with
      | true => exact lawful.2.2 own
      | false => cases outside.symm.trans (inside_of_increment reach own turn)
  takeUp := by
    intro state ghosts history thread owned finished
    refine ⟨owned.counted.congr (owners_same rfl rfl ?_) (looseIn_same ghosts thread _ ?_), owned.posts⟩
    · exact finished.1.symm
    · exact finished.2.symm
  surround := fun _ _ _ _ _ owned changed => owned.surround changed

/-- The counters of all serializers are right, in every run. -/
theorem owned_of_reach {c : (server settings workers contents).Config}
    (reach : (server settings workers contents).Reach orderly c) : Owned c.state (owning.ghosts c) :=
  (Discipline.sound owned_preserved (fun _ _ _ => jobs_owning) reach).1

end Runs

end Network
end LoginServer
