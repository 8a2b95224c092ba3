import LoginServer.Network.Threads

namespace LoginServer
namespace Network

open Memory Buffers Receiving Login Concurrency

/-!
# Quiet operations

Most operations concern neither the life of a session nor its completions nor
a lock: the queues, the buffers, the flags, the pools, the connection records.
They leave alone everything the disciplines of the following modules
speak about, and whole functions consist of nothing else.
-/

def SessionOp.quiet : SessionOp -> Bool
  | .incrementIo => false
  | .decrementIo => false
  | .compareExchangeIo => false
  | .clearDeleted => false
  | .loadId => false
  | .storeId _ => false
  | .wsaSend _ => false
  | .wsaRecv _ => false
  | .recved _ => false
  | _ => true

def Op.quiet : Op -> Bool
  | .session _ op => op.quiet
  | .getQueuedCompletionStatus => false
  | .postQueuedCompletionStatus _ _ => false
  | .popIndex => false
  | .pushIndex _ => false
  | .nextSessionCount => false
  | .acquireContainorLock _ => false
  | .releaseContainorLock _ => false
  | .mark _ => false
  | _ => true

/-- The part of a session that quiet operations leave alone. -/
structure Session.Untouched (s s' : Session) : Prop where
  id : s'.id = s.id
  ioCount : s'.ioCount = s.ioCount
  pendingSends : s'.pendingSends.length = s.pendingSends.length
  pendingRecvs : s'.pendingRecvs.length = s.pendingRecvs.length

/-- The part of the state that quiet operations leave alone. -/
structure State.Untouched (state state' : State) : Prop where
  session : forall slot, (state.sessionArray slot).Untouched (state'.sessionArray slot)
  indexStack : state'.indexStack = state.indexStack
  port : state'.port = state.port
  containorLock : state'.containorLock = state.containorLock

theorem Session.Untouched.refl (s : Session) : s.Untouched s := ⟨rfl, rfl, rfl, rfl⟩

theorem State.Untouched.refl (state : State) : state.Untouched state :=
  ⟨fun _ => .refl _, rfl, rfl, rfl⟩

theorem Session.cancel_untouched (s : Session) (direction : Direction) :
    s.Untouched (s.cancel direction) := by
  cases direction <;> constructor <;> simp [Session.cancel]

theorem performSession_quiet {choice : Choice} {s s' : Session} {op : SessionOp}
    {answer : op.Answer} (quiet : op.quiet = true)
    (performed : performSession choice s op = some (answer, s')) : s.Untouched s' := by
  cases op with
  | cancelIoEx direction =>
      simp only [performSession, Option.some.injEq, Prod.mk.injEq] at performed
      rw [← performed.2]
      exact s.cancel_untouched direction
  | allocNode =>
      simp only [performSession] at performed
      split at performed <;> cases performed <;> exact ⟨rfl, rfl, rfl, rfl⟩
  | pushSended packet =>
      simp only [performSession] at performed
      split at performed <;> cases performed <;> exact ⟨rfl, rfl, rfl, rfl⟩
  | unlinkNode =>
      rcases Option.map_eq_some_iff.mp performed with ⟨result, _, same⟩
      cases same
      exact ⟨rfl, rfl, rfl, rfl⟩
  | _ =>
      first
        | cases performed; exact ⟨rfl, rfl, rfl, rfl⟩
        | exact Bool.noConfusion quiet

theorem perform_session {choice : Choice} {state state' : State} {slot : Slot} {op : SessionOp}
    {answer : op.Answer} (performed : perform choice state (.session slot op) = some (answer, state')) :
    Exists fun s' => performSession choice (state.sessionArray slot) op = some (answer, s') ∧
      state' = state.setSession slot s' := by
  rcases Option.map_eq_some_iff.mp performed with ⟨⟨_, s'⟩, inner, same⟩
  cases same
  exact ⟨s', inner, rfl⟩

/-- The parts of the state, apart from the clock. -/
inductive Component where
  | sessionArray
  | port
  | indexStack
  | sessionCount
  | serializers
  | containorLock
  | connections
  | nothing
  deriving DecidableEq

/-- The part that an operation works on. -/
def Op.component : Op -> Component
  | .session _ _ => .sessionArray
  | .getQueuedCompletionStatus => .port
  | .postQueuedCompletionStatus _ _ => .port
  | .popIndex => .indexStack
  | .pushIndex _ => .indexStack
  | .nextSessionCount => .sessionCount
  | .serializerAlloc => .serializers
  | .serializerFree _ => .serializers
  | .incReferenceCounter _ => .serializers
  | .decReferenceCounter _ => .serializers
  | .acquireContainorLock _ => .containorLock
  | .releaseContainorLock _ => .containorLock
  | .connectionNew _ => .connections
  | .insertConnection _ _ => .connections
  | .eraseConnection _ => .connections
  | _ => .nothing

/-- Nothing changes but one part. -/
structure State.SameBut (component : Component) (state state' : State) : Prop where
  sessionArray : component ≠ .sessionArray -> state'.sessionArray = state.sessionArray
  port : component ≠ .port -> state'.port = state.port
  indexStack : component ≠ .indexStack -> state'.indexStack = state.indexStack
  sessionCount : component ≠ .sessionCount -> state'.sessionCount = state.sessionCount
  referenceCounter : component ≠ .serializers -> state'.referenceCounter = state.referenceCounter
  allocated : component ≠ .serializers -> state'.allocated = state.allocated
  containorLock : component ≠ .containorLock -> state'.containorLock = state.containorLock
  connectionMap : component ≠ .connections -> state'.connectionMap = state.connectionMap
  connectionPool : component ≠ .connections -> state'.connectionPool = state.connectionPool
  clock : state'.clock = state.clock

theorem State.SameBut.refl (component : Component) (state : State) : state.SameBut component state := by
  constructor <;> first | rfl | exact fun _ => rfl

/-- An operation changes only the part it works on. -/
theorem perform_sameBut {choice : Choice} {state state' : State} {op : Op} {answer : op.Answer}
    (performed : perform choice state op = some (answer, state')) :
    state.SameBut op.component state' := by
  cases op with
  | session slot op =>
      rcases perform_session performed with ⟨s', _, rfl⟩
      constructor <;> first | exact fun _ => rfl | exact fun different => absurd rfl different | rfl
  | getQueuedCompletionStatus =>
      simp only [perform] at performed
      split at performed <;> cases performed
      constructor <;> first | exact fun _ => rfl | exact fun different => absurd rfl different | rfl
  | popIndex =>
      simp only [perform] at performed
      split at performed <;> cases performed <;> constructor <;>
        first | exact fun _ => rfl | exact fun different => absurd rfl different | rfl
  | serializerAlloc =>
      simp only [perform] at performed
      split at performed <;> cases performed
      constructor <;> first | exact fun _ => rfl | exact fun different => absurd rfl different | rfl
  | acquireContainorLock mode =>
      rcases Option.map_eq_some_iff.mp performed with ⟨lock, _, same⟩
      cases same
      constructor <;> first | exact fun _ => rfl | exact fun different => absurd rfl different | rfl
  | halt => cases answer
  | _ =>
      cases performed
      constructor <;> first | exact fun _ => rfl | exact fun different => absurd rfl different | rfl

theorem perform_quiet {choice : Choice} {state state' : State} {op : Op} {answer : op.Answer}
    (quiet : op.quiet = true) (performed : perform choice state op = some (answer, state')) :
    state.Untouched state' := by
  cases op with
  | session slot op =>
      rcases perform_session performed with ⟨s', inner, rfl⟩
      refine ⟨fun other => ?_, rfl, rfl, rfl⟩
      by_cases same : other = slot
      · subst same
        rw [State.setSession_same]
        exact performSession_quiet quiet inner
      · rw [State.setSession_other state s' same]
        exact .refl _
  | serializerAlloc =>
      simp only [perform] at performed
      split at performed <;> cases performed
      exact ⟨fun _ => .refl _, rfl, rfl, rfl⟩
  | halt => cases answer
  | _ =>
      first
        | cases performed; exact ⟨fun _ => .refl _, rfl, rfl, rfl⟩
        | exact Bool.noConfusion quiet

/-! ## The surroundings -/

/-- The fields of a session that only the program changes. -/
structure Session.SameFields (s s' : Session) : Prop where
  id : s'.id = s.id
  ioCount : s'.ioCount = s.ioCount
  sendFlag : s'.sendFlag = s.sendFlag
  cancelIoFlag : s'.cancelIoFlag = s.cancelIoFlag
  sendBuffer : s'.sendBuffer = s.sendBuffer
  sendedBuffer : s'.sendedBuffer = s.sendedBuffer

theorem Session.SameFields.refl (s : Session) : s.SameFields s := ⟨rfl, rfl, rfl, rfl, rfl, rfl⟩

theorem setSession_sameFields {state : State} {slot : Slot} {s : Session}
    (same : (state.sessionArray slot).SameFields s) (other : Slot) :
    (state.sessionArray other).SameFields ((state.setSession slot s).sessionArray other) := by
  by_cases here : other = slot
  · subst here
    rw [State.setSession_same]
    exact same
  · rw [State.setSession_other state s here]
    exact .refl _

/-- Completions move outstanding operations to the port and store received bytes,
and nothing else. -/
theorem surround_sameFields {state state' : State} {change : Surroundings}
    (changed : surround state change = some state') :
    (forall slot, (state.sessionArray slot).SameFields (state'.sessionArray slot)) ∧
      state'.indexStack = state.indexStack ∧ state'.sessionCount = state.sessionCount := by
  cases change with
  | completeSend target position success transfer =>
      simp only [surround] at changed
      split at changed
      next => cases changed
      next =>
        split at changed <;> cases changed
        refine ⟨fun slot => setSession_sameFields ?_ slot, rfl, rfl⟩
        exact ⟨rfl, rfl, rfl, rfl, rfl, rfl⟩
  | completeRecv target position success data =>
      simp only [surround] at changed
      split at changed
      next => cases changed
      next =>
        split at changed <;> cases changed
        refine ⟨fun slot => setSession_sameFields ?_ slot, rfl, rfl⟩
        exact ⟨rfl, rfl, rfl, rfl, rfl, rfl⟩
  | tick count =>
      simp only [surround] at changed
      split at changed <;> cases changed
      exact ⟨fun slot => .refl _, rfl, rfl⟩

/-! ## Quiet functions -/

/-- A program of quiet operations. -/
abbrev Quiet {α : Type} (program : NetProgram α) : Prop := program.Uses fun (op : Op) => op.quiet = true

/-- Quiet operations on one session, and the release of its packets. -/
def Op.localTo (slot : Slot) : Op -> Bool
  | .session target op => target == slot && op.quiet
  | .decReferenceCounter _ => true
  | .serializerFree _ => true
  | .halt => true
  | _ => false

theorem Op.quiet_of_localTo {slot : Slot} {op : Op} (near : op.localTo slot = true) :
    op.quiet = true := by
  cases op with
  | session target op => exact (Bool.and_eq_true_iff.mp near).2
  | _ => first | rfl | exact Bool.noConfusion near

/-- A program of such operations. -/
abbrev Local (slot : Slot) {α : Type} (program : NetProgram α) : Prop :=
  program.Uses fun (op : Op) => op.localTo slot = true

theorem Local.quiet {slot : Slot} {α : Type} {program : NetProgram α} (near : Local slot program) :
    Quiet program := near.mono fun _ => Op.quiet_of_localTo

theorem local_halt {slot : Slot} {α : Type} : Local slot (halt : NetProgram α) := ⟨rfl, by simp⟩

theorem localTo_session {slot : Slot} {op : SessionOp} (quiet : op.quiet = true) :
    Op.localTo slot (.session slot op) = true := by
  simp only [Op.localTo, beq_self_eq_true, quiet, Bool.and_self]

theorem push_local (slot : Slot) (packet : Packet) : Local slot (push slot packet) := by
  refine ⟨localTo_session rfl, fun allocated => ?_⟩
  cases allocated
  · trivial
  · exact ⟨localTo_session rfl, fun _ => ⟨localTo_session rfl, fun _ => trivial⟩⟩

theorem pop_local (slot : Slot) : Local slot (pop slot) := by
  refine ⟨localTo_session rfl, fun size => ?_⟩
  change Local slot (if size < 0 then _ else _)
  split
  · exact ⟨localTo_session rfl, fun _ => trivial⟩
  · exact ⟨localTo_session rfl, fun _ => trivial⟩

theorem releaseSerializer_local (slot : Slot) (pointer : Pointer) :
    Local slot (releaseSerializer pointer) := by
  refine ⟨rfl, fun count => ?_⟩
  change Local slot (if count = 0 then _ else _)
  split
  · exact ⟨rfl, fun _ => trivial⟩
  · trivial

theorem clearSendBuffer_local (slot : Slot) (fuel : Nat) : Local slot (clearSendBuffer slot fuel) := by
  induction fuel with
  | zero => exact local_halt
  | succ fuel inductionHypothesis =>
      refine (pop_local slot).bind fun popped => ?_
      cases popped with
      | none => trivial
      | some packet => exact (releaseSerializer_local slot _).bind fun _ => inductionHypothesis

theorem clearSendedBuffer_local (slot : Slot) (fuel : Nat) :
    Local slot (clearSendedBuffer slot fuel) := by
  induction fuel with
  | zero => exact local_halt
  | succ fuel inductionHypothesis =>
      refine ⟨localTo_session rfl, fun empty => ?_⟩
      cases empty with
      | true => trivial
      | false =>
          refine ⟨localTo_session rfl, fun popped => ?_⟩
          cases popped with
          | none => exact local_halt
          | some packet => exact (releaseSerializer_local slot _).bind fun _ => inductionHypothesis

theorem bufferClear_local (fuel : Nat) (slot : Slot) : Local slot (bufferClear fuel slot) :=
  (clearSendBuffer_local slot fuel).bind fun _ =>
    (clearSendedBuffer_local slot fuel).bind fun _ => ⟨localTo_session rfl, fun _ => trivial⟩

theorem gather_local (slot : Slot) (packetCount fuel : Nat) (batch : List Packet) :
    Local slot (gather slot packetCount fuel batch) := by
  induction fuel generalizing batch with
  | zero => exact local_halt
  | succ fuel inductionHypothesis =>
      unfold gather
      split
      · refine (pop_local slot).bind fun popped => ?_
        cases popped with
        | none => exact inductionHypothesis batch
        | some packet =>
            dsimp only
            split
            · refine ⟨localTo_session rfl, fun (stored : Bool) => ?_⟩
              cases stored with
              | true => exact inductionHypothesis _
              | false => exact local_halt
            · exact local_halt
      · trivial

theorem sendedLoop_local (slot : Slot) (fuel : Nat) (transfer : BitVec 32)
    (packetBuffer : Option Packet) (sendedCount : BitVec 32) :
    Local slot (sendedLoop slot fuel transfer packetBuffer sendedCount) := by
  induction fuel generalizing transfer packetBuffer sendedCount with
  | zero => exact local_halt
  | succ fuel inductionHypothesis =>
      unfold sendedLoop
      split
      · trivial
      · refine ⟨localTo_session rfl, fun popped => ?_⟩
        simp only [Program.bind]
        split
        · exact local_halt
        · exact (releaseSerializer_local slot _).bind fun _ => inductionHypothesis _ _ _

theorem sended_local (fuel : Nat) (slot : Slot) (transfer : BitVec 32) :
    Local slot (sended fuel slot transfer) := by
  unfold sended
  split
  · trivial
  · exact sendedLoop_local _ _ _ _ _

theorem resetSendFlag_local (slot : Slot) : Local slot (resetSendFlag slot) :=
  ⟨localTo_session rfl, fun _ => trivial⟩

end Network
end LoginServer
