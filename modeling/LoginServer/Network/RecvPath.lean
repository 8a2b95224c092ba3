import LoginServer.Network.Tidying
import LoginServer.Receiving.Reassembly

namespace LoginServer
namespace Network

open Memory Buffers Receiving Login Concurrency

/-!
# The receive path of a session

What `recvBuffer` has to do with the rights of all threads and with the
outstanding `WSARecv`.  One thread has the right to receive for a session, or
one receive is in the kernel's keeping, or neither.  So nobody moves the
pointers of the ring while the kernel fills it, and the buffers that were
posted are the free bytes of the ring until they have been filled.

A thread that deletes the session clears the ring after the last receive.  The
next session finds it empty.
-/

/-- The right to receive, beside the deletions. -/
abbrev ringing : Discipline interface := (Layer.beside rightful.whole tidying).whole

/-- There is no complete frame in front of the ring. -/
def Starved (ring : RecvBuffer) : Prop := ring.size < headerSize ∨ ring.size < frameSize ring

theorem starved_of_refused {ring : RecvBuffer} {p : Serializer} (refused : (recvedPacket ring p).1 = false) :
    Starved ring := by
  by_contra fed
  rcases not_or.mp fed with ⟨header, frame⟩
  rw [recvedPacket_accepts ring p (Nat.not_lt.mp header) (Nat.not_lt.mp frame)] at refused
  cases refused

theorem starved_of_empty {ring : RecvBuffer} (empty : ring.content = []) : Starved ring := by
  left
  rw [← ring.content_length, empty]
  decide

/-- Whether the ring is empty does not depend on its memory. -/
theorem content_of_pointers {ring ring' : RecvBuffer} (same : ring'.size = ring.size) (empty : ring.content = []) :
    ring'.content = [] := by
  apply List.eq_nil_of_length_eq_zero
  rw [ring'.content_length, same, ← ring.content_length, empty]
  rfl

theorem totalLength_recvBuffers (ring : RecvBuffer) : totalLength (recvBuffers ring) = ring.freeSize := by
  rw [recvBuffers_eq]
  exact wsaBuffers_total ring

/-- Stored bytes are not readable yet. -/
theorem receiveInto_content (ring : RecvBuffer) (data : List Byte) (fits : data.length ≤ ring.freeSize) :
    (receiveInto ring data).content = ring.content := by
  have free := ring.freeSize_eq
  have bound := ring.size_lt
  have filled : (receiveInto ring data).buffer =
      writeCircular ring.buffer (2 ^ 8) ((ring.head + ring.size) % 2 ^ 8) data := by
    rw [← ring.tail_eq_head_add]
    exact fill_recvBuffers ring data fits
  have short := congrArg (List.take ring.size)
    (readCircular_append ring.buffer (2 ^ 8) ring.head ring.size data ring.head_lt (by omega))
  rw [readCircular_take _ _ _ _ _ (Nat.le_add_right _ _), List.take_left' (readCircular_length _ _ _ _)] at short
  change readCircular (receiveInto ring data).buffer (2 ^ 8) ring.head ring.size = _
  rw [filled]
  exact short

/-! ## Operations on the ring -/

/-- The functions of `session` that work on `recvBuffer`. -/
def SessionOp.rings : SessionOp -> Bool
  | .recved _ => true
  | .recvedPacket _ => true
  | .recvBuffers => true
  | .clearRecvBuffer => true
  | _ => false

/-- Those that move its pointers. -/
def SessionOp.stirs : SessionOp -> Bool
  | .recvBuffers => false
  | op => op.rings

def Op.stirsAt (slot : Slot) : Op -> Bool
  | .session target op => target == slot && op.stirs
  | _ => false

theorem performSession_recvBuffer {choice : Choice} {s s' : Session} {op : SessionOp} {answer : op.Answer}
    (other : op.stirs = false) (performed : performSession choice s op = some (answer, s')) :
    s'.recvBuffer = s.recvBuffer := by
  cases op with
  | allocNode =>
      simp only [performSession] at performed
      split at performed <;> cases performed <;> rfl
  | pushSended packet =>
      simp only [performSession] at performed
      split at performed <;> cases performed <;> rfl
  | unlinkNode =>
      rcases Option.map_eq_some_iff.mp performed with ⟨_, _, same⟩
      cases same
      rfl
  | cancelIoEx direction =>
      cases performed
      cases direction <;> rfl
  | compareExchangeIo =>
      cases performed
      split <;> rfl
  | wsaSend batch =>
      simp only [performSession] at performed
      split at performed <;> cases performed <;> rfl
  | wsaRecv buffers =>
      simp only [performSession] at performed
      split at performed <;> cases performed <;> rfl
  | _ => first | exact Bool.noConfusion other | cases performed; rfl

theorem perform_recvBuffer {choice : Choice} {state state' : State} {op : Op} {answer : op.Answer} {slot : Slot}
    (other : op.stirsAt slot = false) (performed : perform choice state op = some (answer, state')) :
    (state'.sessionArray slot).recvBuffer = (state.sessionArray slot).recvBuffer := by
  cases op with
  | session target op =>
      rcases perform_session performed with ⟨s', inner, rfl⟩
      by_cases same : target = slot
      · subst same
        rw [State.setSession_same]
        exact performSession_recvBuffer (by simpa [Op.stirsAt] using other) inner
      · rw [State.setSession_other state s' (Ne.symm same)]
  | _ => rw [(perform_sameBut performed).sessionArray (by simp [Op.component])]

theorem performSession_pending {choice : Choice} {s s' : Session} {op : SessionOp} {answer : op.Answer}
    (performed : performSession choice s op = some (answer, s')) {pending : PendingRecv}
    (there : pending ∈ s'.pendingRecvs) : op = .wsaRecv pending.buffers ∨
      Exists fun before => before ∈ s.pendingRecvs ∧ before.buffers = pending.buffers := by
  cases op with
  | wsaRecv buffers =>
      simp only [performSession] at performed
      split at performed
      next =>
        cases performed
        exact Or.inr ⟨pending, there, rfl⟩
      all_goals
        cases performed
        rcases List.mem_append.mp there with before | now
        · exact Or.inr ⟨pending, before, rfl⟩
        · cases List.mem_singleton.mp now
          exact Or.inl rfl
  | cancelIoEx direction =>
      cases performed
      cases direction with
      | send => exact Or.inr ⟨pending, there, rfl⟩
      | recv =>
          rcases List.mem_map.mp there with ⟨before, member, same⟩
          refine Or.inr ⟨before, member, ?_⟩
          rw [← same]
          split <;> rfl
  | allocNode =>
      simp only [performSession] at performed
      split at performed <;> cases performed <;> exact Or.inr ⟨pending, there, rfl⟩
  | pushSended packet =>
      simp only [performSession] at performed
      split at performed <;> cases performed <;> exact Or.inr ⟨pending, there, rfl⟩
  | unlinkNode =>
      rcases Option.map_eq_some_iff.mp performed with ⟨_, _, same⟩
      cases same
      exact Or.inr ⟨pending, there, rfl⟩
  | compareExchangeIo =>
      cases performed
      split at there <;> exact Or.inr ⟨pending, there, rfl⟩
  | wsaSend batch =>
      simp only [performSession] at performed
      split at performed <;> cases performed <;> exact Or.inr ⟨pending, there, rfl⟩
  | _ =>
      cases performed
      exact Or.inr ⟨pending, there, rfl⟩

/-- An outstanding receive was posted before, or is now. -/
theorem perform_pending {choice : Choice} {state state' : State} {op : Op} {answer : op.Answer} {slot : Slot}
    (performed : perform choice state op = some (answer, state')) {pending : PendingRecv}
    (there : pending ∈ (state'.sessionArray slot).pendingRecvs) : op = .session slot (.wsaRecv pending.buffers) ∨
      Exists fun before => before ∈ (state.sessionArray slot).pendingRecvs ∧ before.buffers = pending.buffers := by
  cases op with
  | session target op =>
      rcases perform_session performed with ⟨s', inner, rfl⟩
      by_cases same : target = slot
      · subst same
        rw [State.setSession_same] at there
        rcases performSession_pending inner there with rfl | before
        · exact Or.inl rfl
        · exact Or.inr before
      · rw [State.setSession_other state s' (Ne.symm same)] at there
        exact Or.inr ⟨pending, there, rfl⟩
  | _ =>
      rw [(perform_sameBut performed).sessionArray (by simp [Op.component])] at there
      exact Or.inr ⟨pending, there, rfl⟩

/-! ## The right in the course of events -/

theorem right_cases {position : Position} {right : Right} {op : Op} {answer : op.Answer} {slot : Slot}
    (after : (right.track position ⟨op, answer⟩).slot = some slot) :
    (position.track ⟨op, answer⟩).receiving = some slot ∧
      (grants ⟨op, answer⟩ = some slot ∨ op.keepsToken = true ∧ right.slot = some slot) := by
  rcases Option.filter_eq_some_iff.mp after with ⟨there, receiving⟩
  refine ⟨of_decide_eq_true receiving, ?_⟩
  cases op with
  | session target op =>
      cases op with
      | recved transfer =>
          simp only [slotAfter] at there
          split at there
          · exact Or.inr ⟨rfl, there⟩
          · cases there
      | _ => exact tokenAfter_cases there
  | _ => exact tokenAfter_cases there

/-- Who asked for buffers had the right when the ring was read. -/
theorem asked_cases {right : Right} {op : Op} {answer : op.Answer} {buffers : List WsaBuf}
    (after : askedAfter right.asked ⟨op, answer⟩ = some buffers) :
    (Exists fun slot => op = .session slot .recvBuffers) ∨ right.asked = some buffers ∧
      (forall slot, op.stirsAt slot = true -> op = .session slot .clearRecvBuffer) ∧
      grants ⟨op, answer⟩ = none := by
  cases op with
  | session target op =>
      cases op with
      | recvBuffers => exact Or.inl ⟨target, rfl⟩
      | recved transfer => cases after
      | recvedPacket p => cases after
      | clearRecvBuffer =>
          refine Or.inr ⟨after, fun slot stirs => ?_, rfl⟩
          cases beq_iff_eq.mp (Bool.and_eq_true_iff.mp stirs).1
          rfl
      | _ => exact Or.inr ⟨after, fun slot stirs => by simp [Op.stirsAt, SessionOp.stirs, SessionOp.rings] at stirs, rfl⟩
  | mark note => cases note <;> first | exact Or.inr ⟨after, nofun, rfl⟩ | cases after
  | getQueuedCompletionStatus => cases after
  | _ => exact Or.inr ⟨after, nofun, rfl⟩

/-! ## Runs -/

/-- No client has sent anything to the session in the slot. -/
def Phase.awaits {Actor : Type} : Phase Actor -> Bool
  | .running _ introduced => !introduced
  | .deleting _ _ => false
  | _ => true

theorem Phase.unintroduced_of_awaits {Actor : Type} {phase : Phase Actor} (awaits : phase.awaits = true) :
    phase.isIntroduced = false := by
  cases phase with
  | running id introduced => exact Bool.not_eq_true' introduced ▸ awaits
  | _ => rfl

/-- A slot comes to await a client with the push of its index. -/
theorem next_awaits {Actor : Type} [DecidableEq Actor] {life life' : Life Actor} {slot : Slot} {actor : Actor}
    {event : Event interface} (next : life.next slot actor event = some life') (awaits : life'.phase.awaits = true) :
    life.phase.awaits = true ∨ event.op = .pushIndex slot := by
  rcases event with ⟨op, answer⟩
  rcases life with ⟨phase, leaving⟩
  unfold Life.next at next
  split at next
  all_goals
    repeat' split at next
    all_goals cases next
    all_goals first | exact Or.inl awaits | exact Bool.noConfusion awaits | simp_all [Phase.awaits]

section Runs

variable {workers contents : Nat} {settings : Settings}

/-- 1 for a thread with the right to receive for a session. -/
def rightTo (slot : Slot) (ghost : ringing.Ghost) : Nat := if Right.slot ghost.1.2 = some slot then 1 else 0

theorem rightTo_le_one (slot : Slot) (ghost : ringing.Ghost) : rightTo slot ghost ≤ 1 := by
  unfold rightTo
  split <;> omega

theorem rightTo_eq_one {slot : Slot} {ghost : ringing.Ghost} (own : Right.slot ghost.1.2 = some slot) :
    rightTo slot ghost = 1 := if_pos own

theorem rightTo_eq_zero {slot : Slot} {ghost : ringing.Ghost} (other : Right.slot ghost.1.2 ≠ some slot) :
    rightTo slot ghost = 0 := if_neg other

/-- Where all threads stand. -/
abbrev standings (ghosts : Thread workers contents -> ringing.Ghost) : Thread workers contents -> Position :=
  fun thread => (ghosts thread).1.1

/-- What holds of the rings and the rights of all threads. -/
structure Ringed (settings : Settings) (state : State) (ghosts : Thread workers contents -> ringing.Ghost)
    (history : List (Thread workers contents × Event interface)) : Prop where
  receiving : forall thread slot, (ghosts thread).1.2.slot = some slot ->
    (ghosts thread).1.1.receiving = some slot
  tidied : forall thread, Tidied (ghosts thread).1.1 (ghosts thread).2
  /-- Somebody may receive for a session, or the kernel does. -/
  single : forall slot, state.recvHolds slot + tally (rightTo slot) ghosts ≤ 1
  posted : forall slot pending, pending ∈ (state.sessionArray slot).pendingRecvs ->
    pending.buffers = recvBuffers (state.sessionArray slot).recvBuffer
  asked : forall thread slot buffers, (ghosts thread).1.2.slot = some slot ->
    (ghosts thread).1.2.asked = some buffers -> buffers = recvBuffers (state.sessionArray slot).recvBuffer
  starved : forall thread slot, (ghosts thread).1.2.slot = some slot -> (ghosts thread).1.2.exhausted = true ->
    Starved (state.sessionArray slot).recvBuffer
  cleared : forall thread slot, (ghosts thread).2 = .cleared slot ->
    (state.sessionArray slot).recvBuffer.content = []
  vacant : forall slot life, lifeAfter settings.maxSession slot history = some life ->
    life.phase.awaits = true -> (state.sessionArray slot).recvBuffer.content = []

section Steps

variable {state state' : State} {ghosts : Thread workers contents -> ringing.Ghost}
  {history : List (Thread workers contents × Event interface)} {thread : Thread workers contents}
  {op : Op} {answer : op.Answer} {choice : Choice}

/-- Somebody receives for a session that has been announced. -/
theorem Ringed.introduced (ringed : Ringed settings state ghosts history)
    (alive : Alive settings state (standings ghosts) history) {other : Thread workers contents} {slot : Slot}
    (own : (ghosts other).1.2.slot = some slot) :
    Exists fun life => lifeAfter settings.maxSession slot history = some life ∧
      SlotFits state (standings ghosts) slot life ∧ life.phase.isIntroduced = true := by
  rcases alive.slots slot with ⟨life, current, fits⟩
  exact ⟨life, current, fits, fits.receiving other (ringed.receiving other slot own)⟩

/-- The session that `OnNewConnect` is called for. -/
theorem introducing_of_onNewConnect (alive : Alive settings state (standings ghosts) history) {id : SessionID}
    (permitted : living.permits (ghosts thread).1.1 (.mark (.onNewConnect id))) :
    Exists fun life => lifeAfter settings.maxSession (getIndex id) history = some life ∧
      SlotFits state (standings ghosts) (getIndex id) life ∧ life.phase = .running id false := by
  rcases permitted with ⟨target, stage⟩
  rcases alive.slots target with ⟨life, current, fits⟩
  have introducing : (standings ghosts thread).stage = .deletingAs target id ∨
      (standings ghosts thread).stage = .introducing target id := Or.inr stage
  have own : getIndex id = target := fits.aligned introducing
  have staged := fits.stage thread
  unfold StageFits at staged
  rw [show (standings ghosts thread).stage = .introducing target id from stage] at staged
  rw [own]
  exact ⟨life, current, fits, (staged rfl).2.2⟩

/-- While nobody has been announced, or the session is being deleted, nobody receives. -/
theorem Ringed.nobody (ringed : Ringed settings state ghosts history) {slot : Slot}
    {life : Life (Thread workers contents)} (fits : SlotFits state (standings ghosts) slot life)
    (unknown : life.phase.isIntroduced = false) :
    state.recvHolds slot = 0 ∧ tally (rightTo slot) ghosts = 0 := by
  refine ⟨fits.received unknown, (tally_eq_zero_iff _ _).mpr fun other => rightTo_eq_zero fun own => ?_⟩
  exact Bool.noConfusion (unknown.symm.trans (fits.receiving other (ringed.receiving other slot own)))

/-- The thread that deletes a session. -/
theorem deleting_of_tidying (ringed : Ringed settings state ghosts history)
    (alive : Alive settings state (standings ghosts) history) (thread : Thread workers contents) {slot : Slot}
    (tidies : Tidying.slot (ghosts thread).2 = some slot) :
    Exists fun life => lifeAfter settings.maxSession slot history = some life ∧
      SlotFits state (standings ghosts) slot life ∧ Exists fun id => life.phase = .deleting thread id := by
  rcases alive.slots slot with ⟨life, current, fits⟩
  refine ⟨life, current, fits, ?_⟩
  have staged := fits.stage thread
  unfold StageFits at staged
  rcases ringed.tidied thread slot tidies with same | ⟨id, same⟩ <;>
    rw [show (standings ghosts thread).stage = _ from same] at staged
  · exact staged rfl
  · exact ⟨id, staged rfl⟩

/-- Who moves the pointers of a ring has the right to receive, or clears it. -/
theorem stirs_cases (permitted : ringing.permits (ghosts thread) op) {slot : Slot} (stirs : op.stirsAt slot = true) :
    (ghosts thread).1.2.slot = some slot ∨
      op = .session slot .clearRecvBuffer ∧ (ghosts thread).2 = .deleting slot := by
  cases op with
  | session target op =>
      rcases Bool.and_eq_true_iff.mp stirs with ⟨same, moves⟩
      cases beq_iff_eq.mp same
      cases op with
      | recved transfer => exact Or.inl permitted.1.2.1
      | recvedPacket p => exact Or.inl permitted.1.2.1.1
      | clearRecvBuffer => exact Or.inr ⟨rfl, permitted.2⟩
      | _ => cases moves
  | _ => exact Bool.noConfusion stirs

/-- Nobody else has the right, and nothing is in the kernel's keeping, when the pointers of the
ring are moved. -/
theorem Ringed.apart (ringed : Ringed settings state ghosts history)
    (alive : Alive settings state (standings ghosts) history)
    (permitted : ringing.permits (ghosts thread) op) {slot : Slot} (stirs : op.stirsAt slot = true) :
    state.recvHolds slot = 0 ∧ forall other, other ≠ thread -> (ghosts other).1.2.slot ≠ some slot := by
  rcases stirs_cases permitted stirs with own | ⟨_, deleting⟩
  · have single := ringed.single slot
    have one := rightTo_eq_one own
    have least := le_tally (rightTo slot) ghosts thread
    refine ⟨by omega, fun other different another => ?_⟩
    have both := add_le_tally (rightTo slot) ghosts different
    have second := rightTo_eq_one another
    omega
  · rcases deleting_of_tidying ringed alive thread (by rw [deleting]; rfl) with ⟨life, _, fits, id, phase⟩
    rcases ringed.nobody fits (by rw [phase]; rfl) with ⟨nothing, nobody⟩
    refine ⟨nothing, fun other _ another => ?_⟩
    have none := (tally_eq_zero_iff _ _).mp nobody other
    rw [rightTo_eq_one another] at none
    cases none

/-- Who has the right does not delete the session. -/
theorem Ringed.untidying (ringed : Ringed settings state ghosts history)
    (alive : Alive settings state (standings ghosts) history) {other : Thread workers contents} {slot : Slot}
    (own : (ghosts other).1.2.slot = some slot) (thread : Thread workers contents)
    (tidies : Tidying.slot (ghosts thread).2 = some slot) : False := by
  rcases deleting_of_tidying ringed alive thread tidies with ⟨life, _, fits, id, phase⟩
  have none := (tally_eq_zero_iff _ _).mp (ringed.nobody fits (by rw [phase]; rfl)).2 other
  rw [rightTo_eq_one own] at none
  cases none

/-- The ring stays as it is for those who have the right and do not use it. -/
theorem Ringed.ring_kept (ringed : Ringed settings state ghosts history)
    (alive : Alive settings state (standings ghosts) history)
    (permitted : ringing.permits (ghosts thread) op)
    (performed : perform choice state op = some (answer, state')) {other : Thread workers contents} {slot : Slot}
    (own : (ghosts other).1.2.slot = some slot)
    (unused : other = thread -> op.stirsAt slot = true -> op = .session slot .clearRecvBuffer) :
    (state'.sessionArray slot).recvBuffer = (state.sessionArray slot).recvBuffer := by
  refine perform_recvBuffer (Bool.eq_false_iff.mpr fun stirs => ?_) performed
  by_cases same : other = thread
  · subst same
    cases unused rfl stirs
    have deleting : (ghosts other).2 = .deleting slot := permitted.2
    exact ringed.untidying alive own other (by rw [deleting]; rfl)
  · exact (ringed.apart alive permitted stirs).2 other same own

/-- The positions, rights and deletions after a step. -/
abbrev advanced (ghosts : Thread workers contents -> ringing.Ghost) (thread : Thread workers contents)
    (event : Event interface) : Thread workers contents -> ringing.Ghost :=
  Function.update ghosts thread (ringing.track (ghosts thread) event)

theorem Ringed.receiving_step (ringed : Ringed settings state ghosts history) (other : Thread workers contents)
    (slot : Slot) (own : (advanced ghosts thread ⟨op, answer⟩ other).1.2.slot = some slot) :
    (advanced ghosts thread ⟨op, answer⟩ other).1.1.receiving = some slot := by
  unfold advanced at own ⊢
  rw [Function.update_apply] at own ⊢
  split at own
  next same =>
    rw [if_pos same]
    exact (right_cases own).1
  next different =>
    rw [if_neg different]
    exact ringed.receiving other slot own

theorem Ringed.tidied_step (ringed : Ringed settings state ghosts history)
    (permitted : ringing.permits (ghosts thread) op) (other : Thread workers contents) :
    Tidied (advanced ghosts thread ⟨op, answer⟩ other).1.1 (advanced ghosts thread ⟨op, answer⟩ other).2 := by
  unfold advanced
  rw [Function.update_apply]
  split
  next => exact tidied_track (ringed.tidied thread) permitted.1.1 permitted.2
  next => exact ringed.tidied other

theorem Ringed.single_step (ringed : Ringed settings state ghosts history)
    (alive : Alive settings state (standings ghosts) history)
    (permitted : ringing.permits (ghosts thread) op)
    (performed : perform choice state op = some (answer, state')) (slot : Slot) :
    state'.recvHolds slot + tally (rightTo slot) (advanced ghosts thread ⟨op, answer⟩) ≤ 1 := by
  have before := ringed.single slot
  have change : tally (rightTo slot) (advanced ghosts thread ⟨op, answer⟩) + rightTo slot (ghosts thread) =
      tally (rightTo slot) ghosts + rightTo slot (ringing.track (ghosts thread) ⟨op, answer⟩) :=
    tally_update (rightTo slot) ghosts thread _
  have one := rightTo_le_one slot (ringing.track (ghosts thread) ⟨op, answer⟩)
  by_cases granted : grants ⟨op, answer⟩ = some slot
  · cases op with
    | getQueuedCompletionStatus =>
        have holds := (dequeue_recvHolds performed slot).2 granted
        omega
    | mark note =>
        cases note with
        | onNewConnect id =>
            cases granted
            cases performed
            rcases introducing_of_onNewConnect alive permitted.1.1 with ⟨life, _, fits, phase⟩
            have nobody := ringed.nobody fits (by rw [phase]; rfl)
            omega
        | _ => cases granted
    | _ => cases granted
  · have fewer : rightTo slot (ringing.track (ghosts thread) ⟨op, answer⟩) ≤ rightTo slot (ghosts thread) := by
      by_cases after : Right.slot (ringing.track (ghosts thread) ⟨op, answer⟩).1.2 = some slot
      · rw [rightTo_eq_one ((right_cases after).2.resolve_left granted).2]
        exact one
      · exact (rightTo_eq_zero after).le.trans (Nat.zero_le _)
    have holds : state'.recvHolds slot + rightTo slot (ringing.track (ghosts thread) ⟨op, answer⟩) ≤
        state.recvHolds slot + rightTo slot (ghosts thread) := by
      cases op with
      | getQueuedCompletionStatus =>
          have less := (dequeue_recvHolds performed slot).1
          omega
      | session target op =>
          cases op with
          | wsaRecv buffers =>
              have more := wsaRecv_recvHolds performed slot
              have gone : rightTo slot (ringing.track (ghosts thread) ⟨.session target (.wsaRecv buffers), answer⟩) = 0 :=
                rightTo_eq_zero nofun
              split at more
              next same =>
                subst same
                have own := rightTo_eq_one permitted.1.2.1.1
                omega
              next => omega
          | _ =>
              have same := perform_recvHolds performed (by simp) (by simp) slot
              omega
      | _ =>
          have same := perform_recvHolds performed (by simp) (by simp) slot
          omega
    omega

theorem Ringed.posted_step (ringed : Ringed settings state ghosts history)
    (alive : Alive settings state (standings ghosts) history)
    (permitted : ringing.permits (ghosts thread) op)
    (performed : perform choice state op = some (answer, state')) (slot : Slot) (pending : PendingRecv)
    (there : pending ∈ (state'.sessionArray slot).pendingRecvs) :
    pending.buffers = recvBuffers (state'.sessionArray slot).recvBuffer := by
  rcases perform_pending performed there with rfl | ⟨before, member, same⟩
  · rw [perform_recvBuffer (by simp [Op.stirsAt, SessionOp.stirs, SessionOp.rings]) performed]
    exact ringed.asked thread slot pending.buffers permitted.1.2.1.1 permitted.1.2.2
  · rw [← same, ringed.posted slot before member]
    refine congrArg recvBuffers (perform_recvBuffer (Bool.eq_false_iff.mpr fun stirs => ?_) performed).symm
    have nothing := (ringed.apart alive permitted stirs).1
    have some := List.length_pos_of_mem member
    unfold State.recvHolds at nothing
    omega

theorem Ringed.asked_step (ringed : Ringed settings state ghosts history)
    (alive : Alive settings state (standings ghosts) history)
    (permitted : ringing.permits (ghosts thread) op)
    (performed : perform choice state op = some (answer, state')) (other : Thread workers contents) (slot : Slot)
    (buffers : List WsaBuf) (own : (advanced ghosts thread ⟨op, answer⟩ other).1.2.slot = some slot)
    (asked : (advanced ghosts thread ⟨op, answer⟩ other).1.2.asked = some buffers) :
    buffers = recvBuffers (state'.sessionArray slot).recvBuffer := by
  unfold advanced at own asked
  rw [Function.update_apply] at own asked
  split at own
  next same =>
    rw [if_pos same] at asked
    have before (ungranted : grants ⟨op, answer⟩ = none) : (ghosts thread).1.2.slot = some slot := by
      refine ((right_cases own).2.resolve_left ?_).2
      rw [ungranted]
      exact nofun
    rcases asked_cases asked with ⟨target, rfl⟩ | ⟨earlier, unused, ungranted⟩
    · cases (before rfl).symm.trans permitted.1.2.1.1
      rcases perform_session performed with ⟨s', inner, rfl⟩
      cases inner
      cases asked
      rw [State.setSession_same]
    · rw [ringed.ring_kept alive permitted performed (before ungranted) fun _ => unused slot]
      exact ringed.asked thread slot buffers (before ungranted) earlier
  next different =>
    rw [if_neg different] at asked
    rw [ringed.ring_kept alive permitted performed own fun same => absurd same different]
    exact ringed.asked other slot buffers own asked

/-- Who has taken the last complete frame has the right and leaves the ring alone. -/
theorem exhausted_cases {right : Right} (after : exhaustedAfter right.exhausted ⟨op, answer⟩ = true) :
    (Exists fun slot => Exists fun p => op = .session slot (.recvedPacket p)) ∨
      (Exists fun id => op = .mark (.onNewConnect id)) ∨ right.exhausted = true ∧
        (forall slot, op.stirsAt slot = true -> op = .session slot .clearRecvBuffer) ∧ grants ⟨op, answer⟩ = none := by
  cases op with
  | session target op =>
      cases op with
      | recvedPacket p => exact Or.inl ⟨target, p, rfl⟩
      | recved transfer => cases after
      | clearRecvBuffer =>
          refine Or.inr (Or.inr ⟨after, fun slot stirs => ?_, rfl⟩)
          cases beq_iff_eq.mp (Bool.and_eq_true_iff.mp stirs).1
          rfl
      | _ =>
          exact Or.inr (Or.inr ⟨after, fun slot stirs => by
            simp [Op.stirsAt, SessionOp.stirs, SessionOp.rings] at stirs, rfl⟩)
  | mark note =>
      cases note with
      | onNewConnect id => exact Or.inr (Or.inl ⟨id, rfl⟩)
      | _ => exact Or.inr (Or.inr ⟨after, nofun, rfl⟩)
  | getQueuedCompletionStatus => cases after
  | _ => exact Or.inr (Or.inr ⟨after, nofun, rfl⟩)

theorem Ringed.starved_step (ringed : Ringed settings state ghosts history)
    (alive : Alive settings state (standings ghosts) history)
    (permitted : ringing.permits (ghosts thread) op)
    (performed : perform choice state op = some (answer, state')) (other : Thread workers contents) (slot : Slot)
    (own : (advanced ghosts thread ⟨op, answer⟩ other).1.2.slot = some slot)
    (exhausted : (advanced ghosts thread ⟨op, answer⟩ other).1.2.exhausted = true) :
    Starved (state'.sessionArray slot).recvBuffer := by
  unfold advanced at own exhausted
  rw [Function.update_apply] at own exhausted
  split at own
  next same =>
    rw [if_pos same] at exhausted
    have before (ungranted : grants ⟨op, answer⟩ = none) : (ghosts thread).1.2.slot = some slot := by
      refine ((right_cases own).2.resolve_left ?_).2
      rw [ungranted]
      exact nofun
    rcases exhausted_cases exhausted with ⟨target, p, rfl⟩ | ⟨id, rfl⟩ | ⟨earlier, unused, ungranted⟩
    · cases (before rfl).symm.trans permitted.1.2.1.1
      rcases perform_session performed with ⟨s', inner, rfl⟩
      cases inner
      have refused : (recvedPacket (state.sessionArray slot).recvBuffer p).1 = false :=
        (Bool.not_eq_true' _).mp exhausted
      have starved := starved_of_refused refused
      rw [State.setSession_same]
      change Starved (recvedPacket (state.sessionArray slot).recvBuffer p).2.1
      rw [recvedPacket_refuses _ _ starved]
      exact starved
    · rcases introducing_of_onNewConnect alive permitted.1.1 with ⟨life, current, _, phase⟩
      have here : getIndex id = slot := by
        rcases (right_cases own).2 with granted | ⟨keeps, _⟩
        · exact Option.some.inj granted
        · cases keeps
      rw [here] at current
      rw [perform_recvBuffer rfl performed]
      exact starved_of_empty (ringed.vacant slot life current (by rw [phase]; rfl))
    · rw [ringed.ring_kept alive permitted performed (before ungranted) fun _ => unused slot]
      exact ringed.starved thread slot (before ungranted) earlier
  next different =>
    rw [if_neg different] at exhausted
    rw [ringed.ring_kept alive permitted performed own fun same => absurd same different]
    exact ringed.starved other slot own exhausted

theorem Ringed.cleared_step (ringed : Ringed settings state ghosts history)
    (alive : Alive settings state (standings ghosts) history)
    (permitted : ringing.permits (ghosts thread) op)
    (performed : perform choice state op = some (answer, state')) (other : Thread workers contents) (slot : Slot)
    (cleared : (advanced ghosts thread ⟨op, answer⟩ other).2 = .cleared slot) :
    (state'.sessionArray slot).recvBuffer.content = [] := by
  have kept (tidied : (ghosts other).2 = .cleared slot) (unused : op ≠ .session slot .clearRecvBuffer ∨ other ≠ thread) :
      (state'.sessionArray slot).recvBuffer.content = [] := by
    rw [perform_recvBuffer (Bool.eq_false_iff.mpr fun stirs => ?_) performed]
    · exact ringed.cleared other slot tidied
    · rcases stirs_cases permitted stirs with own | ⟨same, deleting⟩
      · exact ringed.untidying alive own other (by rw [tidied]; rfl)
      · rcases unused with different | different
        · exact different same
        · rcases deleting_of_tidying ringed alive other (by rw [tidied]; rfl) with ⟨life, current, _, _, phase⟩
          rcases deleting_of_tidying ringed alive thread (by rw [deleting]; rfl) with ⟨_, current', _, _, phase'⟩
          cases current.symm.trans current'
          cases phase.symm.trans phase'
          exact different rfl
  unfold advanced at cleared
  rw [Function.update_apply] at cleared
  split at cleared
  next same =>
    subst same
    by_cases untidying : op.untidying = true
    · refine kept (((untidying_ignored untidying (ghosts other).2).2 answer).symm.trans cleared) (Or.inl ?_)
      rintro rfl
      cases untidying
    cases op with
    | session target op =>
        cases op with
        | compareExchangeIo =>
            change (if IoCount.isZero answer = true then Tidying.deleting target else (ghosts other).2) = _ at cleared
            have away : (ghosts other).2 = .away := permitted.2
            rw [away] at cleared
            split at cleared <;> cases cleared
        | clearRecvBuffer =>
            cases cleared
            rcases perform_session performed with ⟨s', inner, rfl⟩
            cases inner
            rw [State.setSession_same]
            exact RingBuffer.content_clear _
        | _ => exact absurd rfl untidying
    | pushIndex index => cases cleared
    | _ => exact absurd rfl untidying
  next different => exact kept cleared (Or.inr different)

theorem Ringed.vacant_step (ringed : Ringed settings state ghosts history)
    (alive : Alive settings state (standings ghosts) history)
    (permitted : ringing.permits (ghosts thread) op)
    (performed : perform choice state op = some (answer, state')) (slot : Slot) (life' : Life (Thread workers contents))
    (current' : lifeAfter settings.maxSession slot ((thread, ⟨op, answer⟩) :: history) = some life')
    (awaits : life'.phase.awaits = true) : (state'.sessionArray slot).recvBuffer.content = [] := by
  rcases Option.bind_eq_some_iff.mp current' with ⟨life, current, moved⟩
  rcases next_awaits moved awaits with before | pushes
  · rw [perform_recvBuffer (Bool.eq_false_iff.mpr fun stirs => ?_) performed]
    · exact ringed.vacant slot life current before
    · rcases stirs_cases permitted stirs with own | ⟨_, deleting⟩
      · rcases ringed.introduced alive own with ⟨_, again, _, introduced⟩
        cases current.symm.trans again
        exact Bool.noConfusion ((Phase.unintroduced_of_awaits before).symm.trans introduced)
      · rcases deleting_of_tidying ringed alive thread (by rw [deleting]; rfl) with ⟨_, again, _, _, phase⟩
        cases current.symm.trans again
        rw [phase] at before
        cases before
  · cases (pushes : op = .pushIndex slot)
    rcases permitted.2 with ⟨tidied, cleared⟩
    rcases permitted.1.1 with ⟨target, id, deleting, same⟩
    have deletes := ringed.tidied thread tidied (by rw [show (ghosts thread).2 = _ from cleared]; rfl)
    have tidying : tidied = target := by
      rcases deletes with other | ⟨_, other⟩ <;> cases deleting.symm.trans other
      rfl
    rcases alive.slots target with ⟨_, _, fits⟩
    have leaving : (standings ghosts thread).stage = .deletingAs target id ∨
        (standings ghosts thread).stage = .introducing target id := Or.inl deleting
    have own : getIndex id = target := fits.aligned leaving
    have here : tidied = slot := tidying.trans (own.symm.trans same.symm)
    rw [perform_recvBuffer rfl performed, ← here]
    exact ringed.cleared thread tidied cleared

theorem Ringed.step (ringed : Ringed settings state ghosts history)
    (alive : Alive settings state (standings ghosts) history)
    (permitted : ringing.permits (ghosts thread) op)
    (performed : perform choice state op = some (answer, state')) :
    Ringed settings state' (advanced ghosts thread ⟨op, answer⟩) ((thread, ⟨op, answer⟩) :: history) where
  receiving := ringed.receiving_step
  tidied := ringed.tidied_step permitted
  single := ringed.single_step alive permitted performed
  posted := ringed.posted_step alive permitted performed
  asked := ringed.asked_step alive permitted performed
  starved := ringed.starved_step alive permitted performed
  cleared := ringed.cleared_step alive permitted performed
  vacant := ringed.vacant_step alive permitted performed

end Steps

theorem ringed_initial : Ringed settings (State.initial settings.maxSession)
    (fun _ : Thread workers contents => ringing.start) [] where
  receiving := nofun
  tidied := fun _ => nofun
  single := by
    intro slot
    have nobody : tally (rightTo slot) (fun _ : Thread workers contents => ringing.start) = 0 :=
      (tally_eq_zero_iff _ _).mpr fun _ => rfl
    rw [nobody]
    exact Nat.zero_le 1
  posted := fun _ _ => nofun
  asked := nofun
  starved := nofun
  cleared := nofun
  vacant := fun _ _ _ _ => RingBuffer.content_clear emptyRecvBuffer

theorem Ringed.takeUp {state : State} {ghosts : Thread workers contents -> ringing.Ghost}
    {history : List (Thread workers contents × Event interface)} {thread : Thread workers contents}
    (ringed : Ringed settings state ghosts history) :
    Ringed settings state (Function.update ghosts thread ringing.start) history where
  receiving := by
    intro other slot own
    rw [Function.update_apply] at own ⊢
    split at own
    next => cases own
    next different =>
      rw [if_neg different]
      exact ringed.receiving other slot own
  tidied := by
    intro other
    rw [Function.update_apply]
    split
    next => exact fun _ => nofun
    next => exact ringed.tidied other
  single := by
    intro slot
    have before := ringed.single slot
    have less := tally_update (rightTo slot) ghosts thread ringing.start
    have none : rightTo slot ringing.start = 0 := rfl
    omega
  posted := ringed.posted
  asked := by
    intro other slot buffers own asked
    rw [Function.update_apply] at own asked
    split at own
    next => cases own
    next different =>
      rw [if_neg different] at asked
      exact ringed.asked other slot buffers own asked
  starved := by
    intro other slot own exhausted
    rw [Function.update_apply] at own exhausted
    split at own
    next => cases own
    next different =>
      rw [if_neg different] at exhausted
      exact ringed.starved other slot own exhausted
  cleared := by
    intro other slot cleared
    rw [Function.update_apply] at cleared
    split at cleared
    next => cases cleared
    next => exact ringed.cleared other slot cleared
  vacant := ringed.vacant

/-- What a completion does to a session. -/
theorem surround_ring {state state' : State} {change : Surroundings} (changed : surround state change = some state')
    (slot : Slot) :
    ((forall position success data, change ≠ .completeRecv slot position success data) ∧
        (state'.sessionArray slot).recvBuffer = (state.sessionArray slot).recvBuffer ∧
        (state'.sessionArray slot).pendingRecvs = (state.sessionArray slot).pendingRecvs) ∨
      Exists fun position => Exists fun success => Exists fun data => Exists fun pending =>
        change = .completeRecv slot position success data ∧
          (state.sessionArray slot).pendingRecvs[position]? = some pending ∧
          data.length ≤ totalLength pending.buffers ∧
          (state'.sessionArray slot).recvBuffer = { (state.sessionArray slot).recvBuffer with
            buffer := fill (state.sessionArray slot).recvBuffer.buffer pending.buffers data } ∧
          (state'.sessionArray slot).pendingRecvs = (state.sessionArray slot).pendingRecvs.eraseIdx position ∧
          state'.port = state.port ++ [⟨slot, success, BitVec.ofNat 32 data.length, .recv⟩] := by
  cases change with
  | completeSend target position success transfer =>
      simp only [surround] at changed
      split at changed
      next => cases changed
      next pending found =>
        split at changed <;> cases changed
        refine Or.inl ⟨(fun _ _ _ equal => by cases equal), ?_⟩
        by_cases same : slot = target
        · subst same
          simp
        · simp [same]
  | completeRecv target position success data =>
      simp only [surround] at changed
      split at changed
      next => cases changed
      next pending found =>
        split at changed <;> cases changed
        next legal =>
          by_cases same : slot = target
          · subst same
            exact Or.inr ⟨position, success, data, pending, rfl, found, legal.1, by simp, by simp, rfl⟩
          · refine Or.inl ⟨fun _ _ _ equal => ?_, by simp [same]⟩
            cases equal
            exact same rfl
  | tick count =>
      simp only [surround] at changed
      split at changed <;> cases changed
      exact Or.inl ⟨(fun _ _ _ equal => by cases equal), rfl, rfl⟩

theorem Ringed.surround {state state' : State} {ghosts : Thread workers contents -> ringing.Ghost}
    {history : List (Thread workers contents × Event interface)} {change : Surroundings}
    (ringed : Ringed settings state ghosts history) (changed : Network.surround state change = some state') :
    Ringed settings state' ghosts history := by
  have emptied (slot : Slot) (empty : (state.sessionArray slot).recvBuffer.content = []) :
      (state'.sessionArray slot).recvBuffer.content = [] := by
    rcases surround_ring changed slot with ⟨_, same, _⟩ | ⟨_, _, _, _, _, _, _, same, _⟩
    · rw [same]
      exact empty
    · refine content_of_pointers ?_ empty
      rw [same]
      rfl
  exact { ringed with
    single := fun slot => by rw [surround_recvHolds changed]; exact ringed.single slot
    posted := by
      intro slot pending there
      rcases surround_ring changed slot with ⟨_, same, kept⟩ | ⟨position, _, _, gone, _, found, _, _, erased, _⟩
      · rw [kept] at there
        rw [same]
        exact ringed.posted slot pending there
      · have inside := (List.getElem?_eq_some_iff.mp found).1
        have single := ringed.single slot
        have some := List.length_pos_of_mem there
        rw [erased, List.length_eraseIdx_of_lt inside] at some
        unfold State.recvHolds at single
        omega
    asked := by
      intro thread slot buffers own asked
      rcases surround_ring changed slot with ⟨_, same, _⟩ | ⟨_, _, _, _, _, _, _, same, _⟩
      · rw [same]
        exact ringed.asked thread slot buffers own asked
      · rw [same]
        exact ringed.asked thread slot buffers own asked
    starved := by
      intro thread slot own exhausted
      rcases surround_ring changed slot with ⟨_, same, _⟩ | ⟨position, _, _, _, _, found, _⟩
      · rw [same]
        exact ringed.starved thread slot own exhausted
      · have inside := (List.getElem?_eq_some_iff.mp found).1
        have single := ringed.single slot
        have one := rightTo_eq_one own
        have least := le_tally (rightTo slot) ghosts thread
        unfold State.recvHolds at single
        omega
    cleared := fun thread slot cleared => emptied slot (ringed.cleared thread slot cleared)
    vacant := fun slot life current awaits => emptied slot (ringed.vacant slot life current awaits) }

theorem standings_ghosts (c : (server settings workers contents).Config) :
    standings (ringing.ghosts c) = living.ghosts c := by
  funext thread
  change (ringing.ghosts c thread).1.1 = _
  rw [Layer.ghosts_fst, Layer.ghosts_fst]

theorem ringed_preserved : ringing.Preserved (server settings workers contents) handedOut (Ringed settings) where
  initial := ringed_initial
  act := by
    intro c thread op next choice answer state reach turn ringed permitted performed lawful
    have alive : Alive settings c.state (standings (ringing.ghosts c)) c.history := by
      rw [standings_ghosts]
      exact alive_of_reach (informed_of_reach reach).1
    exact ⟨⟨⟨trivial, trivial⟩, trivial⟩, ringed.step alive permitted performed⟩
  takeUp := fun _ _ _ _ ringed _ => ringed.takeUp
  surround := fun _ _ _ _ _ ringed changed => ringed.surround changed

theorem jobs_ringing {thread : Thread workers contents} {job : Job} {program : NetProgram Unit}
    (chosen : jobProgram settings thread job = some program) :
    ringing.Obeys program ringing.start fun ghost _ => ringing.finish ghost :=
  Layer.obeys_beside (jobs_rightful chosen) (jobs_tidying chosen)

/-- The next operation of the program is one on the ring of the session. -/
def worksOnRing (slot : Slot) : NetProgram Unit -> Bool
  | .step (.session target op) _ => target == slot && op.rings
  | _ => false

section Reached

variable {c : (server settings workers contents).Config}
  (reach : (server settings workers contents).Reach handedOut c)
include reach

theorem ringed_of_reach : Ringed settings c.state (ringing.ghosts c) c.history :=
  (Discipline.sound ringed_preserved (fun _ _ _ => jobs_ringing) reach).1

theorem ringing_permits {thread : Thread workers contents} {op : Op} {next : op.Answer -> NetProgram Unit}
    (turn : c.running thread = .step (I := interface) op next) : ringing.permits (ringing.ghosts c thread) op := by
  have obeys := (Discipline.sound ringed_preserved (fun _ _ _ => jobs_ringing) reach).2 thread
  rw [turn] at obeys
  exact obeys.1

/-- Who works on a ring has the right to receive, or clears it. -/
theorem rings_cases {thread : Thread workers contents} {slot : Slot}
    (works : worksOnRing slot (c.running thread) = true) :
    (ringing.ghosts c thread).1.2.slot = some slot ∨ (ringing.ghosts c thread).2 = .deleting slot := by
  unfold worksOnRing at works
  split at works
  next target op next turn =>
    have permitted := ringing_permits reach turn
    rcases Bool.and_eq_true_iff.mp works with ⟨same, rings⟩
    cases beq_iff_eq.mp same
    cases op with
    | recved transfer => exact Or.inl permitted.1.2.1
    | recvedPacket p => exact Or.inl permitted.1.2.1.1
    | recvBuffers => exact Or.inl permitted.1.2.1.1
    | clearRecvBuffer => exact Or.inr permitted.2
    | _ => cases rings
  next => cases works

/-- In every run in which content code uses IDs that have been handed out (`handedOut`), while a
thread is about to work on the ring of a session, nobody else is, and no receive is outstanding
or waiting in the completion port.  So `recvBuffer` needs no lock. -/
theorem ring_exclusive {thread : Thread workers contents} {slot : Slot}
    (works : worksOnRing slot (c.running thread) = true) :
    c.state.recvHolds slot = 0 ∧ forall other, other ≠ thread -> worksOnRing slot (c.running other) = false := by
  have ringed := ringed_of_reach reach
  have alive : Alive settings c.state (standings (ringing.ghosts c)) c.history := by
    rw [standings_ghosts]
    exact alive_of_reach (informed_of_reach reach).1
  have single := ringed.single slot
  rcases rings_cases reach works with own | deleting
  · have one := rightTo_eq_one own
    have least := le_tally (rightTo slot) (ringing.ghosts c) thread
    refine ⟨by omega, fun other different => Bool.eq_false_iff.mpr fun another => ?_⟩
    rcases rings_cases reach another with second | deleting
    · have both := add_le_tally (rightTo slot) (ringing.ghosts c) different
      have two := rightTo_eq_one second
      omega
    · exact ringed.untidying alive own other (by rw [deleting]; rfl)
  · rcases deleting_of_tidying ringed alive thread (by rw [deleting]; rfl) with
      ⟨life, current, fits, id, phase⟩
    refine ⟨(ringed.nobody fits (by rw [phase]; rfl)).1, fun other different => Bool.eq_false_iff.mpr fun another => ?_⟩
    rcases rings_cases reach another with own | deletes
    · exact ringed.untidying alive own thread (by rw [deleting]; rfl)
    · rcases deleting_of_tidying ringed alive other (by rw [deletes]; rfl) with ⟨_, again, _, _, phase'⟩
      cases current.symm.trans again
      cases phase.symm.trans phase'
      exact different rfl

omit reach in
theorem ring_exclusive_oneByte : Exists fun c : (server oneSession 1 0).Config =>
    worksOnRing 0 (c.running (.worker ⟨0, Nat.one_pos⟩)) = true ∧ c.state.recvHolds 0 = 0 ∧
      worksOnRing 0 (c.running .accept) = false := by
  have run : Exists fun c : (server oneSession 1 0).Config => (server oneSession 1 0).Reach handedOut c ∧
      worksOnRing 0 (c.running (.worker ⟨0, Nat.one_pos⟩)) = true :=
    Machine.exists_of_runSchedule (firstBytes [7] 1) _ (by decide +kernel)
  rcases run with ⟨c, reach, works⟩
  rcases ring_exclusive reach works with ⟨nothing, nobody⟩
  exact ⟨c, works, nothing, nobody .accept nofun⟩

/-- In every run in which content code uses IDs that have been handed out (`handedOut`), an
outstanding receive is the only one of its session.  It was posted with the free bytes of the
ring, and what it stores changes no readable byte. -/
theorem receives_intoFree {slot : Slot} {pending : PendingRecv}
    (there : pending ∈ (c.state.sessionArray slot).pendingRecvs) :
    c.state.recvHolds slot = 1 ∧
      (forall buffer, buffer ∈ pending.buffers ->
        buffer.offset + buffer.length ≤ (c.state.sessionArray slot).recvBuffer.bufferSize ∧
          forall offset, buffer.Covers offset -> ¬ Readable (c.state.sessionArray slot).recvBuffer offset) ∧
      forall change state, surround c.state change = some state ->
        (state.sessionArray slot).recvBuffer.content = (c.state.sessionArray slot).recvBuffer.content := by
  have ringed := ringed_of_reach reach
  have single := ringed.single slot
  have least := List.length_pos_of_mem there
  have free := ringed.posted slot pending there
  refine ⟨?_, ?_, ?_⟩
  · unfold State.recvHolds at single ⊢
    omega
  · intro buffer member
    rw [free, recvBuffers_eq] at member
    exact wsaBuffers_free _ member
  · intro change state changed
    rcases surround_ring changed slot with ⟨_, same, _⟩ | ⟨position, success, data, own, _, found, legal, same, _⟩
    · rw [same]
    · have posted := ringed.posted slot own (List.mem_of_getElem? found)
      rw [posted, totalLength_recvBuffers] at legal
      rw [same, posted]
      exact receiveInto_content _ data legal

omit reach in
theorem receives_intoFree_newClient : Exists fun c : (server oneSession 1 0).Config =>
    Exists fun pending => pending ∈ (c.state.sessionArray 0).pendingRecvs ∧ c.state.recvHolds 0 = 1 := by
  have run : Exists fun c : (server oneSession 1 0).Config => (server oneSession 1 0).Reach handedOut c ∧
      (!(State.sessionArray c.state 0).pendingRecvs.isEmpty) = true :=
    Machine.exists_of_runSchedule ([.takeUp .accept Job.loop] ++ acts .accept 25 usual) _ (by decide +kernel)
  rcases run with ⟨c, reach, posted⟩
  cases pendings : (c.state.sessionArray 0).pendingRecvs with
  | nil =>
      rw [pendings] at posted
      cases posted
  | cons pending rest =>
      have there : pending ∈ (c.state.sessionArray 0).pendingRecvs := by
        rw [pendings]
        exact List.mem_cons_self
      exact ⟨c, pending, there, (receives_intoFree reach there).1⟩

end Reached

end Runs

end Network
end LoginServer
