import LoginServer.Network.Cancellation
import LoginServer.Network.Identifiers
import LoginServer.Network.Review

namespace LoginServer
namespace Network

open Memory Buffers Receiving Login Concurrency

/-!
# No login after a rejection

Between two completions a rejection is final: the flag it sets ends the right
to receive, and no other thread has that right.  Within a completion it is
not, since the loop over the frames does not look at the flag.  Runs in which
the frames behind a rejected one would be turned away anyway are those that
the law is proved for.
-/

/-! ## The right to receive -/

/-- An event that brings the right to receive. -/
def grants : Event interface -> Option Slot
  | ⟨.getQueuedCompletionStatus, completion⟩ => received completion
  | ⟨.mark (.onNewConnect id), _⟩ => some (getIndex id)
  | _ => none

/-- Operations after which a thread can still have the right it had before. -/
def Op.keepsToken : Op -> Bool
  | .getQueuedCompletionStatus => false
  | .mark (.onNewConnect _) => false
  | .session _ (.wsaRecv _) => false
  | _ => true

theorem tokenAfter_cases {token : Option Slot} {op : Op} {answer : op.Answer} {slot : Slot}
    (after : tokenAfter token ⟨op, answer⟩ = some slot) :
    grants ⟨op, answer⟩ = some slot ∨ op.keepsToken = true ∧ token = some slot := by
  cases op with
  | session target op =>
      cases op with
      | wsaRecv buffers => cases after
      | loadCancelIoFlag =>
          simp only [tokenAfter] at after
          split at after
          · cases after
          · exact Or.inr ⟨rfl, after⟩
      | _ => exact Or.inr ⟨rfl, after⟩
  | mark note => cases note <;> first | exact Or.inl after | exact Or.inr ⟨rfl, after⟩
  | getQueuedCompletionStatus => exact Or.inl after
  | _ => exact Or.inr ⟨rfl, after⟩

/-- A hold is given away only when there is another, so the right stays. -/
theorem receiving_kept {position : Position} {op : Op} {answer : op.Answer} {slot : Slot}
    (keeps : op.keepsToken = true) (receiving : position.account.receiving = some slot)
    (rest : givesAway op = some slot -> 2 ≤ position.account.owed slot) :
    (position.track ⟨op, answer⟩).account.receiving = some slot := by
  have kept (target : Slot) (given : target = slot -> 2 ≤ position.account.owed slot) :
      (position.account.remove target).receiving = some slot := by
    refine Option.filter_eq_some_iff.mpr ⟨receiving, decide_eq_true ?_⟩
    by_cases same : slot = target
    · have more := given same.symm
      subst same
      simp only [Owed.remove, Function.update_self]
      omega
    · rw [Owed.remove, Function.update_of_ne same]
      exact position.account.held slot receiving
  cases op with
  | session target op =>
      cases op with
      | decrementIo => exact kept target fun same => rest (congrArg some same)
      | wsaSend batch =>
          cases answer with
          | error code => exact receiving
          | _ => exact kept target fun same => rest (congrArg some same)
      | wsaRecv buffers => cases keeps
      | _ => exact receiving
  | postQueuedCompletionStatus target packet => exact kept target fun same => rest (congrArg some same)
  | getQueuedCompletionStatus => cases keeps
  | mark note => cases note <;> first | exact receiving | cases keeps
  | _ => exact receiving

theorem of_received {completion : Completion} {slot : Slot} (right : received completion = some slot) :
    completion.success = true ∧ completion.slot = slot ∧ completion.overlapped = .recv := by
  unfold received at right
  split at right
  next receives =>
    split at right
    next both =>
      cases right
      exact ⟨both.1, rfl, receives⟩
    next => cases right
  next => cases right

theorem dequeue_receiving {account : Account} {completion : Completion} {slot : Slot}
    (right : received completion = some slot) : (account.dequeue completion).receiving = some slot := by
  rcases of_received right with ⟨success, rfl, overlapped⟩
  unfold Account.dequeue
  rw [success, overlapped]
  exact Account.receive_receiving _ _ (Account.held_add _ _)

/-! ## Frames -/

theorem session_track {handling : Handling} {op : Op} {answer : op.Answer} {slot : Slot} {id : SessionID}
    (after : (handling.track ⟨op, answer⟩).session = some (slot, id)) :
    handling.session = some (slot, id) ∨ op = .mark (.onRecv slot id) := by
  cases op with
  | session target op => cases op <;> first | exact Or.inl after | cases after
  | mark note =>
      cases note with
      | onRecv target own =>
          cases after
          exact Or.inr rfl
      | findSession own => cases handling <;> exact Or.inl after
      | _ => exact Or.inl after
  | login op =>
      cases op with
      | redisSet field value expire => cases handling <;> exact Or.inl after
      | _ => exact Or.inl after
  | _ => exact Or.inl after

/-- The thread has rejected a frame of the session, in the round in which it receives
for it. -/
def Review.stops (review : Review) (slot : Slot) : Prop :=
  review.rejected = true ∨ review.handling.rejects slot = true

theorem slot_eq_iff {handling : Handling} {slot : Slot} :
    handling.slot = some slot ↔ Exists fun id => handling.session = some (slot, id) := by
  unfold Handling.slot
  constructor
  · intro there
    rcases Option.map_eq_some_iff.mp there with ⟨⟨target, id⟩, named, rfl⟩
    exact ⟨id, named⟩
  · rintro ⟨id, named⟩
    rw [named]
    rfl

theorem session_of_rejects {handling : Handling} {slot : Slot} (rejects : handling.rejects slot = true) :
    Exists fun id => handling = .rejecting slot id := by
  cases handling with
  | rejecting target id =>
      cases beq_iff_eq.mp (rejects : (target == slot) = true)
      exact ⟨id, rfl⟩
  | _ => cases rejects

/-- A thread that has rejected a frame does not write a key or send a response for
another. -/
theorem not_stops_of_mayAnswer {review : Review} {slot : Slot} (may : review.mayAnswer)
    (handles : review.handling.slot = some slot) : ¬ review.stops slot := by
  rcases review with ⟨token, handling, rejected⟩
  rintro (stopped | rejects)
  · cases handling with
    | away => cases handles
    | rejecting target id => exact may
    | _ => exact Bool.noConfusion ((may : rejected = false).symm.trans stopped)
  · rcases session_of_rejects rejects with ⟨id, rfl⟩
    exact may

theorem stops_track {position : Position} {review : Review} {op : Op} {answer : op.Answer} {slot : Slot}
    (permitted : reviewing.permits position review op) (keeps : op.keepsToken = true)
    (stops : review.stops slot) : (review.track ⟨op, answer⟩).stops slot := by
  rcases review with ⟨token, handling, rejected⟩
  rcases stops with stopped | rejects
  · cases (stopped : rejected = true)
    left
    cases op with
    | session target op =>
        cases op with
        | storeCancelIoFlag value => exact Bool.or_true _
        | _ => rfl
    | getQueuedCompletionStatus => cases keeps
    | mark note => cases note <;> first | rfl | cases keeps
    | _ => rfl
  · rcases session_of_rejects rejects with ⟨id, same⟩
    cases (same : handling = .rejecting slot id)
    cases op with
    | session target op =>
        cases op with
        | recvedPacket p => exact Or.inl (permitted.2 slot id rfl)
        | _ => exact Or.inr rejects
    | mark note =>
        cases note with
        | onRecv target own => cases permitted.2.2
        | _ => exact Or.inr rejects
    | login op => cases op <;> exact Or.inr rejects
    | _ => exact Or.inr rejects

/-! ## Receives in the kernel's keeping -/

theorem performSession_pendingRecvs {choice : Choice} {s s' : Session} {op : SessionOp} {answer : op.Answer}
    (performed : performSession choice s op = some (answer, s'))
    (other : forall buffers, op ≠ .wsaRecv buffers) : s'.pendingRecvs.length = s.pendingRecvs.length := by
  by_cases quiet : op.quiet = true
  · exact (performSession_quiet quiet performed).pendingRecvs
  · cases op with
    | wsaRecv buffers => exact absurd rfl (other buffers)
    | compareExchangeIo =>
        cases performed
        split <;> rfl
    | wsaSend batch =>
        simp only [performSession] at performed
        split at performed <;> cases performed <;> rfl
    | _ => first | exact absurd rfl quiet | (cases performed; rfl)

theorem perform_recvHolds {choice : Choice} {state state' : State} {op : Op} {answer : op.Answer}
    (performed : perform choice state op = some (answer, state'))
    (dequeues : op ≠ .getQueuedCompletionStatus)
    (receives : forall slot buffers, op ≠ .session slot (.wsaRecv buffers))
    (slot : Slot) : state'.recvHolds slot = state.recvHolds slot := by
  cases op with
  | session target op =>
      rcases perform_session performed with ⟨s', inner, rfl⟩
      by_cases same : slot = target
      · subst same
        have pending := performSession_pendingRecvs inner fun buffers equal =>
          receives slot buffers (equal ▸ rfl)
        simp [State.recvHolds, pending]
      · simp [State.recvHolds, same]
  | postQueuedCompletionStatus target packet =>
      cases performed
      simp [State.recvHolds]
  | getQueuedCompletionStatus => exact absurd rfl dequeues
  | _ =>
      have same := perform_sameBut performed
      simp only [State.recvHolds, same.sessionArray (by simp [Op.component]),
        same.port (by simp [Op.component])]

/-- A dequeued receive is no longer in the kernel's keeping. -/
theorem dequeue_recvHolds {choice : Choice} {state state' : State} {completion : Completion}
    (performed : perform choice state .getQueuedCompletionStatus = some (completion, state')) (slot : Slot) :
    state'.recvHolds slot ≤ state.recvHolds slot ∧
      (received completion = some slot -> state'.recvHolds slot + 1 = state.recvHolds slot) := by
  simp only [perform] at performed
  split at performed
  next => cases performed
  next first rest queued =>
    cases performed
    simp only [State.recvHolds, queued, List.countP_cons]
    refine ⟨by omega, fun right => ?_⟩
    rcases of_received right with ⟨_, same, overlapped⟩
    rw [same, overlapped]
    simp only [beq_self_eq_true, Bool.and_self, if_true]
    omega

theorem wsaRecv_recvHolds {choice : Choice} {state state' : State} {target : Slot} {buffers : List WsaBuf}
    {result : IoResult}
    (performed : perform choice state (.session target (.wsaRecv buffers)) = some (result, state'))
    (slot : Slot) : state'.recvHolds slot ≤ state.recvHolds slot + if target = slot then 1 else 0 := by
  rcases perform_session performed with ⟨s', inner, rfl⟩
  by_cases same : slot = target
  · subst same
    simp only [performSession] at inner
    split at inner <;> cases inner <;> simp [State.recvHolds]
    all_goals omega
  · simp [State.recvHolds, same]

/-! ## What is not changed while a thread receives -/

theorem perform_id {choice : Choice} {state state' : State} {op : Op} {answer : op.Answer} {slot : Slot}
    (performed : perform choice state op = some (answer, state'))
    (kept : forall id, op ≠ .session slot (.storeId id)) :
    (state'.sessionArray slot).id = (state.sessionArray slot).id := by
  cases op with
  | session target op =>
      rcases perform_session performed with ⟨s', inner, rfl⟩
      by_cases same : slot = target
      · subst same
        rw [State.setSession_same]
        exact performSession_id inner fun id equal => kept id (equal ▸ rfl)
      · rw [State.setSession_other state s' same]
  | _ => rw [(perform_sameBut performed).sessionArray (by simp [Op.component])]

theorem flagSet_kept {Actor : Type} {actor : Actor} {history : List (Actor × Event interface)} {op : Op}
    {answer : op.Answer} {slot : Slot} (set : flagSet slot history = true)
    (kept : op ≠ .session slot (.storeCancelIoFlag false)) :
    flagSet slot ((actor, ⟨op, answer⟩) :: history) = true := by
  cases op with
  | session target op =>
      cases op with
      | storeCancelIoFlag value =>
          simp only [flagSet]
          split
          next same =>
            subst same
            cases value with
            | true => rfl
            | false => exact absurd rfl kept
          next => exact set
      | _ => exact set
  | _ => exact set

/-! ## Runs -/

section Runs

variable {workers contents : Nat} {settings : Settings}

/-- 1 for a thread with the right to receive for a session. -/
def rights (slot : Slot) (ghost : reviewing.whole.Ghost) : Nat :=
  if Review.token ghost.2 = some slot then 1 else 0

/-- What holds of the reviews of all threads. -/
structure Reviewed (state : State) (ghosts : Thread workers contents -> reviewing.whole.Ghost)
    (history : List (Thread workers contents × Event interface)) : Prop where
  handling : forall thread, (verdictsAfter history).handling thread = (ghosts thread).2.handling
  flag : forall slot, (state.sessionArray slot).cancelIoFlag = flagSet slot history
  receiving : forall thread slot, (ghosts thread).2.token = some slot ->
    (ghosts thread).1.account.receiving = some slot
  named : forall thread slot id, (ghosts thread).2.handling.session = some (slot, id) ->
    (ghosts thread).2.token = some slot ∧ (state.sessionArray slot).id = id
  /-- Somebody may receive for a session, or the kernel does. -/
  single : forall slot, state.recvHolds slot + tally (rights slot) ghosts ≤ 1
  stopped : forall slot, (verdictsAfter history).rejected slot = true -> state.recvHolds slot = 0 ∧
    forall thread, (ghosts thread).2.token = some slot -> (ghosts thread).2.stops slot
  flagged : forall thread slot, (ghosts thread).2.token = some slot ->
    (ghosts thread).2.rejected = true -> flagSet slot history = true
  punctual : forall slot, (verdictsAfter history).late slot = false

section Steps

variable {state state' : State} {ghosts : Thread workers contents -> reviewing.whole.Ghost}
  {history : List (Thread workers contents × Event interface)} {thread : Thread workers contents}
  {op : Op} {answer : op.Answer} {choice : Choice}

/-- The positions of all threads. -/
abbrev positions (ghosts : Thread workers contents -> reviewing.whole.Ghost) :
    Thread workers contents -> Position := fun thread => (ghosts thread).1

theorem Reviewed.introduced (reviewed : Reviewed state ghosts history)
    (alive : Alive settings state (positions ghosts) history) {other : Thread workers contents} {slot : Slot}
    (token : (ghosts other).2.token = some slot) :
    Exists fun life => SlotFits state (positions ghosts) slot life ∧ life.phase.isIntroduced = true := by
  rcases alive.slots slot with ⟨life, _, fits⟩
  exact ⟨life, fits, fits.receiving other (reviewed.receiving other slot token)⟩

/-- `OnNewConnect` is called for a session that nobody receives for. -/
theorem announcing (alive : Alive settings state (positions ghosts) history) {id : SessionID}
    (permitted : living.permits (ghosts thread).1 (.mark (.onNewConnect id))) :
    Exists fun life => SlotFits state (positions ghosts) (getIndex id) life ∧
      life.phase.isIntroduced = false ∧ 1 ≤ (ghosts thread).1.account.owed (getIndex id) := by
  rcases permitted with ⟨target, stage⟩
  rcases alive.slots target with ⟨life, _, fits⟩
  have introducing : (positions ghosts thread).stage = .deletingAs target id ∨
      (positions ghosts thread).stage = .introducing target id := Or.inr stage
  have own : getIndex id = target := fits.aligned introducing
  have staged := fits.stage thread
  unfold StageFits at staged
  rw [show (positions ghosts thread).stage = .introducing target id from stage] at staged
  rcases staged rfl with ⟨_, held, phase⟩
  rw [own]
  exact ⟨life, fits, by rw [phase]; rfl, held⟩

theorem Reviewed.id_kept (reviewed : Reviewed state ghosts history)
    (alive : Alive settings state (positions ghosts) history)
    (permitted : reviewing.whole.permits (ghosts thread) op)
    (performed : perform choice state op = some (answer, state')) {other : Thread workers contents}
    {slot : Slot} (token : (ghosts other).2.token = some slot) :
    (state'.sessionArray slot).id = (state.sessionArray slot).id := by
  rcases reviewed.introduced alive token with ⟨life, fits, introduced⟩
  refine perform_id performed ?_
  rintro id rfl
  have staged := fits.stage thread
  unfold StageFits at staged
  rw [show (positions ghosts thread).stage = .popped slot from permitted.1.1] at staged
  rcases (staged rfl).2 with ⟨used, phase⟩
  rw [phase] at introduced
  cases introduced

/-- The flag of a session that somebody receives for is not cleared. -/
theorem Reviewed.not_clears (reviewed : Reviewed state ghosts history)
    (alive : Alive settings state (positions ghosts) history)
    (permitted : reviewing.whole.permits (ghosts thread) op) {other : Thread workers contents} {slot : Slot}
    (token : (ghosts other).2.token = some slot) : op ≠ .session slot (.storeCancelIoFlag false) := by
  rcases reviewed.introduced alive token with ⟨life, fits, introduced⟩
  rintro rfl
  rcases permitted.2.2 with ⟨id, held, stage⟩
  have staged := fits.stage thread
  unfold StageFits at staged
  rw [show (positions ghosts thread).stage = .starting slot id held from stage] at staged
  rcases (staged rfl).2.2 with ⟨used, phase⟩
  rw [phase] at introduced
  cases introduced

/-- The reviews and positions after a step. -/
abbrev stepped (ghosts : Thread workers contents -> reviewing.whole.Ghost) (thread : Thread workers contents)
    (event : Event interface) : Thread workers contents -> reviewing.whole.Ghost :=
  Function.update ghosts thread (reviewing.whole.track (ghosts thread) event)

theorem Reviewed.receiving_step (reviewed : Reviewed state ghosts history)
    (alive : Alive settings state (positions ghosts) history)
    (permitted : reviewing.whole.permits (ghosts thread) op) (other : Thread workers contents) (slot : Slot)
    (token : (stepped ghosts thread ⟨op, answer⟩ other).2.token = some slot) :
    (stepped ghosts thread ⟨op, answer⟩ other).1.account.receiving = some slot := by
  unfold stepped at token ⊢
  rw [Function.update_apply] at token ⊢
  split at token
  next same =>
    rw [if_pos same]
    rcases tokenAfter_cases token with granted | ⟨keeps, before⟩
    · cases op with
      | getQueuedCompletionStatus => exact dequeue_receiving granted
      | mark note =>
          cases note with
          | onNewConnect id =>
              cases granted
              rcases announcing alive permitted.1 with ⟨_, _, _, held⟩
              exact Account.receive_receiving _ _ held
          | _ => cases granted
      | _ => cases granted
    · exact receiving_kept keeps (reviewed.receiving thread slot before) fun given =>
        permitted.2.1 slot given before
  next different =>
    rw [if_neg different]
    exact reviewed.receiving other slot token

/-- A thread that handles a frame keeps the right to receive. -/
theorem token_of_session {position : Position} {review : Review} {own : Slot × SessionID}
    (permitted : reviewing.permits position review op) (handles : review.handling.session = some own) :
    tokenAfter review.token ⟨op, answer⟩ = review.token := by
  have busy : review.handling ≠ .away := by
    intro away
    rw [away] at handles
    cases handles
  cases op with
  | session target op =>
      cases op with
      | wsaRecv buffers => exact absurd permitted.2.2.1 busy
      | loadCancelIoFlag => exact absurd permitted.2 busy
      | _ => rfl
  | getQueuedCompletionStatus => exact absurd permitted.2 busy
  | mark note =>
      cases note with
      | onNewConnect id => exact absurd permitted.2 busy
      | _ => rfl
  | _ => rfl

theorem Reviewed.named_step (reviewed : Reviewed state ghosts history)
    (alive : Alive settings state (positions ghosts) history)
    (permitted : reviewing.whole.permits (ghosts thread) op)
    (performed : perform choice state op = some (answer, state')) (other : Thread workers contents)
    (slot : Slot) (id : SessionID)
    (handles : (stepped ghosts thread ⟨op, answer⟩ other).2.handling.session = some (slot, id)) :
    (stepped ghosts thread ⟨op, answer⟩ other).2.token = some slot ∧ (state'.sessionArray slot).id = id := by
  unfold stepped at handles ⊢
  rw [Function.update_apply] at handles ⊢
  split at handles
  next same =>
    rw [if_pos same]
    rcases session_track handles with before | entering
    · rcases reviewed.named thread slot id before with ⟨token, named⟩
      refine ⟨(token_of_session permitted.2 before).trans token, ?_⟩
      rw [reviewed.id_kept alive permitted performed token]
      exact named
    · subst entering
      have token : (ghosts thread).2.token = some slot := permitted.2.2.1
      rcases reviewed.introduced alive token with ⟨life, fits, _⟩
      rcases permitted.1 with ⟨idle, receiving, loaded⟩
      refine ⟨token, ?_⟩
      rw [reviewed.id_kept alive permitted performed token]
      exact fits.read idle ((ghosts thread).1.account.held slot receiving) loaded
  next different =>
    rw [if_neg different]
    rcases reviewed.named other slot id handles with ⟨token, named⟩
    refine ⟨token, ?_⟩
    rw [reviewed.id_kept alive permitted performed token]
    exact named

theorem rights_le_one (slot : Slot) (ghost : reviewing.whole.Ghost) : rights slot ghost ≤ 1 := by
  unfold rights
  split <;> omega

theorem rights_eq_one {slot : Slot} {ghost : reviewing.whole.Ghost} (token : Review.token ghost.2 = some slot) :
    rights slot ghost = 1 := if_pos token

theorem rights_eq_zero {slot : Slot} {ghost : reviewing.whole.Ghost} (token : Review.token ghost.2 ≠ some slot) :
    rights slot ghost = 0 := if_neg token

theorem Reviewed.single_step (reviewed : Reviewed state ghosts history)
    (alive : Alive settings state (positions ghosts) history)
    (permitted : reviewing.whole.permits (ghosts thread) op)
    (performed : perform choice state op = some (answer, state')) (slot : Slot) :
    state'.recvHolds slot + tally (rights slot) (stepped ghosts thread ⟨op, answer⟩) ≤ 1 := by
  have before := reviewed.single slot
  have change : tally (rights slot) (stepped ghosts thread ⟨op, answer⟩) + rights slot (ghosts thread) =
      tally (rights slot) ghosts + rights slot (reviewing.whole.track (ghosts thread) ⟨op, answer⟩) :=
    tally_update (rights slot) ghosts thread _
  by_cases granted : grants ⟨op, answer⟩ = some slot
  · have one := rights_le_one slot (reviewing.whole.track (ghosts thread) ⟨op, answer⟩)
    cases op with
    | getQueuedCompletionStatus =>
        have holds := (dequeue_recvHolds performed slot).2 granted
        omega
    | mark note =>
        cases note with
        | onNewConnect id =>
            cases granted
            cases performed
            rcases announcing alive permitted.1 with ⟨life, fits, fresh, _⟩
            have nobody : tally (rights (getIndex id)) ghosts = 0 := by
              refine (tally_eq_zero_iff _ _).mpr fun other => rights_eq_zero fun token => ?_
              have introduced := fits.receiving other (reviewed.receiving other _ token)
              exact Bool.noConfusion (fresh.symm.trans introduced)
            have nothing := fits.received fresh
            omega
        | _ => cases granted
    | _ => cases granted
  · have kept (after : tokenAfter (ghosts thread).2.token ⟨op, answer⟩ = some slot) :
        (ghosts thread).2.token = some slot := ((tokenAfter_cases after).resolve_left granted).2
    have fewer : rights slot (reviewing.whole.track (ghosts thread) ⟨op, answer⟩) ≤
        rights slot (ghosts thread) := by
      by_cases after : tokenAfter (ghosts thread).2.token ⟨op, answer⟩ = some slot
      · rw [rights_eq_one (kept after)]
        exact rights_le_one _ _
      · exact (rights_eq_zero after).le.trans (Nat.zero_le _)
    have holds : state'.recvHolds slot + rights slot (reviewing.whole.track (ghosts thread) ⟨op, answer⟩) ≤
        state.recvHolds slot + rights slot (ghosts thread) := by
      cases op with
      | getQueuedCompletionStatus =>
          have less := (dequeue_recvHolds performed slot).1
          omega
      | session target op =>
          cases op with
          | wsaRecv buffers =>
              have more := wsaRecv_recvHolds performed slot
              have gone : rights slot (reviewing.whole.track (ghosts thread)
                  ⟨.session target (.wsaRecv buffers), answer⟩) = 0 := rights_eq_zero nofun
              split at more
              next same =>
                subst same
                have own := rights_eq_one permitted.2.2.1
                omega
              next => omega
          | _ =>
              have same := perform_recvHolds performed (by simp) (by simp) slot
              omega
      | _ =>
          have same := perform_recvHolds performed (by simp) (by simp) slot
          omega
    omega

/-- The flag is set once a frame is rejected. -/
theorem Reviewed.flagged_step (reviewed : Reviewed state ghosts history)
    (alive : Alive settings state (positions ghosts) history)
    (permitted : reviewing.whole.permits (ghosts thread) op) (other : Thread workers contents) (slot : Slot)
    (token : (stepped ghosts thread ⟨op, answer⟩ other).2.token = some slot)
    (rejected : (stepped ghosts thread ⟨op, answer⟩ other).2.rejected = true) :
    flagSet slot ((thread, ⟨op, answer⟩) :: history) = true := by
  unfold stepped at token rejected
  rw [Function.update_apply] at token rejected
  split at token
  next same =>
    rw [if_pos same] at rejected
    have late : (ghosts thread).2.rejectedAfter ⟨op, answer⟩ = true := rejected
    rcases tokenAfter_cases token with granted | ⟨keeps, before⟩
    · cases op with
      | getQueuedCompletionStatus => cases late
      | mark note => cases note <;> first | cases late | cases granted
      | _ => cases granted
    · have earlier (already : (ghosts thread).2.rejected = true) :
          flagSet slot ((thread, (⟨op, answer⟩ : Event interface)) :: history) = true :=
        flagSet_kept (reviewed.flagged thread slot before already) (reviewed.not_clears alive permitted before)
      cases op with
      | session target op =>
          cases op with
          | storeCancelIoFlag value =>
              rcases Bool.or_eq_true_iff.mp late with now | already
              · rcases Bool.and_eq_true_iff.mp now with ⟨set, rejects⟩
                rcases session_of_rejects rejects with ⟨id, handling⟩
                have own := (reviewed.named thread target id (by rw [handling]; rfl)).1
                cases own.symm.trans before
                simp only [flagSet, if_true]
                exact set
              · exact earlier already
          | _ => exact earlier late
      | getQueuedCompletionStatus => cases keeps
      | mark note => cases note <;> first | exact earlier late | cases keeps
      | _ => exact earlier late
  next different =>
    rw [if_neg different] at rejected
    exact flagSet_kept (reviewed.flagged other slot token rejected) (reviewed.not_clears alive permitted token)

/-- A frame is rejected only by the thread that receives for the session. -/
theorem Reviewed.rejecting_step (reviewed : Reviewed state ghosts history)
    (asking : asks ⟨op, answer⟩ = true) (reading : (ghosts thread).2.handling.isReading = true) {slot : Slot}
    (handles : (ghosts thread).2.handling.slot = some slot) :
    (ghosts thread).2.token = some slot ∧ ((ghosts thread).2.track ⟨op, answer⟩).stops slot := by
  rcases slot_eq_iff.mp handles with ⟨id, named⟩
  refine ⟨(reviewed.named thread slot id named).1, ?_⟩
  cases op with
  | mark note =>
      cases note with
      | findSession asked =>
          refine Or.inr ?_
          change ((ghosts thread).2.handling.track ⟨.mark (.findSession asked), answer⟩).rejects slot = true
          cases handling : (ghosts thread).2.handling with
          | reading target own =>
              rw [handling] at handles
              cases handles
              exact beq_self_eq_true _
          | _ =>
              rw [handling] at reading
              cases reading
      | _ => cases asking
  | _ => cases asking

theorem Reviewed.stopped_step (reviewed : Reviewed state ghosts history)
    (permitted : reviewing.whole.permits (ghosts thread) op)
    (performed : perform choice state op = some (answer, state')) (slot : Slot)
    (rejected : (verdictsAfter ((thread, ⟨op, answer⟩) :: history)).rejected slot = true) :
    state'.recvHolds slot = 0 ∧ forall other, (stepped ghosts thread ⟨op, answer⟩ other).2.token = some slot ->
      (stepped ghosts thread ⟨op, answer⟩ other).2.stops slot := by
  have single := reviewed.single slot
  have handling := reviewed.handling thread
  rcases Bool.or_eq_true_iff.mp rejected with before | now
  · rcases Bool.and_eq_true_iff.mp before with ⟨earlier, same⟩
    rcases reviewed.stopped slot earlier with ⟨nothing, stops⟩
    constructor
    · cases op with
      | getQueuedCompletionStatus =>
          have fewer := (dequeue_recvHolds performed slot).1
          omega
      | session target op =>
          cases op with
          | wsaRecv buffers =>
              have more := wsaRecv_recvHolds performed slot
              rcases permitted.2.2 with ⟨token, away, clean⟩
              split at more
              next here =>
                subst here
                rcases stops thread token with set | rejects
                · exact Bool.noConfusion (clean.symm.trans set)
                · rw [away] at rejects
                  cases rejects
              next => omega
          | _ => exact (perform_recvHolds performed (by simp) (by simp) slot).trans nothing
      | _ => exact (perform_recvHolds performed (by simp) (by simp) slot).trans nothing
    · intro other token
      unfold stepped at token ⊢
      rw [Function.update_apply] at token ⊢
      split at token
      next here =>
        rw [if_pos here]
        rcases tokenAfter_cases token with granted | ⟨keeps, before⟩
        · cases op with
          | getQueuedCompletionStatus =>
              have holds := (dequeue_recvHolds performed slot).2 granted
              omega
          | mark note =>
              cases note with
              | onNewConnect id =>
                  cases granted
                  simp [introduces] at same
              | _ => cases granted
          | _ => cases granted
        · exact stops_track permitted.2 keeps (stops thread before)
      next different =>
        rw [if_neg different]
        exact stops other token
  · rcases Bool.and_eq_true_iff.mp now with ⟨both, handles⟩
    rcases Bool.and_eq_true_iff.mp both with ⟨asking, reading⟩
    rw [handling] at reading handles
    rcases reviewed.rejecting_step asking reading (beq_iff_eq.mp handles) with ⟨token, stops⟩
    have own := rights_eq_one token
    have least := le_tally (rights slot) ghosts thread
    constructor
    · cases op with
      | mark note =>
          have same := perform_recvHolds performed (by simp) (by simp) slot
          omega
      | _ => cases asking
    · intro other token'
      unfold stepped at token' ⊢
      rw [Function.update_apply] at token' ⊢
      split at token'
      next here =>
        rw [if_pos here]
        exact stops
      next different =>
        have both := add_le_tally (rights slot) ghosts different
        have another := rights_eq_one token'
        omega

theorem Reviewed.punctual_step (reviewed : Reviewed state ghosts history)
    (permitted : reviewing.whole.permits (ghosts thread) op) (slot : Slot) :
    (verdictsAfter ((thread, ⟨op, answer⟩) :: history)).late slot = false := by
  refine Bool.eq_false_iff.mpr fun late => ?_
  rcases Bool.or_eq_true_iff.mp late with before | now
  · exact Bool.noConfusion ((reviewed.punctual slot).symm.trans before)
  · rcases Bool.and_eq_true_iff.mp now with ⟨both, handles⟩
    rcases Bool.and_eq_true_iff.mp both with ⟨rejected, answering⟩
    rw [reviewed.handling thread, beq_iff_eq] at handles
    rcases slot_eq_iff.mp handles with ⟨id, named⟩
    have token := (reviewed.named thread slot id named).1
    have stops := (reviewed.stopped slot rejected).2 thread token
    have may : (ghosts thread).2.mayAnswer := by
      cases op with
      | login op => cases op <;> first | exact permitted.2.2 | cases answering
      | postQueuedCompletionStatus target packet => exact permitted.2.2
      | _ => cases answering
    exact not_stops_of_mayAnswer may handles stops

/-- What a thread counts on in the answers. -/
theorem Reviewed.expected (reviewed : Reviewed state ghosts history)
    (alive : Alive settings state (positions ghosts) history)
    (performed : perform choice state op = some (answer, state'))
    (behind : forall slot p, op = .session slot (.recvedPacket p) ->
      reviewing.expects (ghosts thread).1 (ghosts thread).2 ⟨op, answer⟩) :
    reviewing.expects (ghosts thread).1 (ghosts thread).2 ⟨op, answer⟩ := by
  cases op with
  | session target op =>
      cases op with
      | recvedPacket p => exact behind target p rfl
      | incrementIo =>
          rcases perform_session performed with ⟨s', inner, _⟩
          cases inner
          intro token
          rcases reviewed.introduced alive token with ⟨life, fits, introduced⟩
          have running : life.phase.isRunning = true := by
            cases phase : life.phase with
            | running id announced => rfl
            | _ =>
                rw [phase] at introduced
                cases introduced
          exact fits.opened running
      | loadId =>
          rcases perform_session performed with ⟨s', inner, _⟩
          cases inner
          refine ⟨fun token => ?_, fun own handles => (reviewed.named thread target own handles).2⟩
          rcases reviewed.introduced alive token with ⟨life, fits, introduced⟩
          cases phase : life.phase with
          | running id announced =>
              rcases fits.named id (by rw [phase]; rfl) with ⟨same, own⟩
              rw [same]
              exact own
          | _ =>
              rw [phase] at introduced
              cases introduced
      | loadCancelIoFlag =>
          rcases perform_session performed with ⟨s', inner, _⟩
          cases inner
          intro token rejected
          rw [reviewed.flag target]
          exact reviewed.flagged thread target token rejected
      | _ => trivial
  | _ => trivial

theorem Reviewed.step (reviewed : Reviewed state ghosts history)
    (alive : Alive settings state (positions ghosts) history)
    (permitted : reviewing.whole.permits (ghosts thread) op)
    (performed : perform choice state op = some (answer, state')) :
    Reviewed state' (stepped ghosts thread ⟨op, answer⟩) ((thread, ⟨op, answer⟩) :: history) where
  handling := by
    intro other
    have before := reviewed.handling
    simp only [verdictsAfter, Verdicts.next, stepped, Function.update_apply, before]
    split <;> rfl
  flag := fun slot => perform_cancelIoFlag performed (reviewed.flag slot)
  receiving := reviewed.receiving_step alive permitted
  named := reviewed.named_step alive permitted performed
  single := reviewed.single_step alive permitted performed
  stopped := reviewed.stopped_step permitted performed
  flagged := reviewed.flagged_step alive permitted
  punctual := reviewed.punctual_step permitted

end Steps

theorem reviewed_initial : Reviewed (State.initial settings.maxSession)
    (fun _ : Thread workers contents => reviewing.whole.start) [] where
  handling := fun _ => rfl
  flag := fun _ => rfl
  receiving := nofun
  named := nofun
  single := by
    intro slot
    have nobody : tally (rights slot) (fun _ : Thread workers contents => reviewing.whole.start) = 0 :=
      (tally_eq_zero_iff _ _).mpr fun _ => rfl
    rw [nobody]
    exact Nat.zero_le 1
  stopped := nofun
  flagged := nofun
  punctual := fun _ => rfl

/-- A thread that is done with its job has no frame in hand. -/
theorem Reviewed.takeUp {state : State} {ghosts : Thread workers contents -> reviewing.whole.Ghost}
    {history : List (Thread workers contents × Event interface)} {thread : Thread workers contents}
    (reviewed : Reviewed state ghosts history) (finished : (ghosts thread).2.handling = .away) :
    Reviewed state (Function.update ghosts thread reviewing.whole.start) history := by
  have change (slot : Slot) := tally_update (rights slot) ghosts thread reviewing.whole.start
  exact {
    handling := by
      intro other
      rw [reviewed.handling other, Function.update_apply]
      split
      next same =>
        rw [same, finished]
        rfl
      next => rfl
    flag := reviewed.flag
    receiving := by
      intro other slot token
      rw [Function.update_apply] at token ⊢
      split at token
      next => cases token
      next different =>
        rw [if_neg different]
        exact reviewed.receiving other slot token
    named := by
      intro other slot id handles
      rw [Function.update_apply] at handles ⊢
      split at handles
      next => cases handles
      next different =>
        rw [if_neg different]
        exact reviewed.named other slot id handles
    single := by
      intro slot
      have before := reviewed.single slot
      have less := change slot
      have none : rights slot reviewing.whole.start = 0 := rfl
      omega
    stopped := by
      intro slot rejected
      rcases reviewed.stopped slot rejected with ⟨nothing, stops⟩
      refine ⟨nothing, fun other token => ?_⟩
      rw [Function.update_apply] at token ⊢
      split at token
      next => cases token
      next different =>
        rw [if_neg different]
        exact stops other token
    flagged := by
      intro other slot token rejected
      rw [Function.update_apply] at token rejected
      split at token
      next => cases token
      next different =>
        rw [if_neg different] at rejected
        exact reviewed.flagged other slot token rejected
    punctual := reviewed.punctual }

theorem Reviewed.surround {state state' : State} {ghosts : Thread workers contents -> reviewing.whole.Ghost}
    {history : List (Thread workers contents × Event interface)} {change : Surroundings}
    (reviewed : Reviewed state ghosts history) (changed : surround state change = some state') :
    Reviewed state' ghosts history := by
  have fields := (surround_sameFields changed).1
  exact { reviewed with
    flag := fun slot => (fields slot).cancelIoFlag.trans (reviewed.flag slot)
    named := by
      intro thread slot id handles
      rcases reviewed.named thread slot id handles with ⟨token, named⟩
      exact ⟨token, (fields slot).id.trans named⟩
    single := fun slot => by rw [surround_recvHolds changed]; exact reviewed.single slot
    stopped := fun slot rejected => by rw [surround_recvHolds changed]; exact reviewed.stopped slot rejected }

/-- Content code asks about IDs that have been handed out, and behind a rejected frame a
completion brings only frames that `OnRecv` turns away.  The rest of a completion is handled
although `disconnectReq` has been called. -/
def turnedAwayBehind : (server settings workers contents).Rule := fun c thread event =>
  handedOut c thread event ∧
    match event with
    | ⟨.session _ (.recvedPacket _), result⟩ =>
        result.1 = true -> (Review.ofPast (c.past thread)).rejected = true -> turnsAway result.2 = true
    | _ => True

instance (c : (server settings workers contents).Config) (thread : Thread workers contents)
    (event : Event interface) : Decidable (turnedAwayBehind c thread event) := by
  unfold turnedAwayBehind
  split <;> infer_instance

theorem review_ofPast (past : List (Event interface)) : (reviewing.whole.ghost past).2 = Review.ofPast past := by
  induction past with
  | nil => rfl
  | cons event past inductionHypothesis =>
      rw [Discipline.ghost_cons]
      exact congrArg (Review.track · event) inductionHypothesis

theorem reviewed_preserved : reviewing.whole.Preserved (server settings workers contents) turnedAwayBehind
    Reviewed where
  initial := reviewed_initial
  act := by
    intro c thread op next choice answer state reach turn reviewed permitted performed lawful
    have alive : Alive settings c.state (positions (reviewing.whole.ghosts c)) c.history := by
      have same : positions (reviewing.whole.ghosts c) = living.ghosts c := funext (Layer.ghosts_fst c)
      rw [same]
      exact alive_of_reach (informed_of_reach (reach.mono fun _ _ _ lawful => lawful.1)).1
    refine ⟨⟨trivial, reviewed.expected alive performed ?_⟩, reviewed.step alive permitted performed⟩
    rintro slot p rfl extracted rejected
    have past : (reviewing.whole.ghosts c thread).2 = Review.ofPast (c.past thread) :=
      review_ofPast (c.past thread)
    rw [past] at rejected
    exact lawful.2 extracted rejected
  takeUp := fun _ _ _ _ reviewed finished => reviewed.takeUp finished.2
  surround := fun _ _ _ _ _ reviewed changed => reviewed.surround changed

/-- In every run in which content code uses IDs that have been handed out and a completion
brings behind a rejected frame only frames that `OnRecv` turns away (`turnedAwayBehind`), no key
is written and no response sent for a session after one of its frames has been rejected. -/
theorem noLogin_afterRejection {c : (server settings workers contents).Config}
    (reach : (server settings workers contents).Reach turnedAwayBehind c) (slot : Slot) :
    (verdictsAfter c.history).late slot = false :=
  (Discipline.sound reviewed_preserved (fun _ _ _ => jobs_reviewing) reach).1.punctual slot

/-- A client connects, and its first completion brings these bytes. -/
def firstBytes (data : List Byte) (count : Nat) : List (Machine.Move (server oneSession 1 0)) :=
  [.takeUp .accept Job.loop] ++ acts .accept 25 usual ++
    [.surround (Surroundings.completeRecv 0 0 true data), .takeUp (.worker ⟨0, Nat.one_pos⟩) Job.loop] ++
    acts (.worker ⟨0, Nat.one_pos⟩) count usual

/-- A frame without payload, and with a wrong checksum. -/
def wrongFrame : List Byte := [0x77, 0x00, 0x00, 0x00, 0x01]

/-- A frame of type 101. -/
def typedFrame : List Byte := [0x77, 0x02, 0x00, 0x00, 0x57, 0x88, 0xBB]

theorem noLogin_afterRejection_twoWrongFrames : Exists fun c : (server oneSession 1 0).Config =>
    (c.state.sessionArray 0).cancelIoFlag = true ∧ (verdictsAfter c.history).rejected 0 = true ∧
      (verdictsAfter c.history).late 0 = false := by
  have run : Exists fun c => (server oneSession 1 0).Reach turnedAwayBehind c ∧
      ((c.state.sessionArray 0).cancelIoFlag && (verdictsAfter c.history).rejected 0) = true :=
    Machine.exists_of_runSchedule (firstBytes (wrongFrame ++ wrongFrame) 38) _ (by decide +kernel)
  rcases run with ⟨c, reach, found⟩
  rcases Bool.and_eq_true_iff.mp found with ⟨set, rejected⟩
  exact ⟨c, set, rejected, noLogin_afterRejection reach 0⟩

/-- One completion brings a rejected frame and a login behind it.  The key of the login
is written. -/
theorem rejected_logsIn : Exists fun c : (server oneSession 1 0).Config =>
    (server oneSession 1 0).Reach handedOut c ∧ (c.state.sessionArray 0).cancelIoFlag = true ∧
      (verdictsAfter c.history).late 0 = true := by
  have run : Exists fun c => (server oneSession 1 0).Reach handedOut c ∧
      ((c.state.sessionArray 0).cancelIoFlag && (verdictsAfter c.history).late 0) = true :=
    Machine.exists_of_runSchedule (firstBytes (wrongFrame ++ typedFrame) 24) _ (by decide +kernel)
  rcases run with ⟨c, reach, found⟩
  exact ⟨c, reach, Bool.and_eq_true_iff.mp found⟩

end Runs

end Network
end LoginServer
