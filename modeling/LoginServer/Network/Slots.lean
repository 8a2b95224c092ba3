import LoginServer.Network.Accounts
import LoginServer.Network.Lifecycle

namespace LoginServer
namespace Network

open Memory Buffers Receiving Login Concurrency

/-!
# Slots over whole runs

The events of every slot are in order, whatever the interleaving.  The
invariant relates the phase of a slot to its count, to the holds on it, and to
the stages of all threads.  A hold that was taken from a deleted session keeps
nothing in use; all others are only had while the session is running.
-/

section Runs

variable {workers contents : Nat} {settings : Settings}

/-! ## The invariant -/

/-- The session has been announced. -/
def Phase.isIntroduced {Actor : Type} : Phase Actor -> Bool
  | .running _ introduced => introduced
  | _ => false

/-- The ID of the session in the slot. -/
def Phase.id {Actor : Type} : Phase Actor -> Option SessionID
  | .starting _ id => id
  | .running id _ => some id
  | .deleting _ id => some id
  | _ => none

/-- Receives in the kernel's keeping. -/
def State.recvHolds (state : State) (slot : Slot) : Nat :=
  (state.sessionArray slot).pendingRecvs.length + state.port.countP fun completion =>
    completion.slot == slot && match completion.overlapped with
      | .recv => true
      | _ => false

/-- What the stage of a thread says of a slot. -/
def StageFits (slot : Slot) (life : Life (Thread workers contents)) (thread : Thread workers contents)
    (position : Position) : Prop :=
  match position.stage with
  | .idle => True
  | .looking target => target = slot -> life.phase.used = true
  | .refused target => target = slot -> life.phase.used = true
  | .emptied target => target = slot -> life.phase.used = true
  | .deleting target => target = slot -> Exists fun id => life.phase = .deleting thread id
  | .deletingAs target id => target = slot -> life.phase = .deleting thread id
  | .leaving id => getIndex id = slot -> life.leaving thread = some id
  | .popped target => target = slot -> thread = .accept ∧
      Exists fun used => life.phase = .starting used none
  | .starting target id held => target = slot -> thread = .accept ∧
      (held = true -> 1 ≤ position.account.owed slot) ∧
      Exists fun used => life.phase = .starting used (some id)
  | .introducing target id => target = slot -> thread = .accept ∧ 1 ≤ position.account.owed slot ∧
      life.phase = .running id false

/-- What holds of a slot in a phase. -/
structure SlotFits (state : State) (ghosts : Thread workers contents -> Position) (slot : Slot)
    (life : Life (Thread workers contents)) : Prop where
  stacked : state.indexStack.count slot = if life.phase.isStacked then 1 else 0
  marked : life.phase.marked = true -> (state.sessionArray slot).ioCount.deleted = true
  opened : life.phase.isRunning = true -> (state.sessionArray slot).ioCount.deleted = false
  named : forall id, life.phase.id = some id -> (state.sessionArray slot).id = id ∧ getIndex id = slot
  kernel : life.phase.isRunning = false -> state.kernelHolds slot = 0
  solid : forall thread, (ghosts thread).solid slot -> life.phase.isRunning = true
  received : life.phase.isIntroduced = false -> state.recvHolds slot = 0
  receiving : forall thread, (ghosts thread).account.receiving = some slot ->
    life.phase.isIntroduced = true
  introducing : forall id, life.phase = .running id false ->
    (ghosts .accept).stage = .introducing slot id
  stage : forall thread, StageFits slot life thread (ghosts thread)
  loaded : forall thread id, (ghosts thread).loaded = some (slot, id) -> (ghosts thread).solid slot ->
    (state.sessionArray slot).id = id

/-! ## Events in the same phase -/

/-- What an event that leaves a slot in its phase has to respect. -/
structure Continues (slot : Slot) (life : Life (Thread workers contents)) (state state' : State)
    (ghosts : Thread workers contents -> Position) (thread : Thread workers contents)
    (position : Position) : Prop where
  stacked : state'.indexStack.count slot = state.indexStack.count slot
  deleted : (state'.sessionArray slot).ioCount.deleted = (state.sessionArray slot).ioCount.deleted
  named : (state'.sessionArray slot).id = (state.sessionArray slot).id
  kernel : life.phase.isRunning = false -> state'.kernelHolds slot ≤ state.kernelHolds slot
  solid : position.solid slot -> life.phase.isRunning = true
  received : life.phase.isIntroduced = false -> state'.recvHolds slot ≤ state.recvHolds slot
  receiving : position.account.receiving = some slot -> life.phase.isIntroduced = true
  introducing : forall id, (ghosts thread).stage = .introducing slot id ->
    position.stage = .introducing slot id
  stage : StageFits slot life thread position
  loaded : forall id, position.loaded = some (slot, id) -> position.solid slot ->
    (state.sessionArray slot).id = id

theorem SlotFits.continues {slot : Slot} {life : Life (Thread workers contents)} {state state' : State}
    {ghosts : Thread workers contents -> Position} {thread : Thread workers contents}
    {position : Position} (fits : SlotFits state ghosts slot life)
    (next : Continues slot life state state' ghosts thread position) :
    SlotFits state' (Function.update ghosts thread position) slot life where
  stacked := next.stacked.trans fits.stacked
  marked := fun marked => next.deleted.trans (fits.marked marked)
  opened := fun running => next.deleted.trans (fits.opened running)
  named := fun id named => ⟨next.named.trans (fits.named id named).1, (fits.named id named).2⟩
  kernel := fun idle => Nat.le_zero.mp (fits.kernel idle ▸ next.kernel idle)
  solid := by
    intro other solid
    rw [Function.update_apply] at solid
    split at solid
    · exact next.solid solid
    · exact fits.solid other solid
  received := fun unknown => Nat.le_zero.mp (fits.received unknown ▸ next.received unknown)
  receiving := by
    intro other receiving
    rw [Function.update_apply] at receiving
    split at receiving
    · exact next.receiving receiving
    · exact fits.receiving other receiving
  introducing := by
    intro id phase
    have before := fits.introducing id phase
    rw [Function.update_apply]
    split
    next same => exact next.introducing id (same ▸ before)
    next => exact before
  stage := by
    intro other
    rw [Function.update_apply]
    split
    next same => exact same ▸ next.stage
    next => exact fits.stage other
  loaded := by
    intro other id loaded solid
    rw [next.named]
    rw [Function.update_apply] at loaded solid
    split at loaded
    next same =>
      rw [if_pos same] at solid
      exact next.loaded id loaded solid
    next different =>
      rw [if_neg different] at solid
      exact fits.loaded other id loaded solid

/-! ## Events that concern another slot -/

/-- The slot that an event has to do with. -/
def concerns : Event interface -> Option Slot
  | ⟨.session slot _, _⟩ => some slot
  | ⟨.getQueuedCompletionStatus, completion⟩ => some (Completion.slot completion)
  | ⟨.postQueuedCompletionStatus slot _, _⟩ => some slot
  | ⟨.popIndex, popped⟩ => popped
  | ⟨.pushIndex index, _⟩ => some index
  | ⟨.mark (.findSession id), _⟩ => some (getIndex id)
  | ⟨.mark (.onNewConnect id), _⟩ => some (getIndex id)
  | ⟨.mark (.onRecv slot _), _⟩ => some slot
  | ⟨.mark (.onDisconnect id), _⟩ => some (getIndex id)
  | _ => none

theorem next_elsewhere {Actor : Type} [DecidableEq Actor] {life : Life Actor} {slot : Slot} {actor : Actor}
    {event : Event interface} (elsewhere : concerns event ≠ some slot) :
    life.next slot actor event = some life := by
  rcases event with ⟨op, answer⟩
  cases op with
  | popIndex => exact if_neg elsewhere
  | session target op =>
      have other : target ≠ slot := fun same => elsewhere (congrArg some same)
      cases op with
      | compareExchangeIo => exact if_neg fun both => other both.1
      | storeId id => exact if_neg other
      | clearDeleted => exact if_neg other
      | _ => rfl
  | pushIndex index => exact if_neg fun same => elsewhere (congrArg some same)
  | mark note =>
      cases note with
      | onNewConnect id => exact if_neg fun same => elsewhere (congrArg some same)
      | onRecv target id => exact if_neg fun same => elsewhere (congrArg some same)
      | onDisconnect id => exact if_neg fun same => elsewhere (congrArg some same)
      | _ => rfl
  | _ => rfl

theorem holdChange_concerns {event : Event interface} {slot : Slot} {gains : Bool}
    (change : holdChange event = some (slot, gains)) : concerns event = some slot := by
  rcases event with ⟨op, answer⟩
  cases op with
  | session target op =>
      cases op <;> simp only [holdChange, Option.some.injEq, Prod.mk.injEq, reduceCtorEq] at change
      case incrementIo => exact congrArg some change.1
      case decrementIo => exact congrArg some change.1
      all_goals
        split at change <;> cases change
        rfl
  | getQueuedCompletionStatus => cases change; rfl
  | postQueuedCompletionStatus target packet => cases change; rfl
  | _ => cases change

theorem owed_elsewhere {account : Account} {event : Event interface} {slot : Slot}
    (elsewhere : concerns event ≠ some slot) :
    (account.track event).owed slot = account.owed slot := by
  rw [Account.track_owed]
  rcases change : holdChange event with _ | ⟨target, _ | _⟩
  · rw [Owed.track_neutral change]
  · have other : slot ≠ target := fun same => elsewhere (same ▸ holdChange_concerns change)
    rw [Owed.track_loss change, Owed.remove, Function.update_of_ne other]
  · have other : slot ≠ target := fun same => elsewhere (same ▸ holdChange_concerns change)
    rw [Owed.track_gain change, Owed.add, Function.update_of_ne other]

theorem receive_elsewhere {account : Account} {slot target : Slot} (other : target ≠ slot)
    (receiving : (account.receive target).receiving = some slot) : account.receiving = some slot := by
  unfold Account.receive at receiving
  split at receiving
  · exact absurd (Option.some.inj receiving) other
  · exact receiving

theorem receiving_change {account : Account} {change : Option (Slot × Bool)} {slot : Slot}
    (receiving : (account.change change).receiving = some slot) : account.receiving = some slot := by
  rcases change with _ | ⟨target, _ | _⟩
  · exact receiving
  · exact (Option.filter_eq_some_iff.mp receiving).1
  · exact receiving

theorem receiving_elsewhere {account : Account} {event : Event interface} {slot : Slot}
    (elsewhere : concerns event ≠ some slot)
    (receiving : (account.track event).receiving = some slot) : account.receiving = some slot := by
  unfold Account.track at receiving
  split at receiving
  next completion =>
    have other : completion.slot ≠ slot := fun same => elsewhere (congrArg some same)
    unfold Account.dequeue at receiving
    split at receiving
    · have before := receive_elsewhere other receiving
      exact before
    · exact receiving
  next id _ => exact receive_elsewhere (fun same => elsewhere (congrArg some same)) receiving
  next => exact receiving_change receiving

theorem Position.loaded_kept {position : Position} {event : Event interface} {slot : Slot}
    {id : SessionID} (after : (position.track event).loaded = some (slot, id))
    (unread : event.op ≠ .session slot .loadId) : position.loaded = some (slot, id) := by
  change loadedAfter position.loaded event = some (slot, id) at after
  unfold loadedAfter at after
  split at after
  · cases after
    exact absurd rfl unread
  · cases after
  · split at after
    · cases after
    · exact after

theorem Position.loaded_elsewhere {position : Position} {event : Event interface} {slot : Slot}
    {id : SessionID} (elsewhere : concerns event ≠ some slot)
    (after : (position.track event).loaded = some (slot, id)) : position.loaded = some (slot, id) := by
  refine position.loaded_kept after ?_
  intro same
  rcases event with ⟨op, answer⟩
  cases (same : op = _)
  exact elsewhere rfl

/-- A stage changes only with events that concern its slot. -/
theorem stage_elsewhere {position : Position} {op : Op} {answer : op.Answer} {slot : Slot}
    (permitted : living.permits position op)
    (aligned : forall target id, position.stage = .deletingAs target id ∨
      position.stage = .introducing target id -> getIndex id = target)
    (elsewhere : concerns ⟨op, answer⟩ ≠ some slot) :
    position.stage.track ⟨op, answer⟩ = position.stage ∨
      position.stage.slot ≠ some slot ∧ (position.stage.track ⟨op, answer⟩).slot ≠ some slot := by
  rcases position with ⟨account, stage, loaded⟩
  cases op with
  | session target op =>
      have other : some target ≠ some slot := elsewhere
      cases op with
      | incrementIo =>
          rcases permitted with same | ⟨id, same⟩ | ⟨same, _⟩ <;> cases same
          · refine Or.inr ⟨other, ?_⟩
            simp only [Stage.track]
            split
            · exact other
            · exact nofun
          · exact Or.inr ⟨other, other⟩
          · exact Or.inl rfl
      | decrementIo =>
          rcases permitted with ⟨_, same | same⟩ <;> cases same
          · refine Or.inr ⟨nofun, ?_⟩
            simp only [Stage.track]
            split
            · exact other
            · exact nofun
          · refine Or.inr ⟨other, ?_⟩
            simp only [Stage.track]
            split
            · exact other
            · exact nofun
      | compareExchangeIo =>
          cases (permitted : stage = .emptied target)
          refine Or.inr ⟨other, ?_⟩
          simp only [Stage.track]
          split
          · exact other
          · exact nofun
      | loadId =>
          rcases permitted with same | ⟨same, _⟩ <;> cases same
          · exact Or.inr ⟨other, other⟩
          · exact Or.inl rfl
      | storeId id =>
          cases (permitted.1 : stage = .popped target)
          exact Or.inr ⟨other, other⟩
      | clearDeleted =>
          rcases permitted with ⟨id, same⟩
          cases same
          exact Or.inr ⟨other, other⟩
      | _ => exact Or.inl rfl
  | popIndex =>
      cases (permitted : stage = .idle)
      cases answer with
      | none => exact Or.inl rfl
      | some index => exact Or.inr ⟨nofun, elsewhere⟩
  | pushIndex index =>
      rcases permitted with ⟨target, id, same, rfl⟩
      cases same
      have here : some (getIndex id) ≠ some slot := elsewhere
      have own := aligned target id (Or.inl rfl)
      rw [own] at here
      exact Or.inr ⟨here, elsewhere⟩
  | mark note =>
      cases note with
      | findSession id =>
          cases (permitted : stage = .idle)
          exact Or.inr ⟨nofun, elsewhere⟩
      | onNewConnect id =>
          rcases permitted with ⟨target, same⟩
          cases same
          have here : some (getIndex id) ≠ some slot := elsewhere
          rw [aligned target id (Or.inr rfl)] at here
          exact Or.inr ⟨here, nofun⟩
      | onDisconnect id =>
          cases (permitted : stage = .leaving id)
          exact Or.inr ⟨elsewhere, nofun⟩
      | _ => exact Or.inl rfl
  | _ => exact Or.inl rfl

theorem Stage.extra_of_slot_ne {stage : Stage} {slot : Slot} (other : stage.slot ≠ some slot) :
    stage.extra slot = 0 := by
  cases stage with
  | refused target => exact if_neg fun same => other (congrArg some same)
  | starting target id held => exact if_neg fun both => other (congrArg some both.1)
  | _ => rfl

theorem stageFits_of_slot_ne {slot : Slot} {life : Life (Thread workers contents)}
    {thread : Thread workers contents} {position : Position}
    (other : position.stage.slot ≠ some slot) : StageFits slot life thread position := by
  rcases position with ⟨account, stage, loaded⟩
  cases stage with
  | idle => trivial
  | _ => exact fun same => absurd (congrArg some same) other

/-- What an operation leaves alone when it has to do with another slot. -/
structure State.SameAt (slot : Slot) (state state' : State) : Prop where
  session : state'.sessionArray slot = state.sessionArray slot
  stacked : state'.indexStack.count slot = state.indexStack.count slot
  kernel : state'.kernelHolds slot = state.kernelHolds slot
  received : state'.recvHolds slot = state.recvHolds slot

theorem State.SameAt.of_eq {slot : Slot} {state state' : State}
    (session : state'.sessionArray slot = state.sessionArray slot)
    (stack : state'.indexStack = state.indexStack) (port : state'.port = state.port) :
    state.SameAt slot state' where
  session := session
  stacked := by rw [stack]
  kernel := by simp only [State.kernelHolds, session, port]
  received := by simp only [State.recvHolds, session, port]

theorem perform_elsewhere {choice : Choice} {state state' : State} {op : Op} {answer : op.Answer}
    {slot : Slot} (performed : perform choice state op = some (answer, state'))
    (elsewhere : concerns ⟨op, answer⟩ ≠ some slot) : state.SameAt slot state' := by
  have kept := perform_sameBut performed
  cases op with
  | session target op =>
      rcases perform_session performed with ⟨s', _, rfl⟩
      have other : slot ≠ target := fun same => elsewhere (congrArg some same.symm)
      exact .of_eq (State.setSession_other state s' other) rfl rfl
  | getQueuedCompletionStatus =>
      simp only [perform] at performed
      split at performed
      next => cases performed
      next completion rest queued =>
        cases performed
        have other : ¬ (answer.slot == slot) = true :=
          fun same => elsewhere (congrArg some (beq_iff_eq.mp same))
        refine ⟨rfl, rfl, ?_, ?_⟩
        · simp [State.kernelHolds, queued, other]
        · simp [State.recvHolds, queued, other]
  | postQueuedCompletionStatus target packet =>
      cases performed
      have other : ¬ (target == slot) = true :=
        fun same => elsewhere (congrArg some (beq_iff_eq.mp same))
      refine ⟨rfl, rfl, ?_, ?_⟩
      · simp [State.kernelHolds, other]
      · simp [State.recvHolds, other]
  | popIndex =>
      simp only [perform] at performed
      split at performed
      next => cases performed; exact .of_eq rfl rfl rfl
      next index rest stack =>
        cases performed
        have other : index ≠ slot := fun same => elsewhere (congrArg some same)
        refine ⟨rfl, ?_, rfl, rfl⟩
        simp [stack, List.count_cons_of_ne other]
  | pushIndex index =>
      cases performed
      have other : index ≠ slot := fun same => elsewhere (congrArg some same)
      exact ⟨rfl, List.count_cons_of_ne other, rfl, rfl⟩
  | _ => exact .of_eq (congrFun (kept.sessionArray (by simp [Op.component])) slot) (kept.indexStack (by simp [Op.component])) (kept.port (by simp [Op.component]))

theorem StageFits.same {slot : Slot} {life : Life (Thread workers contents)}
    {thread : Thread workers contents} {position position' : Position}
    (fits : StageFits slot life thread position) (stage : position'.stage = position.stage)
    (owed : position.account.owed slot ≤ position'.account.owed slot) :
    StageFits slot life thread position' := by
  rcases position with ⟨account, before, loaded⟩
  rcases position' with ⟨account', after, loaded'⟩
  cases (stage : after = before)
  cases before with
  | starting target id held =>
      intro same
      rcases fits same with ⟨accepting, started, phase⟩
      exact ⟨accepting, fun taken => (started taken).trans owed, phase⟩
  | introducing target id =>
      intro same
      rcases fits same with ⟨accepting, held, phase⟩
      exact ⟨accepting, held.trans owed, phase⟩
  | _ => exact fits

theorem SlotFits.elsewhere {slot : Slot} {life : Life (Thread workers contents)} {state state' : State}
    {ghosts : Thread workers contents -> Position} {thread : Thread workers contents} {choice : Choice}
    {op : Op} {answer : op.Answer} (fits : SlotFits state ghosts slot life)
    (performed : perform choice state op = some (answer, state'))
    (permitted : living.permits (ghosts thread) op)
    (aligned : forall target id, (ghosts thread).stage = .deletingAs target id ∨
      (ghosts thread).stage = .introducing target id -> getIndex id = target)
    (other : concerns ⟨op, answer⟩ ≠ some slot) :
    SlotFits state' (Function.update ghosts thread ((ghosts thread).track ⟨op, answer⟩)) slot life := by
  have same := perform_elsewhere performed other
  have owed : ((ghosts thread).track ⟨op, answer⟩).account.owed slot =
      (ghosts thread).account.owed slot := owed_elsewhere other
  have stage := stage_elsewhere permitted aligned other
  have extra : ((ghosts thread).track ⟨op, answer⟩).stage.extra slot =
      (ghosts thread).stage.extra slot := by
    rcases stage with same | ⟨before, after⟩
    · exact congrArg (Stage.extra slot) same
    · rw [Stage.extra_of_slot_ne before]
      exact Stage.extra_of_slot_ne after
  have solid (after : ((ghosts thread).track ⟨op, answer⟩).solid slot) : (ghosts thread).solid slot := by
    unfold Position.solid at after ⊢
    rw [← owed, ← extra]
    exact after
  apply fits.continues
  exact {
    stacked := same.stacked
    deleted := by rw [same.session]
    named := by rw [same.session]
    kernel := fun _ => same.kernel.le
    solid := fun after => fits.solid thread (solid after)
    received := fun _ => same.received.le
    receiving := fun after => fits.receiving thread (receiving_elsewhere other after)
    introducing := by
      intro id before
      rcases stage with same | ⟨different, _⟩
      · exact same.trans before
      · rw [before] at different
        exact absurd rfl different
    stage := by
      rcases stage with same | ⟨_, different⟩
      · exact (fits.stage thread).same same owed.ge
      · exact stageFits_of_slot_ne different
    loaded := fun id after there => fits.loaded thread id (Position.loaded_elsewhere other after) (solid there) }

/-! ## Events in the same phase -/

/-- The holds of the kernel and of all threads are counted. -/
def Covered (state : State) (ghosts : Thread workers contents -> Position) (slot : Slot) : Prop :=
  state.kernelHolds slot + tally (fun position => position.account.owed slot) ghosts ≤ state.refs slot

theorem Covered.owed_le {state : State} {ghosts : Thread workers contents -> Position} {slot : Slot}
    (covered : Covered state ghosts slot) (thread : Thread workers contents) :
    (ghosts thread).account.owed slot ≤ state.refs slot := by
  have own := le_tally (fun position : Position => position.account.owed slot) ghosts thread
  unfold Covered at covered
  omega

theorem Covered.kernel_le {state : State} {ghosts : Thread workers contents -> Position} {slot : Slot}
    (covered : Covered state ghosts slot) : state.kernelHolds slot ≤ state.refs slot := by
  unfold Covered at covered
  omega

theorem State.recvHolds_le (state : State) (slot : Slot) : state.recvHolds slot ≤ state.kernelHolds slot := by
  have counted : (state.port.countP fun completion =>
      completion.slot == slot && match completion.overlapped with
        | .recv => true
        | _ => false) ≤ state.port.countP fun completion => completion.slot == slot := by
    apply List.countP_mono_left
    intro completion _ both
    exact (Bool.and_eq_true_iff.mp both).1
  unfold State.recvHolds State.kernelHolds
  omega

section Continuing

variable {slot : Slot} {life : Life (Thread workers contents)} {state : State}
  {ghosts : Thread workers contents -> Position} {thread : Thread workers contents}

theorem SlotFits.untouched {state' : State} (fits : SlotFits state ghosts slot life)
    (session : (state.sessionArray slot).Untouched (state'.sessionArray slot))
    (stack : state'.indexStack = state.indexStack) (port : state'.port = state.port) :
    SlotFits state' ghosts slot life := by
  have kernel : state'.kernelHolds slot = state.kernelHolds slot := by
    simp only [State.kernelHolds, session.pendingRecvs, session.pendingSends, port]
  have received : state'.recvHolds slot = state.recvHolds slot := by
    simp only [State.recvHolds, session.pendingRecvs, port]
  exact {
    stacked := by rw [stack]; exact fits.stacked
    marked := fun marked => by rw [session.ioCount]; exact fits.marked marked
    opened := fun running => by rw [session.ioCount]; exact fits.opened running
    named := fun id named => by rw [session.id]; exact fits.named id named
    kernel := fun idle => kernel.trans (fits.kernel idle)
    solid := fits.solid
    received := fun unknown => received.trans (fits.received unknown)
    receiving := fits.receiving
    introducing := fits.introducing
    stage := fits.stage
    loaded := fun other id loaded solid => by rw [session.id]; exact fits.loaded other id loaded solid }

theorem Position.track_quiet {op : SessionOp} (quiet : op.quiet = true) (position : Position)
    (answer : op.Answer) : position.track ⟨.session slot op, answer⟩ = position := by
  cases op <;> first | rfl | exact Bool.noConfusion quiet

/-- A hold of an idle thread keeps the session in use. -/
theorem SlotFits.running (fits : SlotFits state ghosts slot life) (idle : (ghosts thread).stage = .idle)
    (held : 1 ≤ (ghosts thread).account.owed slot) : life.phase.isRunning = true := by
  apply fits.solid thread
  unfold Position.solid
  rw [idle]
  exact held

theorem SlotFits.increment (fits : SlotFits state ghosts slot life)
    (permitted : living.permits (ghosts thread) (.session slot .incrementIo)) :
    SlotFits
      (state.setSession slot { state.sessionArray slot with
        ioCount := (state.sessionArray slot).ioCount.increment })
      (Function.update ghosts thread ((ghosts thread).track
        ⟨.session slot .incrementIo, (state.sessionArray slot).ioCount.increment⟩)) slot life := by
  have before := fits.solid thread
  have staged := fits.stage thread
  apply fits.continues
  rcases at_ : ghosts thread with ⟨account, stage, loaded⟩
  rw [at_] at permitted before staged
  have here : (account.owed.add slot) slot = account.owed slot + 1 := account.owed.add_same slot
  have solid : Position.solid (Position.track ⟨account, stage, loaded⟩
      ⟨.session slot .incrementIo, (state.sessionArray slot).ioCount.increment⟩) slot ->
      life.phase.isRunning = true := by
    intro after
    rcases permitted with same | ⟨id, same⟩ | ⟨same, held⟩ <;> cases same
    · by_cases deleted : (state.sessionArray slot).ioCount.deleted = true
      · apply before
        have extra : Stage.extra slot (Stage.refused slot) = 1 := if_pos rfl
        have more : Stage.extra slot (if (state.sessionArray slot).ioCount.deleted = true then
            Stage.refused slot else .idle) < (account.owed.add slot) slot := after
        rw [if_pos deleted, extra, here] at more
        exact Nat.lt_of_succ_lt_succ more
      · apply Phase.isRunning_of_used (staged rfl)
        apply Bool.eq_false_iff.mpr
        exact fun marked => deleted (fits.marked marked)
    · apply before
      have more : Stage.extra slot (Stage.starting slot id true) < (account.owed.add slot) slot := after
      have extra : Stage.extra slot (Stage.starting slot id true) = 1 := if_pos ⟨rfl, rfl⟩
      have none : Stage.extra slot (Stage.starting slot id false) = 0 := if_neg (by simp)
      rw [extra, here] at more
      change Stage.extra slot (Stage.starting slot id false) < account.owed slot
      omega
    · exact before held
  exact {
    stacked := rfl
    deleted := by simp [IoCount.increment]
    named := by simp
    kernel := fun _ => by simp [State.kernelHolds]
    solid := solid
    received := fun _ => by simp [State.recvHolds]
    receiving := fun receiving => fits.receiving thread (by rw [at_]; exact receiving)
    introducing := by
      intro id introducing
      rw [at_] at introducing
      rcases permitted with same | ⟨_, same⟩ | ⟨same, _⟩ <;> cases introducing.symm.trans same
    stage := by
      rcases permitted with same | ⟨id, same⟩ | ⟨same, _⟩ <;> cases same
      · change StageFits slot life thread ⟨_, if _ then Stage.refused slot else .idle, _⟩
        split
        · exact staged
        · trivial
      · intro same
        rcases staged same with ⟨accepting, _, phase⟩
        exact ⟨accepting, fun _ => account.held_add slot, phase⟩
      · trivial
    loaded := by
      intro id loaded
      cases loaded }

theorem SlotFits.decrement (fits : SlotFits state ghosts slot life) (covered : Covered state ghosts slot)
    (permitted : living.permits (ghosts thread) (.session slot .decrementIo)) :
    SlotFits
      (state.setSession slot { state.sessionArray slot with
        ioCount := (state.sessionArray slot).ioCount.decrement })
      (Function.update ghosts thread ((ghosts thread).track
        ⟨.session slot .decrementIo, (state.sessionArray slot).ioCount.decrement⟩)) slot life := by
  have before := fits.solid thread
  have staged := fits.stage thread
  have counted := covered.owed_le thread
  have running (idle : (ghosts thread).stage = .idle) (held : 1 ≤ (ghosts thread).account.owed slot) :=
    fits.running idle held
  have receives := fits.receiving thread
  apply fits.continues
  generalize at_ : ghosts thread = position at before staged counted running receives permitted ⊢
  rcases position with ⟨account, stage, loaded⟩
  rcases permitted with ⟨held, standing⟩
  have kept : (state.sessionArray slot).ioCount.decrement.deleted =
      (state.sessionArray slot).ioCount.deleted := by
    have counts : ¬ (state.sessionArray slot).ioCount.refs = 0 := by
      unfold State.refs at counted
      omega
    unfold IoCount.decrement
    rw [if_neg counts]
  have fewer : (account.owed.remove slot) slot = account.owed slot - 1 := by
    simp [Owed.remove]
  have left (stage' : Stage) (none : stage'.extra slot = 0) (more : stage'.extra slot <
      (account.owed.remove slot) slot) : stage.extra slot < account.owed slot := by
    rw [none, fewer] at more
    rcases standing with same | same <;> cases same
    · exact held
    · have extra : Stage.extra slot (Stage.refused slot) = 1 := if_pos rfl
      rw [extra]
      omega
  exact {
    stacked := rfl
    deleted := by simpa using kept
    named := by simp
    kernel := fun _ => by simp [State.kernelHolds]
    solid := by
      intro after
      apply before
      refine left (if (state.sessionArray slot).ioCount.decrement.isZero = true then .emptied slot
        else .idle) ?_ after
      split <;> rfl
    received := fun _ => by simp [State.recvHolds]
    receiving := fun receiving => receives (Option.filter_eq_some_iff.mp receiving).1
    introducing := by
      intro id introducing
      rw [at_] at introducing
      rcases standing with same | same <;> cases introducing.symm.trans same
    stage := by
      change StageFits slot life thread ⟨_, if _ then Stage.emptied slot else .idle, _⟩
      split
      · intro _
        rcases standing with same | same <;> cases same
        · exact Phase.used_of_isRunning (running rfl held)
        · exact staged rfl
      · trivial
    loaded := by
      intro id loaded
      cases loaded }

/-- A compare-exchange that finds holds. -/
theorem SlotFits.exchange_fails (fits : SlotFits state ghosts slot life)
    (permitted : living.permits (ghosts thread) (.session slot .compareExchangeIo)) {previous : IoCount}
    (counting : previous.isZero = false) :
    SlotFits state (Function.update ghosts thread ((ghosts thread).track
      ⟨.session slot .compareExchangeIo, previous⟩)) slot life := by
  have before := fits.solid thread
  have receives := fits.receiving thread
  have reads := fits.loaded thread
  apply fits.continues
  generalize at_ : ghosts thread = position at before receives reads permitted ⊢
  rcases position with ⟨account, stage, loaded⟩
  cases (permitted : stage = .emptied slot)
  have stage : (Position.track ⟨account, .emptied slot, loaded⟩
      ⟨.session slot .compareExchangeIo, previous⟩).stage = .idle := by
    change (if previous.isZero = true then Stage.deleting slot else .idle) = .idle
    rw [counting]
    rfl
  have solid (after : (Position.track ⟨account, .emptied slot, loaded⟩
      ⟨.session slot .compareExchangeIo, previous⟩).solid slot) :
      Position.solid ⟨account, .emptied slot, loaded⟩ slot := by
    unfold Position.solid at after ⊢
    rw [stage] at after
    exact after
  exact {
    stacked := rfl
    deleted := rfl
    named := rfl
    kernel := fun _ => Nat.le_refl _
    solid := fun after => before (solid after)
    received := fun _ => Nat.le_refl _
    receiving := receives
    introducing := by
      intro id introducing
      rw [at_] at introducing
      cases introducing
    stage := by
      unfold StageFits
      rw [stage]
      trivial
    loaded := fun id same after => reads id same (solid after) }

/-- A thread between the functions works on a session in use. -/
theorem SlotFits.working {state' : State} {position : Position} (fits : SlotFits state ghosts slot life)
    (running : life.phase.isRunning = true) (idle : (ghosts thread).stage = .idle)
    (stack : state'.indexStack = state.indexStack)
    (same : (state'.sessionArray slot).id = (state.sessionArray slot).id)
    (deleted : (state'.sessionArray slot).ioCount.deleted = (state.sessionArray slot).ioCount.deleted)
    (received : life.phase.isIntroduced = false -> state'.recvHolds slot ≤ state.recvHolds slot)
    (stage : position.stage = .idle)
    (receiving : position.account.receiving = some slot -> life.phase.isIntroduced = true)
    (loaded : forall id, position.loaded = some (slot, id) -> (state.sessionArray slot).id = id) :
    SlotFits state' (Function.update ghosts thread position) slot life := by
  apply fits.continues
  exact {
    stacked := by rw [stack]
    deleted := deleted
    named := same
    kernel := fun unused => Bool.noConfusion (unused.symm.trans running)
    solid := fun _ => running
    received := received
    receiving := receiving
    introducing := by
      intro id introducing
      cases introducing.symm.trans idle
    stage := by
      unfold StageFits
      rw [stage]
      trivial
    loaded := fun id there _ => loaded id there }

theorem SlotFits.read (fits : SlotFits state ghosts slot life) (idle : (ghosts thread).stage = .idle)
    (held : 1 ≤ (ghosts thread).account.owed slot) {id : SessionID}
    (loaded : (ghosts thread).loaded = some (slot, id)) : (state.sessionArray slot).id = id := by
  apply fits.loaded thread id loaded
  unfold Position.solid
  rw [idle]
  exact held

theorem SlotFits.loadId (fits : SlotFits state ghosts slot life)
    (permitted : living.permits (ghosts thread) (.session slot .loadId)) :
    SlotFits state (Function.update ghosts thread ((ghosts thread).track
      ⟨.session slot .loadId, (state.sessionArray slot).id⟩)) slot life := by
  rcases permitted with deleting | ⟨idle, held⟩
  · have before := fits.solid thread
    have staged := fits.stage thread
    have receives := fits.receiving thread
    apply fits.continues
    generalize at_ : ghosts thread = position at before staged receives deleting ⊢
    rcases position with ⟨account, stage, loaded⟩
    cases (deleting : stage = .deleting slot)
    exact {
      stacked := rfl
      deleted := rfl
      named := rfl
      kernel := fun _ => Nat.le_refl _
      solid := before
      received := fun _ => Nat.le_refl _
      receiving := receives
      introducing := by
        intro id introducing
        rw [at_] at introducing
        cases introducing
      stage := by
        intro _
        rcases staged rfl with ⟨id, phase⟩
        have named := (fits.named id (by rw [phase]; rfl)).1
        change life.phase = .deleting thread (state.sessionArray slot).id
        rw [phase, named]
      loaded := by
        intro id loaded _
        cases loaded
        rfl }
  · apply fits.working (fits.running idle held) idle rfl rfl rfl (fun _ => Nat.le_refl _)
    · unfold Position.track
      rw [idle]
      rfl
    · exact fits.receiving thread
    · intro id loaded
      cases loaded
      rfl

/-- A send is issued, a request is posted. -/
theorem SlotFits.handOver {op : Op} {answer : op.Answer} {state' : State} {choice : Choice}
    (fits : SlotFits state ghosts slot life) (idle : (ghosts thread).stage = .idle)
    (held : 1 ≤ (ghosts thread).account.owed slot)
    (performed : perform choice state op = some (answer, state'))
    (kind : (Exists fun batch => op = .session slot (.wsaSend batch)) ∨
      Exists fun packet => op = .postQueuedCompletionStatus slot packet) :
    SlotFits state' (Function.update ghosts thread ((ghosts thread).track ⟨op, answer⟩)) slot life := by
  have running := fits.running idle held
  rcases kind with ⟨batch, rfl⟩ | ⟨packet, rfl⟩
  · rcases perform_session performed with ⟨s', inner, rfl⟩
    have kept : s'.id = (state.sessionArray slot).id ∧ s'.ioCount = (state.sessionArray slot).ioCount ∧
        s'.pendingRecvs = (state.sessionArray slot).pendingRecvs := by
      simp only [performSession] at inner
      split at inner <;> cases inner <;> exact ⟨rfl, rfl, rfl⟩
    refine fits.working running idle rfl ?_ ?_ ?_ ?_ ?_ ?_
    · rw [State.setSession_same, kept.1]
    · rw [State.setSession_same, kept.2.1]
    · intro _
      simp [State.recvHolds, kept.2.2]
    · exact idle
    · exact fun receiving => fits.receiving thread (receiving_change receiving)
    · exact fun id loaded => fits.read idle held (Position.loaded_kept loaded (by simp))
  · cases performed
    refine fits.working running idle rfl rfl rfl ?_ ?_ ?_ ?_
    · intro _
      simp [State.recvHolds]
    · exact idle
    · exact fun receiving => fits.receiving thread (receiving_change receiving)
    · exact fun id loaded => fits.read idle held (Position.loaded_kept loaded (by simp))

theorem SlotFits.wsaRecv {buffers : List WsaBuf} {answer : IoResult} {state' : State} {choice : Choice}
    (fits : SlotFits state ghosts slot life) (idle : (ghosts thread).stage = .idle)
    (receiving : (ghosts thread).account.receiving = some slot)
    (performed : perform choice state (.session slot (.wsaRecv buffers)) = some (answer, state')) :
    SlotFits state' (Function.update ghosts thread ((ghosts thread).track
      ⟨.session slot (.wsaRecv buffers), answer⟩)) slot life := by
  have held := (ghosts thread).account.held slot receiving
  rcases perform_session performed with ⟨s', inner, rfl⟩
  have kept : s'.id = (state.sessionArray slot).id ∧ s'.ioCount = (state.sessionArray slot).ioCount := by
    simp only [performSession] at inner
    split at inner <;> cases inner <;> exact ⟨rfl, rfl⟩
  refine fits.working (fits.running idle held) idle rfl ?_ ?_ ?_ ?_ ?_ ?_
  · rw [State.setSession_same, kept.1]
  · rw [State.setSession_same, kept.2]
  · exact fun unknown => Bool.noConfusion (unknown.symm.trans (fits.receiving thread receiving))
  · exact idle
  · exact fun _ => fits.receiving thread receiving
  · exact fun id loaded => fits.read idle held (Position.loaded_kept loaded (by simp))

/-- A completion is dequeued. -/
theorem SlotFits.dequeue {completion : Completion} {rest : List Completion}
    (fits : SlotFits state ghosts slot life) (idle : (ghosts thread).stage = .idle)
    (queued : state.port = completion :: rest) (here : completion.slot = slot) :
    SlotFits { state with port := rest } (Function.update ghosts thread ((ghosts thread).track
      ⟨.getQueuedCompletionStatus, completion⟩)) slot life := by
  have matching : (completion.slot == slot) = true := beq_iff_eq.mpr here
  have running : life.phase.isRunning = true := by
    by_contra unused
    have none := fits.kernel (Bool.eq_false_iff.mpr unused)
    simp only [State.kernelHolds, queued, List.countP_cons, matching, if_true] at none
    omega
  refine fits.working running idle rfl rfl rfl ?_ ?_ ?_ ?_
  · intro _
    simp only [State.recvHolds, queued, List.countP_cons]
    omega
  · exact idle
  · intro receiving
    by_contra unknown
    have none := fits.received (Bool.eq_false_iff.mpr unknown)
    change ((ghosts thread).account.dequeue completion).receiving = some slot at receiving
    unfold Account.dequeue at receiving
    split at receiving
    next success overlapped =>
      simp only [State.recvHolds, queued, List.countP_cons, matching, overlapped, Bool.and_self,
        if_true] at none
      omega
    next => exact unknown (fits.receiving thread receiving)
  · intro id loaded
    cases loaded

/-- `findSession` is called with an ID whose slot has been in use. -/
theorem SlotFits.findSession {id : SessionID} (fits : SlotFits state ghosts slot life)
    (idle : (ghosts thread).stage = .idle) (used : life.phase.used = true) :
    SlotFits state (Function.update ghosts thread ((ghosts thread).track
      ⟨.mark (.findSession id), ()⟩)) slot life := by
  have solid (after : ((ghosts thread).track ⟨.mark (.findSession id), ()⟩).solid slot) :
      (ghosts thread).solid slot := by
    unfold Position.solid
    rw [idle]
    exact after
  apply fits.continues
  exact {
    stacked := rfl
    deleted := rfl
    named := rfl
    kernel := fun _ => Nat.le_refl _
    solid := fun after => fits.solid thread (solid after)
    received := fun _ => Nat.le_refl _
    receiving := fits.receiving thread
    introducing := by
      intro id introducing
      rw [idle] at introducing
      cases introducing
    stage := fun _ => used
    loaded := fun id loaded after =>
      fits.loaded thread id (Position.loaded_kept loaded (by simp)) (solid after) }

end Continuing

/-! ## Events that change the phase -/

/-- The thread whose work a phase is. -/
def Phase.owner : Phase (Thread workers contents) -> Option (Thread workers contents)
  | .starting _ _ => some .accept
  | .running _ false => some .accept
  | .deleting actor _ => some actor
  | _ => none

/-- The other threads' stages fit the new phase if they had no part in the old one. -/
theorem StageFits.other {slot : Slot} {life life' : Life (Thread workers contents)}
    {thread : Thread workers contents} {position : Position}
    (fits : StageFits slot life thread position) (foreign : life.phase.owner ≠ some thread)
    (used : life.phase.used = true -> life'.phase.used = true)
    (leaving : life'.leaving thread = life.leaving thread) : StageFits slot life' thread position := by
  rcases position with ⟨account, stage, loaded⟩
  cases stage with
  | idle => trivial
  | looking target => exact fun same => used (fits same)
  | refused target => exact fun same => used (fits same)
  | emptied target => exact fun same => used (fits same)
  | leaving id => exact fun same => leaving.trans (fits same)
  | deleting target =>
      intro same
      rcases fits same with ⟨id, phase⟩
      rw [phase] at foreign
      exact absurd rfl foreign
  | deletingAs target id =>
      intro same
      rw [fits same] at foreign
      exact absurd rfl foreign
  | popped target =>
      intro same
      rcases fits same with ⟨accepting, used, phase⟩
      rw [phase, accepting] at foreign
      exact absurd rfl foreign
  | starting target id held =>
      intro same
      rcases fits same with ⟨accepting, _, used, phase⟩
      rw [phase, accepting] at foreign
      exact absurd rfl foreign
  | introducing target id =>
      intro same
      rcases fits same with ⟨accepting, _, phase⟩
      rw [phase, accepting] at foreign
      exact absurd rfl foreign

/-- What an event has to bring about that moves a slot to its next phase. -/
structure Advances (slot : Slot) (life life' : Life (Thread workers contents)) (state state' : State)
    (ghosts : Thread workers contents -> Position) (thread : Thread workers contents)
    (position : Position) : Prop where
  foreign : forall other, other ≠ thread -> life.phase.owner ≠ some other
  used : life.phase.used = true -> life'.phase.used = true
  leaving : forall other, other ≠ thread -> life'.leaving other = life.leaving other
  stacked : state'.indexStack.count slot = if life'.phase.isStacked then 1 else 0
  marked : life'.phase.marked = true -> (state'.sessionArray slot).ioCount.deleted = true
  opened : life'.phase.isRunning = true -> (state'.sessionArray slot).ioCount.deleted = false
  named : forall id, life'.phase.id = some id ->
    (state'.sessionArray slot).id = id ∧ getIndex id = slot
  kernel : life'.phase.isRunning = false -> state'.kernelHolds slot = 0
  received : life'.phase.isIntroduced = false -> state'.recvHolds slot = 0
  /-- Nobody else keeps the session in use, or it stays in use. -/
  vacant : (life'.phase.isRunning = true ∧ (state'.sessionArray slot).id = (state.sessionArray slot).id) ∨
    forall other, other ≠ thread -> ¬ (ghosts other).solid slot
  receivers : life'.phase.isIntroduced = true ∨
    forall other, other ≠ thread -> (ghosts other).account.receiving ≠ some slot
  solid : position.solid slot -> life'.phase.isRunning = true
  receiving : position.account.receiving = some slot -> life'.phase.isIntroduced = true
  introducing : forall id, life'.phase = .running id false ->
    thread = .accept ∧ position.stage = .introducing slot id
  stage : StageFits slot life' thread position
  loaded : forall id, position.loaded = some (slot, id) -> position.solid slot ->
    (state'.sessionArray slot).id = id

theorem SlotFits.advances {slot : Slot} {life life' : Life (Thread workers contents)}
    {state state' : State} {ghosts : Thread workers contents -> Position}
    {thread : Thread workers contents} {position : Position} (fits : SlotFits state ghosts slot life)
    (next : Advances slot life life' state state' ghosts thread position) :
    SlotFits state' (Function.update ghosts thread position) slot life' where
  stacked := next.stacked
  marked := next.marked
  opened := next.opened
  named := next.named
  kernel := next.kernel
  received := next.received
  solid := by
    intro other solid
    rw [Function.update_apply] at solid
    split at solid
    next => exact next.solid solid
    next different =>
      rcases next.vacant with ⟨running, _⟩ | nobody
      · exact running
      · exact absurd solid (nobody other different)
  receiving := by
    intro other receiving
    rw [Function.update_apply] at receiving
    split at receiving
    next => exact next.receiving receiving
    next different =>
      rcases next.receivers with introduced | nobody
      · exact introduced
      · exact absurd receiving (nobody other different)
  introducing := by
    intro id phase
    rcases next.introducing id phase with ⟨accepting, stage⟩
    rw [← accepting, Function.update_self]
    exact stage
  stage := by
    intro other
    rw [Function.update_apply]
    split
    next same => exact same ▸ next.stage
    next different =>
      exact (fits.stage other).other (next.foreign other different) next.used (next.leaving other different)
  loaded := by
    intro other id loaded solid
    rw [Function.update_apply] at loaded solid
    split at loaded
    next same =>
      rw [if_pos same] at solid
      exact next.loaded id loaded solid
    next different =>
      rw [if_neg different] at solid
      rcases next.vacant with ⟨_, same⟩ | nobody
      · rw [same]
        exact fits.loaded other id loaded solid
      · exact absurd solid (nobody other different)

end Runs

end Network
end LoginServer
