import LoginServer.Network.Routine
import LoginServer.Network.Slots

namespace LoginServer
namespace Network

open Memory Buffers Receiving Login Concurrency

/-!
# Lifetimes

Every event finds its slot in the phase it belongs to.  The events that move a
slot on are those of the accept thread, from the pop to `OnNewConnect`, and
those of the thread that won the compare-exchange, up to `OnDisconnect`.
-/

section Runs

variable {workers contents : Nat} {settings : Settings}

/-! ## Steps to the next phase -/

section Steps

variable {slot : Slot} {life : Life (Thread workers contents)} {state : State}
  {ghosts : Thread workers contents -> Position} {thread : Thread workers contents}

theorem Phase.isIntroduced_of_resting {phase : Phase (Thread workers contents)}
    (resting : phase.isRunning = false) : phase.isIntroduced = false := by
  cases phase with
  | running id introduced => exact Bool.noConfusion resting
  | _ => rfl

theorem SlotFits.nobodySolid (fits : SlotFits state ghosts slot life)
    (resting : life.phase.isRunning = false) (other : Thread workers contents) :
    ¬ (ghosts other).solid slot :=
  fun solid => Bool.noConfusion (resting.symm.trans (fits.solid other solid))

theorem SlotFits.nobodyReceives (fits : SlotFits state ghosts slot life)
    (unknown : life.phase.isIntroduced = false) (other : Thread workers contents) :
    (ghosts other).account.receiving ≠ some slot :=
  fun receiving => Bool.noConfusion (unknown.symm.trans (fits.receiving other receiving))

/-- A step between two phases in neither of which the session is in use. -/
theorem SlotFits.rests {state' : State} {life' : Life (Thread workers contents)} {position : Position}
    (fits : SlotFits state ghosts slot life) (resting : life.phase.isRunning = false)
    (resting' : life'.phase.isRunning = false)
    (foreign : forall other, other ≠ thread -> life.phase.owner ≠ some other)
    (used : life.phase.used = true -> life'.phase.used = true)
    (leaving : forall other, other ≠ thread -> life'.leaving other = life.leaving other)
    (stacked : state'.indexStack.count slot = if life'.phase.isStacked then 1 else 0)
    (marked : life'.phase.marked = true -> (state'.sessionArray slot).ioCount.deleted = true)
    (named : forall id, life'.phase.id = some id ->
      (state'.sessionArray slot).id = id ∧ getIndex id = slot)
    (kernel : state'.kernelHolds slot = state.kernelHolds slot)
    (received : state'.recvHolds slot = state.recvHolds slot)
    (account : position.account = (ghosts thread).account)
    (extra : position.stage.extra slot = (ghosts thread).stage.extra slot)
    (stage : StageFits slot life' thread position) :
    SlotFits state' (Function.update ghosts thread position) slot life' := by
  have unknown := Phase.isIntroduced_of_resting resting
  have unsolid : ¬ position.solid slot := by
    unfold Position.solid
    rw [account, extra]
    exact fits.nobodySolid resting thread
  apply fits.advances
  exact {
    foreign := foreign
    used := used
    leaving := leaving
    stacked := stacked
    marked := marked
    opened := fun running => Bool.noConfusion (resting'.symm.trans running)
    named := named
    kernel := fun _ => kernel.trans (fits.kernel resting)
    received := fun _ => received.trans (fits.received unknown)
    vacant := Or.inr fun other _ => fits.nobodySolid resting other
    receivers := Or.inr fun other _ => fits.nobodyReceives unknown other
    solid := fun solid => absurd solid unsolid
    receiving := by
      rw [account]
      exact fun receiving => absurd receiving (fits.nobodyReceives unknown thread)
    introducing := by
      intro id phase
      rw [phase] at resting'
      exact Bool.noConfusion resting'
    stage := stage
    loaded := fun id _ solid => absurd solid unsolid }

/-- The accept thread pops an index. -/
theorem SlotFits.popIndex {rest : List Slot} (fits : SlotFits state ghosts slot life)
    (accepting : thread = .accept) (idle : (ghosts thread).stage = .idle)
    (stack : state.indexStack = slot :: rest) :
    Exists fun life' => life.next slot thread ⟨.popIndex, some slot⟩ = some life' ∧
      (life.phase.used = true -> life'.phase.used = true) ∧
      SlotFits { state with indexStack := rest } (Function.update ghosts thread ((ghosts thread).track
        ⟨.popIndex, some slot⟩)) slot life' := by
  have counted := fits.stacked
  rw [stack, List.count_cons_self] at counted
  rcases life with ⟨phase, leaving⟩
  cases phase with
  | stacked used =>
      refine ⟨_, if_pos rfl, id, ?_⟩
      apply fits.rests rfl rfl
      · exact fun _ _ => nofun
      · exact id
      · exact fun _ _ => rfl
      · exact Nat.succ.inj counted
      · exact fits.marked
      · exact nofun
      · rfl
      · rfl
      · rfl
      · rw [idle]
        rfl
      · exact fun _ => ⟨accepting, used, rfl⟩
  | _ => cases counted

/-- `init` stores the ID. -/
theorem SlotFits.storeId {id : SessionID} (fits : SlotFits state ghosts slot life)
    (popped : (ghosts thread).stage = .popped slot) (own : getIndex id = slot) :
    Exists fun life' => life.next slot thread ⟨.session slot (.storeId id), ()⟩ = some life' ∧
      (life.phase.used = true -> life'.phase.used = true) ∧
      SlotFits (state.setSession slot { state.sessionArray slot with id := id })
        (Function.update ghosts thread ((ghosts thread).track ⟨.session slot (.storeId id), ()⟩))
        slot life' := by
  have staged := fits.stage thread
  unfold StageFits at staged
  rw [popped] at staged
  rcases staged rfl with ⟨accepting, used, phase⟩
  rcases life with ⟨_, leaving⟩
  cases (phase : _ = Phase.starting used none)
  refine ⟨_, (if_pos rfl).trans (if_pos own), fun used => used, ?_⟩
  apply fits.rests rfl rfl
  · exact fun other different same => different ((Option.some.inj same).symm.trans accepting.symm)
  · exact fun used => used
  · exact fun _ _ => rfl
  · exact fits.stacked
  · intro marked
    rw [State.setSession_same]
    exact fits.marked marked
  · intro _ named
    cases named
    exact ⟨by rw [State.setSession_same], own⟩
  · simp [State.kernelHolds]
  · simp [State.recvHolds]
  · rfl
  · rw [popped]
    exact if_neg (by simp)
  · exact fun _ => ⟨accepting, (by simp), used, rfl⟩

/-- `init` opens the session. -/
theorem SlotFits.clearDeleted (fits : SlotFits state ghosts slot life)
    (permitted : living.permits (ghosts thread) (.session slot .clearDeleted)) :
    Exists fun life' => life.next slot thread ⟨.session slot .clearDeleted, ()⟩ = some life' ∧
      (life.phase.used = true -> life'.phase.used = true) ∧
      SlotFits
        (state.setSession slot { state.sessionArray slot with
          ioCount := ⟨false, (state.sessionArray slot).ioCount.refs⟩ })
        (Function.update ghosts thread ((ghosts thread).track ⟨.session slot .clearDeleted, ()⟩))
        slot life' := by
  rcases permitted with ⟨id, starting⟩
  have staged := fits.stage thread
  unfold StageFits at staged
  rw [starting] at staged
  rcases staged rfl with ⟨accepting, held, used, phase⟩
  rcases life with ⟨_, leaving⟩
  cases (phase : _ = Phase.starting used (some id))
  have moved : (ghosts thread).stage.track ⟨.session slot .clearDeleted, ()⟩ =
      .introducing slot id := by
    rw [starting]
    rfl
  have stage : ((ghosts thread).track ⟨.session slot .clearDeleted, ()⟩).stage =
      .introducing slot id := moved
  refine ⟨_, if_pos rfl, fun _ => rfl, ?_⟩
  apply fits.advances
  exact {
    foreign := fun other different same =>
      different ((Option.some.inj same).symm.trans accepting.symm)
    used := fun _ => rfl
    leaving := fun _ _ => rfl
    stacked := fits.stacked
    marked := nofun
    opened := fun _ => by rw [State.setSession_same]
    named := by
      intro other named
      cases named
      rw [State.setSession_same]
      exact fits.named id rfl
    kernel := nofun
    received := fun _ => Eq.trans (by simp [State.recvHolds]) (fits.received rfl)
    vacant := Or.inl ⟨rfl, by rw [State.setSession_same]⟩
    receivers := Or.inr fun other _ => fits.nobodyReceives rfl other
    solid := fun _ => rfl
    receiving := fun receiving => absurd receiving (fits.nobodyReceives rfl thread)
    introducing := by
      intro other phase
      cases phase
      exact ⟨accepting, stage⟩
    stage := by
      unfold StageFits
      rw [stage]
      exact fun _ => ⟨accepting, held rfl, rfl⟩
    loaded := nofun }

/-- The session is announced. -/
theorem SlotFits.onNewConnect {id : SessionID} (fits : SlotFits state ghosts slot life)
    (introducing : (ghosts thread).stage = .introducing slot id) (own : getIndex id = slot) :
    Exists fun life' => life.next slot thread ⟨.mark (.onNewConnect id), ()⟩ = some life' ∧
      life'.phase.used = true ∧
      SlotFits state (Function.update ghosts thread ((ghosts thread).track
        ⟨.mark (.onNewConnect id), ()⟩)) slot life' := by
  have staged := fits.stage thread
  unfold StageFits at staged
  rw [introducing] at staged
  rcases staged rfl with ⟨accepting, held, phase⟩
  rcases life with ⟨_, leaving⟩
  cases (phase : _ = Phase.running id false)
  refine ⟨_, (if_pos own).trans (if_pos rfl), rfl, ?_⟩
  apply fits.advances
  exact {
    foreign := fun other different same =>
      different ((Option.some.inj same).symm.trans accepting.symm)
    used := fun _ => rfl
    leaving := fun _ _ => rfl
    stacked := fits.stacked
    marked := nofun
    opened := fun _ => fits.opened rfl
    named := fits.named
    kernel := nofun
    received := nofun
    vacant := Or.inl ⟨rfl, rfl⟩
    receivers := Or.inl rfl
    solid := fun _ => rfl
    receiving := fun _ => rfl
    introducing := by simp
    stage := trivial
    loaded := by
      intro other loaded _
      refine fits.loaded thread other (Position.loaded_kept loaded (by simp)) ?_
      unfold Position.solid
      rw [introducing]
      exact held }

/-- A compare-exchange finds the session without holds, and wins it. -/
theorem SlotFits.exchange_wins (fits : SlotFits state ghosts slot life) (covered : Covered state ghosts slot)
    (emptied : (ghosts thread).stage = .emptied slot)
    (zero : (state.sessionArray slot).ioCount.isZero = true) :
    Exists fun life' => life.next slot thread
        ⟨.session slot .compareExchangeIo, (state.sessionArray slot).ioCount⟩ = some life' ∧
      (life.phase.used = true -> life'.phase.used = true) ∧
      SlotFits (state.setSession slot { state.sessionArray slot with ioCount := ⟨true, 0⟩ })
        (Function.update ghosts thread ((ghosts thread).track
          ⟨.session slot .compareExchangeIo, (state.sessionArray slot).ioCount⟩)) slot life' := by
  rcases (IoCount.isZero_iff _).mp zero with ⟨unmarked, none⟩
  have kernel : state.kernelHolds slot = 0 := Nat.le_zero.mp (none ▸ covered.kernel_le)
  have owed (other : Thread workers contents) : (ghosts other).account.owed slot = 0 :=
    Nat.le_zero.mp (none ▸ covered.owed_le other)
  have unreceiving (other : Thread workers contents) : (ghosts other).account.receiving ≠ some slot := by
    intro receiving
    have held := (ghosts other).account.held slot receiving
    rw [owed other] at held
    exact Nat.not_succ_le_zero 0 held
  have used : life.phase.used = true := by
    have staged := fits.stage thread
    unfold StageFits at staged
    rw [emptied] at staged
    exact staged rfl
  have running : life.phase.isRunning = true := by
    apply Phase.isRunning_of_used used
    apply Bool.eq_false_iff.mpr
    intro marked
    rw [fits.marked marked] at unmarked
    cases unmarked
  rcases life with ⟨phase, leaving⟩
  cases phase with
  | running id introduced =>
      cases introduced with
      | false =>
          have staged := fits.stage .accept
          unfold StageFits at staged
          rw [fits.introducing id rfl] at staged
          have held := (staged rfl).2.1
          rw [owed] at held
          exact absurd held (Nat.not_succ_le_zero 0)
      | true =>
          have stage : ((ghosts thread).track
              ⟨.session slot .compareExchangeIo, (state.sessionArray slot).ioCount⟩).stage =
              .deleting slot := if_pos zero
          have unsolid (other : Thread workers contents) : ¬ (ghosts other).solid slot := by
            unfold Position.solid
            rw [owed]
            exact Nat.not_lt_zero _
          refine ⟨_, if_pos ⟨rfl, zero⟩, fun _ => rfl, ?_⟩
          apply fits.advances
          exact {
            foreign := fun _ _ => nofun
            used := fun _ => rfl
            leaving := fun _ _ => rfl
            stacked := fits.stacked
            marked := fun _ => by rw [State.setSession_same]
            opened := nofun
            named := by
              intro other named
              rw [State.setSession_same]
              exact fits.named other named
            kernel := fun _ => Eq.trans (by simp [State.kernelHolds]) kernel
            received := by
              intro _
              have least := state.recvHolds_le slot
              rw [kernel] at least
              exact Eq.trans (by simp [State.recvHolds]) (Nat.le_zero.mp least)
            vacant := Or.inr fun other _ => unsolid other
            receivers := Or.inr fun other _ => unreceiving other
            solid := by
              unfold Position.solid
              rw [stage]
              exact fun held => absurd ((owed thread) ▸ held) (Nat.not_lt_zero _)
            receiving := fun receiving => absurd receiving (unreceiving thread)
            introducing := by simp
            stage := by
              unfold StageFits
              rw [stage]
              exact fun _ => ⟨id, rfl⟩
            loaded := by
              intro other _ held
              unfold Position.solid at held
              rw [stage] at held
              exact absurd ((owed thread) ▸ held) (Nat.not_lt_zero _) }
  | _ => exact Bool.noConfusion running

/-- The winner pushes the index. -/
theorem SlotFits.pushIndex {id : SessionID} (fits : SlotFits state ghosts slot life)
    (deleting : (ghosts thread).stage = .deletingAs slot id) :
    Exists fun life' => life.next slot thread ⟨.pushIndex slot, ()⟩ = some life' ∧
      (life.phase.used = true -> life'.phase.used = true) ∧
      SlotFits { state with indexStack := slot :: state.indexStack }
        (Function.update ghosts thread ((ghosts thread).track ⟨.pushIndex slot, ()⟩)) slot life' := by
  have staged := fits.stage thread
  unfold StageFits at staged
  rw [deleting] at staged
  rcases life with ⟨_, leaving⟩
  cases (staged rfl : _ = Phase.deleting thread id)
  have moved : (ghosts thread).stage.track ⟨.pushIndex slot, ()⟩ = .leaving id := by
    rw [deleting]
    rfl
  have stage : ((ghosts thread).track ⟨.pushIndex slot, ()⟩).stage = .leaving id := moved
  refine ⟨_, (if_pos rfl).trans (if_pos rfl), fun _ => rfl, ?_⟩
  apply fits.rests rfl rfl
  · exact fun other different same => different (Option.some.inj same).symm
  · exact fun _ => rfl
  · exact fun other different => Function.update_of_ne different _ _
  · have counted := fits.stacked
    exact (List.count_cons_self).trans (congrArg Nat.succ counted)
  · exact fits.marked
  · exact nofun
  · rfl
  · rfl
  · rfl
  · rw [stage, deleting]
    rfl
  · unfold StageFits
    rw [stage]
    exact fun _ => Function.update_self _ _ _

/-- What a slot remembers of a thread matters only until it has called `OnDisconnect`. -/
theorem SlotFits.forget (fits : SlotFits state ghosts slot life) (idle : (ghosts thread).stage = .idle)
    (leaving : Option SessionID) :
    SlotFits state ghosts slot { life with leaving := Function.update life.leaving thread leaving } :=
  { fits with
    stage := by
      intro other
      by_cases same : other = thread
      · subst same
        unfold StageFits
        rw [idle]
        trivial
      · have staged := fits.stage other
        generalize ghosts other = position at staged ⊢
        rcases position with ⟨account, stage, loaded⟩
        cases stage with
        | leaving id => exact fun here => (Function.update_of_ne same _ _).trans (staged here)
        | _ => exact staged }

/-- The winner calls `OnDisconnect`. -/
theorem SlotFits.onDisconnect {id : SessionID} (fits : SlotFits state ghosts slot life)
    (leaving : (ghosts thread).stage = .leaving id) (own : getIndex id = slot) :
    Exists fun life' => life.next slot thread ⟨.mark (.onDisconnect id), ()⟩ = some life' ∧
      life'.phase = life.phase ∧
      SlotFits state (Function.update ghosts thread ((ghosts thread).track
        ⟨.mark (.onDisconnect id), ()⟩)) slot life' := by
  have staged := fits.stage thread
  unfold StageFits at staged
  rw [leaving] at staged
  refine ⟨_, (if_pos own).trans (if_pos (staged own)), rfl, ?_⟩
  have solid (after : ((ghosts thread).track ⟨.mark (.onDisconnect id), ()⟩).solid slot) :
      (ghosts thread).solid slot := by
    unfold Position.solid
    rw [leaving]
    exact after
  refine SlotFits.forget (fits.continues ?_) ?_ none
  · exact {
      stacked := rfl
      deleted := rfl
      named := rfl
      kernel := fun _ => Nat.le_refl _
      solid := fun after => fits.solid thread (solid after)
      received := fun _ => Nat.le_refl _
      receiving := fits.receiving thread
      introducing := by
        intro id introducing
        cases leaving.symm.trans introducing
      stage := trivial
      loaded := fun id loaded after =>
        fits.loaded thread id (Position.loaded_kept loaded (by simp)) (solid after) }
  · rw [Function.update_self]
    rfl

/-- A received packet is handed over. -/
theorem SlotFits.onRecv {id : SessionID} (fits : SlotFits state ghosts slot life)
    (permitted : living.permits (ghosts thread) (.mark (.onRecv slot id))) :
    life.next slot thread ⟨.mark (.onRecv slot id), ()⟩ = some life := by
  rcases permitted with ⟨idle, receiving, loaded⟩
  have introduced := fits.receiving thread receiving
  have read := fits.read idle ((ghosts thread).account.held slot receiving) loaded
  rcases life with ⟨phase, leaving⟩
  cases phase with
  | running own known =>
      cases (introduced : known = true)
      have same : id = own := read.symm.trans (fits.named own rfl).1
      exact (if_pos rfl).trans (if_pos same)
  | _ => exact Bool.noConfusion introduced

/-- What a step does to a slot. -/
abbrev Proceeds (slot : Slot) (life : Life (Thread workers contents)) (state' : State)
    (ghosts : Thread workers contents -> Position) (thread : Thread workers contents)
    (event : Event interface) : Prop :=
  Exists fun life' => life.next slot thread event = some life' ∧
    (life.phase.used = true -> life'.phase.used = true) ∧
    SlotFits state' (Function.update ghosts thread ((ghosts thread).track event)) slot life'

theorem SlotFits.session {op : SessionOp} {answer : op.Answer} {choice : Choice} {state' : State}
    (fits : SlotFits state ghosts slot life) (covered : Covered state ghosts slot)
    (permitted : living.permits (ghosts thread) (.session slot op))
    (performed : perform choice state (.session slot op) = some (answer, state')) :
    Proceeds slot life state' ghosts thread ⟨.session slot op, answer⟩ := by
  by_cases quiet : op.quiet = true
  · have alike : Op.quiet (.session slot op) = true := quiet
    have untouched := perform_quiet alike performed
    have next : life.next slot thread ⟨.session slot op, answer⟩ = some life := by
      cases op <;> first | rfl | exact Bool.noConfusion quiet
    refine ⟨life, next, fun used => used, ?_⟩
    rw [Position.track_quiet quiet, Function.update_eq_self]
    exact fits.untouched (untouched.session slot) untouched.indexStack untouched.port
  have whole := performed
  rcases perform_session performed with ⟨s', inner, rfl⟩
  cases op with
  | incrementIo =>
      cases inner
      exact ⟨life, rfl, fun used => used, fits.increment permitted⟩
  | decrementIo =>
      cases inner
      exact ⟨life, rfl, fun used => used, fits.decrement covered permitted⟩
  | compareExchangeIo =>
      cases inner
      by_cases zero : (state.sessionArray slot).ioCount.isZero = true
      · rw [if_pos zero]
        exact fits.exchange_wins covered permitted zero
      · have counting := Bool.eq_false_iff.mpr zero
        rw [if_neg zero]
        refine ⟨life, if_neg fun both => zero both.2, fun used => used, ?_⟩
        refine (fits.exchange_fails permitted counting).untouched ?_ rfl rfl
        rw [State.setSession_same]
        exact .refl _
  | clearDeleted =>
      cases inner
      exact fits.clearDeleted permitted
  | loadId =>
      cases inner
      refine ⟨life, rfl, fun used => used, ?_⟩
      refine (fits.loadId permitted).untouched ?_ rfl rfl
      rw [State.setSession_same]
      exact .refl _
  | storeId id =>
      cases inner
      exact fits.storeId permitted.1 permitted.2
  | wsaSend batch =>
      exact ⟨life, rfl, fun used => used, fits.handOver permitted.1 permitted.2 whole (Or.inl ⟨batch, rfl⟩)⟩
  | wsaRecv buffers =>
      exact ⟨life, rfl, fun used => used, fits.wsaRecv permitted.1 permitted.2 whole⟩
  | recved transfer =>
      cases inner
      refine ⟨life, rfl, fun used => used, ?_⟩
      change SlotFits _ (Function.update ghosts thread (ghosts thread)) slot life
      rw [Function.update_eq_self]
      refine fits.untouched ?_ rfl rfl
      rw [State.setSession_same]
      exact ⟨rfl, rfl, rfl, rfl⟩
  | _ => exact absurd rfl quiet

/-- Every operation that a thread may perform finds every slot in order. -/
theorem SlotFits.step {op : Op} {answer : op.Answer} {choice : Choice} {state' : State}
    (fits : SlotFits state ghosts slot life) (covered : Covered state ghosts slot)
    (permitted : living.permits (ghosts thread) op)
    (performed : perform choice state op = some (answer, state'))
    (aligned : forall target id, (ghosts thread).stage = .deletingAs target id ∨
      (ghosts thread).stage = .introducing target id -> getIndex id = target)
    (accepting : op = .popIndex -> thread = .accept)
    (known : forall id, op = .mark (.findSession id) -> getIndex id = slot -> life.phase.used = true) :
    Proceeds slot life state' ghosts thread ⟨op, answer⟩ := by
  by_cases here : concerns ⟨op, answer⟩ = some slot
  case neg =>
    exact ⟨life, next_elsewhere here, fun used => used, fits.elsewhere performed permitted aligned here⟩
  cases op with
  | session target op =>
      cases here
      exact fits.session covered permitted performed
  | getQueuedCompletionStatus =>
      simp only [perform] at performed
      split at performed
      next => cases performed
      next completion rest queued =>
        cases performed
        exact ⟨life, rfl, fun used => used, fits.dequeue permitted queued (Option.some.inj here)⟩
  | postQueuedCompletionStatus target packet =>
      cases here
      exact ⟨life, rfl, fun used => used,
        fits.handOver permitted.1 permitted.2 performed (Or.inr ⟨packet, rfl⟩)⟩
  | popIndex =>
      simp only [perform] at performed
      split at performed
      next =>
        cases performed
        cases here
      next index rest stack =>
        cases performed
        cases here
        exact fits.popIndex (accepting rfl) permitted stack
  | pushIndex index =>
      cases performed
      cases here
      rcases permitted with ⟨target, id, deleting, rfl⟩
      have own := aligned target id (Or.inl deleting)
      exact fits.pushIndex (by rw [deleting, own])
  | mark note =>
      cases performed
      cases note with
      | findSession id =>
          have used := known id rfl (Option.some.inj here)
          exact ⟨life, rfl, fun _ => used, fits.findSession permitted used⟩
      | onNewConnect id =>
          cases here
          rcases permitted with ⟨target, introducing⟩
          have own := aligned target id (Or.inr introducing)
          rcases fits.onNewConnect (by rw [introducing, own]) rfl with ⟨life', next, used, fits'⟩
          exact ⟨life', next, fun _ => used, fits'⟩
      | onRecv target id =>
          cases here
          refine ⟨life, fits.onRecv permitted, fun used => used, ?_⟩
          change SlotFits _ (Function.update ghosts thread (ghosts thread)) slot life
          rw [Function.update_eq_self]
          exact fits
      | onDisconnect id =>
          cases here
          rcases fits.onDisconnect permitted rfl with ⟨life', next, same, fits'⟩
          exact ⟨life', next, fun used => same ▸ used, fits'⟩
      | onSend target id transfer => cases here
      | sendedFailed target => cases here
      | packets buffers => cases here
  | _ => cases here

end Steps
/-! ## Whole runs -/

/-- The call of `OnNewConnect` that hands out an ID. -/
def announces (id : SessionID) (event : Event interface) : Bool :=
  match event.op with
  | .mark (.onNewConnect other) => other == id
  | _ => false

/-- An ID has been handed out by `OnNewConnect`. -/
def announced (history : List (Thread workers contents × Event interface)) (id : SessionID) : Bool :=
  history.any fun entry => announces id entry.2

/-- `findSession` is called only with IDs that `OnNewConnect` has handed out. -/
def introduced : (server settings workers contents).Rule := fun c _ event =>
  match event.op with
  | .mark (.findSession id) => announced c.history id = true
  | _ => True

theorem announces_next {life life' : Life (Thread workers contents)} {slot : Slot}
    {actor : Thread workers contents} {event : Event interface} {id : SessionID}
    (now : announces id event = true) (here : getIndex id = slot)
    (next : life.next slot actor event = some life') : life'.phase.used = true := by
  rcases event with ⟨op, answer⟩
  cases op with
  | mark note =>
      cases note with
      | onNewConnect other =>
          cases (beq_iff_eq.mp now : other = id)
          simp only [Life.next, if_pos here] at next
          split at next
          · split at next <;> cases next
            rfl
          · cases next
      | _ => exact Bool.noConfusion now
  | _ => exact Bool.noConfusion now

/-- Every slot's events are in order, and the IDs handed out are those of slots that
have been in use. -/
structure Alive (settings : Settings) (state : State) (ghosts : Thread workers contents -> Position)
    (history : List (Thread workers contents × Event interface)) : Prop where
  slots : forall slot, Exists fun life =>
    lifeAfter settings.maxSession slot history = some life ∧ SlotFits state ghosts slot life
  used : forall id, announced history id = true -> forall life,
    lifeAfter settings.maxSession (getIndex id) history = some life ->
      life.phase.used = true

theorem initial_count {maxSession : Nat} (small : maxSession < 2 ^ 16) (slot : Slot) :
    (State.initial maxSession).indexStack.count slot = if slot.toNat < maxSession then 1 else 0 := by
  have distinct : ((List.range maxSession).map (BitVec.ofNat 16)).Nodup := by
    refine (List.nodup_map_iff_inj_on List.nodup_range).mpr ?_
    intro first inside second inside' same
    have bounds := List.mem_range.mp inside
    have bounds' := List.mem_range.mp inside'
    have equal := congrArg BitVec.toNat same
    rw [BitVec.toNat_ofNat, BitVec.toNat_ofNat, Nat.mod_eq_of_lt (by omega),
      Nat.mod_eq_of_lt (by omega)] at equal
    exact equal
  have member : slot ∈ (List.range maxSession).map (BitVec.ofNat 16) ↔ slot.toNat < maxSession := by
    rw [List.mem_map]
    constructor
    · rintro ⟨number, inside, rfl⟩
      have bounds := List.mem_range.mp inside
      rw [BitVec.toNat_ofNat, Nat.mod_eq_of_lt (by omega)]
      exact bounds
    · intro inside
      exact ⟨slot.toNat, List.mem_range.mpr inside, by simp⟩
  change ((List.range maxSession).map (BitVec.ofNat 16)).count slot = _
  rw [distinct.count]
  exact if_congr member rfl rfl

theorem alive_initial : Alive settings (State.initial settings.maxSession)
    (fun _ : Thread workers contents => living.start) [] where
  slots := by
    intro slot
    have unused : (Life.initial settings.maxSession slot : Life (Thread workers contents)).phase.isRunning =
        false := by
      unfold Life.initial
      dsimp only
      split <;> rfl
    have unsolid : ¬ Position.solid living.start slot := Nat.lt_irrefl 0
    refine ⟨_, rfl, ?_⟩
    exact {
      stacked := by
        rw [initial_count settings.maxSession_lt]
        unfold Life.initial
        dsimp only
        split <;> rfl
      marked := by
        unfold Life.initial
        dsimp only
        split <;> exact nofun
      opened := fun _ => rfl
      named := by
        unfold Life.initial
        dsimp only
        split <;> exact nofun
      kernel := fun _ => rfl
      solid := fun _ solid => absurd solid unsolid
      received := fun _ => rfl
      receiving := nofun
      introducing := by
        intro id phase
        rw [phase] at unused
        cases unused
      stage := fun _ => trivial
      loaded := nofun }
  used := nofun

theorem SlotFits.aligned {state : State} {ghosts : Thread workers contents -> Position} {slot : Slot}
    {life : Life (Thread workers contents)} (fits : SlotFits state ghosts slot life)
    {thread : Thread workers contents} {id : SessionID}
    (stage : (ghosts thread).stage = .deletingAs slot id ∨ (ghosts thread).stage = .introducing slot id) :
    getIndex id = slot := by
  have staged := fits.stage thread
  unfold StageFits at staged
  rcases stage with same | same <;> rw [same] at staged
  · exact (fits.named id (by rw [staged rfl]; rfl)).2
  · exact (fits.named id (by rw [(staged rfl).2.2]; rfl)).2

theorem covered_of_reach {c : (server settings workers contents).Config}
    {rule : (server settings workers contents).Rule}
    (reach : (server settings workers contents).Reach rule c) (slot : Slot) :
    Covered c.state (living.ghosts c) slot := by
  have counted := holds_le_ioCount reach slot
  unfold Covered
  have same : (fun thread => (living.ghosts c thread).account.owed) = (holds true).ghosts c :=
    funext fun thread => living_owed (c.past thread)
  unfold owedTotal at counted
  rw [← same] at counted
  exact counted

/-- Only the accept thread pops. -/
theorem jobs_pop {thread : Thread workers contents} {job : Job} {program : NetProgram Unit}
    (chosen : jobProgram settings thread job = some program) :
    program.Uses fun (op : Op) => thread ≠ .accept -> op ≠ .popIndex := by
  by_cases accepting : thread = .accept
  · exact Program.uses_of_forall _ fun _ other => absurd accepting other
  · have others : program.Uses fun (op : Op) => op ≠ .popIndex := by
      refine jobs_use ?_ ?_ ⟨by simp, (by simp), by simp⟩ accepting chosen
      · rintro op works rfl
        cases works
      · rintro op closes rfl
        cases closes
    exact others.mono fun _ different _ => different

theorem accept_of_popIndex {c : (server settings workers contents).Config}
    {rule : (server settings workers contents).Rule}
    (reach : (server settings workers contents).Reach rule c) {thread : Thread workers contents}
    {next : Option Slot -> NetProgram Unit}
    (turn : c.running thread = .step (I := interface) .popIndex next) : thread = .accept := by
  have uses := reach.running_uses (fun _ _ _ => jobs_pop) thread
  rw [turn] at uses
  by_contra other
  exact uses.1 other rfl

theorem surround_kernelHolds {state state' : State} {change : Surroundings}
    (changed : surround state change = some state') (slot : Slot) :
    state'.kernelHolds slot = state.kernelHolds slot := by
  have balance := surround_balance changed slot
  have same := ((surround_sameFields changed).1 slot).ioCount
  unfold State.balance State.refs at balance
  rw [same] at balance
  omega

theorem surround_recvHolds {state state' : State} {change : Surroundings}
    (changed : surround state change = some state') (slot : Slot) :
    state'.recvHolds slot = state.recvHolds slot := by
  cases change with
  | completeSend target position success transfer =>
      simp only [surround] at changed
      split at changed
      next => cases changed
      next pending found =>
        split at changed <;> cases changed
        by_cases same : slot = target
        · subst same
          simp [State.recvHolds]
        · simp [State.recvHolds, same]
  | completeRecv target position success data =>
      simp only [surround] at changed
      split at changed
      next => cases changed
      next pending found =>
        have inside := (List.getElem?_eq_some_iff.mp found).1
        split at changed <;> cases changed
        by_cases same : slot = target
        · subst same
          simp only [State.recvHolds, State.setSession_same, List.length_eraseIdx_of_lt inside,
            List.countP_append, List.countP_singleton, beq_self_eq_true, Bool.and_self, if_true]
          omega
        · have other : ¬ (target == slot) = true := fun equal => same (beq_iff_eq.mp equal).symm
          simp [State.recvHolds, same, other]
  | tick count =>
      simp only [surround] at changed
      split at changed <;> cases changed
      rfl

/-- Completions do not touch what the phase of a slot rests on. -/
theorem SlotFits.surround {state state' : State} {ghosts : Thread workers contents -> Position}
    {slot : Slot} {life : Life (Thread workers contents)} {change : Surroundings}
    (fits : SlotFits state ghosts slot life) (changed : surround state change = some state') :
    SlotFits state' ghosts slot life := by
  rcases surround_sameFields changed with ⟨fields, stack, _⟩
  have same := fields slot
  exact { fits with
    stacked := by rw [stack]; exact fits.stacked
    marked := fun marked => by rw [same.ioCount]; exact fits.marked marked
    opened := fun running => by rw [same.ioCount]; exact fits.opened running
    named := fun id named => by rw [same.id]; exact fits.named id named
    kernel := fun resting => (surround_kernelHolds changed slot).trans (fits.kernel resting)
    received := fun unknown => (surround_recvHolds changed slot).trans (fits.received unknown)
    loaded := fun other id loaded solid => by rw [same.id]; exact fits.loaded other id loaded solid }

theorem alive_preserved : living.Preserved (server settings workers contents) introduced
    (Alive settings) where
  initial := alive_initial
  act := by
    intro c thread op next choice answer state reach turn alive permitted performed lawful
    refine ⟨trivial, ?_⟩
    have aligned (target : Slot) (id : SessionID)
        (stage : (living.ghosts c thread).stage = .deletingAs target id ∨
          (living.ghosts c thread).stage = .introducing target id) : getIndex id = target := by
      rcases alive.slots target with ⟨_, _, fits⟩
      exact fits.aligned stage
    have accepting (pops : op = .popIndex) : thread = .accept := by
      subst pops
      exact accept_of_popIndex reach turn
    have stepped (slot : Slot) (life : Life (Thread workers contents))
        (current : lifeAfter settings.maxSession slot c.history = some life)
        (fits : SlotFits c.state (living.ghosts c) slot life) :
        Proceeds slot life state (living.ghosts c) thread ⟨op, answer⟩ := by
      refine fits.step (covered_of_reach reach slot) permitted performed aligned accepting ?_
      rintro id rfl rfl
      exact alive.used id lawful life current
    constructor
    · intro slot
      rcases alive.slots slot with ⟨life, current, fits⟩
      rcases stepped slot life current fits with ⟨life', moved, _, fits'⟩
      exact ⟨life', (congrArg (Option.bind · _) current).trans moved, fits'⟩
    · intro id known life' current'
      rcases alive.slots (getIndex id) with ⟨life, current, fits⟩
      rcases stepped _ life current fits with ⟨next, moved, used, _⟩
      have whole : lifeAfter settings.maxSession (getIndex id) ((thread, ⟨op, answer⟩) :: c.history) =
          some next := (congrArg (Option.bind · _) current).trans moved
      cases whole.symm.trans current'
      rw [announced, List.any_cons, Bool.or_eq_true] at known
      rcases known with now | before
      · exact announces_next now rfl moved
      · exact used (alive.used id before life current)
  takeUp := by
    intro state ghosts history thread alive finished
    refine ⟨?_, alive.used⟩
    intro slot
    rcases alive.slots slot with ⟨life, current, fits⟩
    refine ⟨life, current, fits.continues ?_⟩
    exact {
      stacked := rfl
      deleted := rfl
      named := rfl
      kernel := fun _ => Nat.le_refl _
      solid := fun solid => absurd solid (Nat.lt_irrefl 0)
      received := fun _ => Nat.le_refl _
      receiving := nofun
      introducing := by
        intro id introducing
        cases introducing.symm.trans finished
      stage := trivial
      loaded := nofun }
  surround := by
    intro state ghosts history change state' alive changed
    refine ⟨?_, alive.used⟩
    intro slot
    rcases alive.slots slot with ⟨life, current, fits⟩
    exact ⟨life, current, fits.surround changed⟩

/-- No event brings a slot beyond `maxSession` into being, or removes one. -/
theorem next_absent {life life' : Life (Thread workers contents)} {slot : Slot}
    {actor : Thread workers contents} {event : Event interface}
    (next : life.next slot actor event = some life') :
    life'.phase = .absent ↔ life.phase = .absent := by
  rcases life with ⟨phase, leaving⟩
  unfold Life.next at next
  split at next
  -- an event either keeps the phase or leads from one that is not `absent` to another
  all_goals
    repeat' split at next
    all_goals cases next
    all_goals first | exact Iff.rfl | simp_all

theorem lifeAfter_absent {slot : Slot} {history : List (Thread workers contents × Event interface)}
    {life : Life (Thread workers contents)} {maxSession : Nat}
    (current : lifeAfter maxSession slot history = some life) :
    life.phase = .absent ↔ maxSession ≤ slot.toNat := by
  induction history generalizing life with
  | nil =>
      cases current
      unfold Life.initial
      dsimp only
      split
      next inside => exact ⟨by simp, fun beyond => absurd inside (Nat.not_lt.mpr beyond)⟩
      next outside => exact ⟨fun _ => Nat.not_lt.mp outside, fun _ => rfl⟩
  | cons entry earlier inductionHypothesis =>
      rcases Option.bind_eq_some_iff.mp current with ⟨before, reached, moved⟩
      exact (next_absent moved).trans (inductionHypothesis reached)

/-- `getSessionCount`, in the arithmetic of `size_t`. -/
def getSessionCount (maxSession : Nat) (state : State) : BitVec 64 :=
  BitVec.ofNat 64 maxSession - BitVec.ofNat 64 state.indexStack.length

theorem length_le_of_count {indices : List Slot} {maxSession : Nat}
    (once : forall slot, indices.count slot ≤ 1)
    (inside : forall slot, slot ∈ indices -> slot.toNat < maxSession) : indices.length ≤ maxSession := by
  have distinct : (indices.map BitVec.toNat).Nodup :=
    (List.nodup_iff_count_le_one.mpr once).map fun _ _ => BitVec.eq_of_toNat_eq
  have among : indices.map BitVec.toNat ⊆ List.range maxSession := by
    intro number member
    rcases List.mem_map.mp member with ⟨slot, present, rfl⟩
    exact List.mem_range.mpr (inside slot present)
  have shorter := (distinct.subperm among).length_le
  rw [List.length_map, List.length_range] at shorter
  exact shorter

theorem getSessionCount_toNat {state : State} (small : settings.maxSession < 2 ^ 16)
    (fits : state.indexStack.length ≤ settings.maxSession) :
    (getSessionCount settings.maxSession state).toNat + state.indexStack.length =
      settings.maxSession := by
  unfold getSessionCount
  rw [BitVec.toNat_sub_of_le]
  · rw [BitVec.toNat_ofNat, BitVec.toNat_ofNat, Nat.mod_eq_of_lt (by omega),
      Nat.mod_eq_of_lt (by omega)]
    omega
  · rw [BitVec.le_def, BitVec.toNat_ofNat, BitVec.toNat_ofNat, Nat.mod_eq_of_lt (by omega),
      Nat.mod_eq_of_lt (by omega)]
    exact fits

theorem alive_of_reach {c : (server settings workers contents).Config}
    (reach : (server settings workers contents).Reach introduced c) :
    Alive settings c.state (living.ghosts c) c.history :=
  (Discipline.sound alive_preserved (fun _ _ _ => jobs_living) reach).1

end Runs

end Network
end LoginServer
