import LoginServer.Concurrency.Layer
import LoginServer.Network.Handout
import LoginServer.Network.Senders

namespace LoginServer
namespace Network

open Memory Buffers Receiving Login Concurrency

/-!
# The send path of a session

What the flag, the queue and the counter of a session have to do with the
stages of all threads.  The flag is set once for a thread that has taken it,
for a `WSASend` whose completion nobody has dequeued, or for good after one
that was lost.  The links run ahead of the counter by what the threads have in
between.

A sender keeps the session in use.  So nobody sends while a thread deletes
the session or initialises the next one.
-/

/-! ## Stages in the life of a session -/

namespace Sending

/-- The stages of `bufferClear`. -/
def clears : Sending -> Bool
  | .clearing => true
  | .dropping => true
  | .dropped => true
  | .cleared => true
  | .emptied => true
  | _ => false

/-- The stages of `init`. -/
def opens : Sending -> Bool
  | .opening => true
  | .opened => true
  | _ => false

/-- The stages from the push to the end of `sendIO`, and those of a completion. -/
def works : Sending -> Bool
  | .away => false
  | stage => !stage.clears && !stage.opens

theorem cases_of (stage : Sending) :
    stage = .away ∨ stage.works = true ∨ stage.clears = true ∨ stage.opens = true := by
  cases stage with
  | away => exact Or.inl rfl
  | _ => first | exact Or.inr (Or.inl rfl) | exact Or.inr (Or.inr (Or.inl rfl)) | exact Or.inr (Or.inr (Or.inr rfl))

end Sending

/-- The stage is not one of deleting or initialising the session in the slot. -/
def Stage.apart (slot : Slot) : Stage -> Prop
  | .deleting target => target ≠ slot
  | .deletingAs target _ => target ≠ slot
  | .starting target _ _ => target ≠ slot
  | _ => True

namespace Position

/-- The thread deletes the session in the slot. -/
def deletes (position : Position) (slot : Slot) : Prop :=
  position.stage = .deleting slot ∨ Exists fun id => position.stage = .deletingAs slot id

/-- The thread initialises it. -/
def starts (position : Position) (slot : Slot) : Prop :=
  Exists fun id => Exists fun held => position.stage = .starting slot id held

/-- The thread works on it with a hold. -/
def keeps (position : Position) (slot : Slot) : Prop :=
  position.stage = .idle ∧ 1 ≤ position.account.owed slot

theorem keeps.not_deletes {position : Position} {slot : Slot} (keeps : position.keeps slot) :
    ¬ position.deletes slot := by
  rintro (same | ⟨_, same⟩) <;> cases keeps.1.symm.trans same

theorem keeps.not_starts {position : Position} {slot : Slot} (keeps : position.keeps slot) :
    ¬ position.starts slot := by
  rintro ⟨_, _, same⟩
  cases keeps.1.symm.trans same

theorem deletes.not_starts {position : Position} {slot : Slot} (deletes : position.deletes slot) :
    ¬ position.starts slot := by
  rintro ⟨_, _, starting⟩
  rcases deletes with same | ⟨_, same⟩ <;> cases starting.symm.trans same

end Position

/-- The stage of a sender agrees with the life of the session. -/
structure Placed (slot : Slot) (position : Position) (stage : Sending) : Prop where
  works : stage.works = true -> position.keeps slot
  clears : stage.clears = true ↔ position.deletes slot
  opens : stage.opens = true ↔ position.starts slot

namespace Placed

variable {slot : Slot} {position : Position} {stage : Sending}

theorem of_keeps (keeps : position.keeps slot) (unclear : stage.clears = false) (unopened : stage.opens = false) :
    Placed slot position stage where
  works := fun _ => keeps
  clears := ⟨fun clears => Bool.noConfusion (unclear.symm.trans clears), fun deletes =>
    absurd deletes keeps.not_deletes⟩
  opens := ⟨fun opens => Bool.noConfusion (unopened.symm.trans opens), fun starts =>
    absurd starts keeps.not_starts⟩

theorem of_deletes (deletes : position.deletes slot) (clears : stage.clears = true) : Placed slot position stage where
  works := by cases stage <;> first | exact Bool.noConfusion clears | exact fun works => Bool.noConfusion works
  clears := ⟨fun _ => deletes, fun _ => clears⟩
  opens := by
    constructor
    · cases stage <;> first | exact Bool.noConfusion clears | exact fun opens => Bool.noConfusion opens
    · exact fun starts => absurd starts deletes.not_starts

theorem of_starts (starts : position.starts slot) (opens : stage.opens = true) : Placed slot position stage where
  works := by cases stage <;> first | exact Bool.noConfusion opens | exact fun works => Bool.noConfusion works
  clears := by
    constructor
    · cases stage <;> first | exact Bool.noConfusion opens | exact fun clears => Bool.noConfusion clears
    · exact fun deletes => absurd starts deletes.not_starts
  opens := ⟨fun _ => starts, fun _ => opens⟩

theorem away (apart : position.stage.apart slot) : Placed slot position .away where
  works := nofun
  clears := by
    refine ⟨nofun, ?_⟩
    rintro (same | ⟨_, same⟩) <;> rw [same] at apart <;> exact absurd rfl apart
  opens := by
    refine ⟨nofun, ?_⟩
    rintro ⟨_, _, same⟩
    rw [same] at apart
    exact absurd rfl apart

theorem apart (placed : Placed slot position .away) : position.stage.apart slot := by
  rcases position with ⟨account, life, loaded⟩
  cases life with
  | deleting target =>
      rintro rfl
      exact absurd (placed.clears.mpr (Or.inl rfl)) (by decide)
  | deletingAs target id =>
      rintro rfl
      exact absurd (placed.clears.mpr (Or.inr ⟨id, rfl⟩)) (by decide)
  | starting target id held =>
      rintro rfl
      exact absurd (placed.opens.mpr ⟨id, held, rfl⟩) (by decide)
  | _ => trivial

/-- A thread that touches the session and is nowhere else keeps it in use. -/
theorem keeps_of_touches (placed : Placed slot position .away) (touches : position.touches slot) :
    position.keeps slot := by
  rcases touches with keeps | deleting | starting
  · exact keeps
  · exact absurd (placed.clears.mpr (Or.inr deleting)) (by decide)
  · exact absurd (placed.opens.mpr starting) (by decide)

/-- The rest of what the position is does not matter. -/
theorem same {position' : Position} (placed : Placed slot position stage)
    (stages : position'.stage = position.stage)
    (owed : position.account.owed slot ≤ position'.account.owed slot) : Placed slot position' stage where
  works := fun works => ⟨stages.trans (placed.works works).1, (placed.works works).2.trans owed⟩
  clears := by
    unfold Position.deletes
    rw [stages]
    exact placed.clears
  opens := by
    unfold Position.starts
    rw [stages]
    exact placed.opens

end Placed

theorem permits_session {slot : Slot} {stage : Sending} {op : SessionOp}
    (sends : (sending slot).permits stage (.session slot op)) : stage.permits op := by
  cases op <;> first | exact sends rfl | exact sends

/-- An operation on the session moves a thread on in its life and in its sending. -/
theorem placed_session {slot : Slot} {position : Position} {stage : Sending} {op : SessionOp} {answer : op.Answer}
    (placed : Placed slot position stage) (lives : living.permits position (.session slot op))
    (sends : (sending slot).permits stage (.session slot op)) :
    Placed slot (position.track ⟨.session slot op, answer⟩) (stage.step op answer) := by
  rcases position with ⟨account, life, loaded⟩
  have permitted := permits_session sends
  cases op with
  | incrementIo =>
      have more : account.owed slot ≤ (account.owed.add slot) slot := by simp
      rcases lives with looking | ⟨id, starting⟩ | ⟨idle, held⟩
      · cases (looking : life = .looking slot)
        have away : stage = .away := by
          rcases stage.cases_of with away | works | clears | opens
          · exact away
          · cases (placed.works works).1
          · rcases placed.clears.mp clears with same | ⟨_, same⟩ <;> cases same
          · rcases placed.opens.mp opens with ⟨_, _, same⟩
            cases same
        subst away
        refine .away ?_
        change Stage.apart slot (if IoCount.deleted answer = true then .refused slot else .idle)
        split <;> trivial
      · cases (starting : life = .starting slot id false)
        exact .of_starts ⟨id, true, rfl⟩ (placed.opens.mpr ⟨id, false, rfl⟩)
      · cases (idle : life = .idle)
        exact placed.same rfl more
  | decrementIo =>
      cases (permitted : stage = .away)
      refine .away ?_
      change Stage.apart slot (if IoCount.isZero answer = true then .emptied slot else .idle)
      split <;> trivial
  | compareExchangeIo =>
      cases (permitted : stage = .away)
      change Placed slot ⟨account, if IoCount.isZero answer = true then .deleting slot else .idle, loaded⟩
        (if IoCount.isZero answer = true then .clearing else .away)
      split
      · exact .of_deletes (Or.inl rfl) rfl
      · exact .away trivial
  | clearDeleted =>
      rcases lives with ⟨id, starting⟩
      cases (starting : life = .starting slot id true)
      exact .away trivial
  | loadId =>
      rcases lives with deleting | ⟨idle, held⟩
      · cases (deleting : life = .deleting slot)
        exact .of_deletes (Or.inr ⟨answer, rfl⟩) (placed.clears.mpr (Or.inl rfl))
      · cases (idle : life = .idle)
        exact placed.same rfl (Nat.le_refl _)
  | storeId id =>
      exact .of_starts ⟨id, false, rfl⟩ rfl
  | wsaSend batch =>
      rcases lives with ⟨idle, held⟩
      cases (idle : life = .idle)
      cases answer with
      | error code =>
          change Placed slot ⟨account, .idle, loaded⟩ (if connectionLost code = true then .failed else .failing)
          split <;> exact .of_keeps ⟨rfl, held⟩ rfl rfl
      | _ => exact .away trivial
  | wsaRecv buffers =>
      cases (permitted : stage = .away)
      cases (lives.1 : life = .idle)
      exact .away trivial
  | linkNode packet =>
      cases (permitted : stage = .away)
      exact .of_keeps (placed.keeps_of_touches lives) rfl rfl
  | incrementSize =>
      rcases permitted with rfl | ⟨batch, rfl⟩ | rfl
      · exact .of_keeps (placed.works rfl) rfl rfl
      · exact .of_keeps (placed.works rfl) rfl rfl
      · exact .of_deletes (placed.clears.mp rfl) rfl
  | decrementSize =>
      rcases permitted with ⟨batch, rfl⟩ | rfl
      · change Placed slot _ (if _ then .popping batch else .missing batch)
        split <;> exact .of_keeps (placed.works rfl) rfl rfl
      · change Placed slot _ (if _ then .dropping else .dropped)
        split <;> exact .of_deletes (placed.clears.mp rfl) rfl
  | unlinkNode =>
      rcases permitted with ⟨batch, rfl⟩ | rfl
      · exact .of_keeps (placed.works rfl) rfl rfl
      · exact .of_deletes (placed.clears.mp rfl) rfl
  | loadSize =>
      rcases permitted with rfl | rfl
      · change Placed slot _ (if _ then .empty else .gathering [])
        split <;> exact .of_keeps (placed.works rfl) rfl rfl
      · change Placed slot _ (if _ then .due else .away)
        split <;> exact .of_keeps (placed.works rfl) rfl rfl
  | exchangeSendFlag value =>
      cases value with
      | true =>
          cases (permitted : stage = .due)
          change Placed slot _ (if _ then .away else .won)
          split <;> exact .of_keeps (placed.works rfl) rfl rfl
      | false => rcases permitted with rfl | rfl <;> exact .of_keeps (placed.works rfl) rfl rfl
  | storeSendFlag value =>
      rcases permitted.2 with rfl | rfl | rfl
      · exact .of_keeps (placed.works rfl) rfl rfl
      · exact .of_keeps (placed.works rfl) rfl rfl
      · exact .of_starts (placed.opens.mp rfl) rfl
  | pushSended packet =>
      rcases permitted with ⟨batch, rfl⟩
      change Placed slot _ (if _ then .gathering (batch ++ [packet]) else .taken batch packet)
      split <;> exact .of_keeps (placed.works rfl) rfl rfl
  | popSended =>
      rcases permitted with ⟨left, rfl⟩ | rfl
      · cases left <;> exact .of_keeps (placed.works rfl) rfl rfl
      · exact .of_deletes (placed.clears.mp rfl) rfl
  | emptySended =>
      cases (permitted : stage = .cleared)
      change Placed slot _ (if _ then .emptied else .cleared)
      split <;> exact .of_deletes (placed.clears.mp rfl) rfl
  | storeCancelIoFlag value =>
      cases value with
      | true =>
          rcases permitted with rfl | rfl
          · exact placed
          · exact .of_keeps (placed.works rfl) rfl rfl
      | false =>
          cases (permitted : stage = .opened)
          exact placed
  | loadCancelIoFlag =>
      cases stage with
      | due =>
          change Placed slot _ (if _ then .away else .due)
          split <;> exact .of_keeps (placed.works rfl) rfl rfl
      | _ => exact placed
  | _ => exact placed

/-- A thread that is neither between the functions nor deleting or initialising the
session is away. -/
theorem Placed.away_of_apart {slot : Slot} {position : Position} {stage : Sending}
    (placed : Placed slot position stage) (busy : position.stage ≠ .idle) (apart : position.stage.apart slot) :
    stage = .away := by
  have other : Placed slot position .away := .away apart
  rcases stage.cases_of with away | works | clears | opens
  · exact away
  · exact absurd (placed.works works).1 busy
  · exact Bool.noConfusion (other.clears.mpr (placed.clears.mp clears))
  · exact Bool.noConfusion (other.opens.mpr (placed.opens.mp opens))

/-- An operation on another session leaves a thread where it is in the sending of
this one. -/
theorem placed_elsewhere {slot target : Slot} {position : Position} {stage : Sending} {op : SessionOp}
    {answer : op.Answer} (placed : Placed slot position stage) (other : target ≠ slot)
    (lives : living.permits position (.session target op))
    (sends : (sending slot).permits stage (.session target op)) :
    Placed slot (position.track ⟨.session target op, answer⟩) stage := by
  have owed : ((position.track ⟨.session target op, answer⟩).account.owed slot) = position.account.owed slot :=
    owed_elsewhere fun same => other (Option.some.inj same)
  rcases position with ⟨account, life, loaded⟩
  cases op with
  | incrementIo =>
      rcases lives with looking | ⟨id, starting⟩ | ⟨idle, held⟩
      · cases (looking : life = .looking target)
        cases placed.away_of_apart (by simp) trivial
        refine .away ?_
        change Stage.apart slot (if IoCount.deleted answer = true then .refused target else .idle)
        split <;> trivial
      · cases (starting : life = .starting target id false)
        cases placed.away_of_apart (by simp) other
        exact .away other
      · cases (idle : life = .idle)
        exact placed.same rfl owed.ge
  | decrementIo =>
      cases (sends : stage = .away)
      refine .away ?_
      change Stage.apart slot (if IoCount.isZero answer = true then .emptied target else .idle)
      split <;> trivial
  | compareExchangeIo =>
      cases (lives : life = .emptied target)
      cases placed.away_of_apart (by simp) trivial
      refine .away ?_
      change Stage.apart slot (if IoCount.isZero answer = true then .deleting target else .idle)
      split
      · exact other
      · trivial
  | clearDeleted =>
      rcases lives with ⟨id, starting⟩
      cases (starting : life = .starting target id true)
      cases placed.away_of_apart (by simp) other
      exact .away trivial
  | loadId =>
      rcases lives with deleting | ⟨idle, held⟩
      · cases (deleting : life = .deleting target)
        cases placed.away_of_apart (by simp) other
        exact .away other
      · cases (idle : life = .idle)
        exact placed.same rfl (Nat.le_refl _)
  | storeId id =>
      cases (lives.1 : life = .popped target)
      cases placed.away_of_apart (by simp) trivial
      exact .away other
  | wsaSend batch => exact placed.same rfl owed.ge
  | wsaRecv buffers => exact placed.same rfl owed.ge
  | _ => exact placed

theorem placed_track {slot : Slot} {position : Position} {stage : Sending} {op : Op} {answer : op.Answer}
    (placed : Placed slot position stage) (lives : living.permits position op)
    (sends : (sending slot).permits stage op) :
    Placed slot (position.track ⟨op, answer⟩) (stage.track slot ⟨op, answer⟩) := by
  cases op with
  | session target op =>
      change Placed slot _ (if target = slot then stage.step op answer else stage)
      by_cases same : target = slot
      · rw [if_pos same]
        subst same
        exact placed_session placed lives sends
      · rw [if_neg same]
        exact placed_elsewhere placed same lives sends
  | getQueuedCompletionStatus =>
      cases (sends : stage = .away)
      rcases position with ⟨account, life, loaded⟩
      cases (lives : life = .idle)
      change Placed slot _ (Completion.brings answer slot .away)
      unfold Completion.brings
      split
      next handled =>
        have here : answer.slot = slot := by
          simp only [Completion.handled, Completion.sent, Bool.and_eq_true, beq_iff_eq] at handled
          exact handled.1.1.1
        refine .of_keeps ⟨rfl, ?_⟩ rfl rfl
        change 1 ≤ (account.dequeue answer).owed slot
        rw [account.dequeue_owed, here, Owed.add_same]
        exact Nat.le_add_left _ _
      next => exact .away trivial
  | postQueuedCompletionStatus target packet =>
      cases (sends : stage = .away)
      rcases position with ⟨account, life, loaded⟩
      cases (lives.1 : life = .idle)
      exact .away trivial
  | popIndex =>
      cases (sends : stage = .away)
      rcases position with ⟨account, life, loaded⟩
      cases (lives : life = .idle)
      refine .away ?_
      cases answer <;> trivial
  | pushIndex index =>
      rcases position with ⟨account, life, loaded⟩
      rcases lives with ⟨target, id, deleting, _⟩
      cases (deleting : life = .deletingAs target id)
      rcases (sends : stage = .away ∨ stage = .emptied) with rfl | rfl <;> exact .away trivial
  | mark note =>
      rcases position with ⟨account, life, loaded⟩
      cases note with
      | findSession id =>
          cases (sends : stage = .away)
          exact .away trivial
      | onNewConnect id =>
          rcases lives with ⟨target, introducing⟩
          cases (introducing : life = .introducing target id)
          cases placed.away_of_apart (by simp) trivial
          exact .away trivial
      | onDisconnect id =>
          cases (lives : life = .leaving id)
          cases placed.away_of_apart (by simp) trivial
          exact .away trivial
      | sendedFailed target =>
          change Placed slot _ (if target = slot then .away else stage)
          split
          next same =>
            have idle : life = .idle := by rcases sends same with rfl | rfl <;> exact (placed.works rfl).1
            cases idle
            exact .away trivial
          next => exact placed
      | _ => exact placed
  | _ => exact placed

/-! ## The flag and the counter -/

/-- Links that a thread has not counted yet, or has taken off the count. -/
def Sending.lag : Sending -> Nat
  | .uncounted => 1
  | .popping _ => 1
  | .missing _ => 1
  | .dropping => 1
  | .dropped => 1
  | _ => 0

/-- The thread is the one that the flag is set for. -/
def Sending.token : Sending -> Nat
  | .won => 1
  | .empty => 1
  | .gathering _ => 1
  | .popping _ => 1
  | .missing _ => 1
  | .taken _ _ => 1
  | .failing => 1
  | .completing _ => 1
  | _ => 0

/-- `WSASend` calls whose completion nobody has dequeued. -/
def State.outstanding (state : State) (slot : Slot) : Nat :=
  (state.sessionArray slot).pendingSends.length + state.port.countP fun completion => completion.sent slot

theorem State.outstanding_le (state : State) (slot : Slot) : state.outstanding slot ≤ state.kernelHolds slot := by
  have counted : (state.port.countP fun completion => completion.sent slot) ≤
      state.port.countP fun completion => completion.slot == slot := by
    apply List.countP_mono_left
    intro completion _ both
    exact (Bool.and_eq_true_iff.mp both).1
  unfold State.outstanding State.kernelHolds
  omega

/-- The error codes after which `sendIO` keeps the flag. -/
def IoResult.lost : IoResult -> Bool
  | .error code => connectionLost code
  | _ => false

def stuckNext (slot : Slot) (count : Nat) : Event interface -> Nat
  | ⟨.session target (.storeSendFlag _), _⟩ => if target = slot then 0 else count
  | ⟨.session target (.wsaSend _), result⟩ =>
      if target = slot ∧ IoResult.lost result = true then count + 1 else count
  | ⟨.getQueuedCompletionStatus, completion⟩ =>
      if (Completion.sent completion slot && !Completion.handled completion slot) = true then count + 1 else count
  | ⟨.mark (.sendedFailed target), _⟩ => if target = slot then count + 1 else count
  | _ => count

/-- Sends that ended without giving the flag back, since it was last stored. -/
def stuck {Thread : Type} (slot : Slot) (history : List (Thread × Event interface)) : Nat :=
  history.foldr (fun entry count => stuckNext slot count entry.2) 0

@[simp] theorem stuck_cons {Thread : Type} (slot : Slot) (thread : Thread) (event : Event interface)
    (history : List (Thread × Event interface)) :
    stuck slot ((thread, event) :: history) = stuckNext slot (stuck slot history) event := rfl

/-- The counter of the queue and the flag, with what the threads have of them. -/
structure Carried {Thread : Type} [Fintype Thread] (slot : Slot) (state : State) (ghosts : Thread -> Sending)
    (history : List (Thread × Event interface)) : Prop where
  counted : ((state.sessionArray slot).sendBuffer.nodes.length : Int) =
    (state.sessionArray slot).sendBuffer.size + tally Sending.lag ghosts
  taken : (state.sessionArray slot).sendFlag.toNat =
    tally Sending.token ghosts + state.outstanding slot + stuck slot history

section Steps

variable {Thread : Type} [Fintype Thread] [DecidableEq Thread] {slot : Slot} {state state' : State}
  {ghosts : Thread -> Sending} {history history' : List (Thread × Event interface)} {thread : Thread}

theorem Carried.update (carried : Carried slot state ghosts history) (stage : Sending)
    (counted : ((state'.sessionArray slot).sendBuffer.nodes.length : Int) -
        (state'.sessionArray slot).sendBuffer.size - stage.lag =
      (state.sessionArray slot).sendBuffer.nodes.length - (state.sessionArray slot).sendBuffer.size -
        (ghosts thread).lag)
    (taken : (state'.sessionArray slot).sendFlag.toNat + (ghosts thread).token + state.outstanding slot +
        stuck slot history =
      (state.sessionArray slot).sendFlag.toNat + stage.token + state'.outstanding slot + stuck slot history') :
    Carried slot state' (Function.update ghosts thread stage) history' where
  counted := by
    have change := tally_update Sending.lag ghosts thread stage
    have before := carried.counted
    omega
  taken := by
    have change := tally_update Sending.token ghosts thread stage
    have before := carried.taken
    omega

/-- An event that has nothing to do with the send path. -/
theorem Carried.kept (carried : Carried slot state ghosts history) {stage : Sending}
    (same : (state.sessionArray slot).SameFields (state'.sessionArray slot))
    (outstanding : state'.outstanding slot = state.outstanding slot)
    (lag : stage.lag = (ghosts thread).lag) (token : stage.token = (ghosts thread).token)
    (still : stuck slot history' = stuck slot history) :
    Carried slot state' (Function.update ghosts thread stage) history' := by
  refine carried.update stage ?_ ?_
  · rw [same.sendBuffer, lag]
  · rw [same.sendFlag, token, outstanding, still]

theorem flag_le (s : Session) : s.sendFlag.toNat ≤ 1 := Bool.toNat_le s.sendFlag

/-- An operation on the session keeps the flag and the counter in order. -/
theorem Carried.session {choice : Choice} {op : SessionOp} {answer : op.Answer}
    (carried : Carried slot state ghosts history) (permitted : (ghosts thread).permits op)
    (performed : perform choice state (.session slot op) = some (answer, state'))
    (alone : (ghosts thread) = .opening -> tally Sending.token ghosts = 0 ∧ state.outstanding slot = 0) :
    Carried slot state' (Function.update ghosts thread ((ghosts thread).step op answer))
      ((thread, ⟨.session slot op, answer⟩) :: history) := by
  rcases perform_session performed with ⟨s, inner, rfl⟩
  have update := @Carried.update _ _ _ slot state (state.setSession slot s) ghosts history
    ((thread, ⟨.session slot op, answer⟩) :: history) thread carried ((ghosts thread).step op answer)
  have before := carried.taken
  have own := le_tally Sending.token ghosts thread
  have bound := flag_le (state.sessionArray slot)
  have flags : state.outstanding slot = (state.sessionArray slot).pendingSends.length +
      state.port.countP fun completion => completion.sent slot := rfl
  have flags' : (state.setSession slot s).outstanding slot = s.pendingSends.length +
      state.port.countP fun completion => completion.sent slot := by
    unfold State.outstanding
    rw [State.setSession_same]
    rfl
  rw [State.setSession_same, flags', flags, stuck_cons] at update
  rw [flags] at before alone
  clear flags flags' performed
  generalize ghosts thread = stage at *
  generalize (state.port.countP fun completion => completion.sent slot) = queued at *
  cases op with
  | linkNode packet =>
      cases inner
      cases (permitted : stage = .away)
      refine update ?_ rfl
      dsimp only [Sending.step]
      simp only [Sending.lag, List.length_append, List.length_singleton]
      omega
  | incrementSize =>
      cases inner
      rcases permitted with rfl | ⟨batch, rfl⟩ | rfl
      all_goals
        refine update ?_ rfl
        dsimp only [Sending.step]
        simp only [Sending.lag]
        omega
  | decrementSize =>
      cases inner
      have lag : (stage.step .decrementSize ((state.sessionArray slot).sendBuffer.size - 1)).lag = 1 ∧
          (stage.step .decrementSize ((state.sessionArray slot).sendBuffer.size - 1)).token = stage.token ∧
          stage.lag = 0 := by
        rcases permitted with ⟨batch, rfl⟩ | rfl
        all_goals
          dsimp only [Sending.step]
          split <;> exact ⟨rfl, rfl, rfl⟩
      refine update ?_ ?_
      · rw [lag.1, lag.2.2]
        dsimp only
        omega
      · rw [lag.2.1]
        rfl
  | unlinkNode =>
      rcases Option.map_eq_some_iff.mp inner with ⟨⟨packet, queue⟩, unlinked, same⟩
      cases same
      unfold LockFreeQueue.unlink at unlinked
      split at unlinked
      next => cases unlinked
      next nodes linked =>
        cases unlinked
        rw [linked, List.length_cons] at update
        rcases permitted with ⟨batch, rfl⟩ | rfl
        all_goals
          refine update ?_ rfl
          dsimp only [Sending.step]
          simp only [Sending.lag]
          omega
  | loadSize =>
      cases inner
      have same : (stage.step .loadSize (state.sessionArray slot).sendBuffer.size).lag = stage.lag ∧
          (stage.step .loadSize (state.sessionArray slot).sendBuffer.size).token = stage.token := by
        rcases permitted with rfl | rfl
        all_goals
          dsimp only [Sending.step]
          split <;> exact ⟨rfl, rfl⟩
      exact update (by rw [same.1]) (by rw [same.2]; rfl)
  | exchangeSendFlag value =>
      cases inner
      cases value with
      | true =>
          cases (permitted : stage = .due)
          refine update ?_ ?_
          · dsimp only [Sending.step]
            split <;> rfl
          · dsimp only [Sending.step]
            cases (state.sessionArray slot).sendFlag <;> simp [Sending.token, stuckNext]
      | false =>
          rcases permitted with rfl | rfl
          all_goals
            refine update rfl ?_
            dsimp only [Sending.step]
            simp only [Sending.token, stuckNext, Bool.toNat_false] at own ⊢
            omega
  | storeSendFlag value =>
      cases inner
      rcases permitted with ⟨rfl, completing⟩
      have now : stuckNext slot (stuck slot history) ⟨.session slot (.storeSendFlag false), ()⟩ = 0 := if_pos rfl
      rw [now] at update
      rcases completing with rfl | rfl | rfl
      · refine update rfl ?_
        dsimp only [Sending.step]
        simp only [Sending.token, Bool.toNat_false] at own ⊢
        omega
      · refine update rfl ?_
        dsimp only [Sending.step]
        simp only [Sending.token, Bool.toNat_false] at own ⊢
        omega
      · rcases alone rfl with ⟨nobody, none⟩
        refine update rfl ?_
        dsimp only [Sending.step]
        simp only [Sending.token, Bool.toNat_false] at own ⊢
        omega
  | wsaSend batch =>
      cases (permitted : stage = .gathering batch)
      simp only [performSession] at inner
      split at inner
      next code _ =>
        cases inner
        by_cases lost : connectionLost code = true
        · have more : stuckNext slot (stuck slot history) ⟨.session slot (.wsaSend batch), .error code⟩ =
              stuck slot history + 1 := if_pos ⟨rfl, lost⟩
          have moved : Sending.step (.gathering batch) (.wsaSend batch) (.error code) = .failed := if_pos lost
          rw [more, moved] at update
          rw [moved]
          refine update rfl ?_
          simp only [Sending.token]
          omega
        · have still : stuckNext slot (stuck slot history) ⟨.session slot (.wsaSend batch), .error code⟩ =
              stuck slot history := if_neg fun both => lost both.2
          have moved : Sending.step (.gathering batch) (.wsaSend batch) (.error code) = .failing := if_neg lost
          rw [still, moved] at update
          rw [moved]
          exact update rfl rfl
      all_goals
        cases inner
        refine update rfl ?_
        dsimp only [Sending.step]
        simp [Sending.token, stuckNext, IoResult.lost]
        omega
  | popSended =>
      cases inner
      rcases permitted with ⟨left, rfl⟩ | rfl
      · cases left <;> exact update rfl rfl
      · exact update rfl rfl
  | emptySended =>
      cases inner
      cases (permitted : stage = .cleared)
      cases empty : (state.sessionArray slot).sendedBuffer.isEmpty <;> rw [empty] at update <;> exact update rfl rfl
  | loadCancelIoFlag =>
      cases inner
      cases stage with
      | due =>
          cases cancelled : (state.sessionArray slot).cancelIoFlag <;> rw [cancelled] at update <;> exact update rfl rfl
      | _ => exact update rfl rfl
  | storeCancelIoFlag value =>
      cases inner
      cases value with
      | true => rcases permitted with rfl | rfl <;> exact update rfl rfl
      | false =>
          cases (permitted : stage = .opened)
          exact update rfl rfl
  | compareExchangeIo =>
      cases inner
      cases (permitted : stage = .away)
      by_cases zero : (state.sessionArray slot).ioCount.isZero = true
      · have moved : Sending.step .away .compareExchangeIo (state.sessionArray slot).ioCount = .clearing :=
          if_pos zero
        rw [moved] at update ⊢
        rw [if_pos zero] at update ⊢
        exact update rfl rfl
      · have moved : Sending.step .away .compareExchangeIo (state.sessionArray slot).ioCount = .away :=
          if_neg zero
        rw [moved] at update ⊢
        rw [if_neg zero] at update ⊢
        exact update rfl rfl
  | storeId id =>
      cases inner
      cases (permitted : stage = .away)
      exact update rfl rfl
  | clearDeleted =>
      cases inner
      cases (permitted : stage = .opened)
      exact update rfl rfl
  | pushSended packet =>
      rcases permitted with ⟨batch, rfl⟩
      simp only [performSession] at inner
      split at inner <;> cases inner <;> exact update rfl rfl
  | allocNode =>
      simp only [performSession] at inner
      split at inner <;> cases inner <;> exact update rfl rfl
  | wsaRecv buffers =>
      simp only [performSession] at inner
      split at inner <;> cases inner <;> exact update rfl rfl
  | cancelIoEx direction =>
      cases inner
      cases direction with
      | send =>
          refine update rfl ?_
          dsimp only [Sending.step]
          simp [Session.cancel, stuckNext]
      | recv => exact update rfl rfl
  | _ =>
      cases inner
      exact update rfl rfl

/-- Every operation keeps the flag and the counter in order. -/
theorem Carried.track {choice : Choice} {op : Op} {answer : op.Answer} (carried : Carried slot state ghosts history)
    (permitted : (sending slot).permits (ghosts thread) op)
    (performed : perform choice state op = some (answer, state'))
    (alone : (ghosts thread) = .opening -> tally Sending.token ghosts = 0 ∧ state.outstanding slot = 0) :
    Carried slot state' (Function.update ghosts thread ((ghosts thread).track slot ⟨op, answer⟩))
      ((thread, ⟨op, answer⟩) :: history) := by
  have kept := perform_sameBut performed
  have unmoved (sessions : op.component ≠ .sessionArray) :
      (state.sessionArray slot).SameFields (state'.sessionArray slot) := by
    rw [kept.sessionArray sessions]
    exact .refl _
  have still (sessions : op.component ≠ .sessionArray) (ports : op.component ≠ .port) :
      state'.outstanding slot = state.outstanding slot := by
    unfold State.outstanding
    rw [kept.sessionArray sessions, kept.port ports]
  cases op with
  | session target op =>
      by_cases same : target = slot
      · subst same
        have moved : (ghosts thread).track target ⟨.session target op, answer⟩ = (ghosts thread).step op answer :=
          if_pos rfl
        rw [moved]
        exact carried.session (permits_session permitted) performed alone
      · have moved : (ghosts thread).track slot ⟨.session target op, answer⟩ = ghosts thread := if_neg same
        rcases perform_session performed with ⟨s', _, rfl⟩
        have other := State.setSession_other state s' (Ne.symm same)
        rw [moved]
        refine carried.kept ?_ ?_ rfl rfl ?_
        · rw [other]
          exact .refl _
        · unfold State.outstanding
          rw [other]
          rfl
        · cases op with
          | storeSendFlag value => exact if_neg same
          | wsaSend batch => exact if_neg fun both => same both.1
          | _ => rfl
  | getQueuedCompletionStatus =>
      have sessions := unmoved (by simp [Op.component])
      have away : ghosts thread = .away := permitted
      simp only [perform] at performed
      split at performed
      next => cases performed
      next completion rest queued =>
        cases performed
        have before : state.outstanding slot = State.outstanding { state with port := rest } slot +
            if answer.sent slot = true then 1 else 0 := by
          unfold State.outstanding
          rw [queued, List.countP_cons, Nat.add_assoc]
        have handled_sent (handled : answer.handled slot = true) : answer.sent slot = true := by
          simp only [Completion.handled, Bool.and_eq_true] at handled
          exact handled.1.1
        change Carried slot { state with port := rest } (Function.update ghosts thread
          (answer.brings slot (ghosts thread))) _
        refine carried.update (answer.brings slot (ghosts thread)) ?_ ?_
        · unfold Completion.brings
          rw [away]
          split <;> rfl
        · rw [before, away, stuck_cons]
          simp only [Completion.brings, stuckNext]
          by_cases handled : answer.handled slot = true
          · simp [handled, handled_sent handled, Sending.token]
            omega
          · by_cases sent : answer.sent slot = true
            · simp [handled, sent, Sending.token]
              omega
            · simp [handled, sent, Sending.token]
  | postQueuedCompletionStatus target packet =>
      refine carried.kept (unmoved (by simp [Op.component])) ?_ rfl rfl rfl
      cases performed
      simp [State.outstanding, Completion.sent]
  | pushIndex index =>
      refine carried.kept (unmoved (by simp [Op.component])) (still (by simp [Op.component]) (by simp [Op.component]))
        ?_ ?_ rfl
      all_goals
        rcases (permitted : ghosts thread = .away ∨ ghosts thread = .emptied) with same | same <;> rw [same] <;> rfl
  | mark note =>
      have sessions := unmoved (by simp [Op.component])
      have waiting := still (by simp [Op.component]) (by simp [Op.component])
      cases note with
      | sendedFailed target =>
          by_cases here : target = slot
          · have moved : (ghosts thread).track slot ⟨.mark (.sendedFailed target), answer⟩ = .away := if_pos here
            have more : stuck slot ((thread, ⟨.mark (.sendedFailed target), answer⟩) :: history) =
                stuck slot history + 1 := if_pos here
            rw [moved]
            refine carried.update .away ?_ ?_
            · rw [sessions.sendBuffer]
              rcases permitted here with same | same <;> rw [same] <;> rfl
            · rw [sessions.sendFlag, waiting, more]
              rcases permitted here with same | same <;> rw [same] <;> simp only [Sending.token] <;> omega
          · exact carried.kept sessions waiting (congrArg Sending.lag (if_neg here))
              (congrArg Sending.token (if_neg here)) (if_neg here)
      | _ => exact carried.kept sessions waiting rfl rfl rfl
  | _ =>
      exact carried.kept (unmoved (by simp [Op.component])) (still (by simp [Op.component]) (by simp [Op.component]))
        rfl rfl rfl

theorem surround_outstanding {change : Surroundings} (changed : surround state change = some state') :
    state'.outstanding slot = state.outstanding slot := by
  cases change with
  | completeSend target position success transfer =>
      simp only [surround] at changed
      split at changed
      next => cases changed
      next pending found =>
        have inside := (List.getElem?_eq_some_iff.mp found).1
        split at changed <;> cases changed
        by_cases same : slot = target
        · subst same
          simp only [State.outstanding, State.setSession_same, List.length_eraseIdx_of_lt inside,
            List.countP_append, List.countP_singleton, Completion.sent, beq_self_eq_true, Bool.and_self, if_true]
          omega
        · have other : ¬ (target == slot) = true := fun equal => same (beq_iff_eq.mp equal).symm
          simp [State.outstanding, Completion.sent, same, other]
  | completeRecv target position success data =>
      simp only [surround] at changed
      split at changed
      next => cases changed
      next pending found =>
        split at changed <;> cases changed
        by_cases same : slot = target
        · subst same
          simp [State.outstanding, Completion.sent]
        · simp [State.outstanding, Completion.sent, same]
  | tick count =>
      simp only [surround] at changed
      split at changed <;> cases changed
      rfl

omit [DecidableEq Thread] in
theorem Carried.surround {change : Surroundings} (carried : Carried slot state ghosts history)
    (changed : surround state change = some state') : Carried slot state' ghosts history where
  counted := by
    rw [((surround_sameFields changed).1 slot).sendBuffer]
    exact carried.counted
  taken := by
    rw [((surround_sameFields changed).1 slot).sendFlag, surround_outstanding changed]
    exact carried.taken

end Steps

/-! ## What becomes of the buffers -/

/-- The slot is between two sessions. -/
def Phase.rests {Actor : Type} : Phase Actor -> Bool
  | .absent => true
  | .stacked _ => true
  | .starting _ _ => true
  | _ => false

theorem Phase.rests_of_running {Actor : Type} {phase : Phase Actor} (running : phase.isRunning = true) :
    phase.rests = false := by
  cases phase <;> first | rfl | exact Bool.noConfusion running

/-- A slot comes to rest with the push of its index. -/
theorem next_rests {Actor : Type} [DecidableEq Actor] {life life' : Life Actor} {slot : Slot} {actor : Actor}
    {event : Event interface} (next : life.next slot actor event = some life') (rests : life'.phase.rests = true) :
    life.phase.rests = true ∨ event.op = .pushIndex slot := by
  rcases event with ⟨op, answer⟩
  rcases life with ⟨phase, leaving⟩
  unfold Life.next at next
  split at next
  all_goals
    repeat' split at next
    all_goals cases next
    all_goals first | exact Or.inl rests | exact Bool.noConfusion rests | simp_all [Phase.rests]

/-- The operations that change what is queued and what is sent. -/
def SessionOp.moves : SessionOp -> Bool
  | .linkNode _ => true
  | .unlinkNode => true
  | .pushSended _ => true
  | .popSended => true
  | _ => false

theorem performSession_buffers {choice : Choice} {s s' : Session} {op : SessionOp} {answer : op.Answer}
    (other : op.moves = false) (performed : performSession choice s op = some (answer, s')) :
    s'.sendBuffer.nodes = s.sendBuffer.nodes ∧ s'.sendedBuffer = s.sendedBuffer := by
  cases op with
  | allocNode =>
      simp only [performSession] at performed
      split at performed <;> cases performed <;> exact ⟨rfl, rfl⟩
  | wsaSend batch =>
      simp only [performSession] at performed
      split at performed <;> cases performed <;> exact ⟨rfl, rfl⟩
  | wsaRecv buffers =>
      simp only [performSession] at performed
      split at performed <;> cases performed <;> exact ⟨rfl, rfl⟩
  | compareExchangeIo =>
      cases performed
      split <;> exact ⟨rfl, rfl⟩
  | cancelIoEx direction =>
      cases performed
      cases direction <;> exact ⟨rfl, rfl⟩
  | _ => first | exact Bool.noConfusion other | cases performed; exact ⟨rfl, rfl⟩

/-- An operation on the session that changes its buffers. -/
def Op.movesAt (slot : Slot) : Op -> Bool
  | .session target op => target == slot && op.moves
  | _ => false

theorem perform_buffers {choice : Choice} {state state' : State} {op : Op} {answer : op.Answer} {slot : Slot}
    (other : op.movesAt slot = false) (performed : perform choice state op = some (answer, state')) :
    (state'.sessionArray slot).sendBuffer.nodes = (state.sessionArray slot).sendBuffer.nodes ∧
      (state'.sessionArray slot).sendedBuffer = (state.sessionArray slot).sendedBuffer := by
  have kept := perform_sameBut performed
  cases op with
  | session target op =>
      rcases perform_session performed with ⟨s', inner, rfl⟩
      by_cases same : target = slot
      · subst same
        rw [State.setSession_same]
        exact performSession_buffers (by simpa [Op.movesAt] using other) inner
      · rw [State.setSession_other state s' (Ne.symm same)]
        exact ⟨rfl, rfl⟩
  | _ =>
      rw [kept.sessionArray (by simp [Op.component])]
      exact ⟨rfl, rfl⟩

/-- The stages in which the queue is known to be empty. -/
def Sending.drained : Sending -> Bool
  | .dropped => true
  | .cleared => true
  | .emptied => true
  | _ => false

theorem Sending.clears_of_drained {stage : Sending} (drained : stage.drained = true) : stage.clears = true := by
  cases stage <;> first | rfl | exact Bool.noConfusion drained

/-- Who changes the buffers works on the session or deletes it. -/
theorem step_of_moves {stage : Sending} {op : SessionOp} {answer : op.Answer} (permitted : stage.permits op)
    (moves : op.moves = true) : (stage.step op answer).works = true ∨ (stage.step op answer).clears = true := by
  cases op with
  | linkNode packet => exact Or.inl rfl
  | unlinkNode => rcases permitted with ⟨batch, rfl⟩ | rfl <;> first | exact Or.inl rfl | exact Or.inr rfl
  | pushSended packet =>
      rcases permitted with ⟨batch, rfl⟩
      dsimp only [Sending.step]
      split <;> exact Or.inl rfl
  | popSended =>
      rcases permitted with ⟨_ | left, rfl⟩ | rfl <;> first | exact Or.inl rfl | exact Or.inr rfl
  | _ => exact Bool.noConfusion moves

theorem track_of_movesAt {slot : Slot} {stage : Sending} {op : Op} (answer : op.Answer)
    (permitted : (sending slot).permits stage op) (moves : op.movesAt slot = true) :
    (stage.track slot ⟨op, answer⟩).works = true ∨ (stage.track slot ⟨op, answer⟩).clears = true := by
  cases op with
  | session target op =>
      simp only [Op.movesAt, Bool.and_eq_true, beq_iff_eq] at moves
      rcases moves with ⟨rfl, moves⟩
      have moved : stage.track target ⟨.session target op, answer⟩ = stage.step op answer := if_pos rfl
      rw [moved]
      exact step_of_moves (permits_session permitted) moves
  | _ => exact Bool.noConfusion moves

/-- What a thread that deletes the session knows of the buffers. -/
structure Drained (s : Session) (stage : Sending) : Prop where
  queue : stage.drained = true -> s.sendBuffer.nodes = []
  sent : stage = .emptied -> s.sendedBuffer = []

theorem Drained.session {choice : Choice} {s s' : Session} {stage : Sending} {op : SessionOp} {answer : op.Answer}
    (drained : Drained s stage) (permitted : stage.permits op)
    (counted : stage.clears = true -> (s.sendBuffer.nodes.length : Int) = s.sendBuffer.size + stage.lag)
    (performed : performSession choice s op = some (answer, s')) (clears : (stage.step op answer).clears = true) :
    Drained s' (stage.step op answer) := by
  cases op with
  | decrementSize =>
      cases performed
      rcases permitted with ⟨batch, rfl⟩ | rfl
      · dsimp only [Sending.step] at clears
        split at clears <;> cases clears
      · refine ⟨?_, ?_⟩
        · dsimp only [Sending.step]
          split
          · exact nofun
          next negative =>
            intro _
            apply List.eq_nil_of_length_eq_zero
            have linked := counted rfl
            simp only [Sending.lag] at linked
            omega
        · dsimp only [Sending.step]
          split <;> exact nofun
  | incrementSize =>
      cases performed
      rcases permitted with rfl | ⟨batch, rfl⟩ | rfl
      · cases clears
      · cases clears
      · exact ⟨fun _ => drained.queue rfl, nofun⟩
  | unlinkNode => rcases permitted with ⟨batch, rfl⟩ | rfl <;> exact ⟨nofun, nofun⟩
  | compareExchangeIo =>
      cases (permitted : stage = .away)
      dsimp only [Sending.step]
      split <;> exact ⟨nofun, nofun⟩
  | emptySended =>
      cases performed
      cases (permitted : stage = .cleared)
      refine ⟨fun _ => drained.queue rfl, ?_⟩
      dsimp only [Sending.step]
      split
      next isEmpty => exact fun _ => List.isEmpty_iff.mp isEmpty
      next => exact nofun
  | popSended =>
      cases performed
      rcases permitted with ⟨_ | left, rfl⟩ | rfl
      · cases clears
      · cases clears
      · exact ⟨fun _ => drained.queue rfl, nofun⟩
  | pushSended packet =>
      rcases permitted with ⟨batch, rfl⟩
      dsimp only [Sending.step] at clears
      split at clears <;> cases clears
  | linkNode packet => cases clears
  | loadSize =>
      rcases permitted with rfl | rfl <;> dsimp only [Sending.step] at clears <;> split at clears <;> cases clears
  | exchangeSendFlag value =>
      cases value with
      | true =>
          dsimp only [Sending.step] at clears
          split at clears <;> cases clears
      | false => rcases permitted with rfl | rfl <;> cases clears
  | storeSendFlag value => rcases permitted.2 with rfl | rfl | rfl <;> cases clears
  | wsaSend batch =>
      dsimp only [Sending.step] at clears
      split at clears
      next => cases clears
      next => cases clears
      next => split at clears <;> cases clears
  | storeCancelIoFlag value =>
      cases value with
      | true => rcases permitted with rfl | rfl <;> cases clears
      | false =>
          cases (permitted : stage = .opened)
          cases clears
  | loadCancelIoFlag =>
      cases performed
      cases stage with
      | due =>
          dsimp only [Sending.step] at clears
          split at clears <;> cases clears
      | _ => exact drained
  | storeId id => cases clears
  | clearDeleted => cases clears
  | _ =>
      have same := performSession_buffers rfl performed
      exact ⟨fun known => same.1.trans (drained.queue known), fun known => same.2.trans (drained.sent known)⟩

theorem Drained.track {choice : Choice} {state state' : State} {slot : Slot} {stage : Sending} {op : Op}
    {answer : op.Answer} (drained : Drained (state.sessionArray slot) stage)
    (permitted : (sending slot).permits stage op)
    (counted : stage.clears = true -> ((state.sessionArray slot).sendBuffer.nodes.length : Int) =
      (state.sessionArray slot).sendBuffer.size + stage.lag)
    (performed : perform choice state op = some (answer, state'))
    (clears : (stage.track slot ⟨op, answer⟩).clears = true) :
    Drained (state'.sessionArray slot) (stage.track slot ⟨op, answer⟩) := by
  have kept (unmoved : op.movesAt slot = false) : Drained (state'.sessionArray slot) stage := by
    have same := perform_buffers unmoved performed
    exact ⟨fun known => same.1.trans (drained.queue known), fun known => same.2.trans (drained.sent known)⟩
  cases op with
  | session target op =>
      by_cases same : target = slot
      · subst same
        have moved : stage.track target ⟨.session target op, answer⟩ = stage.step op answer := if_pos rfl
        rcases perform_session performed with ⟨s', inner, rfl⟩
        rw [moved] at clears ⊢
        rw [State.setSession_same]
        exact drained.session (permits_session permitted) counted inner clears
      · have moved : stage.track slot ⟨.session target op, answer⟩ = stage := if_neg same
        rw [moved]
        exact kept (by simp [Op.movesAt, same])
  | getQueuedCompletionStatus =>
      cases (permitted : stage = .away)
      change (Completion.brings answer slot .away).clears = true at clears
      unfold Completion.brings at clears
      split at clears <;> cases clears
  | pushIndex index => rcases (permitted : stage = .away ∨ stage = .emptied) with rfl | rfl <;> cases clears
  | mark note =>
      cases note with
      | sendedFailed target =>
          by_cases here : target = slot
          · have moved : stage.track slot ⟨.mark (.sendedFailed target), answer⟩ = .away := if_pos here
            rw [moved] at clears
            cases clears
          · have moved : stage.track slot ⟨.mark (.sendedFailed target), answer⟩ = stage := if_neg here
            rw [moved]
            exact kept rfl
      | _ => exact kept rfl
  | _ => exact kept rfl

/-! ## Runs -/

section Runs

variable {workers contents : Nat} {settings : Settings}

theorem placed_preserved (slot : Slot) :
    (Layer.beside living (sending slot)).whole.Preserved (server settings workers contents) (Machine.anyEvent _)
      fun _ ghosts _ => forall thread, Placed slot (ghosts thread).1 (ghosts thread).2 where
  initial := fun _ => .away trivial
  act := by
    intro c thread op next choice answer state reach turn placed permitted performed lawful
    refine ⟨⟨trivial, trivial⟩, fun other => ?_⟩
    rw [Function.update_apply]
    split
    next => exact placed_track (placed thread) permitted.1 permitted.2
    next => exact placed other
  takeUp := by
    intro state ghosts history thread placed finished other
    rw [Function.update_apply]
    split
    next => exact .away trivial
    next => exact placed other
  surround := fun _ _ _ _ _ placed _ => placed

theorem jobs_beside {slot : Slot} {thread : Thread workers contents} {job : Job} {program : NetProgram Unit}
    (chosen : jobProgram settings thread job = some program) :
    (Layer.beside living (sending slot)).whole.Obeys program (Layer.beside living (sending slot)).whole.start
      fun ghost _ => (Layer.beside living (sending slot)).whole.finish ghost :=
  Layer.obeys_beside (jobs_living chosen) (jobs_sending chosen)

/-- The stages of all threads in the sending of a session. -/
def senders (slot : Slot) (c : (server settings workers contents).Config) : Thread workers contents -> Sending :=
  (sending slot).ghosts c

theorem senders_record (slot : Slot) (c : (server settings workers contents).Config)
    (thread : Thread workers contents) (event : Event interface) (state : (server settings workers contents).State)
    (rest : NetProgram Unit) :
    senders slot (c.record thread event state rest) =
      Function.update (senders slot c) thread ((senders slot c thread).track slot event) :=
  Discipline.ghosts_record c thread event state rest

/-- What is known of a thread that is about to act. -/
theorem placed_of_reach {rule : (server settings workers contents).Rule}
    {c : (server settings workers contents).Config} (reach : (server settings workers contents).Reach rule c)
    (slot : Slot) (thread : Thread workers contents) :
    Placed slot (living.ghosts c thread) (senders slot c thread) := by
  have anyhow : (server settings workers contents).Reach (Machine.anyEvent _) c := reach.mono fun _ _ _ _ => trivial
  have placed := (Discipline.sound (placed_preserved slot) (fun _ _ _ => jobs_beside) anyhow).1 thread
  rw [Layer.ghosts_fst, Layer.ghosts_beside] at placed
  exact placed

/-! ## Senders and the life of the session -/

section Life

variable {c : (server settings workers contents).Config}
  (reach : (server settings workers contents).Reach handedOut c) {slot : Slot}
  {thread : Thread workers contents}
include reach

/-- While a thread works on a session, the session is in use. -/
theorem running_of_works (works : (senders slot c thread).works = true)
    {life : Life (Thread workers contents)}
    (current : lifeAfter settings.maxSession slot c.history = some life) : life.phase.isRunning = true := by
  rcases (alive_of_reach (informed_of_reach reach).1).slots slot with ⟨life', current', fits⟩
  cases current.symm.trans current'
  rcases (placed_of_reach reach slot thread).works works with ⟨idle, held⟩
  exact fits.running idle held

theorem deleting_of_clears (clears : (senders slot c thread).clears = true)
    {life : Life (Thread workers contents)}
    (current : lifeAfter settings.maxSession slot c.history = some life) :
    Exists fun id => life.phase = .deleting thread id := by
  rcases (alive_of_reach (informed_of_reach reach).1).slots slot with ⟨life', current', fits⟩
  cases current.symm.trans current'
  have staged := fits.stage thread
  unfold StageFits at staged
  rcases (placed_of_reach reach slot thread).clears.mp clears with same | ⟨id, same⟩ <;> rw [same] at staged
  · exact staged rfl
  · exact ⟨id, staged rfl⟩

theorem starting_of_opens (opens : (senders slot c thread).opens = true)
    {life : Life (Thread workers contents)}
    (current : lifeAfter settings.maxSession slot c.history = some life) :
    thread = .accept ∧ Exists fun used => Exists fun id => life.phase = .starting used (some id) := by
  rcases (alive_of_reach (informed_of_reach reach).1).slots slot with ⟨life', current', fits⟩
  cases current.symm.trans current'
  have staged := fits.stage thread
  unfold StageFits at staged
  rcases (placed_of_reach reach slot thread).opens.mp opens with ⟨id, held, same⟩
  rw [same] at staged
  rcases staged rfl with ⟨accepting, _, used, phase⟩
  exact ⟨accepting, used, id, phase⟩

/-- Only the thread that deletes the session pushes its index. -/
theorem clears_of_pushIndex {next : Unit -> NetProgram Unit}
    (turn : c.running thread = .step (I := interface) (.pushIndex slot) next) :
    (senders slot c thread).clears = true := by
  have reach' := (informed_of_reach reach).1
  have lives := (Discipline.sound alive_preserved (fun _ _ _ => jobs_living) reach').2 thread
  rw [turn] at lives
  rcases lives.1 with ⟨target, id, deleting, same⟩
  rcases (alive_of_reach reach').slots target with ⟨_, _, fits⟩
  have own := fits.aligned (Or.inl deleting)
  rw [← same] at own
  subst own
  exact (placed_of_reach reach slot thread).clears.mpr (Or.inr ⟨id, deleting⟩)

/-- And it has emptied both buffers by then. -/
theorem emptied_of_pushIndex {next : Unit -> NetProgram Unit}
    (turn : c.running thread = .step (I := interface) (.pushIndex slot) next)
    (permitted : (sending slot).permits (senders slot c thread) (.pushIndex slot)) :
    senders slot c thread = .emptied := by
  have deletes := clears_of_pushIndex reach turn
  rcases (permitted : senders slot c thread = .away ∨ senders slot c thread = .emptied) with away | emptied
  · rw [away] at deletes
    cases deletes
  · exact emptied

/-- A thread that deletes or initialises the session is alone with it. -/
theorem others_away (apart : (senders slot c thread).clears = true ∨
      (senders slot c thread).opens = true) (other : Thread workers contents) (different : other ≠ thread) :
    senders slot c other = .away := by
  rcases (alive_of_reach (informed_of_reach reach).1).slots slot with ⟨life, current, _⟩
  rcases (senders slot c other).cases_of with away | works | clears | opens
  · exact away
  · have running := running_of_works reach works current
    rcases apart with own | own
    · rcases deleting_of_clears reach own current with ⟨_, phase⟩
      rw [phase] at running
      cases running
    · rcases starting_of_opens reach own current with ⟨_, _, _, phase⟩
      rw [phase] at running
      cases running
  · rcases deleting_of_clears reach clears current with ⟨_, deleting⟩
    rcases apart with own | own
    · rcases deleting_of_clears reach own current with ⟨_, phase⟩
      cases deleting.symm.trans phase
      exact absurd rfl different
    · rcases starting_of_opens reach own current with ⟨_, _, _, phase⟩
      cases deleting.symm.trans phase
  · rcases starting_of_opens reach opens current with ⟨accepting, _, _, starting⟩
    rcases apart with own | own
    · rcases deleting_of_clears reach own current with ⟨_, phase⟩
      cases starting.symm.trans phase
    · rcases starting_of_opens reach own current with ⟨accepting', _⟩
      exact absurd (accepting.trans accepting'.symm) different

theorem tally_of_alone (quantity : Sending -> Nat) (none : quantity .away = 0)
    (apart : (senders slot c thread).clears = true ∨ (senders slot c thread).opens = true) :
    tally quantity (senders slot c) = quantity (senders slot c thread) := by
  apply tally_eq_of_alone
  intro other different
  rw [others_away reach apart other different]
  exact none

theorem outstanding_of_opens (opens : (senders slot c thread).opens = true) :
    c.state.outstanding slot = 0 := by
  rcases (alive_of_reach (informed_of_reach reach).1).slots slot with ⟨life, current, fits⟩
  rcases starting_of_opens reach opens current with ⟨_, _, _, phase⟩
  have none := fits.kernel (by rw [phase]; rfl)
  have least := c.state.outstanding_le slot
  omega

end Life

theorem carried_preserved (slot : Slot) :
    (sending slot).Preserved (server settings workers contents) handedOut
      fun state ghosts history => Carried slot state ghosts history where
  initial := ⟨by simp [server, State.initial, Session.fresh, tally, sending, Sending.lag],
    by simp [server, State.initial, State.outstanding, Session.fresh, tally, sending, Sending.token, stuck]⟩
  act := by
    intro c thread op next choice answer state reach turn carried permitted performed lawful
    have alone (opening : senders slot c thread = .opening) :
        tally Sending.token (senders slot c) = 0 ∧ c.state.outstanding slot = 0 := by
      have opens : (senders slot c thread).opens = true := by rw [opening]; rfl
      refine ⟨?_, outstanding_of_opens reach opens⟩
      rw [tally_of_alone reach Sending.token rfl (Or.inr opens), opening]
      rfl
    exact ⟨trivial, carried.track permitted performed alone⟩
  takeUp := by
    intro state ghosts history thread carried finished
    have away : ghosts thread = .away := finished
    refine carried.update .away ?_ ?_ <;> rw [away]
  surround := fun _ _ _ _ _ carried changed => carried.surround changed

theorem carried_of_reach {c : (server settings workers contents).Config}
    (reach : (server settings workers contents).Reach handedOut c) (slot : Slot) :
    Carried slot c.state (senders slot c) c.history :=
  (Discipline.sound (carried_preserved slot) (fun _ _ _ => jobs_sending) reach).1

/-! ## Between two sessions -/

/-- The buffers of a slot are empty before its first session and after each. -/
structure Rested (settings : Settings) (slot : Slot) (state : State)
    (ghosts : Thread workers contents -> Sending)
    (history : List (Thread workers contents × Event interface)) : Prop where
  drained : forall thread, Drained (state.sessionArray slot) (ghosts thread)
  vacant : forall life, lifeAfter settings.maxSession slot history = some life -> life.phase.rests = true ->
    (state.sessionArray slot).sendBuffer.nodes = [] ∧ (state.sessionArray slot).sendedBuffer = []

section Life

variable {c : (server settings workers contents).Config}
  (reach : (server settings workers contents).Reach handedOut c) {slot : Slot}
  {thread : Thread workers contents}
include reach

/-- While a thread works on a session, nobody deletes it and it is not at rest. -/
theorem rested_of_works (works : (senders slot c thread).works = true) :
    Rested settings slot c.state (senders slot c) c.history := by
  rcases (alive_of_reach (informed_of_reach reach).1).slots slot with ⟨life, current, _⟩
  have running := running_of_works reach works current
  have nobody (other : Thread workers contents) : ¬ (senders slot c other).clears = true := by
    intro clears
    rcases deleting_of_clears reach clears current with ⟨_, phase⟩
    rw [phase] at running
    cases running
  refine ⟨fun other => ⟨fun known => ?_, fun known => ?_⟩, ?_⟩
  · exact absurd (Sending.clears_of_drained known) (nobody other)
  · exact absurd (by rw [known]; rfl) (nobody other)
  · intro other current' rests
    cases current.symm.trans current'
    exact Bool.noConfusion ((Phase.rests_of_running running).symm.trans rests)

theorem rested_of_clears (clears : (senders slot c thread).clears = true)
    (drained : Drained (c.state.sessionArray slot) (senders slot c thread)) :
    Rested settings slot c.state (senders slot c) c.history := by
  refine ⟨fun other => ?_, ?_⟩
  · by_cases same : other = thread
    · rw [same]
      exact drained
    · rw [others_away reach (Or.inl clears) other same]
      exact ⟨nofun, nofun⟩
  · intro life current rests
    rcases deleting_of_clears reach clears current with ⟨_, phase⟩
    rw [phase] at rests
    cases rests

end Life

theorem rested_preserved (slot : Slot) :
    (sending slot).Preserved (server settings workers contents) handedOut
      fun state ghosts history => Rested settings slot state ghosts history where
  initial := ⟨fun _ => ⟨nofun, nofun⟩, fun _ _ _ => ⟨rfl, rfl⟩⟩
  act := by
    intro c thread op next choice answer state reach turn rested permitted performed lawful
    refine ⟨trivial, ?_⟩
    have reach' := reach.step (.act thread choice op next answer state turn performed lawful)
    change Rested settings slot c.state (senders slot c) c.history at rested
    change Rested settings slot state (Function.update (senders slot c) thread
      ((senders slot c thread).track slot ⟨op, answer⟩)) ((thread, ⟨op, answer⟩) :: c.history)
    rw [← senders_record slot c thread ⟨op, answer⟩ state (next answer)]
    have own : senders slot (c.record thread ⟨op, answer⟩ state (next answer)) thread =
        (senders slot c thread).track slot ⟨op, answer⟩ := by rw [senders_record, Function.update_self]
    by_cases works : ((senders slot c thread).track slot ⟨op, answer⟩).works = true
    · exact rested_of_works reach' (own ▸ works)
    by_cases clears : ((senders slot c thread).track slot ⟨op, answer⟩).clears = true
    · refine rested_of_clears reach' (own ▸ clears) ?_
      rw [own]
      refine (rested.drained thread).track permitted (fun before => ?_) performed clears
      have counted := (carried_of_reach reach slot).counted
      rw [tally_of_alone reach Sending.lag rfl (Or.inl before)] at counted
      exact counted
    · have unmoved : op.movesAt slot = false := by
        rw [← Bool.not_eq_true]
        intro moves
        rcases track_of_movesAt answer permitted moves with there | there
        · exact works there
        · exact clears there
      have same := perform_buffers unmoved performed
      refine ⟨fun other => ?_, ?_⟩
      · by_cases actor : other = thread
        · rw [actor, own]
          refine ⟨fun known => absurd (Sending.clears_of_drained known) clears, fun known => ?_⟩
          rw [known] at clears
          exact absurd rfl clears
        · rw [senders_record, Function.update_of_ne actor]
          exact ⟨fun known => same.1.trans ((rested.drained other).queue known),
            fun known => same.2.trans ((rested.drained other).sent known)⟩
      · intro life' current' rests
        rcases Option.bind_eq_some_iff.mp current' with ⟨life, current, moved⟩
        rw [same.1, same.2]
        rcases next_rests moved rests with before | pushes
        · exact rested.vacant life current before
        · cases (pushes : op = .pushIndex slot)
          have emptied := emptied_of_pushIndex reach turn permitted
          exact ⟨(rested.drained thread).queue (by rw [emptied]; rfl), (rested.drained thread).sent emptied⟩
  takeUp := by
    intro state (ghosts : Thread workers contents -> Sending) history thread rested (away : ghosts thread = .away)
    have same : Function.update ghosts thread .away = ghosts := by rw [← away, Function.update_eq_self]
    change Rested settings slot state (Function.update ghosts thread .away) history
    rw [same]
    exact rested
  surround := by
    intro state ghosts history change state' rested changed
    have same := (surround_sameFields changed).1 slot
    refine ⟨fun thread => ⟨fun known => ?_, fun known => ?_⟩, fun life current rests => ?_⟩
    · rw [same.sendBuffer]
      exact (rested.drained thread).queue known
    · rw [same.sendedBuffer]
      exact (rested.drained thread).sent known
    · rw [same.sendBuffer, same.sendedBuffer]
      exact rested.vacant life current rests

theorem rested_of_reach {c : (server settings workers contents).Config}
    (reach : (server settings workers contents).Reach handedOut c) (slot : Slot) :
    Rested settings slot c.state (senders slot c) c.history :=
  (Discipline.sound (rested_preserved slot) (fun _ _ _ => jobs_sending) reach).1

end Runs

end Network
end LoginServer
