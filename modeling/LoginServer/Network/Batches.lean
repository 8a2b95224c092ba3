import LoginServer.Network.Matching

namespace LoginServer
namespace Network

open Memory Buffers Receiving Login Concurrency

/-!
# One batch at a time

The winner of `sendFlag` puts the packets of its batch on `sendedBuffer` while it
gathers them, and the completion takes them off.  In between nobody touches it, so
that it holds the batch of the outstanding `WSASend`, if it was empty when the
winner began.

It is not when an earlier `WSASend` failed in such a way that `sendIO` gave the
flag back.  The session is cancelled only after that, and the packets of the batch
that failed stay on `sendedBuffer`.  A thread that has gone past the test of
`cancelIOFlag` wins the flag in between, and puts its own packets behind them.
-/

/-! ## The winner -/

/-- The thread has the flag, and reads that there is something to gather. -/
def beginsBatch (slot : Slot) (stage : Sending) : Event interface -> Bool
  | ⟨.session target .loadSize, size⟩ => target == slot && stage == .won && size != (0 : Int)
  | _ => false

/-- The packets that a thread has put on `sendedBuffer` for its batch. -/
def Sending.begun : Sending -> Option (List Packet)
  | .gathering batch => some batch
  | .popping batch => some batch
  | .missing batch => some batch
  | .taken batch _ => some batch
  | _ => none

theorem Sending.begun_of_token {stage : Sending} (token : stage.token = 0) : stage.begun = none := by
  cases stage <;> first | rfl | cases token

/-- The latest exchange by which the thread asked for the flag of the session found it free. -/
def wonExchange (slot : Slot) : List (Event interface) -> Bool
  | [] => false
  | ⟨.session target (.exchangeSendFlag true), busy⟩ :: earlier =>
      if target = slot then !busy else wonExchange slot earlier
  | _ :: earlier => wonExchange slot earlier

/-- The stages of the winner until it calls `WSASend` or gives the flag back. -/
def Sending.wins : Sending -> Bool
  | .won => true
  | .empty => true
  | .gathering _ => true
  | .popping _ => true
  | .missing _ => true
  | .taken _ _ => true
  | _ => false

/-- Only the exchange leads there. -/
theorem wins_of_step {stage : Sending} {op : SessionOp} {answer : op.Answer}
    (other : op ≠ .exchangeSendFlag true) (wins : (stage.step op answer).wins = true) : stage.wins = true := by
  cases op with
  | exchangeSendFlag value =>
      cases value with
      | true => exact absurd rfl other
      | false => cases stage <;> first | rfl | cases wins
  | compareExchangeIo =>
      dsimp only [Sending.step] at wins
      split at wins
      · cases wins
      · exact wins
  | incrementSize => cases stage <;> first | rfl | cases wins
  | decrementSize =>
      cases stage with
      | clearing =>
          dsimp only [Sending.step] at wins
          split at wins <;> cases wins
      | _ => first | rfl | cases wins
  | unlinkNode => cases stage <;> first | rfl | cases wins
  | loadSize =>
      cases stage with
      | checking =>
          dsimp only [Sending.step] at wins
          split at wins <;> cases wins
      | _ => first | rfl | cases wins
  | storeSendFlag value => cases stage <;> first | rfl | cases wins
  | pushSended packet => cases stage <;> first | rfl | cases wins
  | popSended =>
      cases stage with
      | completing left => cases left <;> cases wins
      | _ => first | rfl | cases wins
  | emptySended =>
      cases stage with
      | cleared =>
          dsimp only [Sending.step] at wins
          split at wins <;> cases wins
      | _ => first | rfl | cases wins
  | wsaSend batch =>
      dsimp only [Sending.step] at wins
      split at wins
      · cases wins
      · cases wins
      · split at wins <;> cases wins
  | storeCancelIoFlag value => cases stage <;> first | rfl | cases wins
  | loadCancelIoFlag =>
      cases stage with
      | due =>
          dsimp only [Sending.step] at wins
          split at wins <;> cases wins
      | _ => first | rfl | cases wins
  | linkNode packet => cases wins
  | storeId id => cases wins
  | clearDeleted => cases wins
  | _ => exact wins

theorem wins_of_track {slot : Slot} {stage : Sending} {op : Op} {answer : op.Answer}
    (other : op ≠ .session slot (.exchangeSendFlag true))
    (wins : (stage.track slot ⟨op, answer⟩).wins = true) : stage.wins = true := by
  cases op with
  | session target op =>
      by_cases same : target = slot
      · subst same
        have moved : stage.track target ⟨.session target op, answer⟩ = stage.step op answer := if_pos rfl
        rw [moved] at wins
        exact wins_of_step (fun exchange => other (by rw [exchange])) wins
      · have moved : stage.track slot ⟨.session target op, answer⟩ = stage := if_neg same
        rw [moved] at wins
        exact wins
  | getQueuedCompletionStatus =>
      have moved : stage.track slot ⟨.getQueuedCompletionStatus, answer⟩ =
          if answer.handled slot = true then .completing (some answer.transfer) else stage := rfl
      rw [moved] at wins
      by_cases handled : answer.handled slot = true
      · rw [if_pos handled] at wins
        cases wins
      · rw [if_neg handled] at wins
        exact wins
  | pushIndex index => cases stage <;> first | rfl | cases wins
  | mark note =>
      cases note with
      | sendedFailed target =>
          have moved : stage.track slot ⟨.mark (.sendedFailed target), answer⟩ =
              if target = slot then .away else stage := rfl
          rw [moved] at wins
          by_cases same : target = slot
          · rw [if_pos same] at wins
            cases wins
          · rw [if_neg same] at wins
            exact wins
      | _ => exact wins
  | _ => exact wins

theorem wonExchange_of_wins (slot : Slot) (past : List (Event interface))
    (wins : Sending.wins ((sending slot).ghost past) = true) : wonExchange slot past = true := by
  induction past with
  | nil => cases wins
  | cons event earlier inductionHypothesis =>
      rcases event with ⟨op, answer⟩
      change (Sending.track slot ((sending slot).ghost earlier) ⟨op, answer⟩).wins = true at wins
      by_cases asks : op = .session slot (.exchangeSendFlag true)
      · subst asks
        have moved : Sending.track slot ((sending slot).ghost earlier)
            ⟨.session slot (.exchangeSendFlag true), answer⟩ = if answer = true then .away else .won := if_pos rfl
        have found : wonExchange slot (⟨.session slot (.exchangeSendFlag true), answer⟩ :: earlier) = !answer :=
          if_pos rfl
        rw [moved] at wins
        rw [found]
        cases answer with
        | true => cases wins
        | false => rfl
      · have found : wonExchange slot (⟨op, answer⟩ :: earlier) = wonExchange slot earlier := by
          cases op with
          | session target op =>
              cases op with
              | exchangeSendFlag value =>
                  cases value with
                  | true => exact if_neg fun same => asks (by rw [same])
                  | false => rfl
              | _ => rfl
          | _ => rfl
        rw [found]
        exact inductionHypothesis (wins_of_track asks wins)

theorem winner_of_popsAt {slot : Slot} {stage : Sending} {op : Op} (permitted : (sending slot).permits stage op)
    (pops : op.popsAt slot = true) : stage.wins = true ∧ stage.token = 1 ∨ stage.clears = true := by
  cases op with
  | session target op =>
      cases op with
      | decrementSize =>
          cases (beq_iff_eq.mp pops : target = slot)
          rcases permits_session permitted with ⟨batch, rfl⟩ | rfl
          · exact Or.inl ⟨rfl, rfl⟩
          · exact Or.inr rfl
      | unlinkNode =>
          cases (beq_iff_eq.mp pops : target = slot)
          rcases permits_session permitted with ⟨batch, rfl⟩ | rfl
          · exact Or.inl ⟨rfl, rfl⟩
          · exact Or.inr rfl
      | _ => cases pops
  | _ => cases pops

/-! ## What is on `sendedBuffer` -/

/-- `sendedBuffer` holds what is outstanding, or what the winner has begun. -/
structure OneBatch {Thread : Type} (slot : Slot) (state : State) (ghosts : Thread -> Sending) : Prop where
  pending : forall pending, pending ∈ (state.sessionArray slot).pendingSends ->
    pending.batch = (state.sessionArray slot).sendedBuffer
  queued : forall completion, completion ∈ state.port -> completion.slot = slot -> forall batch,
    completion.overlapped = .send batch -> batch = (state.sessionArray slot).sendedBuffer
  begun : forall thread batch, (ghosts thread).begun = some batch ->
    batch = (state.sessionArray slot).sendedBuffer

/-- Nothing is outstanding, and nobody else has begun a batch. -/
def Alone {Thread : Type} (slot : Slot) (state : State) (ghosts : Thread -> Sending) (thread : Thread) : Prop :=
  state.outstanding slot = 0 ∧ forall other, other ≠ thread -> (ghosts other).begun = none

section Steps

variable {Thread : Type} [DecidableEq Thread] {slot : Slot} {state state' : State} {ghosts : Thread -> Sending}
  {thread : Thread} {stage : Sending}

/-- A step that leaves `sendedBuffer` alone, and the batches that the kernel has. -/
theorem OneBatch.kept (known : OneBatch slot state ghosts)
    (sended : (state'.sessionArray slot).sendedBuffer = (state.sessionArray slot).sendedBuffer)
    (pending : (state'.sessionArray slot).pendingSends.map PendingSend.batch =
      (state.sessionArray slot).pendingSends.map PendingSend.batch)
    (port : forall completion, completion ∈ state'.port -> completion.sent slot = true -> completion ∈ state.port)
    (begun : stage.begun = (ghosts thread).begun ∨ stage.begun = none) :
    OneBatch slot state' (Function.update ghosts thread stage) where
  pending := by
    intro operation member
    have image := List.mem_map_of_mem (f := PendingSend.batch) member
    rw [pending] at image
    rcases List.mem_map.mp image with ⟨before, member', same⟩
    rw [sended, ← same]
    exact known.pending before member'
  queued := by
    intro completion member same batch batched
    rw [sended]
    exact known.queued completion (port completion member (sent_of_send same batched)) same batch batched
  begun := by
    intro other batch
    rw [Function.update_apply, sended]
    split
    · rcases begun with same | nothing
      · rw [same]
        exact known.begun thread batch
      · rw [nothing]
        intro none
        cases none
    · exact known.begun other batch

/-- A step of a thread that is alone with `sendedBuffer`. -/
theorem OneBatch.change (alone : Alone slot state ghosts thread)
    (pending : forall pending, pending ∈ (state'.sessionArray slot).pendingSends ->
      pending.batch = (state'.sessionArray slot).sendedBuffer)
    (port : state'.port = state.port)
    (begun : forall batch, stage.begun = some batch -> batch = (state'.sessionArray slot).sendedBuffer) :
    OneBatch slot state' (Function.update ghosts thread stage) where
  pending := pending
  queued := by
    rw [port]
    intro completion member same batch batched
    have unsent := (State.outstanding_eq_zero alone.1).2 completion member
    cases unsent.symm.trans (sent_of_send same batched)
  begun := by
    intro other batch
    rw [Function.update_apply]
    split
    · exact begun batch
    next different =>
      rw [alone.2 other different]
      intro none
      cases none

/-- The operations that work on `sendedBuffer`, or begin a batch or send it. -/
def SessionOp.batches : SessionOp -> Bool
  | .pushSended _ => true
  | .popSended => true
  | .wsaSend _ => true
  | .loadSize => true
  | _ => false

theorem performSession_sended {choice : Choice} {s s' : Session} {op : SessionOp} {answer : op.Answer}
    (other : op.batches = false) (performed : performSession choice s op = some (answer, s')) :
    s'.sendedBuffer = s.sendedBuffer := by
  cases op with
  | linkNode packet =>
      cases performed
      rfl
  | unlinkNode =>
      rcases Option.map_eq_some_iff.mp performed with ⟨result, _, same⟩
      cases same
      rfl
  | pushSended packet => cases other
  | popSended => cases other
  | _ => exact (performSession_buffers rfl performed).2

theorem begun_step {stage : Sending} {op : SessionOp} (answer : op.Answer) (permitted : stage.permits op)
    (other : op.batches = false) :
    (stage.step op answer).begun = stage.begun ∨ (stage.step op answer).begun = none := by
  cases op with
  | compareExchangeIo =>
      dsimp only [Sending.step]
      split
      · exact Or.inr rfl
      · exact Or.inl rfl
  | linkNode packet => exact Or.inr rfl
  | incrementSize => rcases permitted with rfl | ⟨batch, rfl⟩ | rfl <;> exact Or.inl rfl
  | decrementSize =>
      rcases permitted with ⟨batch, rfl⟩ | rfl
      · left
        dsimp only [Sending.step]
        split <;> rfl
      · left
        dsimp only [Sending.step]
        split <;> rfl
  | unlinkNode => rcases permitted with ⟨batch, rfl⟩ | rfl <;> exact Or.inl rfl
  | exchangeSendFlag value =>
      cases value with
      | true =>
          right
          dsimp only [Sending.step]
          split <;> rfl
      | false => rcases permitted with rfl | rfl <;> exact Or.inl rfl
  | storeSendFlag value => rcases permitted.2 with rfl | rfl | rfl <;> exact Or.inl rfl
  | emptySended =>
      cases (permitted : stage = .cleared)
      left
      dsimp only [Sending.step]
      split <;> rfl
  | storeCancelIoFlag value =>
      cases value with
      | true => rcases permitted with rfl | rfl <;> exact Or.inl rfl
      | false =>
          cases (permitted : stage = .opened)
          exact Or.inl rfl
  | loadCancelIoFlag =>
      cases stage with
      | due =>
          left
          dsimp only [Sending.step]
          split <;> rfl
      | _ => exact Or.inl rfl
  | storeId id => exact Or.inr rfl
  | clearDeleted => exact Or.inr rfl
  | pushSended packet => cases other
  | popSended => cases other
  | wsaSend batch => cases other
  | loadSize => cases other
  | _ => exact Or.inl rfl

theorem OneBatch.session {choice : Choice} {op : SessionOp} {answer : op.Answer}
    (known : OneBatch slot state ghosts)
    (alone : (ghosts thread).token = 1 ∨ (ghosts thread).clears = true -> Alone slot state ghosts thread)
    (permitted : (ghosts thread).permits op)
    (performed : perform choice state (.session slot op) = some (answer, state'))
    (empty : beginsBatch slot (ghosts thread) ⟨.session slot op, answer⟩ = true ->
      (state.sessionArray slot).sendedBuffer = []) :
    OneBatch slot state' (Function.update ghosts thread ((ghosts thread).step op answer)) := by
  rcases perform_session performed with ⟨s, inner, rfl⟩
  have unsent (token : (ghosts thread).token = 1) : (state.sessionArray slot).pendingSends = [] :=
    (State.outstanding_eq_zero (alone (Or.inl token)).1).1
  by_cases steady : op.batches = false
  · refine known.kept ?_ ?_ (fun _ member _ => member) (begun_step answer permitted steady)
    · rw [State.setSession_same]
      exact performSession_sended steady inner
    · rw [State.setSession_same]
      exact performSession_batches (by rintro batch rfl; cases steady) inner
  cases op with
  | pushSended packet =>
      rcases permitted with ⟨batch, taken⟩
      have token : (ghosts thread).token = 1 := by rw [taken]; rfl
      have own := known.begun thread batch (by rw [taken]; rfl)
      simp only [performSession] at inner
      split at inner
      next room =>
        cases inner
        refine .change (alone (Or.inl token)) ?_ rfl ?_
        · rw [State.setSession_same, unsent token]
          exact fun _ member => absurd member List.not_mem_nil
        · rw [State.setSession_same, taken, ← own]
          intro batch' same
          cases same
          rfl
      next full =>
        cases inner
        have same := State.setSession_same state slot (state.sessionArray slot)
        refine known.kept (by rw [same]) (by rw [same]) (fun _ member _ => member) (Or.inl ?_)
        rw [taken]
        rfl
  | popSended =>
      cases inner
      have lets : (ghosts thread).token = 1 ∨ (ghosts thread).clears = true := by
        rcases permitted with ⟨left, completing⟩ | cleared
        · exact Or.inl (by rw [completing]; rfl)
        · exact Or.inr (by rw [cleared]; rfl)
      have nothing : ((ghosts thread).step .popSended (state.sessionArray slot).sendedBuffer.head?).begun = none := by
        rcases permitted with ⟨_ | left, completing⟩ | cleared
        · rw [completing]
          rfl
        · rw [completing]
          rfl
        · rw [cleared]
          rfl
      refine .change (alone lets) ?_ rfl ?_
      · rw [State.setSession_same, show Session.pendingSends _ = [] from (State.outstanding_eq_zero (alone lets).1).1]
        exact fun _ member => absurd member List.not_mem_nil
      · rw [nothing]
        intro batch none
        cases none
  | wsaSend batch =>
      have gathering : ghosts thread = .gathering batch := permitted
      have token : (ghosts thread).token = 1 := by rw [gathering]; rfl
      have own := known.begun thread batch (by rw [gathering]; rfl)
      have handed (result : IoResult) : ((ghosts thread).step (.wsaSend batch) result).begun = none := by
        cases result with
        | error code =>
            dsimp only [Sending.step]
            split <;> rfl
        | _ => rfl
      have posted (finished : Bool) (result : IoResult) :
          OneBatch slot (state.setSession slot { state.sessionArray slot with
            pendingSends := (state.sessionArray slot).pendingSends ++ [⟨batch, finished, false⟩] })
            (Function.update ghosts thread ((ghosts thread).step (.wsaSend batch) result)) := by
        refine .change (alone (Or.inl token)) ?_ rfl ?_
        · rw [State.setSession_same, unsent token]
          rintro pending member
          cases List.mem_singleton.mp member
          exact own
        · rw [handed]
          intro batch' none
          cases none
      simp only [performSession] at inner
      split at inner <;> cases inner
      next code _ =>
        have same := State.setSession_same state slot (state.sessionArray slot)
        exact known.kept (by rw [same]) (by rw [same]) (fun _ member _ => member) (Or.inr (handed _))
      · exact posted false .pending
      · exact posted true .success
  | loadSize =>
      cases inner
      have same := State.setSession_same state slot (state.sessionArray slot)
      by_cases begins : beginsBatch slot (ghosts thread)
          ⟨.session slot .loadSize, (state.sessionArray slot).sendBuffer.size⟩ = true
      · have nothing := empty begins
        simp only [beginsBatch, beq_self_eq_true, Bool.true_and, Bool.and_eq_true, beq_iff_eq] at begins
        have token : (ghosts thread).token = 1 := by rw [begins.1]; rfl
        refine .change (alone (Or.inl token)) ?_ rfl ?_
        · rw [same, unsent token]
          exact fun _ member => absurd member List.not_mem_nil
        · rw [same, nothing, begins.1]
          have other : (state.sessionArray slot).sendBuffer.size ≠ 0 := by simpa using begins.2
          intro batch gathers
          have moved : Sending.step .won .loadSize (state.sessionArray slot).sendBuffer.size = .gathering [] :=
            if_neg other
          rw [moved] at gathers
          cases gathers
          rfl
      · refine known.kept (by rw [same]) (by rw [same]) (fun _ member _ => member) (Or.inr ?_)
        rcases permitted with won | checking
        · rw [won] at begins ⊢
          have zero : (state.sessionArray slot).sendBuffer.size = 0 := by simpa [beginsBatch] using begins
          exact congrArg Sending.begun (if_pos zero)
        · rw [checking]
          dsimp only [Sending.step]
          split <;> rfl
  | _ => exact absurd rfl steady

theorem begun_track {op : Op} (answer : op.Answer) (permitted : (sending slot).permits stage op)
    (sessions : op.component ≠ .sessionArray) :
    (stage.track slot ⟨op, answer⟩).begun = stage.begun ∨ (stage.track slot ⟨op, answer⟩).begun = none := by
  cases op with
  | session target op => exact absurd rfl sessions
  | getQueuedCompletionStatus =>
      have away : stage = .away := permitted
      rw [away]
      left
      change (Completion.brings answer slot .away).begun = none
      unfold Completion.brings
      split <;> rfl
  | pushIndex index =>
      rcases (permitted : stage = .away ∨ stage = .emptied) with same | same <;> rw [same] <;> exact Or.inl rfl
  | mark note =>
      cases note with
      | sendedFailed target =>
          by_cases here : target = slot
          · exact Or.inr (congrArg Sending.begun (if_pos here))
          · exact Or.inl (congrArg Sending.begun (if_neg here))
      | _ => exact Or.inl rfl
  | _ => exact Or.inl rfl

theorem OneBatch.track {choice : Choice} {op : Op} {answer : op.Answer} (known : OneBatch slot state ghosts)
    (alone : (ghosts thread).token = 1 ∨ (ghosts thread).clears = true -> Alone slot state ghosts thread)
    (permitted : (sending slot).permits (ghosts thread) op)
    (performed : perform choice state op = some (answer, state'))
    (empty : beginsBatch slot (ghosts thread) ⟨op, answer⟩ = true -> (state.sessionArray slot).sendedBuffer = []) :
    OneBatch slot state' (Function.update ghosts thread ((ghosts thread).track slot ⟨op, answer⟩)) := by
  have same := perform_sameBut performed
  have apart (sessions : op.component ≠ .sessionArray)
      (port : forall completion, completion ∈ state'.port -> completion.sent slot = true -> completion ∈ state.port) :
      OneBatch slot state' (Function.update ghosts thread ((ghosts thread).track slot ⟨op, answer⟩)) := by
    have still := congrFun (same.sessionArray sessions) slot
    exact known.kept (by rw [still]) (by rw [still]) port (begun_track answer permitted sessions)
  cases op with
  | session target op =>
      by_cases here : target = slot
      · subst here
        have moved : (ghosts thread).track target ⟨.session target op, answer⟩ = (ghosts thread).step op answer :=
          if_pos rfl
        rw [moved]
        exact known.session alone (permits_session permitted) performed empty
      · have moved : (ghosts thread).track slot ⟨.session target op, answer⟩ = ghosts thread := if_neg here
        rcases perform_session performed with ⟨s', _, rfl⟩
        have other := State.setSession_other state s' (Ne.symm here)
        rw [moved]
        exact known.kept (by rw [other]) (by rw [other]) (fun _ member _ => member) (Or.inl rfl)
  | getQueuedCompletionStatus =>
      refine apart (by simp [Op.component]) fun completion member _ => ?_
      simp only [perform] at performed
      split at performed
      next => cases performed
      next first rest queued =>
        cases performed
        rw [queued]
        exact List.mem_cons_of_mem _ member
  | postQueuedCompletionStatus target packet =>
      refine apart (by simp [Op.component]) fun completion member sent => ?_
      cases performed
      rcases List.mem_append.mp member with before | posted
      · exact before
      · cases List.mem_singleton.mp posted
        simp [Completion.sent] at sent
  | _ =>
      refine apart (by simp [Op.component]) fun completion member _ => ?_
      rw [same.port (by simp [Op.component])] at member
      exact member

omit [DecidableEq Thread] in
theorem OneBatch.surround {change : Surroundings} (known : OneBatch slot state ghosts)
    (changed : surround state change = some state') : OneBatch slot state' ghosts := by
  have same := (surround_sameFields changed).1 slot
  have batches := @surround_batches slot state state' change changed
  constructor
  · rw [same.sendedBuffer]
    exact fun pending member => known.pending pending (batches.1 pending member)
  · rw [same.sendedBuffer]
    intro completion member here batch batched
    rcases batches.2 completion member here batch batched with queued | ⟨pending, there, rfl⟩
    · exact known.queued completion queued here batch batched
    · exact known.pending pending there
  · rw [same.sendedBuffer]
    exact known.begun

end Steps

/-! ## Runs -/

section Runs

variable {workers contents : Nat} {settings : Settings}

/-- Content code asks about IDs that have been handed out, and whoever has won the flag and reads
that there is something to gather finds `sendedBuffer` empty. -/
def beginsEmpty (slot : Slot) : (server settings workers contents).Rule := fun c thread event =>
  handedOut c thread event ∧ (beginsBatch slot (senders slot c thread) event = true ->
    (State.sessionArray c.state slot).sendedBuffer = [])

instance (slot : Slot) (c : (server settings workers contents).Config) (thread : Thread workers contents)
    (event : Event interface) : Decidable (beginsEmpty slot c thread event) :=
  inferInstanceAs (Decidable (_ ∧ (_ = true -> _ = [])))

section Life

variable {c : (server settings workers contents).Config}
  (reach : (server settings workers contents).Reach handedOut c) {slot : Slot}
  {thread : Thread workers contents}
include reach

/-- A thread that deletes a session has it marked as deleted, and nothing of it is outstanding. -/
theorem deleted_of_clears (clears : (senders slot c thread).clears = true) :
    (c.state.sessionArray slot).ioCount.deleted = true ∧ c.state.outstanding slot = 0 := by
  rcases (alive_of_reach (informed_of_reach reach).1).slots slot with ⟨life, current, fits⟩
  rcases deleting_of_clears reach clears current with ⟨id, phase⟩
  have none := fits.kernel (by rw [phase]; rfl)
  have least := c.state.outstanding_le slot
  exact ⟨fits.marked (by rw [phase]; rfl), by omega⟩

/-- The holder of the flag and the thread that deletes the session are alone with
`sendedBuffer`. -/
theorem alone_of_reach (lets : (senders slot c thread).token = 1 ∨ (senders slot c thread).clears = true) :
    Alone slot c.state (senders slot c) thread := by
  rcases lets with token | clears
  · have balance := (carried_of_reach reach slot).taken
    have bound := flag_le (c.state.sessionArray slot)
    have own := le_tally Sending.token (senders slot c) thread
    refine ⟨by omega, fun other different => ?_⟩
    exact Sending.begun_of_token (single_token reach token.ge other different)
  · refine ⟨(deleted_of_clears reach clears).2, fun other different => ?_⟩
    rw [others_away reach (Or.inl clears) other different]
    rfl

end Life

theorem oneBatch_preserved (slot : Slot) :
    (sending slot).Preserved (server settings workers contents) (beginsEmpty slot)
      fun state ghosts _ => OneBatch slot state ghosts where
  initial := by
    refine ⟨fun _ member => absurd member List.not_mem_nil, fun _ member => absurd member List.not_mem_nil, ?_⟩
    intro thread batch begun
    cases begun
  act := by
    intro c thread op next choice answer state reach turn known permitted performed lawful
    have known' : (server settings workers contents).Reach handedOut c := reach.mono fun _ _ _ both => both.1
    refine ⟨trivial, OneBatch.track known ?_ permitted performed lawful.2⟩
    exact alone_of_reach known'
  takeUp := by
    intro state (ghosts : Thread workers contents -> Sending) history thread known (away : ghosts thread = .away)
    have same : Function.update ghosts thread .away = ghosts := by rw [← away, Function.update_eq_self]
    change OneBatch slot state (Function.update ghosts thread .away)
    rw [same]
    exact known
  surround := fun _ _ _ _ _ known changed => known.surround changed

/-- A thread that takes packets off the queue of a session that is not deleted has won the
exchange of the flag, and has the flag. -/
theorem wins_of_takesOff {c : (server settings workers contents).Config}
    (reach : (server settings workers contents).Reach handedOut c) {slot : Slot} {thread : Thread workers contents}
    (inUse : (c.state.sessionArray slot).ioCount.deleted = false) (pops : takesOff slot (c.running thread) = true) :
    (senders slot c thread).wins = true ∧ (senders slot c thread).token = 1 := by
  have obeys := (Discipline.sound (carried_preserved slot) (fun _ _ _ => jobs_sending) reach).2 thread
  have stays : ¬ (senders slot c thread).clears = true := by
    intro clears
    cases inUse.symm.trans (deleted_of_clears reach clears).1
  cases running : c.running thread with
  | done value =>
      rw [running] at pops
      cases pops
  | step op next =>
      rw [running] at pops obeys
      rcases winner_of_popsAt obeys.1 pops with wins | clears
      · exact wins
      · exact absurd clears stays

/-- In every run in which content code uses IDs that have been handed out, and whoever has won
`sendFlag` and reads that there is something to gather finds `sendedBuffer` empty
(`beginsEmpty`): at most one `WSASend` of a session is outstanding.  While the session is not
deleted, a thread that takes packets off its queue has won the exchange of the flag, and nobody
else has the flag.  And `sendedBuffer` holds exactly the packets of the batch that is
outstanding, or whose completion waits, in their order. -/
theorem sendedBuffer_oneBatch {c : (server settings workers contents).Config} {slot : Slot}
    (reach : (server settings workers contents).Reach (beginsEmpty slot) c) :
    c.state.outstanding slot ≤ 1 ∧
      ((c.state.sessionArray slot).ioCount.deleted = false -> forall thread,
        takesOff slot (c.running thread) = true -> wonExchange slot (c.past thread) = true ∧
          forall other, other ≠ thread -> (senders slot c other).token = 0) ∧
      (forall pending, pending ∈ (c.state.sessionArray slot).pendingSends ->
        pending.batch = (c.state.sessionArray slot).sendedBuffer) ∧
      forall completion, completion ∈ c.state.port -> completion.slot = slot -> forall batch,
        completion.overlapped = .send batch -> batch = (c.state.sessionArray slot).sendedBuffer := by
  have known : (server settings workers contents).Reach handedOut c := reach.mono fun _ _ _ both => both.1
  have batches : OneBatch slot c.state (senders slot c) :=
    (Discipline.sound (oneBatch_preserved slot) (fun _ _ _ => jobs_sending) reach).1
  refine ⟨?_, fun inUse thread pops => ?_, batches.pending, batches.queued⟩
  · have balance := (carried_of_reach known slot).taken
    have bound := flag_le (c.state.sessionArray slot)
    omega
  · rcases wins_of_takesOff known inUse pops with ⟨wins, token⟩
    exact ⟨wonExchange_of_wins slot (c.past thread) wins, single_token known token.ge⟩

/-- Two packets are sent in one batch. -/
theorem sendedBuffer_oneBatch_twoPackets : Exists fun c : (server oneSession 2 1).Config =>
    (c.state.sessionArray 0).pendingSends.map PendingSend.batch = [[⟨1, [7]⟩, ⟨2, [8]⟩]] ∧
      (c.state.sessionArray 0).sendedBuffer = [⟨1, [7]⟩, ⟨2, [8]⟩] := by
  have run : Exists fun c : (server oneSession 2 1).Config => (server oneSession 2 1).Reach (beginsEmpty 0) c ∧
      ((State.sessionArray c.state 0).pendingSends.map PendingSend.batch == [[⟨1, [7]⟩, ⟨2, [8]⟩]]) = true :=
    Machine.exists_of_runSchedule (sentAlong.take 65) _ (by decide +kernel)
  rcases run with ⟨c, reach, checked⟩
  have pending := beq_iff_eq.mp checked
  rcases List.map_eq_cons_iff.mp pending with ⟨first, rest, same, batch, _⟩
  have holds := (sendedBuffer_oneBatch reach).2.2.1 first (by rw [same]; exact List.mem_cons_self)
  exact ⟨c, pending, holds.symm.trans batch⟩

/-- Two packets are requested.  The send of the first one fails for want of buffer space, and its
worker gives the flag back.  Before it cancels the session, the other worker sends the second
packet. -/
def sentBehind : List (Machine.Move (server oneSession 2 1)) :=
  [.takeUp .accept Job.loop] ++ acts .accept 25 usual ++ requested ⟨1, [7]⟩ ++ requested ⟨2, [8]⟩ ++
    [.takeUp (.worker ⟨0, Nat.zero_lt_two⟩) Job.loop] ++ acts (.worker ⟨0, Nat.zero_lt_two⟩) 11 usual ++
      acts (.worker ⟨0, Nat.zero_lt_two⟩) 2 { usual with result := .error 10055 } ++
    [.takeUp (.worker ⟨1, Nat.one_lt_two⟩) Job.loop] ++ acts (.worker ⟨1, Nat.one_lt_two⟩) 12 usual

theorem sentBehind_leavesFailed : Exists fun c : (server oneSession 2 1).Config =>
    (server oneSession 2 1).Reach handedOut c ∧
      (c.state.sessionArray 0).pendingSends.map PendingSend.batch = [[⟨2, [8]⟩]] ∧
        (c.state.sessionArray 0).sendedBuffer = [⟨1, [7]⟩, ⟨2, [8]⟩] := by
  have run : Exists fun c : (server oneSession 2 1).Config => (server oneSession 2 1).Reach handedOut c ∧
      ((State.sessionArray c.state 0).pendingSends.map PendingSend.batch == [[⟨2, [8]⟩]] &&
        (State.sessionArray c.state 0).sendedBuffer == [⟨1, [7]⟩, ⟨2, [8]⟩]) = true :=
    Machine.exists_of_runSchedule sentBehind _ (by decide +kernel)
  rcases run with ⟨c, reach, checked⟩
  rcases Bool.and_eq_true_iff.mp checked with ⟨pending, sended⟩
  exact ⟨c, reach, beq_iff_eq.mp pending, beq_iff_eq.mp sended⟩

end Runs

end Network
end LoginServer
