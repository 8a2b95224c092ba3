import LoginServer.Network.SendPath
import LoginServer.Network.SendRounds

namespace LoginServer
namespace Network

open Memory Buffers Receiving Login Concurrency

/-!
# Nobody to send a packet

A packet in the queue is looked after by a thread that is going to try
`sendIO`, by the holder of the flag, or by the outstanding `WSASend`, whose
completion looks at the queue again.  A thread that finds the flag taken relies
on its holder.  One holder is not to be relied on: having read the size as 0
it gives the flag back and never looks again.
-/

section Runs

variable {workers contents : Nat} {settings : Settings}

/-! ## What may become of a send -/

def failedNext (slot : Slot) (failed : Bool) : Event interface -> Bool
  | ⟨.session target (.storeId _), _⟩ => if target = slot then false else failed
  | ⟨.session target (.wsaSend _), result⟩ =>
      if target = slot ∧ IoResult.started result = false then true else failed
  | ⟨.getQueuedCompletionStatus, completion⟩ =>
      if (Completion.sent completion slot && !Completion.success completion) = true then true else failed
  | _ => failed

/-- A `WSASend` of the session has failed, at once or with its completion. -/
def sendFailed {Thread : Type} (slot : Slot) (history : List (Thread × Event interface)) : Bool :=
  history.foldr (fun entry failed => failedNext slot failed entry.2) false

/-- The thread sees to what is queued before it is done, or fails. -/
def Sending.responsible (stage : Sending) : Bool := stage.works && stage != .empty

/-- Whether a thread finds the flag taken, with packets in the queue, some thread having read
the size as 0, and nobody else responsible. -/
def deserts (slot : Slot) (c : (server settings workers contents).Config) (thread : Thread workers contents) :
    Event interface -> Bool
  | ⟨.session target (.exchangeSendFlag true), busy⟩ =>
      target == slot && busy && !(State.sessionArray c.state slot).sendBuffer.nodes.isEmpty &&
        decide (Exists fun other => senders slot c other = .empty) &&
          !decide (Exists fun other => other ≠ thread ∧ (senders slot c other).responsible = true)
  | _ => false

/-- Whether a completed send reports no bytes. -/
def reportsNothing (slot : Slot) : Event interface -> Bool
  | ⟨.getQueuedCompletionStatus, completion⟩ =>
      Completion.sent completion slot && Completion.success completion && Completion.transfer completion == 0
  | _ => false

/-- Content code asks about IDs that have been handed out, no thread deserts what is queued when
it is about to give the flag back after reading a size of 0, completed sends report at least one
byte, and no call of `sended` counts round to -1. -/
def attentive (slot : Slot) : (server settings workers contents).Rule := fun c thread event =>
  handedOut c thread event ∧ deserts slot c thread event = false ∧ reportsNothing slot event = false ∧
    countsRight c thread event

instance (slot : Slot) (c : (server settings workers contents).Config) (thread : Thread workers contents)
    (event : Event interface) : Decidable (attentive slot c thread event) :=
  inferInstanceAs (Decidable (_ ∧ _ = false ∧ _ = false ∧ _))

/-- Nobody is between a push and the end of `sendIO`, or in the handling of a completion. -/
def Calm (slot : Slot) (c : (server settings workers contents).Config) : Prop :=
  forall thread, (senders slot c thread).works = false

instance (slot : Slot) (c : (server settings workers contents).Config) : Decidable (Calm slot c) := by
  unfold Calm
  infer_instance

/-! ## Packets that are looked after -/

theorem Sending.responsible_of_token {stage : Sending} (token : 1 ≤ stage.token) (other : stage ≠ .empty) :
    stage.responsible = true := by
  cases stage <;> first | rfl | exact absurd rfl other | exact absurd token (by decide)

theorem Sending.responsible_of_lag {stage : Sending} (lag : 1 ≤ stage.lag) (unclear : stage.clears = false) :
    stage.responsible = true := by
  cases stage <;> first | rfl | exact Bool.noConfusion unclear | exact absurd lag (by decide)

/-- What is queued is looked after. -/
structure Attended (slot : Slot) (state : State) (ghosts : Thread workers contents -> Sending)
    (history : List (Thread workers contents × Event interface)) : Prop where
  queued : (state.sessionArray slot).sendBuffer.nodes ≠ [] ->
    (state.sessionArray slot).cancelIoFlag = true ∨ sendFailed slot history = true ∨
      0 < state.outstanding slot ∨ Exists fun thread => (ghosts thread).responsible = true
  lost : 0 < stuck slot history -> sendFailed slot history = true ∨ Exists fun thread => ghosts thread = .opening

/-- How a responsible thread gets rid of its packets. -/
inductive Leaves (slot : Slot) : Sending -> Event interface -> Prop
  | cancelled : Leaves slot .due ⟨.session slot .loadCancelIoFlag, true⟩
  | busy : Leaves slot .due ⟨.session slot (.exchangeSendFlag true), true⟩
  | none {stage : Sending} {size : Int} (reads : stage = .won ∨ stage = .checking) (small : size ≤ 0) :
      Leaves slot stage ⟨.session slot .loadSize, size⟩
  | sent {batch : List Packet} {result : IoResult} (started : result.started = true) :
      Leaves slot (.gathering batch) ⟨.session slot (.wsaSend batch), result⟩
  | cancels : Leaves slot .failed ⟨.session slot (.storeCancelIoFlag true), ()⟩
  | failed {stage : Sending} : Leaves slot stage ⟨.mark (.sendedFailed slot), ()⟩

theorem leaves_step {slot : Slot} {stage : Sending} {op : SessionOp} {answer : op.Answer}
    (permitted : stage.permits op) (before : stage.responsible = true)
    (after : (stage.step op answer).responsible = false) : Leaves slot stage ⟨.session slot op, answer⟩ := by
  have same (kept : stage.step op answer = stage) : Leaves slot stage ⟨.session slot op, answer⟩ := by
    rw [kept, before] at after
    cases after
  cases op with
  | compareExchangeIo =>
      cases (permitted : stage = .away)
      cases before
  | linkNode packet => cases after
  | incrementSize => rcases permitted with rfl | ⟨batch, rfl⟩ | rfl <;>
      first | exact Bool.noConfusion before | exact Bool.noConfusion after
  | decrementSize =>
      rcases permitted with ⟨batch, rfl⟩ | rfl
      · dsimp only [Sending.step] at after
        split at after <;> cases after
      · cases before
  | unlinkNode => rcases permitted with ⟨batch, rfl⟩ | rfl <;>
      first | exact Bool.noConfusion before | exact Bool.noConfusion after
  | loadSize =>
      refine .none permitted ?_
      rcases permitted with rfl | rfl
      · dsimp only [Sending.step] at after
        split at after
        next zero => exact zero.le
        next => cases after
      · dsimp only [Sending.step] at after
        split at after
        next => cases after
        next few => exact Int.not_lt.mp few
  | exchangeSendFlag value =>
      cases value with
      | true =>
          cases (permitted : stage = .due)
          cases answer with
          | true => exact .busy
          | false => cases after
      | false => rcases permitted with rfl | rfl <;>
      first | exact Bool.noConfusion before | exact Bool.noConfusion after
  | storeSendFlag value => rcases permitted.2 with rfl | rfl | rfl <;>
      first | exact Bool.noConfusion before | exact Bool.noConfusion after
  | pushSended packet =>
      rcases permitted with ⟨batch, rfl⟩
      dsimp only [Sending.step] at after
      split at after <;> cases after
  | popSended => rcases permitted with ⟨_ | left, rfl⟩ | rfl <;>
      first | exact Bool.noConfusion before | exact Bool.noConfusion after
  | emptySended =>
      cases (permitted : stage = .cleared)
      cases before
  | wsaSend batch =>
      cases (permitted : stage = .gathering batch)
      refine .sent ?_
      cases answer with
      | error code =>
          dsimp only [Sending.step] at after
          split at after <;> cases after
      | _ => rfl
  | storeCancelIoFlag value =>
      cases value with
      | true =>
          rcases permitted with rfl | rfl
          · cases before
          · exact .cancels
      | false =>
          cases (permitted : stage = .opened)
          cases before
  | loadCancelIoFlag =>
      cases stage with
      | due =>
          cases answer with
          | true => exact .cancelled
          | false => cases after
      | _ => exact same rfl
  | storeId id =>
      cases (permitted : stage = .away)
      cases before
  | clearDeleted =>
      cases (permitted : stage = .opened)
      cases before
  | _ => exact same rfl

theorem leaves_track {slot : Slot} {stage : Sending} {op : Op} {answer : op.Answer}
    (permitted : (sending slot).permits stage op) (before : stage.responsible = true)
    (after : (stage.track slot ⟨op, answer⟩).responsible = false) : Leaves slot stage ⟨op, answer⟩ := by
  have kept (same : stage.track slot ⟨op, answer⟩ = stage) : Leaves slot stage ⟨op, answer⟩ := by
    rw [same, before] at after
    cases after
  cases op with
  | session target op =>
      by_cases same : target = slot
      · subst same
        have moved : stage.track target ⟨.session target op, answer⟩ = stage.step op answer := if_pos rfl
        rw [moved] at after
        exact leaves_step (permits_session permitted) before after
      · exact kept (if_neg same)
  | getQueuedCompletionStatus =>
      cases (permitted : stage = .away)
      cases before
  | pushIndex index => rcases (permitted : stage = .away ∨ stage = .emptied) with rfl | rfl <;> cases before
  | mark note =>
      cases note with
      | sendedFailed target =>
          by_cases same : target = slot
          · subst same
            exact .failed
          · exact kept (if_neg same)
      | _ => exact kept rfl
  | _ => exact kept rfl

/-! ## What operations do to a session that has packets -/

@[simp] theorem sendFailed_cons {Thread : Type} (slot : Slot) (thread : Thread) (event : Event interface)
    (history : List (Thread × Event interface)) :
    sendFailed slot ((thread, event) :: history) = failedNext slot (sendFailed slot history) event := rfl

/-- A failure is known until the next session is initialised. -/
theorem failedNext_of_failed (slot : Slot) (op : Op) (answer : op.Answer) :
    failedNext slot true ⟨op, answer⟩ = true ∨ Exists fun id => op = .session slot (.storeId id) := by
  cases op with
  | session target op =>
      cases op with
      | storeId id =>
          by_cases same : target = slot
          · exact Or.inr ⟨id, by rw [same]⟩
          · exact Or.inl (if_neg same)
      | wsaSend batch => exact Or.inl (by simp [failedNext])
      | _ => exact Or.inl rfl
  | getQueuedCompletionStatus => exact Or.inl (by simp [failedNext])
  | _ => exact Or.inl rfl

theorem transfer_of_reports {slot : Slot} {completion : Completion}
    (reports : reportsNothing slot ⟨.getQueuedCompletionStatus, completion⟩ = false)
    (sent : completion.sent slot = true) (successful : completion.success = true) : completion.transfer ≠ 0 := by
  intro nothing
  have reported : reportsNothing slot ⟨.getQueuedCompletionStatus, completion⟩ = true := by
    simp [reportsNothing, sent, successful, nothing]
  cases reported.symm.trans reports

/-- A send that keeps the flag for good has failed, as long as successful ones report
their bytes. -/
theorem stuckNext_pos {slot : Slot} {count : Nat} {op : Op} {answer : op.Answer}
    (reports : reportsNothing slot ⟨op, answer⟩ = false)
    (answered : forall target, op ≠ .mark (.sendedFailed target))
    (positive : 0 < stuckNext slot count ⟨op, answer⟩) :
    (0 < count ∧ forall value, op ≠ .session slot (.storeSendFlag value)) ∨
      forall failed, failedNext slot failed ⟨op, answer⟩ = true := by
  cases op with
  | session target op =>
      cases op with
      | storeSendFlag value =>
          by_cases same : target = slot
          · have stored : stuckNext slot count ⟨.session target (.storeSendFlag value), answer⟩ = 0 := if_pos same
            rw [stored] at positive
            cases positive
          · have other : stuckNext slot count ⟨.session target (.storeSendFlag value), answer⟩ = count := if_neg same
            rw [other] at positive
            exact Or.inl ⟨positive, fun _ equal => same (Op.session.inj equal).1⟩
      | wsaSend batch =>
          by_cases lost : target = slot ∧ IoResult.lost answer = true
          · refine Or.inr fun failed => if_pos ⟨lost.1, ?_⟩
            cases answer with
            | error code => rfl
            | _ => cases lost.2
          · have kept : stuckNext slot count ⟨.session target (.wsaSend batch), answer⟩ = count := if_neg lost
            rw [kept] at positive
            exact Or.inl ⟨positive, fun _ equal => by cases equal⟩
      | _ => exact Or.inl ⟨positive, fun _ equal => by cases equal⟩
  | getQueuedCompletionStatus =>
      by_cases missed : (Completion.sent answer slot && !Completion.handled answer slot) = true
      · refine Or.inr fun failed => if_pos ?_
        have known := transfer_of_reports reports
        revert missed
        simp only [Completion.handled, Bool.and_eq_true, Bool.not_eq_true', Bool.and_eq_false_iff, bne_eq_false_iff_eq]
        rintro ⟨sent, (unsent | unsuccessful) | nothing⟩
        · cases sent.symm.trans unsent
        · exact ⟨sent, unsuccessful⟩
        · refine ⟨sent, ?_⟩
          rw [← Bool.not_eq_true]
          exact fun successful => known sent successful nothing
      · have kept : stuckNext slot count ⟨.getQueuedCompletionStatus, answer⟩ = count := if_neg missed
        rw [kept] at positive
        exact Or.inl ⟨positive, fun _ equal => by cases equal⟩
  | mark note =>
      cases note with
      | sendedFailed target => exact absurd rfl (answered target)
      | _ => exact Or.inl ⟨positive, fun _ equal => by cases equal⟩
  | _ => exact Or.inl ⟨positive, fun _ equal => by cases equal⟩

theorem opening_track {slot : Slot} {op : Op} {answer : op.Answer}
    (permitted : (sending slot).permits .opening op) :
    Sending.track slot .opening ⟨op, answer⟩ = .opening ∨ op = .session slot (.storeSendFlag false) := by
  cases op with
  | session target op =>
      by_cases same : target = slot
      · subst same
        have moved : Sending.track target .opening ⟨.session target op, answer⟩ = Sending.step .opening op answer :=
          if_pos rfl
        rw [moved]
        have known := permits_session permitted
        cases op with
        | storeSendFlag value => exact Or.inr (by rw [known.1])
        | exchangeSendFlag value => cases value <;> simp [Sending.permits] at known
        | storeCancelIoFlag value => cases value <;> simp [Sending.permits] at known
        | _ => first | exact Or.inl rfl | simp [Sending.permits] at known
      · exact Or.inl (if_neg same)
  | getQueuedCompletionStatus => cases (permitted : Sending.opening = .away)
  | mark note =>
      cases note with
      | sendedFailed target =>
          refine Or.inl (if_neg fun same => ?_)
          rcases permitted same with completing | completing <;> cases completing
      | _ => exact Or.inl rfl
  | _ => exact Or.inl rfl

section Operations

variable {choice : Choice} {state state' : State} {op : Op} {answer : op.Answer} {slot : Slot}

theorem queued_before (performed : perform choice state op = some (answer, state'))
    (queued : (state'.sessionArray slot).sendBuffer.nodes ≠ []) :
    (state.sessionArray slot).sendBuffer.nodes ≠ [] ∨
      Exists fun packet => op = .session slot (.linkNode packet) := by
  by_cases moves : op.movesAt slot = true
  · cases op with
    | session target op =>
        simp only [Op.movesAt, Bool.and_eq_true, beq_iff_eq] at moves
        rcases moves with ⟨rfl, moves⟩
        rcases perform_session performed with ⟨s', inner, rfl⟩
        rw [State.setSession_same] at queued
        cases op with
        | linkNode packet => exact Or.inr ⟨packet, rfl⟩
        | unlinkNode =>
            rcases Option.map_eq_some_iff.mp inner with ⟨⟨packet, queue⟩, unlinked, same⟩
            cases same
            unfold LockFreeQueue.unlink at unlinked
            split at unlinked
            next => cases unlinked
            next nodes linked =>
              rw [linked]
              exact Or.inl (List.cons_ne_nil _ _)
        | pushSended packet =>
            simp only [performSession] at inner
            split at inner <;> cases inner <;> exact Or.inl queued
        | popSended =>
            cases inner
            exact Or.inl queued
        | _ => exact Bool.noConfusion moves
    | _ => exact Bool.noConfusion moves
  · rw [(perform_buffers (Bool.not_eq_true _ ▸ moves) performed).1] at queued
    exact Or.inl queued

theorem cancelled_after (performed : perform choice state op = some (answer, state'))
    (cancelled : (state.sessionArray slot).cancelIoFlag = true) :
    (state'.sessionArray slot).cancelIoFlag = true ∨ op = .session slot (.storeCancelIoFlag false) := by
  have kept := perform_sameBut performed
  cases op with
  | session target op =>
      rcases perform_session performed with ⟨s', inner, rfl⟩
      by_cases same : target = slot
      · subst same
        rw [State.setSession_same]
        cases op with
        | storeCancelIoFlag value =>
            cases inner
            cases value with
            | true => exact Or.inl rfl
            | false => exact Or.inr rfl
        | unlinkNode =>
            rcases Option.map_eq_some_iff.mp inner with ⟨result, _, same⟩
            cases same
            exact Or.inl cancelled
        | compareExchangeIo =>
            cases inner
            split <;> exact Or.inl cancelled
        | cancelIoEx direction =>
            cases inner
            cases direction <;> exact Or.inl cancelled
        | allocNode =>
            simp only [performSession] at inner
            split at inner <;> cases inner <;> exact Or.inl cancelled
        | pushSended packet =>
            simp only [performSession] at inner
            split at inner <;> cases inner <;> exact Or.inl cancelled
        | wsaSend batch =>
            simp only [performSession] at inner
            split at inner <;> cases inner <;> exact Or.inl cancelled
        | wsaRecv buffers =>
            simp only [performSession] at inner
            split at inner <;> cases inner <;> exact Or.inl cancelled
        | _ =>
            cases inner
            exact Or.inl cancelled
      · rw [State.setSession_other state s' (Ne.symm same)]
        exact Or.inl cancelled
  | _ =>
      rw [kept.sessionArray (by simp [Op.component])]
      exact Or.inl cancelled

theorem outstanding_after (performed : perform choice state op = some (answer, state'))
    (outstanding : 0 < state.outstanding slot) :
    0 < state'.outstanding slot ∨ Exists fun completion : Completion => completion.sent slot = true ∧
      (⟨op, answer⟩ : Event interface) = ⟨.getQueuedCompletionStatus, completion⟩ := by
  have kept := perform_sameBut performed
  cases op with
  | session target op =>
      rcases perform_session performed with ⟨s', inner, rfl⟩
      left
      refine outstanding.trans_le ?_
      unfold State.outstanding
      by_cases same : target = slot
      · subst same
        rw [State.setSession_same]
        apply Nat.add_le_add_right
        by_cases quiet : op.quiet = true
        · exact (performSession_quiet quiet inner).pendingSends.ge
        · cases op with
          | wsaSend batch =>
              simp only [performSession] at inner
              split at inner <;> cases inner <;> simp
          | wsaRecv buffers =>
              simp only [performSession] at inner
              split at inner <;> cases inner <;> exact Nat.le_refl _
          | compareExchangeIo =>
              cases inner
              split <;> exact Nat.le_refl _
          | _ =>
              first
                | exact absurd rfl quiet
                | cases inner; exact Nat.le_refl _
      · rw [State.setSession_other state s' (Ne.symm same)]
        exact Nat.le_refl _
  | getQueuedCompletionStatus =>
      simp only [perform] at performed
      split at performed
      next => cases performed
      next completion rest queued =>
        cases performed
        by_cases sent : answer.sent slot = true
        · exact Or.inr ⟨answer, sent, rfl⟩
        · unfold State.outstanding at outstanding
          rw [queued, List.countP_cons, if_neg sent] at outstanding
          exact Or.inl outstanding
  | postQueuedCompletionStatus target packet =>
      cases performed
      left
      simp only [State.outstanding, List.countP_append] at outstanding ⊢
      omega
  | _ =>
      left
      unfold State.outstanding
      rw [kept.sessionArray (by simp [Op.component]), kept.port (by simp [Op.component])]
      exact outstanding

end Operations

section Steps

variable {c : (server settings workers contents).Config}
  (reach : (server settings workers contents).Reach handedOut c) {slot : Slot}
  {thread : Thread workers contents}
include reach

/-- With packets in the queue, nobody initialises the session. -/
theorem unopened_of_queued (queued : (c.state.sessionArray slot).sendBuffer.nodes ≠ []) :
    (senders slot c thread).opens = false := by
  rw [← Bool.not_eq_true]
  intro opens
  rcases (alive_of_reach (informed_of_reach reach).1).slots slot with ⟨life, current, _⟩
  rcases starting_of_opens reach opens current with ⟨_, used, id, phase⟩
  exact queued ((rested_of_reach reach slot).vacant life current (by rw [phase]; rfl)).1

/-- A size of 0, or less, leaves the packets to those that have not counted them yet. -/
theorem responsible_of_size (queued : (c.state.sessionArray slot).sendBuffer.nodes ≠ [])
    (size : (c.state.sessionArray slot).sendBuffer.size ≤ 0) (works : (senders slot c thread).works = true)
    (counted : (senders slot c thread).lag = 0) :
    Exists fun other => other ≠ thread ∧ (senders slot c other).responsible = true := by
  have balance := (carried_of_reach reach slot).counted
  have some_lag : tally Sending.lag (senders slot c) ≠ 0 := by
    intro none
    have length := List.length_pos_iff.mpr queued
    rw [none] at balance
    omega
  rw [Ne, tally_eq_zero_iff, not_forall] at some_lag
  rcases some_lag with ⟨other, lag⟩
  have different : other ≠ thread := by
    rintro rfl
    exact lag counted
  refine ⟨other, different, Sending.responsible_of_lag (Nat.one_le_iff_ne_zero.mpr lag) ?_⟩
  rw [← Bool.not_eq_true]
  intro clears
  rw [others_away reach (Or.inl clears) thread (Ne.symm different)] at works
  cases works

/-- The flag is set for somebody. -/
theorem attended_of_taken (attended : Attended slot c.state (senders slot c) c.history)
    (queued : (c.state.sessionArray slot).sendBuffer.nodes ≠ [])
    (taken : (c.state.sessionArray slot).sendFlag = true) (relied : forall other, senders slot c other ≠ .empty) :
    sendFailed slot c.history = true ∨ 0 < c.state.outstanding slot ∨
      Exists fun other => 1 ≤ (senders slot c other).token ∧ (senders slot c other).responsible = true := by
  have balance := (carried_of_reach reach slot).taken
  rw [taken, Bool.toNat_true] at balance
  by_cases outstanding : 0 < c.state.outstanding slot
  · exact Or.inr (Or.inl outstanding)
  by_cases lost : 0 < stuck slot c.history
  · rcases attended.lost lost with failed | ⟨other, opening⟩
    · exact Or.inl failed
    · have unopened : (senders slot c other).opens = false := unopened_of_queued reach queued
      rw [opening] at unopened
      cases unopened
  have some_token : tally Sending.token (senders slot c) ≠ 0 := by
    change 1 = tally Sending.token (senders slot c) + _ + _ at balance
    omega
  rw [Ne, tally_eq_zero_iff, not_forall] at some_token
  rcases some_token with ⟨other, token⟩
  have positive := Nat.one_le_iff_ne_zero.mpr token
  exact Or.inr (Or.inr ⟨other, positive, Sending.responsible_of_token positive (relied other)⟩)

end Steps

/-! ## Every step looks after what is queued -/

section Step

variable {c : (server settings workers contents).Config} {slot : Slot} {thread : Thread workers contents}
  {op : Op} {choice : Choice} {answer : op.Answer} {state : State}
  (reach : (server settings workers contents).Reach handedOut c)
  (attended : Attended slot c.state (senders slot c) c.history)
  (permitted : (sending slot).permits (senders slot c thread) op)
  (performed : perform choice c.state op = some (answer, state))
  (lawful : attentive slot c thread ⟨op, answer⟩) (answered : forall target, op ≠ .mark (.sendedFailed target))
include reach attended performed lawful answered

/-- A responsible thread leaves its packets to somebody else, or to nobody after a failure. -/
theorem attended_after_leaves (queued : (c.state.sessionArray slot).sendBuffer.nodes ≠ [])
    (leaves : Leaves slot (senders slot c thread) ⟨op, answer⟩) :
    (state.sessionArray slot).cancelIoFlag = true ∨ sendFailed slot c.history = true ∨
      0 < state.outstanding slot ∨
      Exists fun other => other ≠ thread ∧ (senders slot c other).responsible = true := by
  generalize own : senders slot c thread = stage at leaves
  cases leaves with
  | cancelled =>
      rcases perform_session performed with ⟨s', inner, rfl⟩
      rcases Prod.mk.inj (Option.some.inj inner) with ⟨flag, rfl⟩
      rw [State.setSession_same c.state _]
      exact Or.inl flag
  | busy =>
      rcases perform_session performed with ⟨s', inner, rfl⟩
      rcases Prod.mk.inj (Option.some.inj inner) with ⟨flag, rfl⟩
      by_cases relied : Exists fun other => senders slot c other = .empty
      · refine Or.inr (Or.inr (Or.inr ?_))
        by_contra alone
        have deserted : deserts slot c thread ⟨.session slot (.exchangeSendFlag true), true⟩ = true := by
          simp [deserts, queued, relied, alone]
        cases deserted.symm.trans lawful.2.1
      rcases attended_of_taken reach attended queued flag (not_exists.mp relied) with
        failed | outstanding | ⟨other, token, responsible⟩
      · exact Or.inr (Or.inl failed)
      · refine Or.inr (Or.inr (Or.inl ?_))
        unfold State.outstanding
        rw [State.setSession_same c.state _]
        exact outstanding
      · refine Or.inr (Or.inr (Or.inr ⟨other, ?_, responsible⟩))
        rintro rfl
        rw [own] at token
        exact absurd token (by decide)
  | none reads small =>
      rcases perform_session performed with ⟨s', inner, rfl⟩
      rcases Prod.mk.inj (Option.some.inj inner) with ⟨size, rfl⟩
      refine Or.inr (Or.inr (Or.inr (responsible_of_size reach queued ?_ ?_ ?_)))
      · exact size.le.trans small
      · rw [own]
        rcases reads with rfl | rfl <;> rfl
      · rw [own]
        rcases reads with rfl | rfl <;> rfl
  | @sent batch result started =>
      rcases perform_session performed with ⟨s', inner, rfl⟩
      refine Or.inr (Or.inr (Or.inl ?_))
      unfold State.outstanding
      rw [State.setSession_same c.state _]
      simp only [performSession] at inner
      split at inner
      next code _ =>
        cases inner
        cases started
      all_goals
        cases inner
        simp only [List.length_append, List.length_singleton]
        omega
  | cancels =>
      rcases perform_session performed with ⟨s', inner, rfl⟩
      cases inner
      rw [State.setSession_same c.state _]
      exact Or.inl rfl
  | failed => exact absurd rfl (answered slot)

include permitted

/-- What the next configuration has of packets, if the thread no longer sees to them. -/
theorem attended_before (queued : (state.sessionArray slot).sendBuffer.nodes ≠ [])
    (after : ((senders slot c thread).track slot ⟨op, answer⟩).responsible = false) :
    (state.sessionArray slot).cancelIoFlag = true ∨ sendFailed slot c.history = true ∨
      sendFailed slot ((thread, ⟨op, answer⟩) :: c.history) = true ∨ 0 < state.outstanding slot ∨
      Exists fun other => other ≠ thread ∧ (senders slot c other).responsible = true := by
  have before : (c.state.sessionArray slot).sendBuffer.nodes ≠ [] := by
    rcases queued_before performed queued with before | ⟨packet, rfl⟩
    · exact before
    · have moved : (senders slot c thread).track slot ⟨.session slot (.linkNode packet), answer⟩ = .uncounted :=
        if_pos rfl
      rw [moved] at after
      cases after
  rcases attended.queued before with cancelled | failed | outstanding | ⟨other, responsible⟩
  · rcases cancelled_after performed cancelled with still | rfl
    · exact Or.inl still
    · have opened : senders slot c thread = .opened := permits_session permitted
      have unopened : (senders slot c thread).opens = false := unopened_of_queued reach before
      rw [opened] at unopened
      cases unopened
  · exact Or.inr (Or.inl failed)
  · rcases outstanding_after performed outstanding with still | ⟨completion, sent, happened⟩
    · exact Or.inr (Or.inr (Or.inr (Or.inl still)))
    · cases happened
      refine Or.inr (Or.inr (Or.inl (if_pos ?_)))
      rw [sent, Bool.true_and, Bool.not_eq_true', ← Bool.not_eq_true]
      intro successful
      have handled : completion.handled slot = true := by
        simp only [Completion.handled, Bool.and_eq_true, bne_iff_ne]
        exact ⟨⟨sent, successful⟩, transfer_of_reports lawful.2.2.1 sent successful⟩
      have moved : (senders slot c thread).track slot ⟨.getQueuedCompletionStatus, completion⟩ =
          .completing (some completion.transfer) := if_pos handled
      rw [moved] at after
      cases after
  · by_cases same : other = thread
    · subst same
      have leaves := leaves_track permitted responsible after
      rcases attended_after_leaves reach attended performed lawful answered before leaves with
        cancelled | failed | outstanding | found
      · exact Or.inl cancelled
      · exact Or.inr (Or.inl failed)
      · exact Or.inr (Or.inr (Or.inr (Or.inl outstanding)))
      · exact Or.inr (Or.inr (Or.inr (Or.inr found)))
    · exact Or.inr (Or.inr (Or.inr (Or.inr ⟨other, same, responsible⟩)))

/-- Every step keeps what is queued looked after. -/
theorem attended_step {rest : NetProgram Unit}
    (reach' : (server settings workers contents).Reach handedOut (c.record thread ⟨op, answer⟩ state rest)) :
    Attended slot state (senders slot (c.record thread ⟨op, answer⟩ state rest))
      ((thread, ⟨op, answer⟩) :: c.history) := by
  have own : senders slot (c.record thread ⟨op, answer⟩ state rest) thread =
      (senders slot c thread).track slot ⟨op, answer⟩ := by
    rw [senders_record slot c thread _ state rest, Function.update_self]
  have others (other : Thread workers contents) (different : other ≠ thread) :
      senders slot (c.record thread ⟨op, answer⟩ state rest) other = senders slot c other := by
    rw [senders_record slot c thread _ state rest, Function.update_of_ne different]
  constructor
  · intro queued
    by_cases after : ((senders slot c thread).track slot ⟨op, answer⟩).responsible = true
    · exact Or.inr (Or.inr (Or.inr ⟨thread, own ▸ after⟩))
    have failed_kept (failed : sendFailed slot c.history = true) :
        sendFailed slot ((thread, ⟨op, answer⟩) :: c.history) = true := by
      rw [sendFailed_cons, failed]
      rcases failedNext_of_failed slot op answer with still | ⟨id, rfl⟩
      · exact still
      · have opening : (senders slot c thread).track slot ⟨.session slot (.storeId id), answer⟩ = .opening :=
          if_pos rfl
        have unopened : (senders slot (c.record thread _ state rest) thread).opens = false :=
          unopened_of_queued reach' queued
        rw [own, opening] at unopened
        cases unopened
    rcases attended_before reach attended permitted performed lawful answered queued (Bool.not_eq_true _ ▸ after) with
      cancelled | failed | failed | outstanding | ⟨other, different, responsible⟩
    · exact Or.inl cancelled
    · exact Or.inr (Or.inl (failed_kept failed))
    · exact Or.inr (Or.inl failed)
    · exact Or.inr (Or.inr (Or.inl outstanding))
    · exact Or.inr (Or.inr (Or.inr ⟨other, (others other different).symm ▸ responsible⟩))
  · intro positive
    rw [stuck_cons] at positive
    rw [sendFailed_cons]
    rcases stuckNext_pos lawful.2.2.1 answered positive with ⟨before, unstored⟩ | failed
    · rcases attended.lost before with failed | ⟨other, opening⟩
      · rw [failed]
        rcases failedNext_of_failed slot op answer with still | ⟨id, rfl⟩
        · exact Or.inl still
        · exact Or.inr ⟨thread, own.trans (if_pos rfl)⟩
      · refine Or.inr ⟨other, ?_⟩
        by_cases same : other = thread
        · subst same
          rw [own, opening]
          have permitted' := permitted
          rw [opening] at permitted'
          rcases opening_track permitted' with still | stores
          · exact still
          · exact absurd stores (unstored false)
        · rw [others other same]
          exact opening
    · exact Or.inl (failed _)

end Step


theorem attended_preserved (slot : Slot) :
    (sending slot).Preserved (server settings workers contents) (attentive slot)
      fun state ghosts history => Attended slot state ghosts history where
  initial := ⟨fun queued => absurd rfl queued, fun positive => absurd positive (Nat.lt_irrefl 0)⟩
  act := by
    intro c thread op next choice answer state reach turn attended permitted performed lawful
    refine ⟨trivial, ?_⟩
    have known : (server settings workers contents).Reach handedOut c := reach.mono fun _ _ _ both => both.1
    have known' := known.step (.act thread choice op next answer state turn performed lawful.1)
    change Attended slot c.state (senders slot c) c.history at attended
    change Attended slot state (Function.update (senders slot c) thread
      ((senders slot c thread).track slot ⟨op, answer⟩)) ((thread, ⟨op, answer⟩) :: c.history)
    rw [← senders_record slot c thread ⟨op, answer⟩ state (next answer)]
    have counting : (server settings workers contents).Reach countsRight c :=
      reach.mono fun _ _ _ all => all.2.2.2
    exact attended_step known attended permitted performed lawful (answered_of_countsRight counting turn) known'
  takeUp := by
    intro state (ghosts : Thread workers contents -> Sending) history thread attended (away : ghosts thread = .away)
    have same : Function.update ghosts thread .away = ghosts := by rw [← away, Function.update_eq_self]
    change Attended slot state (Function.update ghosts thread .away) history
    rw [same]
    exact attended
  surround := by
    intro state ghosts history change state' attended changed
    have same := (surround_sameFields changed).1 slot
    refine ⟨?_, attended.lost⟩
    rw [same.sendBuffer, same.cancelIoFlag, surround_outstanding changed]
    exact attended.queued

theorem attended_of_reach {c : (server settings workers contents).Config} {slot : Slot}
    (reach : (server settings workers contents).Reach (attentive slot) c) :
    Attended slot c.state (senders slot c) c.history :=
  (Discipline.sound (attended_preserved slot) (fun _ _ _ => jobs_sending) reach).1

/-- When nobody works on a session any more that is neither cancelled nor waits for a send, and
no send of which has failed, no packet is left in its queue.  This holds in every run that is
`attentive`: content code uses IDs that have been handed out, no thread deserts what is queued
when it gives the flag back, completed sends report their bytes, and no call of `sended` counts
round to -1. -/
theorem nobody_strands {c : (server settings workers contents).Config} {slot : Slot}
    (reach : (server settings workers contents).Reach (attentive slot) c) (calm : Calm slot c)
    (open_ : (c.state.sessionArray slot).cancelIoFlag = false) (succeeded : sendFailed slot c.history = false)
    (none : c.state.outstanding slot = 0) : (c.state.sessionArray slot).sendBuffer.nodes = [] := by
  by_contra queued
  rcases (attended_of_reach reach).queued queued with cancelled | failed | outstanding | ⟨thread, responsible⟩
  · cases open_.symm.trans cancelled
  · cases succeeded.symm.trans failed
  · exact absurd none outstanding.ne'
  · rw [Sending.responsible, calm thread] at responsible
    cases responsible

/-! ## Two workers -/

def requested (packet : Packet) : List (Machine.Move (server oneSession 2 1)) :=
  [.takeUp (.content ⟨0, Nat.one_pos⟩) (Job.call (.sendReq 0 packet))] ++ acts (.content ⟨0, Nat.one_pos⟩) 7 usual

/-- A client connects.  The first worker links and counts a packet.  The second one sends it
together with its own, and handles the completion. -/
def sentAlong : List (Machine.Move (server oneSession 2 1)) :=
  [.takeUp .accept Job.loop] ++ acts .accept 25 usual ++
    requested ⟨1, [7]⟩ ++ [.takeUp (.worker ⟨0, Nat.zero_lt_two⟩) Job.loop] ++
      acts (.worker ⟨0, Nat.zero_lt_two⟩) 4 usual ++
    requested ⟨2, [8]⟩ ++ [.takeUp (.worker ⟨1, Nat.one_lt_two⟩) Job.loop] ++
      acts (.worker ⟨1, Nat.one_lt_two⟩) 17 usual ++
    [.surround (Surroundings.completeSend 0 0 true 2), .takeUp (.worker ⟨1, Nat.one_lt_two⟩) Job.loop] ++
      acts (.worker ⟨1, Nat.one_lt_two⟩) 12 usual

/-- The first worker takes the flag, reads a size of 0 and gives the flag back. -/
theorem nobody_strands_sentAlong : Exists fun c : (server oneSession 2 1).Config =>
    (c.history.countP fun entry => entry.2.op.movesAt 0) = 8 ∧
      (c.state.sessionArray 0).sendBuffer.nodes = [] := by
  have run : Exists fun c : (server oneSession 2 1).Config =>
      (server oneSession 2 1).Reach (attentive 0) c ∧
        ((c.history.countP fun entry => entry.2.op.movesAt 0) == 8 && decide (Calm 0 c) &&
          !(State.sessionArray c.state 0).cancelIoFlag && !sendFailed 0 c.history &&
            State.outstanding c.state 0 == 0) = true :=
    Machine.exists_of_runSchedule (sentAlong ++ acts (.worker ⟨0, Nat.zero_lt_two⟩) 5 usual) _
      (by decide +kernel)
  rcases run with ⟨c, reach, checked⟩
  simp only [Bool.and_eq_true, beq_iff_eq, decide_eq_true_eq, Bool.not_eq_true'] at checked
  rcases checked with ⟨⟨⟨⟨moved, calm⟩, open_⟩, succeeded⟩, none⟩
  exact ⟨c, moved, nobody_strands reach calm open_ succeeded none⟩

/-- Between reading the size of 0 and giving the flag back, a third packet is linked.  Its worker
finds the flag taken. -/
def leftBehind : List (Machine.Move (server oneSession 2 1)) :=
  sentAlong ++ acts (.worker ⟨0, Nat.zero_lt_two⟩) 3 usual ++
    requested ⟨3, [9]⟩ ++ [.takeUp (.worker ⟨1, Nat.one_lt_two⟩) Job.loop] ++
      acts (.worker ⟨1, Nat.one_lt_two⟩) 7 usual ++ acts (.worker ⟨0, Nat.zero_lt_two⟩) 2 usual

theorem leftBehind_strands : Exists fun c : (server oneSession 2 1).Config =>
    (server oneSession 2 1).Reach handedOut c ∧ Calm 0 c ∧ (c.state.sessionArray 0).cancelIoFlag = false ∧
      sendFailed 0 c.history = false ∧ c.state.outstanding 0 = 0 ∧
        (c.state.sessionArray 0).sendBuffer.nodes = [⟨3, [9]⟩] := by
  have run : Exists fun c : (server oneSession 2 1).Config => (server oneSession 2 1).Reach handedOut c ∧
      (decide (Calm 0 c) && !(State.sessionArray c.state 0).cancelIoFlag && !sendFailed 0 c.history &&
        State.outstanding c.state 0 == 0 &&
          (State.sessionArray c.state 0).sendBuffer.nodes == [⟨3, [9]⟩]) = true :=
    Machine.exists_of_runSchedule leftBehind _ (by decide +kernel)
  rcases run with ⟨c, reach, checked⟩
  simp only [Bool.and_eq_true, beq_iff_eq, decide_eq_true_eq, Bool.not_eq_true'] at checked
  rcases checked with ⟨⟨⟨⟨calm, open_⟩, succeeded⟩, none⟩, left⟩
  exact ⟨c, reach, calm, open_, succeeded, none, left⟩

end Runs

end Network
end LoginServer
