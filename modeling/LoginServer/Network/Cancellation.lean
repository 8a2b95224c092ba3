import LoginServer.Network.Routine

namespace LoginServer
namespace Network

open Memory Buffers Receiving Login Concurrency

/-!
# Cancellation

`recvIO` and `sendIO` check the flag, issue their operation, and check again.
`disconnectReq` sets the flag and cancels what is outstanding.  An operation
that it comes too early for is still between the issue and the second check of
its thread, and is cancelled there.
-/

/-- Where a thread stands in `recvIO` or `sendIO`. -/
inductive IoStage where
  | outside
  /-- The flag was clear, and nothing is issued yet. -/
  | entered (slot : Slot)
  /-- An operation is outstanding, and the flag will be checked again. -/
  | issued (slot : Slot) (direction : Direction)
  /-- The flag was set at the second check. -/
  | cancelling (slot : Slot) (direction : Direction)

namespace IoStage

/-- The session whose `recvIO` or `sendIO` is under way. -/
def inside : IoStage -> Option Slot
  | .outside => none
  | .entered slot => some slot
  | .issued slot _ => some slot
  | .cancelling slot _ => some slot

theorem inside_outside : IoStage.outside.inside = none := rfl

/-- Still to check again, or to cancel. -/
def rechecks (slot : Slot) (direction : Direction) (stage : IoStage) : Prop :=
  stage = .issued slot direction ∨ stage = .cancelling slot direction

/-- What the answer to an issue leads to. -/
def afterIssue (slot : Slot) (direction : Direction) : IoResult -> IoStage
  | .pending => .issued slot direction
  | .success => .outside
  | .error _ => .outside

/-- The first or the second check. -/
def afterCheck (slot : Slot) (cancelled : Bool) : IoStage -> IoStage
  | .issued _ direction => if cancelled then .cancelling slot direction else .outside
  | _ => if cancelled then .outside else .entered slot

def track (stage : IoStage) : Event interface -> IoStage
  | ⟨.session slot .loadCancelIoFlag, cancelled⟩ => stage.afterCheck slot cancelled
  | ⟨.session _ (.exchangeSendFlag value), previous⟩ => if value && !previous then stage else .outside
  | ⟨.session slot (.wsaSend _), result⟩ => afterIssue slot .send result
  | ⟨.session slot (.wsaRecv _), result⟩ => afterIssue slot .recv result
  | ⟨.session _ (.cancelIoEx _), _⟩ => .outside
  | _ => stage

end IoStage

/-- An operation is issued only after a check, and nothing comes between its issue
and the end of the second check. -/
def issuing : Discipline interface where
  Ghost := IoStage
  start := .outside
  track := IoStage.track
  permits := fun stage op =>
    match op with
    | .session slot .loadCancelIoFlag =>
        stage = .outside ∨ Exists fun direction => stage = .issued slot direction
    | .session slot (.wsaSend _) => stage = .entered slot
    | .session slot (.wsaRecv _) => stage = .entered slot
    | .session slot (.cancelIoEx direction) =>
        stage = .outside ∨ stage = .cancelling slot direction
    | .session slot (.exchangeSendFlag _) => stage = .outside ∨ stage = .entered slot
    | _ => True
  expects := fun _ _ => True
  finish := fun stage => stage = .outside
  finish_start := rfl

/-! ## Functions -/

/-- Operations that `issuing` does not follow. -/
def issueless : Op -> Bool
  | .session _ .loadCancelIoFlag => false
  | .session _ (.wsaSend _) => false
  | .session _ (.wsaRecv _) => false
  | .session _ (.cancelIoEx _) => false
  | .session _ (.exchangeSendFlag _) => false
  | _ => true

theorem issuing_ignores {op : Op} (free : issueless op = true) (stage : IoStage) :
    issuing.permits stage op ∧ forall answer : op.Answer, issuing.track stage ⟨op, answer⟩ = stage := by
  cases op with
  | session slot op =>
      cases op <;> first | exact ⟨trivial, fun _ => rfl⟩ | exact Bool.noConfusion free
  | _ => exact ⟨trivial, fun _ => rfl⟩

theorem issueless_keeps {α : Type} {program : NetProgram α}
    (uses : program.Uses fun op => issueless op = true) (stage : IoStage) :
    issuing.Keeps program stage :=
  Discipline.obeys_of_uses (D := issuing) uses (fun _ stage free => (issuing_ignores free stage).1)
    (fun _ answer stage free => (issuing_ignores free stage).2 answer) stage

theorem issueless_of_closes {op : Op} (closes : op.closes = true) : issueless op = true := by
  cases op with
  | session slot op => cases op <;> first | rfl | exact Bool.noConfusion closes
  | _ => rfl

theorem issueless_of_outside {op : Op} (outside : op.outside = true) : issueless op = true := by
  cases op with
  | session slot op => cases op <;> first | rfl | exact Bool.noConfusion outside
  | _ => rfl

theorem giveBack_issuing (fuel : Nat) (slot : Slot) (stage : IoStage) :
    issuing.Keeps (giveBack fuel slot) stage :=
  issueless_keeps ((giveBack_closes fuel slot).mono fun _ => issueless_of_closes) stage

theorem disconnectReq_issuing (fuel : Nat) (sessionID : SessionID) :
    issuing.Keeps (disconnectReq fuel sessionID) .outside := by
  have found : issuing.Keeps (findSession fuel sessionID) .outside := by
    refine (findSession_routine sessionID).keeps (D := issuing) ?_ fun slot => giveBack_issuing fuel slot _
    intro op between
    have ignored := issuing_ignores (issueless_of_outside (outside_of_between between)) .outside
    exact ⟨ignored.1, fun answer _ => ignored.2 answer⟩
  refine found.bindTo fun slot => ?_
  cases slot with
  | none => rfl
  | some slot =>
      refine ⟨trivial, fun _ _ => ⟨Or.inl rfl, fun _ _ => ⟨Or.inl rfl, fun _ _ => ?_⟩⟩⟩
      exact giveBack_issuing fuel slot .outside

/-- The second check, and the cancellation that may follow. -/
theorem recheck_issuing (slot : Slot) (direction : Direction) :
    issuing.Obeys (do
      if ← sessionOp slot .loadCancelIoFlag then
        let _ ← sessionOp slot (.cancelIoEx direction)
        return
      else return) (.issued slot direction) fun stage _ => stage = .outside := by
  refine ⟨Or.inr ⟨direction, rfl⟩, fun (cancelled : Bool) _ => ?_⟩
  cases cancelled with
  | true => exact ⟨Or.inr rfl, fun _ _ => rfl⟩
  | false => rfl

theorem recvIo_issuing (fuel : Nat) (slot : Slot) : issuing.Keeps (recvIo fuel slot) .outside := by
  refine ⟨Or.inl rfl, fun (cancelled : Bool) _ => ?_⟩
  cases cancelled with
  | true => rfl
  | false =>
      refine ⟨trivial, fun buffer _ => ⟨trivial, fun _ _ => ⟨rfl, fun (result : IoResult) _ => ?_⟩⟩⟩
      cases result with
      | success => rfl
      | pending => exact recheck_issuing slot .recv
      | error code =>
          refine ⟨trivial, fun _ _ => ⟨Or.inl rfl, fun _ _ => ?_⟩⟩
          exact giveBack_issuing fuel slot .outside

theorem gather_issueless (slot : Slot) (packetCount rounds : Nat) (batch : List Packet) :
    (gather slot packetCount rounds batch).Uses fun op => issueless op = true := by
  induction rounds generalizing batch with
  | zero => exact ⟨rfl, by simp⟩
  | succ rounds inductionHypothesis =>
      unfold gather
      split
      · refine ((pop_closes slot).mono fun _ => issueless_of_closes).bind fun popped => ?_
        cases popped with
        | none => exact inductionHypothesis batch
        | some packet =>
            dsimp only
            split
            · refine ⟨rfl, fun (stored : Bool) => ?_⟩
              cases stored with
              | true => exact inductionHypothesis _
              | false => exact ⟨rfl, by simp⟩
            · exact ⟨rfl, by simp⟩
      · trivial

theorem sendIo_issuing (fuel : Nat) (slot : Slot) : issuing.Keeps (sendIo fuel slot) .outside := by
  refine ⟨Or.inl rfl, fun (cancelled : Bool) _ => ?_⟩
  cases cancelled with
  | true => rfl
  | false =>
      refine ⟨Or.inr rfl, fun (busy : Bool) _ => ?_⟩
      cases busy with
      | true => rfl
      | false =>
          refine ⟨trivial, fun (sendBufferSize : Int) _ => ?_⟩
          change issuing.Obeys (if sendBufferSize = 0 then _ else _) (.entered slot) _
          split
          · exact ⟨Or.inr rfl, fun _ _ => rfl⟩
          refine ⟨trivial, fun _ _ => ?_⟩
          refine (issueless_keeps (gather_issueless slot _ fuel []) _).bindTo fun buffer => ?_
          refine ⟨rfl, fun (result : IoResult) _ => ?_⟩
          cases result with
          | success => rfl
          | pending => exact recheck_issuing slot .send
          | error code =>
              have rest : issuing.Keeps (do
                  sessionOp slot (.storeCancelIoFlag true)
                  let _ ← sessionOp slot (.cancelIoEx .recv)
                  giveBack fuel slot) .outside :=
                ⟨trivial, fun _ _ => ⟨Or.inl rfl, fun _ _ => giveBack_issuing fuel slot .outside⟩⟩
              change issuing.Obeys (if connectionLost code then _ else _) .outside _
              split
              · exact rest
              · exact ⟨Or.inl rfl, fun _ _ => rest⟩

theorem jobs_issuing {workers contents : Nat} {settings : Settings} {thread : Thread workers contents}
    {job : Job} {program : NetProgram Unit} (chosen : jobProgram settings thread job = some program) :
    issuing.Keeps program .outside := by
  refine (jobs_composed chosen).keeps (D := issuing) ?_ ?_
  · intro op outside
    have ignored := issuing_ignores (issueless_of_outside outside) .outside
    exact ⟨ignored.1, fun answer _ => ignored.2 answer⟩
  · intro program block
    cases block with
    | giveBack slot => exact giveBack_issuing settings.fuel slot .outside
    | disconnectReq sessionID => exact disconnectReq_issuing settings.fuel sessionID
    | recvIo slot => exact recvIo_issuing settings.fuel slot
    | sendIo slot => exact sendIo_issuing settings.fuel slot

/-! ## The flag and the cancellations, from the events -/

section Histories

variable {Actor : Type}

/-- The last store to the flag. -/
def flagSet (slot : Slot) : List (Actor × Event interface) -> Bool
  | [] => false
  | (_, ⟨.session target (.storeCancelIoFlag value), _⟩) :: earlier =>
      if target = slot then value else flagSet slot earlier
  | _ :: earlier => flagSet slot earlier

/-- While the flag has been set, `CancelIoEx` was called. -/
def swept (slot : Slot) (direction : Direction) : List (Actor × Event interface) -> Bool
  | [] => false
  | (_, ⟨.session target (.storeCancelIoFlag value), _⟩) :: earlier =>
      if target = slot then value && swept slot direction earlier else swept slot direction earlier
  | (_, ⟨.session target (.cancelIoEx way), _⟩) :: earlier =>
      if target = slot ∧ way = direction then flagSet slot earlier else swept slot direction earlier
  | _ :: earlier => swept slot direction earlier

theorem flagSet_of_swept {slot : Slot} {direction : Direction}
    {history : List (Actor × Event interface)} (cancelled : swept slot direction history = true) :
    flagSet slot history = true := by
  induction history with
  | nil => cases cancelled
  | cons entry earlier inductionHypothesis =>
      rcases entry with ⟨actor, op, answer⟩
      cases op with
      | session target op =>
          cases op with
          | storeCancelIoFlag value =>
              simp only [swept] at cancelled
              simp only [flagSet]
              split at cancelled
              next same =>
                rw [if_pos same]
                exact (Bool.and_eq_true_iff.mp cancelled).1
              next other =>
                rw [if_neg other]
                exact inductionHypothesis cancelled
          | cancelIoEx way =>
              simp only [swept] at cancelled
              split at cancelled
              · exact cancelled
              · exact inductionHypothesis cancelled
          | _ => exact inductionHypothesis cancelled
      | _ => exact inductionHypothesis cancelled

/-- An event of `init` clears the flag. -/
def resets (slot : Slot) : Event interface -> Bool
  | ⟨.session target (.storeCancelIoFlag value), _⟩ => target == slot && !value
  | _ => false

/-- An event issues an operation. -/
def startsIo (slot : Slot) : Event interface -> Bool
  | ⟨.session target (.wsaSend _), _⟩ => target == slot
  | ⟨.session target (.wsaRecv _), _⟩ => target == slot
  | _ => false

/-- The flag stays set until `init`. -/
theorem flagSet_append {slot : Slot} {since earlier : List (Actor × Event interface)}
    (unreset : forall entry, entry ∈ since -> resets slot entry.2 = false)
    (before : flagSet slot earlier = true) : flagSet slot (since ++ earlier) = true := by
  induction since with
  | nil => exact before
  | cons entry since inductionHypothesis =>
      have later := inductionHypothesis fun other member => unreset other (List.mem_cons_of_mem _ member)
      have kept := unreset entry List.mem_cons_self
      rcases entry with ⟨actor, op, answer⟩
      cases op with
      | session target op =>
          cases op with
          | storeCancelIoFlag value =>
              simp only [List.cons_append, flagSet]
              split
              next same => simpa [resets, same] using kept
              next => exact later
          | _ => exact later
      | _ => exact later

theorem swept_append {slot : Slot} {direction : Direction}
    {since earlier : List (Actor × Event interface)}
    (unreset : forall entry, entry ∈ since -> resets slot entry.2 = false)
    (before : swept slot direction earlier = true) : swept slot direction (since ++ earlier) = true := by
  induction since with
  | nil => exact before
  | cons entry since inductionHypothesis =>
      have later := inductionHypothesis fun other member => unreset other (List.mem_cons_of_mem _ member)
      have kept := unreset entry List.mem_cons_self
      rcases entry with ⟨actor, op, answer⟩
      cases op with
      | session target op =>
          cases op with
          | storeCancelIoFlag value =>
              simp only [List.cons_append, swept]
              split
              next same =>
                rw [later, Bool.and_true]
                simpa [resets, same] using kept
              next => exact later
          | cancelIoEx way =>
              simp only [List.cons_append, swept]
              split
              · exact flagSet_of_swept later
              · exact later
          | _ => exact later
      | _ => exact later

/-- A thread has set the flag and then cancelled. -/
theorem swept_of_sublist {slot : Slot} {direction : Direction} {actor : Actor}
    {since earlier : List (Actor × Event interface)}
    (unreset : forall entry, entry ∈ since -> resets slot entry.2 = false) {answer : Bool}
    (order : [(actor, ⟨.session slot (.cancelIoEx direction), answer⟩),
      (actor, ⟨.session slot (.storeCancelIoFlag true), ()⟩)].Sublist since) :
    swept slot direction (since ++ earlier) = true := by
  rcases List.cons_sublist_iff.mp order with ⟨after, before, rfl, cancels, stores⟩
  rcases List.append_of_mem cancels with ⟨latest, middle, rfl⟩
  rcases List.append_of_mem (List.singleton_sublist.mp stores) with ⟨last, first, rfl⟩
  have set : flagSet slot (((actor, ⟨.session slot (.storeCancelIoFlag true), ()⟩) ::
      (first ++ earlier) : List (Actor × Event interface))) = true := by
    simp [flagSet]
  have unresetLast : forall entry, entry ∈ middle ++ last -> resets slot entry.2 = false := by
    intro entry member
    apply unreset
    rcases List.mem_append.mp member with inMiddle | inLast
    · simp [inMiddle]
    · simp [inLast]
  have cancelled : swept slot direction (((actor, ⟨.session slot (.cancelIoEx direction), answer⟩) ::
      ((middle ++ last) ++ (actor, ⟨.session slot (.storeCancelIoFlag true), ()⟩) ::
        (first ++ earlier)) : List (Actor × Event interface))) = true := by
    simp only [swept, and_self, if_true]
    exact flagSet_append unresetLast set
  have unresetLatest : forall entry, entry ∈ latest -> resets slot entry.2 = false :=
    fun entry member => unreset entry (by simp [member])
  have whole := swept_append unresetLatest cancelled
  simpa using whole

end Histories

/-! ## Uncancelled operations -/

/-- Whether an operation is outstanding and not cancelled. -/
def Session.uncancelled (s : Session) : Direction -> Bool
  | .send => s.pendingSends.any fun pending => !pending.finished && !pending.cancelled
  | .recv => s.pendingRecvs.any fun pending => !pending.finished && !pending.cancelled

theorem Session.uncancelled_cancel (s : Session) (direction : Direction) :
    (s.cancel direction).uncancelled direction = false := by
  cases direction with
  | send =>
      simp only [Session.cancel, Session.uncancelled, List.any_map, List.any_eq_false]
      intro pending _
      cases finished : pending.finished <;> simp [PendingSend.cancellable, finished]
  | recv =>
      simp only [Session.cancel, Session.uncancelled, List.any_map, List.any_eq_false]
      intro pending _
      cases finished : pending.finished <;> simp [PendingRecv.cancellable, finished]

theorem Session.uncancelled_cancel_other (s : Session) {direction other : Direction}
    (different : other ≠ direction) : (s.cancel direction).uncancelled other = s.uncancelled other := by
  cases direction <;> cases other <;> first | rfl | exact absurd rfl different

/-- What is outstanding and not cancelled after an operation was issued by it, or
was there before and the operation did not cancel it. -/
theorem performSession_uncancelled {choice : Choice} {s s' : Session} {op : SessionOp}
    {answer : op.Answer} (performed : performSession choice s op = some (answer, s'))
    {slot : Slot} {direction : Direction} (left : s'.uncancelled direction = true) :
    (forall stage, IoStage.track stage ⟨.session slot op, answer⟩ = .issued slot direction) ∨
      s.uncancelled direction = true ∧ op ≠ .cancelIoEx direction := by
  cases op with
  | cancelIoEx way =>
      cases performed
      by_cases same : way = direction
      · subst same
        rw [Session.uncancelled_cancel] at left
        cases left
      · rw [s.uncancelled_cancel_other (Ne.symm same)] at left
        refine Or.inr ⟨left, fun equal => same ?_⟩
        cases equal
        rfl
  | wsaSend batch =>
      simp only [performSession] at performed
      split at performed <;> cases performed
      · exact Or.inr ⟨left, by simp⟩
      · cases direction with
        | send => exact Or.inl fun _ => rfl
        | recv => exact Or.inr ⟨left, by simp⟩
      · refine Or.inr ⟨?_, by simp⟩
        cases direction with
        | send => simpa [Session.uncancelled] using left
        | recv => exact left
  | wsaRecv buffers =>
      simp only [performSession] at performed
      split at performed <;> cases performed
      · exact Or.inr ⟨left, by simp⟩
      · cases direction with
        | send => exact Or.inr ⟨left, by simp⟩
        | recv => exact Or.inl fun _ => rfl
      · refine Or.inr ⟨?_, by simp⟩
        cases direction with
        | send => exact left
        | recv => simpa [Session.uncancelled] using left
  | allocNode =>
      simp only [performSession] at performed
      split at performed <;> cases performed <;> exact Or.inr ⟨by cases direction <;> exact left, by simp⟩
  | pushSended packet =>
      simp only [performSession] at performed
      split at performed <;> cases performed <;> exact Or.inr ⟨by cases direction <;> exact left, by simp⟩
  | unlinkNode =>
      rcases Option.map_eq_some_iff.mp performed with ⟨result, _, same⟩
      cases same
      exact Or.inr ⟨by cases direction <;> exact left, by simp⟩
  | compareExchangeIo =>
      simp only [performSession] at performed
      cases performed
      split at left <;> exact Or.inr ⟨by cases direction <;> exact left, by simp⟩
  | _ =>
      cases performed
      exact Or.inr ⟨by cases direction <;> exact left, by simp⟩

theorem perform_uncancelled {choice : Choice} {state state' : State} {op : Op} {answer : op.Answer}
    (performed : perform choice state op = some (answer, state')) {slot : Slot} {direction : Direction}
    (left : (state'.sessionArray slot).uncancelled direction = true) :
    (forall stage, IoStage.track stage ⟨op, answer⟩ = .issued slot direction) ∨
      (state.sessionArray slot).uncancelled direction = true ∧
        op ≠ .session slot (.cancelIoEx direction) := by
  cases op with
  | session target op =>
      rcases perform_session performed with ⟨s', inner, rfl⟩
      by_cases same : slot = target
      · subst same
        rw [State.setSession_same] at left
        rcases performSession_uncancelled inner left with issued | ⟨before, other⟩
        · exact Or.inl issued
        · refine Or.inr ⟨before, fun equal => other ?_⟩
          cases equal
          rfl
      · rw [State.setSession_other state s' same] at left
        refine Or.inr ⟨left, fun equal => same ?_⟩
        cases equal
        rfl
  | _ =>
      have kept := (perform_sameBut performed).sessionArray (by simp [Op.component])
      rw [kept] at left
      exact Or.inr ⟨left, by simp⟩

/-- Completions only take operations away. -/
theorem surround_uncancelled {state state' : State} {change : Surroundings}
    (changed : surround state change = some state') {slot : Slot} {direction : Direction}
    (left : (state'.sessionArray slot).uncancelled direction = true) :
    (state.sessionArray slot).uncancelled direction = true := by
  have fewer (target : Slot) (s : Session)
      (sends : s.pendingSends.Sublist (state.sessionArray target).pendingSends)
      (recvs : s.pendingRecvs.Sublist (state.sessionArray target).pendingRecvs)
      (still : ((state.setSession target s).sessionArray slot).uncancelled direction = true) :
      (state.sessionArray slot).uncancelled direction = true := by
    by_cases same : slot = target
    · subst same
      rw [State.setSession_same] at still
      cases direction with
      | send =>
          rcases List.any_eq_true.mp still with ⟨pending, member, open_⟩
          exact List.any_eq_true.mpr ⟨pending, sends.subset member, open_⟩
      | recv =>
          rcases List.any_eq_true.mp still with ⟨pending, member, open_⟩
          exact List.any_eq_true.mpr ⟨pending, recvs.subset member, open_⟩
    · rw [State.setSession_other state s same] at still
      exact still
  cases change with
  | completeSend target position success transfer =>
      simp only [surround] at changed
      split at changed
      next => cases changed
      next =>
        split at changed <;> cases changed
        exact fewer target { state.sessionArray target with
          pendingSends := (state.sessionArray target).pendingSends.eraseIdx position }
          (List.eraseIdx_sublist _ _) (List.Sublist.refl _) left
  | completeRecv target position success data =>
      simp only [surround] at changed
      split at changed
      next => cases changed
      next pending found =>
        split at changed <;> cases changed
        let s := state.sessionArray target
        exact fewer target { s with
          pendingRecvs := s.pendingRecvs.eraseIdx position
          recvBuffer := { s.recvBuffer with
            buffer := fill s.recvBuffer.buffer pending.buffers data } }
          (List.Sublist.refl _) (List.eraseIdx_sublist _ _) left
  | tick count =>
      simp only [surround] at changed
      split at changed <;> cases changed
      exact left

/-- Only stores change the flag. -/
theorem perform_cancelIoFlag {choice : Choice} {state state' : State} {op : Op} {answer : op.Answer}
    (performed : perform choice state op = some (answer, state')) {Actor : Type} {actor : Actor}
    {history : List (Actor × Event interface)} {slot : Slot}
    (before : (state.sessionArray slot).cancelIoFlag = flagSet slot history) :
    (state'.sessionArray slot).cancelIoFlag = flagSet slot ((actor, ⟨op, answer⟩) :: history) := by
  cases op with
  | session target op =>
      rcases perform_session performed with ⟨s', inner, rfl⟩
      by_cases same : slot = target
      · subst same
        rw [State.setSession_same]
        cases op with
        | storeCancelIoFlag value =>
            cases inner
            simp [flagSet]
        | cancelIoEx way =>
            cases inner
            cases way <;> exact before
        | compareExchangeIo =>
            cases inner
            split <;> exact before
        | wsaSend batch =>
            simp only [performSession] at inner
            split at inner <;> cases inner <;> exact before
        | wsaRecv buffers =>
            simp only [performSession] at inner
            split at inner <;> cases inner <;> exact before
        | allocNode =>
            simp only [performSession] at inner
            split at inner <;> cases inner <;> exact before
        | pushSended packet =>
            simp only [performSession] at inner
            split at inner <;> cases inner <;> exact before
        | unlinkNode =>
            rcases Option.map_eq_some_iff.mp inner with ⟨result, _, equal⟩
            cases equal
            exact before
        | _ =>
            cases inner
            exact before
      · rw [State.setSession_other state s' same, before]
        cases op with
        | storeCancelIoFlag value => simp [flagSet, Ne.symm same]
        | _ => rfl
  | _ =>
      rw [(perform_sameBut performed).sessionArray (by simp [Op.component])]
      exact before

/-! ## Runs -/

section Runs

variable {workers contents : Nat} {settings : Settings}

/-- What is outstanding and not cancelled after the flag was set and `CancelIoEx`
called will still be cancelled by its thread. -/
structure Caught (state : State) (ghosts : Thread workers contents -> IoStage)
    (history : List (Thread workers contents × Event interface)) : Prop where
  flag : forall slot, (state.sessionArray slot).cancelIoFlag = flagSet slot history
  rechecked : forall slot direction, swept slot direction history = true ->
    (state.sessionArray slot).uncancelled direction = true ->
      Exists fun thread => (ghosts thread).rechecks slot direction

/-- A thread that is to check again, or to cancel, stays so until it cancels. -/
theorem rechecks_track {choice : Choice} {state state' : State} {op : Op} {answer : op.Answer}
    (performed : perform choice state op = some (answer, state')) {stage : IoStage}
    (permitted : issuing.permits stage op) {slot : Slot} {direction : Direction}
    (rechecks : stage.rechecks slot direction)
    (set : (state.sessionArray slot).cancelIoFlag = true)
    (cancelless : op ≠ .session slot (.cancelIoEx direction)) :
    (stage.track ⟨op, answer⟩).rechecks slot direction := by
  cases op with
  | session target op =>
      rcases perform_session performed with ⟨s', inner, _⟩
      cases op with
      | loadCancelIoFlag =>
          rcases rechecks with rfl | rfl
          · rcases permitted with impossible | ⟨way, same⟩
            · cases impossible
            · cases same
              cases inner
              refine Or.inr ?_
              simp only [IoStage.track, IoStage.afterCheck, set, if_true]
          · rcases permitted with impossible | ⟨way, impossible⟩ <;> cases impossible
      | wsaSend batch => rcases rechecks with rfl | rfl <;> cases permitted
      | wsaRecv buffers => rcases rechecks with rfl | rfl <;> cases permitted
      | cancelIoEx way =>
          rcases rechecks with rfl | rfl
          · rcases permitted with impossible | impossible <;> cases impossible
          · rcases permitted with impossible | same
            · cases impossible
            · cases same
              exact absurd rfl cancelless
      | exchangeSendFlag value =>
          rcases rechecks with rfl | rfl <;> rcases permitted with impossible | impossible <;>
            cases impossible
      | _ => exact rechecks
  | _ => exact rechecks

/-- Only a cancellation, while the flag is set, makes a direction swept. -/
theorem swept_before {Actor : Type} {actor : Actor} {op : Op} {answer : op.Answer}
    {history : List (Actor × Event interface)} {slot : Slot} {direction : Direction}
    (after : swept slot direction ((actor, ⟨op, answer⟩) :: history) = true)
    (cancelless : op ≠ .session slot (.cancelIoEx direction)) :
    swept slot direction history = true := by
  cases op with
  | session target op =>
      cases op with
      | storeCancelIoFlag value =>
          simp only [swept] at after
          split at after
          · exact (Bool.and_eq_true_iff.mp after).2
          · exact after
      | cancelIoEx way =>
          simp only [swept] at after
          rw [if_neg] at after
          · exact after
          · rintro ⟨rfl, rfl⟩
            exact cancelless rfl
      | _ => exact after
  | _ => exact after

theorem caught_preserved (rule : (server settings workers contents).Rule) :
    issuing.Preserved (server settings workers contents) rule Caught where
  initial := ⟨fun _ => rfl, nofun⟩
  act := by
    intro c thread op next choice answer state reach turn caught permitted performed _
    refine ⟨trivial, fun slot => perform_cancelIoFlag performed (caught.flag slot), ?_⟩
    intro slot direction after left
    rcases perform_uncancelled performed left with issued | ⟨before, cancelless⟩
    · refine ⟨thread, Or.inl ?_⟩
      rw [Function.update_self]
      exact issued _
    · have earlier := swept_before after cancelless
      rcases caught.rechecked slot direction earlier before with ⟨other, rechecks⟩
      refine ⟨other, ?_⟩
      by_cases same : other = thread
      · subst same
        rw [Function.update_self]
        have set := (caught.flag slot).trans (flagSet_of_swept earlier)
        exact rechecks_track performed permitted rechecks set cancelless
      · rw [Function.update_of_ne same]
        exact rechecks
  takeUp := by
    intro state ghosts history thread caught finished
    have same : Function.update ghosts thread issuing.start = ghosts := by
      rw [show issuing.start = ghosts thread from finished.symm]
      exact Function.update_eq_self _ _
    rw [same]
    exact caught
  surround := by
    intro state ghosts history change state' caught changed
    refine ⟨fun slot => ?_, fun slot direction cancelled left =>
      caught.rechecked slot direction cancelled (surround_uncancelled changed left)⟩
    rw [((surround_sameFields changed).1 slot).cancelIoFlag]
    exact caught.flag slot

/-- While the flag of a session is set, a thread outside its `recvIO` and `sendIO` does
not get in. -/
theorem track_outside {choice : Choice} {state state' : State} {op : Op} {answer : op.Answer}
    (performed : perform choice state op = some (answer, state')) {stage : IoStage}
    (permitted : issuing.permits stage op) {slot : Slot}
    (set : (state.sessionArray slot).cancelIoFlag = true) (outside : stage.inside ≠ some slot) :
    startsIo slot ⟨op, answer⟩ = false ∧ (stage.track ⟨op, answer⟩).inside ≠ some slot := by
  cases op with
  | session target op =>
      rcases perform_session performed with ⟨s', inner, _⟩
      cases op with
      | loadCancelIoFlag =>
          refine ⟨rfl, ?_⟩
          cases inner
          simp only [IoStage.track, IoStage.afterCheck]
          rcases permitted with rfl | ⟨way, rfl⟩
          · dsimp only
            split
            · rw [IoStage.inside_outside]
              simp
            next clear =>
              intro same
              cases same
              exact clear set
          · dsimp only
            split
            · exact outside
            · rw [IoStage.inside_outside]
              simp
      | wsaSend batch =>
          have entered : stage = .entered target := permitted
          subst entered
          have other : target ≠ slot := fun same => outside (congrArg some same)
          refine ⟨beq_false_of_ne other, ?_⟩
          cases answer with
          | pending => exact outside
          | _ => exact nofun
      | wsaRecv buffers =>
          have entered : stage = .entered target := permitted
          subst entered
          have other : target ≠ slot := fun same => outside (congrArg some same)
          refine ⟨beq_false_of_ne other, ?_⟩
          cases answer with
          | pending => exact outside
          | _ => exact nofun
      | cancelIoEx way => exact ⟨rfl, nofun⟩
      | exchangeSendFlag value =>
          refine ⟨rfl, ?_⟩
          simp only [IoStage.track]
          split
          · exact outside
          · exact nofun
      | _ => exact ⟨rfl, outside⟩
  | _ => exact ⟨rfl, outside⟩

/-- The session in whose `recvIO` or `sendIO` a thread is. -/
def insideIo (c : (server settings workers contents).Config) (thread : Thread workers contents) :
    Option Slot := (issuing.ghosts c thread).inside

/-- Once the flag is set and nobody is in `recvIO` or `sendIO`, nothing is issued
until the slot is initialised again. -/
theorem silent_afterwards {c c' : (server settings workers contents).Config}
    (reach : (server settings workers contents).Reach (Machine.anyEvent _) c) {slot : Slot}
    (set : flagSet slot c.history = true) (nobody : forall thread, insideIo c thread ≠ some slot)
    (run : Machine.Run (Machine.anyEvent _) c c') :
    Exists fun since => c'.history = since ++ c.history ∧
      ((forall entry, entry ∈ since -> resets slot entry.2 = false) ->
        (forall entry, entry ∈ since -> startsIo slot entry.2 = false) ∧
        flagSet slot c'.history = true ∧ forall thread, insideIo c' thread ≠ some slot) := by
  induction run with
  | refl => exact ⟨[], rfl, fun _ => ⟨by simp, set, nobody⟩⟩
  | @tail b c' run step inductionHypothesis =>
      have sound := Discipline.sound (caught_preserved _) (fun _ _ _ => jobs_issuing) (reach.run run)
      rcases inductionHypothesis with ⟨since, history, silent⟩
      cases step with
      | takeUp thread job program idle chosen =>
          refine ⟨since, history, fun unreset => ?_⟩
          rcases silent unreset with ⟨quiet, still, outside⟩
          refine ⟨quiet, still, fun other => ?_⟩
          unfold insideIo
          rw [Discipline.ghosts_takeUp, Function.update_apply]
          split
          · exact nofun
          · exact outside other
      | act thread choice op next answer state turn performed lawful =>
          refine ⟨(thread, ⟨op, answer⟩) :: since, by rw [Machine.Config.record, history]; rfl, ?_⟩
          intro unreset
          rcases silent fun entry member => unreset entry (List.mem_cons_of_mem _ member) with
            ⟨quiet, still, outside⟩
          have permitted := sound.2 thread
          rw [turn] at permitted
          have flag := (sound.1.flag slot).trans still
          have after := track_outside performed permitted.1 flag (outside thread)
          refine ⟨?_, ?_, fun other => ?_⟩
          · intro entry member
            rcases List.mem_cons.mp member with rfl | before
            · exact after.1
            · exact quiet entry before
          · have latest : forall entry, entry ∈ [(thread, ⟨op, answer⟩)] -> resets slot entry.2 = false :=
              fun entry member => unreset entry (by simp_all)
            exact flagSet_append latest still
          · unfold insideIo
            rw [Discipline.ghosts_record, Function.update_apply]
            split
            · exact after.2
            · exact outside other
      | surround change state changed => exact ⟨since, history, silent⟩

/-! ## Calls of `disconnectReq` -/

/-- Operations that do not set a flag. -/
def storeless (op : Op) : Prop := forall slot, op ≠ .session slot (.storeCancelIoFlag true)

theorem giveBack_storeless (fuel : Nat) (slot : Slot) : (giveBack fuel slot).Uses storeless := by
  refine (giveBack_closes fuel slot).mono fun op closes target same => ?_
  rw [same] at closes
  cases closes

/-- A call that sets a flag then cancels both ways. -/
theorem disconnectReq_runs {fuel : Nat} {sessionID : SessionID} {slot : Slot}
    {events : List (Event interface)} (run : (disconnectReq fuel sessionID).Runs events ())
    (found : (⟨.session slot (.storeCancelIoFlag true), ()⟩ : Event interface) ∈ events)
    (direction : Direction) : Exists fun answer : Bool =>
      [(⟨.session slot (.storeCancelIoFlag true), ()⟩ : Event interface),
        ⟨.session slot (.cancelIoEx direction), answer⟩].Sublist events := by
  have lookup : (findSession fuel sessionID).Uses storeless := by
    refine (findSession_routine sessionID).uses ?_ fun slot => giveBack_storeless fuel slot
    intro op between target same
    rw [same] at between
    cases between
  rcases (Program.runs_bind_iff _ _ _ _).mp run with ⟨first, second, value, rfl, finds, rest⟩
  have later : (⟨.session slot (.storeCancelIoFlag true), ()⟩ : Event interface) ∈ second := by
    rcases List.mem_append.mp found with early | late
    · exact absurd rfl (lookup.runs finds _ early slot)
    · exact late
  cases value with
  | none =>
      cases rest
      cases later
  | some target =>
      rcases (Program.runs_step_iff _ _ _ _).mp rest with ⟨_, _, rfl, afterStore⟩
      rcases (Program.runs_step_iff _ _ _ _).mp afterStore with ⟨recv, _, rfl, afterRecv⟩
      rcases (Program.runs_step_iff _ _ _ _).mp afterRecv with ⟨send, _, rfl, afterSend⟩
      have here : target = slot := by
        rcases List.mem_cons.mp later with same | later
        · cases same
          rfl
        rcases List.mem_cons.mp later with same | later
        · cases same
        rcases List.mem_cons.mp later with same | later
        · cases same
        exact absurd rfl ((giveBack_storeless fuel target).runs afterSend _ later slot)
      subst here
      cases direction with
      | recv =>
          refine ⟨recv, List.Sublist.trans ?_ (List.sublist_append_right _ _)⟩
          exact .cons_cons _ (.cons_cons _ (List.nil_sublist _))
      | send =>
          refine ⟨send, List.Sublist.trans ?_ (List.sublist_append_right _ _)⟩
          exact .cons_cons _ (.cons _ (.cons_cons _ (List.nil_sublist _)))

/-- A thread has gone through a call of `disconnectReq` that found the session, and
the slot has not been initialised since. -/
structure DisconnectCall (c : (server settings workers contents).Config)
    (thread : Thread workers contents) (sessionID : SessionID) (slot : Slot) where
  events : List (Event interface)
  returned : (disconnectReq settings.fuel sessionID).Runs events ()
  found : (⟨.session slot (.storeCancelIoFlag true), ()⟩ : Event interface) ∈ events
  since : List (Thread workers contents × Event interface)
  earlier : List (Thread workers contents × Event interface)
  history : c.history = since ++ earlier
  called : (events.map fun event => (thread, event)).reverse.Sublist since
  unreset : forall entry, entry ∈ since -> resets slot entry.2 = false

theorem DisconnectCall.swept {c : (server settings workers contents).Config}
    {thread : Thread workers contents} {sessionID : SessionID} {slot : Slot}
    (call : DisconnectCall c thread sessionID slot) (direction : Direction) :
    swept slot direction c.history = true := by
  rcases disconnectReq_runs call.returned call.found direction with ⟨answer, order⟩
  rw [call.history]
  have inOrder := (order.map fun event => (thread, event)).reverse
  exact swept_of_sublist call.unreset (inOrder.trans call.called)

/-- When `disconnectReq` has returned and nobody is in `recvIO` or `sendIO` of the session, all
its outstanding operations are cancelled, and none is issued from then on, until the slot is
given to a new client.  No rule restricts the runs: the other threads may connect, receive, send
and disconnect in between as they like. -/
theorem disconnectReq_missesNothing {c : (server settings workers contents).Config}
    (reach : (server settings workers contents).Reach (Machine.anyEvent _) c)
    {thread : Thread workers contents} {sessionID : SessionID} {slot : Slot}
    (call : DisconnectCall c thread sessionID slot)
    (nobody : forall other, insideIo c other ≠ some slot) :
    (forall direction, (c.state.sessionArray slot).uncancelled direction = false) ∧
      forall c', Machine.Run (Machine.anyEvent _) c c' -> Exists fun since =>
        c'.history = since ++ c.history ∧
          ((forall entry, entry ∈ since -> resets slot entry.2 = false) ->
            forall entry, entry ∈ since -> startsIo slot entry.2 = false) := by
  have caught := (Discipline.sound (caught_preserved _) (fun _ _ _ => jobs_issuing) reach).1
  constructor
  · intro direction
    by_contra left
    rcases caught.rechecked slot direction (call.swept direction) (Bool.eq_true_of_not_eq_false left)
      with ⟨other, issued | cancelling⟩
    · exact nobody other (congrArg IoStage.inside issued)
    · exact nobody other (congrArg IoStage.inside cancelling)
  · intro c' run
    have set := flagSet_of_swept (call.swept .recv)
    rcases silent_afterwards reach set nobody run with ⟨since, history, silent⟩
    exact ⟨since, history, fun unreset => (silent unreset).1⟩

/-- The events of a call on the only session, which it finds. -/
theorem disconnectReq_alone (choice : Choice) (state : State)
    (named : (state.sessionArray 0).id = 0) (alive : (state.sessionArray 0).ioCount = ⟨false, 1⟩) :
    Machine.Alone (server oneSession 1 1) (.content 0) choice (disconnectReq oneSession.fuel 0) state
      fun _ _ events => (⟨.session 0 (.storeCancelIoFlag true), ()⟩ : Event interface) ∈ events ∧
        forall event, event ∈ events -> resets 0 event = false := by
  refine ⟨((), state), rfl, ⟨_, rfl, ?_⟩⟩
  have held : (state.sessionArray (getIndex 0)).ioCount.increment = ⟨false, 2⟩ :=
    congrArg IoCount.increment alive
  have same : (state.sessionArray (getIndex 0)).id = 0 := named
  dsimp only
  rw [held]
  refine ⟨_, rfl, ?_⟩
  simp only [State.setSession_same, same, Program.bind]
  rw [if_neg (not_not_intro rfl)]
  refine ⟨_, rfl, ⟨_, rfl, ⟨_, rfl, ⟨_, rfl, ?_⟩⟩⟩⟩
  change Machine.Alone _ _ _ (.done ()) _ _
  refine ⟨by simp [getIndex], ?_⟩
  simp [resets]

/-- A call of `disconnectReq` for a client that has been accepted. -/
theorem disconnectReq_missesNothing_oneClient : Exists fun c : (server oneSession 1 1).Config =>
    Nonempty (DisconnectCall c (.content 0) 0 0) ∧ (forall other, insideIo c other ≠ some 0) ∧
      forall direction, (c.state.sessionArray 0).uncancelled direction = false := by
  have accepted : Exists fun c => (server oneSession 1 1).Reach (Machine.anyEvent _) c ∧
      ((c.running .accept).isDone && (c.running (.worker 0)).isDone && (c.running .timeout).isDone &&
        (c.running (.content 0)).isDone && (c.state.sessionArray 0).id == 0 &&
        (c.state.sessionArray 0).ioCount == ⟨false, 1⟩) = true :=
    Machine.exists_of_runSchedule ([.takeUp .accept Job.loop] ++ acts .accept 25 usual) _
      (by decide +kernel)
  rcases accepted with ⟨c, reach, found⟩
  simp only [Bool.and_eq_true, beq_iff_eq, Program.isDone_iff] at found
  rcases found with ⟨⟨⟨⟨⟨accept, worker⟩, timeout⟩, content⟩, named⟩, alive⟩
  have started := reach.step (Machine.Step.takeUp (.content 0) (Job.call (.disconnectReq 0)) _ content rfl)
  have alone := (disconnectReq_alone usual c.state named alive).runs
  have turn : (c.takeUp (Thread.content 0) ((ContentCall.disconnectReq 0).program oneSession.fuel)).running
      (.content 0) = disconnectReq oneSession.fuel 0 := by
    simp only [Machine.Config.takeUp, Function.update_self]
    rfl
  rcases Machine.reach_alone started (by rw [turn]; exact alone) with
    ⟨c', reach', finished, others, events, ⟨returned, called, unreset⟩, history⟩
  have call : DisconnectCall c' (.content 0) 0 0 :=
    { events := events, returned := returned, found := called
      since := (events.map fun event => (Thread.content 0, event)).reverse
      earlier := c.history, history := history, called := .refl _
      unreset := by
        intro entry member
        rcases List.mem_map.mp (List.mem_reverse.mp member) with ⟨event, there, rfl⟩
        exact unreset event there }
  have idle : forall other, c'.running other = .done () := by
    intro other
    cases other with
    | content index =>
        rw [Subsingleton.elim index 0]
        exact finished
    | worker index =>
        rw [Subsingleton.elim index 0, others (.worker 0) (by simp)]
        simpa [Machine.Config.takeUp] using worker
    | accept =>
        rw [others .accept (by simp)]
        simpa [Machine.Config.takeUp] using accept
    | timeout =>
        rw [others .timeout (by simp)]
        simpa [Machine.Config.takeUp] using timeout
  have nobody : forall other, insideIo c' other ≠ some 0 := by
    intro other
    have outside := (Discipline.sound (caught_preserved _) (fun _ _ _ => jobs_issuing) reach').2 other
    rw [idle other] at outside
    have stage : issuing.ghosts c' other = .outside := outside
    unfold insideIo
    rw [stage, IoStage.inside_outside]
    simp
  exact ⟨c', ⟨call⟩, nobody, (disconnectReq_missesNothing reach' call nobody).1⟩

end Runs

end Network
end LoginServer
