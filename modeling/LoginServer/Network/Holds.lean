import LoginServer.Concurrency.Discipline
import LoginServer.Concurrency.Tally
import LoginServer.Network.Quiet

namespace LoginServer
namespace Network

open Memory Buffers Receiving Login Concurrency

/-!
# The accounting of holds

`IOcount` is raised in more places than it is lowered, because a hold can
change hands: a thread that starts an I/O operation or posts a request leaves
a hold with the kernel, and the thread that dequeues the completion has it
then.  `holdChange` says of every event whether its thread gains or loses a
hold, and the holds a thread owes are those of its job so far.

Two paths forget their hold.  When `recved` refuses a completion, or `sended`
answers -1 to one, the worker goes on to the next round without giving
anything back.  `refusals` tells whether runs with such completions are
considered.
-/

/-- The operation is under way. -/
def IoResult.started : IoResult -> Bool
  | .success => true
  | .pending => true
  | .error _ => false

/-- The session on which the thread of an event gains (`true`) or loses
(`false`) a hold. -/
def holdChange : Event interface -> Option (Slot × Bool)
  | ⟨.session slot .incrementIo, _⟩ => some (slot, true)
  | ⟨.session slot .decrementIo, _⟩ => some (slot, false)
  | ⟨.session slot (.wsaSend _), result⟩ =>
      if IoResult.started result then some (slot, false) else none
  | ⟨.session slot (.wsaRecv _), result⟩ =>
      if IoResult.started result then some (slot, false) else none
  | ⟨.getQueuedCompletionStatus, completion⟩ => some (Completion.slot completion, true)
  | ⟨.postQueuedCompletionStatus slot _, _⟩ => some (slot, false)
  | _ => none

/-- Holds owed, by session. -/
abbrev Owed := Slot -> Nat

def nothingOwed : Owed := fun _ => 0

def Owed.add (owed : Owed) (slot : Slot) : Owed := Function.update owed slot (owed slot + 1)

def Owed.remove (owed : Owed) (slot : Slot) : Owed := Function.update owed slot (owed slot - 1)

def Owed.track (owed : Owed) (event : Event interface) : Owed :=
  match holdChange event with
  | some (slot, true) => owed.add slot
  | some (slot, false) => owed.remove slot
  | none => owed

theorem Owed.track_neutral {owed : Owed} {event : Event interface} (unrelated : holdChange event = none) :
    owed.track event = owed := by
  simp only [Owed.track, unrelated]

theorem Owed.track_gain {owed : Owed} {event : Event interface} {slot : Slot}
    (gains : holdChange event = some (slot, true)) : owed.track event = owed.add slot := by
  simp only [Owed.track, gains]

theorem Owed.track_loss {owed : Owed} {event : Event interface} {slot : Slot}
    (loses : holdChange event = some (slot, false)) : owed.track event = owed.remove slot := by
  simp only [Owed.track, loses]

theorem Owed.remove_add (owed : Owed) (slot : Slot) : (owed.add slot).remove slot = owed := by
  funext other
  by_cases same : other = slot
  · subst same
    simp [Owed.add, Owed.remove]
  · simp [Owed.add, Owed.remove, same]

@[simp] theorem Owed.add_same (owed : Owed) (slot : Slot) : owed.add slot slot = owed slot + 1 := by
  simp [Owed.add]

/-- Operations that need a hold to give away. -/
def needsHold : Op -> Option Slot
  | .session slot .decrementIo => some slot
  | .session slot (.wsaSend _) => some slot
  | .session slot (.wsaRecv _) => some slot
  | .postQueuedCompletionStatus slot _ => some slot
  | _ => none

/-- `recved` is called for completions that transfer something. -/
def transfers : Op -> Bool
  | .session _ (.recved transfer) => transfer != 0
  | _ => true

/-- Whether an event is `recved` refusing a completion, or the worker leaving one
that `sended` answered -1 to. -/
def refuses : Event interface -> Bool
  | ⟨.session _ (.recved _), accepted⟩ => !accepted
  | ⟨.mark (.sendedFailed _), _⟩ => true
  | _ => false

/-- Holds are given away only by a thread that has one.  Unless completions may
be refused, nothing is owed at the end of a job. -/
def holds (refusals : Bool) : Discipline interface where
  Ghost := Owed
  start := nothingOwed
  track := Owed.track
  permits := fun owed op =>
    transfers op = true ∧ forall slot, needsHold op = some slot -> 1 ≤ owed slot
  expects := fun _ event => refusals = false -> refuses event = false
  finish := fun owed => refusals = false -> owed = nothingOwed
  finish_start := fun _ => rfl

/-! ## Operations -/

/-- Holds in the kernel's keeping: outstanding operations, and completions and
requests in the port. -/
def State.kernelHolds (state : State) (slot : Slot) : Nat :=
  (state.sessionArray slot).pendingRecvs.length + (state.sessionArray slot).pendingSends.length +
    state.port.countP fun completion => completion.slot == slot

/-- The count without the top bit. -/
def State.refs (state : State) (slot : Slot) : Nat := (state.sessionArray slot).ioCount.refs

/-- Holds not in the kernel's keeping. -/
def State.balance (state : State) (slot : Slot) : Int := state.refs slot - state.kernelHolds slot

/-- The change of balance that goes with a change of holds. -/
def balanceChange (change : Option (Slot × Bool)) (slot : Slot) : Int :=
  match change with
  | some (target, true) => if slot = target then 1 else 0
  | some (target, false) => if slot = target then -1 else 0
  | none => 0

theorem holdChange_quiet {op : Op} (quiet : op.quiet = true) (answer : op.Answer) :
    holdChange ⟨op, answer⟩ = none := by
  cases op with
  | session slot op => cases op <;> first | rfl | exact Bool.noConfusion quiet
  | _ => first | rfl | exact Bool.noConfusion quiet

theorem balance_untouched {state state' : State} (untouched : state.Untouched state') (slot : Slot) :
    state'.balance slot = state.balance slot := by
  have session := untouched.session slot
  simp only [State.balance, State.refs, State.kernelHolds, session.ioCount, session.pendingSends,
    session.pendingRecvs, untouched.port]

/-- The balance after a change to one session. -/
theorem balance_setSession (state : State) (slot other : Slot) (s : Session) :
    (state.setSession slot s).balance other =
      if other = slot then state.balance other + (s.ioCount.refs - (state.sessionArray slot).ioCount.refs) -
          (s.pendingRecvs.length - (state.sessionArray slot).pendingRecvs.length) -
          (s.pendingSends.length - (state.sessionArray slot).pendingSends.length)
      else state.balance other := by
  split
  next same =>
    subst same
    simp only [State.balance, State.refs, State.kernelHolds, State.setSession_same]
    simp only [State.setSession]
    omega
  next different =>
    simp only [State.balance, State.refs, State.kernelHolds,
      State.setSession_other state s different]
    rfl

/-- Every operation changes the balance as it changes the holds of its thread. -/
theorem perform_balance {choice : Choice} {state state' : State} {op : Op} {answer : op.Answer}
    (performed : perform choice state op = some (answer, state'))
    (enough : forall slot, op = .session slot .decrementIo -> 1 ≤ state.refs slot) (slot : Slot) :
    state'.balance slot = state.balance slot + balanceChange (holdChange ⟨op, answer⟩) slot := by
  by_cases quiet : op.quiet = true
  · rw [balance_untouched (perform_quiet quiet performed), holdChange_quiet quiet]
    simp [balanceChange]
  · cases op with
    | session target op =>
        rcases perform_session performed with ⟨s', inner, rfl⟩
        rw [balance_setSession]
        cases op with
        | incrementIo =>
            cases inner
            simp only [holdChange, balanceChange, IoCount.increment]
            split <;> omega
        | decrementIo =>
            have held := enough target rfl
            unfold State.refs at held
            cases inner
            simp only [holdChange, balanceChange, IoCount.decrement]
            rw [if_neg (by omega : ¬ (state.sessionArray target).ioCount.refs = 0)]
            dsimp only
            split <;> omega
        | compareExchangeIo =>
            cases inner
            simp only [holdChange, balanceChange]
            by_cases zero : (state.sessionArray target).ioCount.isZero = true
            · have empty := ((state.sessionArray target).ioCount.isZero_iff.mp zero).2
              simp only [if_pos zero, empty]
              split <;> omega
            · simp only [if_neg zero]
              split <;> omega
        | wsaSend batch =>
            simp only [performSession] at inner
            split at inner <;> cases inner <;>
              simp only [holdChange, balanceChange, IoResult.started, Bool.false_eq_true, if_false,
                if_true, List.length_append, List.length_singleton] <;>
              split <;> omega
        | wsaRecv buffers =>
            simp only [performSession] at inner
            split at inner <;> cases inner <;>
              simp only [holdChange, balanceChange, IoResult.started, Bool.false_eq_true, if_false,
                if_true, List.length_append, List.length_singleton] <;>
              split <;> omega
        | _ =>
            first
              | exact absurd rfl quiet
              | cases inner; simp only [holdChange, balanceChange]; split <;> omega
    | getQueuedCompletionStatus =>
        simp only [perform] at performed
        split at performed
        next => cases performed
        next completion rest queued =>
          cases performed
          simp only [holdChange, balanceChange, State.balance, State.refs, State.kernelHolds, queued,
            List.countP_cons, beq_iff_eq, eq_comm (a := slot)]
          split <;> omega
    | postQueuedCompletionStatus target packet =>
        cases performed
        simp only [holdChange, balanceChange, State.balance, State.refs, State.kernelHolds,
          List.countP_append, List.countP_singleton, beq_iff_eq, eq_comm (a := slot)]
        split <;> omega
    | popIndex =>
        simp only [perform] at performed
        split at performed <;> cases performed <;>
          simp [holdChange, balanceChange, State.balance, State.refs, State.kernelHolds]
    | acquireContainorLock mode =>
        rcases Option.map_eq_some_iff.mp performed with ⟨lock, _, same⟩
        cases same
        simp [holdChange, balanceChange, State.balance, State.refs, State.kernelHolds]
    | _ =>
        first
          | exact absurd rfl quiet
          | cases performed
            simp [holdChange, balanceChange, State.balance, State.refs, State.kernelHolds]

/-- The kernel's own steps move holds from operations to completions. -/
theorem surround_balance {state state' : State} {change : Surroundings}
    (changed : surround state change = some state') (slot : Slot) :
    state'.balance slot = state.balance slot := by
  have moved (target : Slot) (s : Session) (completion : Completion)
      (place : completion.slot = target)
      (count : s.ioCount = (state.sessionArray target).ioCount)
      (fewer : s.pendingSends.length + s.pendingRecvs.length + 1 =
        (state.sessionArray target).pendingSends.length +
          (state.sessionArray target).pendingRecvs.length) :
      State.balance { state.setSession target s with port := state.port ++ [completion] } slot =
        state.balance slot := by
    by_cases same : slot = target
    · subst same
      simp only [State.balance, State.refs, State.kernelHolds, State.setSession_same, count,
        List.countP_append, List.countP_singleton, place, beq_self_eq_true, if_true]
      omega
    · have other : ¬ (completion.slot == slot) = true := by
        rw [place, beq_iff_eq]
        exact fun equal => same equal.symm
      simp only [State.balance, State.refs, State.kernelHolds,
        State.setSession_other state s same, List.countP_append, List.countP_singleton, if_neg other]
      omega
  cases change with
  | completeSend target position success transfer =>
      simp only [surround] at changed
      split at changed
      next => cases changed
      next pending found =>
        have inside := (List.getElem?_eq_some_iff.mp found).1
        split at changed <;> cases changed
        refine moved target { state.sessionArray target with
          pendingSends := (state.sessionArray target).pendingSends.eraseIdx position }
          ⟨target, success, transfer, .send pending.batch⟩ rfl rfl ?_
        simp only [List.length_eraseIdx_of_lt inside]
        omega
  | completeRecv target position success data =>
      simp only [surround] at changed
      split at changed
      next => cases changed
      next pending found =>
        have inside := (List.getElem?_eq_some_iff.mp found).1
        split at changed <;> cases changed
        let s := state.sessionArray target
        refine moved target { s with
          pendingRecvs := s.pendingRecvs.eraseIdx position
          recvBuffer := { s.recvBuffer with
            buffer := fill s.recvBuffer.buffer pending.buffers data } }
          ⟨target, success, BitVec.ofNat 32 data.length, .recv⟩ rfl rfl ?_
        simp only [List.length_eraseIdx_of_lt inside, s]
        omega
  | tick count =>
      simp only [surround] at changed
      split at changed <;> cases changed
      rfl

/-! ## Functions -/

/-- Operations that have nothing to do with holds. -/
def neutral (op : Op) : Prop :=
  transfers op = true ∧ needsHold op = none ∧ forall answer, holdChange ⟨op, answer⟩ = none

theorem neutral_of_quiet {op : Op} (quiet : op.quiet = true) : neutral op := by
  refine ⟨?_, ?_, holdChange_quiet quiet⟩ <;> cases op with
  | session slot op => cases op <;> first | rfl | exact Bool.noConfusion quiet
  | _ => first | rfl | exact Bool.noConfusion quiet

/-- A program of neutral operations. -/
abbrev Neutral {α : Type} (program : NetProgram α) : Prop := program.Uses neutral

theorem Quiet.neutral {α : Type} {program : NetProgram α} (quiet : Quiet program) : Neutral program :=
  quiet.mono fun _ => neutral_of_quiet

theorem neutral_session {slot : Slot} {op : SessionOp} (unrelated : neutral (.session slot op)) :
    Neutral (sessionOp slot op) := ⟨unrelated, fun _ => trivial⟩

theorem onDisconnect_neutral (sessionID : SessionID) : Neutral (onDisconnect sessionID) :=
  ⟨⟨rfl, rfl, fun _ => rfl⟩, fun _ => ⟨⟨rfl, rfl, fun _ => rfl⟩, fun _ => ⟨⟨rfl, rfl, fun _ => rfl⟩,
    fun _ => ⟨⟨rfl, rfl, fun _ => rfl⟩, fun _ => trivial⟩⟩⟩⟩

theorem deleteSession_neutral (fuel : Nat) (slot : Slot) : Neutral (deleteSession fuel slot) := by
  refine ⟨⟨rfl, rfl, fun _ => rfl⟩, fun previous => ?_⟩
  change Neutral (if previous.isZero then _ else _)
  split
  · refine ⟨⟨rfl, rfl, fun _ => rfl⟩, fun targetID => ⟨⟨rfl, rfl, fun _ => rfl⟩, fun sock => ?_⟩⟩
    refine ⟨⟨rfl, rfl, fun _ => rfl⟩, fun closed => (bufferClear_local fuel slot).quiet.neutral.bind fun _ => ?_⟩
    exact ⟨⟨rfl, rfl, fun _ => rfl⟩, fun _ => onDisconnect_neutral targetID⟩
  · trivial

section Functions

variable {refusals : Bool} {α : Type}

theorem permits_of_free {op : Op} {owed : Owed} (transferring : transfers op = true)
    (free : needsHold op = none) : (holds refusals).permits owed op := by
  refine ⟨transferring, fun slot needed => ?_⟩
  rw [free] at needed
  cases needed

theorem permits_of_held {op : Op} {owed : Owed} {slot : Slot} (transferring : transfers op = true)
    (needed : needsHold op = some slot) (held : 1 ≤ owed slot) : (holds refusals).permits owed op := by
  refine ⟨transferring, fun other same => ?_⟩
  rw [needed] at same
  cases same
  exact held

theorem Neutral.keeps {program : NetProgram α} (uses : Neutral program) (owed : Owed) :
    (holds refusals).Keeps program owed := by
  refine Discipline.obeys_of_uses (D := holds refusals) uses ?_ ?_ owed
  · intro op owed unrelated
    exact permits_of_free unrelated.1 unrelated.2.1
  · intro op answer owed unrelated
    exact Owed.track_neutral (unrelated.2.2 answer)

theorem Quiet.keeps {program : NetProgram α} (quiet : Quiet program) (owed : Owed) :
    (holds refusals).Keeps program owed := quiet.neutral.keeps owed

theorem giveBack_obeys (fuel : Nat) (slot : Slot) (owed : Owed) (held : 1 ≤ owed slot) :
    (holds refusals).Obeys (giveBack fuel slot) owed fun owed' _ => owed' = owed.remove slot := by
  refine ⟨permits_of_held rfl rfl held, fun count _ => ?_⟩
  change (holds refusals).Obeys (if count.isZero then _ else _) (owed.remove slot) _
  split
  · exact (deleteSession_neutral fuel slot).keeps _
  · rfl

/-- Giving back a hold that has just been taken. -/
theorem giveBack_add (fuel : Nat) (slot : Slot) (owed : Owed) :
    (holds refusals).Obeys (giveBack fuel slot) (owed.add slot) fun owed' _ => owed' = owed := by
  refine (giveBack_obeys fuel slot (owed.add slot) (by simp)).mono ?_
  rintro owed' _ rfl
  exact owed.remove_add slot

/-- An operation that takes a hold, in front. -/
theorem obeys_take {op : Op} {slot : Slot} {owed : Owed} {post : Owed -> α -> Prop}
    {continuation : op.Answer -> NetProgram α} (transferring : transfers op = true)
    (free : needsHold op = none) (takes : forall answer, holdChange ⟨op, answer⟩ = some (slot, true))
    (rest : forall answer, (holds refusals).Obeys (continuation answer) (owed.add slot) post) :
    (holds refusals).Obeys (netOp op >>= continuation) owed post := by
  refine ⟨permits_of_free transferring free, fun answer _ => ?_⟩
  change (holds refusals).Obeys _ (owed.track ⟨op, answer⟩) post
  rw [Owed.track_gain (takes answer)]
  exact rest answer

/-- A neutral operation in front. -/
theorem obeys_neutral {op : Op} {owed : Owed} {post : Owed -> α -> Prop}
    {continuation : op.Answer -> NetProgram α} (unrelated : neutral op)
    (rest : forall answer, (holds refusals).Obeys (continuation answer) owed post) :
    (holds refusals).Obeys (netOp op >>= continuation) owed post := by
  refine ⟨permits_of_free unrelated.1 unrelated.2.1, fun answer _ => ?_⟩
  change (holds refusals).Obeys _ (owed.track ⟨op, answer⟩) post
  rw [Owed.track_neutral (unrelated.2.2 answer)]
  exact rest answer

/-- A session that is found is held. -/
theorem findSession_obeys (fuel : Nat) (sessionID : SessionID) (owed : Owed) :
    (holds refusals).Obeys (findSession fuel sessionID) owed fun owed' found =>
      match found with
      | none => owed' = owed
      | some slot => owed' = owed.add slot := by
  refine obeys_neutral ⟨rfl, rfl, fun _ => rfl⟩ fun _ => ?_
  refine obeys_take rfl rfl (fun _ => rfl) fun (temp : IoCount) => ?_
  split
  · exact (giveBack_add fuel _ owed).bindTo fun _ => rfl
  · refine obeys_neutral ⟨rfl, rfl, fun _ => rfl⟩ fun (id : SessionID) => ?_
    split
    · exact (giveBack_add fuel _ owed).bindTo fun _ => rfl
    · rfl

/-- The hold of an operation goes to the kernel, or is given back at once. -/
theorem sendIo_keeps (fuel : Nat) (slot : Slot) (owed : Owed) :
    (holds refusals).Keeps (sendIo fuel slot) owed := by
  refine obeys_neutral ⟨rfl, rfl, fun _ => rfl⟩ fun (cancelled : Bool) => ?_
  split
  · rfl
  refine obeys_neutral ⟨rfl, rfl, fun _ => rfl⟩ fun (busy : Bool) => ?_
  split
  · rfl
  refine obeys_neutral ⟨rfl, rfl, fun _ => rfl⟩ fun (sendBufferSize : Int) => ?_
  split
  · exact (resetSendFlag_local slot).quiet.keeps owed
  refine obeys_take rfl rfl (fun _ => rfl) fun _ => ?_
  refine ((gather_local slot _ fuel []).quiet.keeps _).bindTo fun buffer => ?_
  refine ⟨permits_of_held rfl rfl (by simp), fun (result : IoResult) _ => ?_⟩
  cases result with
  | success => exact owed.remove_add slot
  | pending =>
      change (holds refusals).Obeys _ ((owed.add slot).remove slot) _
      rw [owed.remove_add]
      refine obeys_neutral ⟨rfl, rfl, fun _ => rfl⟩ fun (cancelled : Bool) => ?_
      split
      · exact obeys_neutral ⟨rfl, rfl, fun _ => rfl⟩ fun _ => rfl
      · rfl
  | error code =>
      change (holds refusals).Obeys (if connectionLost code then _ else _) (owed.add slot) _
      have rest : (holds refusals).Obeys (do
          sessionOp slot (.storeCancelIoFlag true)
          let _ ← sessionOp slot (.cancelIoEx .recv)
          giveBack fuel slot) (owed.add slot) fun owed' _ => owed' = owed := by
        refine obeys_neutral ⟨rfl, rfl, fun _ => rfl⟩ fun _ => ?_
        exact obeys_neutral ⟨rfl, rfl, fun _ => rfl⟩ fun _ => giveBack_add fuel slot owed
      split
      · exact rest
      · exact ((resetSendFlag_local slot).quiet.keeps _).bindTo fun _ => rest

theorem recvIo_keeps (fuel : Nat) (slot : Slot) (owed : Owed) :
    (holds refusals).Keeps (recvIo fuel slot) owed := by
  refine obeys_neutral ⟨rfl, rfl, fun _ => rfl⟩ fun (cancelled : Bool) => ?_
  split
  · rfl
  refine obeys_neutral ⟨rfl, rfl, fun _ => rfl⟩ fun buffer => ?_
  refine obeys_take rfl rfl (fun _ => rfl) fun _ => ?_
  refine ⟨permits_of_held rfl rfl (by simp), fun (result : IoResult) _ => ?_⟩
  cases result with
  | success => exact owed.remove_add slot
  | pending =>
      change (holds refusals).Obeys _ ((owed.add slot).remove slot) _
      rw [owed.remove_add]
      refine obeys_neutral ⟨rfl, rfl, fun _ => rfl⟩ fun (cancelled : Bool) => ?_
      split
      · exact obeys_neutral ⟨rfl, rfl, fun _ => rfl⟩ fun _ => rfl
      · rfl
  | error code =>
      change (holds refusals).Obeys _ (owed.add slot) _
      refine obeys_neutral ⟨rfl, rfl, fun _ => rfl⟩ fun _ => ?_
      exact obeys_neutral ⟨rfl, rfl, fun _ => rfl⟩ fun _ => giveBack_add fuel slot owed

/-- The hold that `init` takes is the accept thread's own. -/
theorem init_obeys (slot : Slot) (id : SessionID) (sock : Nat) (owed : Owed) :
    (holds refusals).Obeys (init slot id sock) owed fun owed' _ => owed' = owed.add slot := by
  refine obeys_neutral ⟨rfl, rfl, fun _ => rfl⟩ fun _ => ?_
  refine obeys_neutral ⟨rfl, rfl, fun _ => rfl⟩ fun _ => ?_
  refine obeys_take rfl rfl (fun _ => rfl) fun _ => ?_
  refine obeys_neutral ⟨rfl, rfl, fun _ => rfl⟩ fun _ => ?_
  refine obeys_neutral ⟨rfl, rfl, fun _ => rfl⟩ fun _ => ?_
  exact (neutral_session ⟨rfl, rfl, fun _ => rfl⟩).keeps _

theorem handleRequest_keeps (fuel : Nat) (slot : Slot) (packet : Packet) (owed : Owed) :
    (holds refusals).Keeps (handleRequest fuel slot packet) owed := by
  refine ((push_local slot packet).quiet.keeps owed).bindTo fun collected => ?_
  cases collected with
  | true => exact sendIo_keeps fuel slot owed
  | false => exact (releaseSerializer_local slot _).quiet.keeps owed

/-- Only an answer -1 of `sended` ends the round early. -/
theorem handleSend_obeys (fuel : Nat) (slot : Slot) (transfer : BitVec 32) (owed : Owed) :
    (holds refusals).Obeys (handleSend fuel slot transfer) owed
      fun owed' handled => owed' = owed ∧ (refusals = false -> handled = true) := by
  refine obeys_neutral ⟨rfl, rfl, fun _ => rfl⟩ fun id => ?_
  refine obeys_neutral ⟨rfl, rfl, fun _ => rfl⟩ fun _ => ?_
  refine ((sended_local fuel slot transfer).quiet.keeps owed).bindTo fun tp => ?_
  split
  · exact ⟨permits_of_free rfl rfl, fun _ expected => ⟨rfl, fun none => Bool.noConfusion (expected none)⟩⟩
  · refine obeys_neutral ⟨rfl, rfl, fun _ => rfl⟩ fun _ => ?_
    refine obeys_neutral ⟨rfl, rfl, fun _ => rfl⟩ fun (size : Int) => ?_
    split
    · exact (sendIo_keeps fuel slot owed).bindTo fun _ => ⟨rfl, fun _ => rfl⟩
    · exact ⟨rfl, fun _ => rfl⟩

end Functions

end Network
end LoginServer
