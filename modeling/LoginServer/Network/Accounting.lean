import LoginServer.Network.Holds

namespace LoginServer
namespace Network

open Memory Buffers Receiving Login Concurrency

/-!
# Accounting for jobs

Several disciplines follow the holds of a thread.  They differ in what they say
about the functions that take holds and give them back, and agree on how the
jobs are built from these.  `Accounting` is what has to be shown of the
functions, and `jobs_account` what follows for the jobs.
-/

/-- What a thread has: its holds, and the session whose received bytes it may
handle, on which it has a hold. -/
@[ext]
structure Account where
  owed : Owed
  receiving : Option Slot
  held : forall slot, receiving = some slot -> 1 ≤ owed slot

namespace Account

def empty : Account := ⟨nothingOwed, none, by simp⟩

theorem owed_le_add (owed : Owed) (slot other : Slot) : owed other ≤ owed.add slot other := by
  unfold Owed.add
  rw [Function.update_apply]
  split
  next same =>
    subst same
    exact Nat.le_succ _
  next => exact Nat.le_refl _

/-- Take a hold. -/
def add (account : Account) (slot : Slot) : Account where
  owed := account.owed.add slot
  receiving := account.receiving
  held := fun other receives => (account.held other receives).trans (owed_le_add account.owed slot other)

/-- Give a hold away, and with the last one the right to receive. -/
def remove (account : Account) (slot : Slot) : Account where
  owed := account.owed.remove slot
  receiving := account.receiving.filter fun other => decide (1 ≤ account.owed.remove slot other)
  held := by
    intro other receives
    exact of_decide_eq_true (Option.filter_eq_some_iff.mp receives).2

/-- Go on to receive, if there is a hold. -/
def receive (account : Account) (slot : Slot) : Account :=
  if held : 1 ≤ account.owed slot then
    { account with
      receiving := some slot
      held := fun other same => by cases same; exact held }
  else account

@[simp] theorem add_owed (account : Account) (slot : Slot) :
    (account.add slot).owed = account.owed.add slot := rfl

@[simp] theorem add_receiving (account : Account) (slot : Slot) :
    (account.add slot).receiving = account.receiving := rfl

@[simp] theorem remove_owed (account : Account) (slot : Slot) :
    (account.remove slot).owed = account.owed.remove slot := rfl

@[simp] theorem receive_owed (account : Account) (slot : Slot) :
    (account.receive slot).owed = account.owed := by
  unfold receive
  split <;> rfl

theorem receive_receiving (account : Account) (slot : Slot) (held : 1 ≤ account.owed slot) :
    (account.receive slot).receiving = some slot := by
  unfold receive
  rw [dif_pos held]

theorem remove_add (account : Account) (slot : Slot) : (account.add slot).remove slot = account := by
  have owed : (account.owed.add slot).remove slot = account.owed := account.owed.remove_add slot
  refine Account.ext owed ?_
  simp only [remove, add, owed]
  cases receives : account.receiving with
  | none => rfl
  | some other => simp [account.held other receives]

theorem held_add (account : Account) (slot : Slot) : 1 ≤ (account.add slot).owed slot := by
  rw [add_owed, Owed.add_same]
  exact Nat.le_add_left 1 _

/-- The account of a thread that has dequeued a completion. -/
def dequeue (account : Account) (completion : Completion) : Account :=
  match completion.success, completion.overlapped with
  | true, .recv => (account.add completion.slot).receive completion.slot
  | _, _ => account.add completion.slot

theorem dequeue_owed (account : Account) (completion : Completion) :
    (account.dequeue completion).owed = account.owed.add completion.slot := by
  unfold dequeue
  split
  · rw [receive_owed, add_owed]
  · rfl

end Account

/-! ## Moves between accounts -/

section Moves

variable {D : Discipline interface} {At : Account -> D.Ghost -> Prop} {α β : Type}

/-- The program obeys, and leads from one account to others. -/
def Moves (D : Discipline interface) (At : Account -> D.Ghost -> Prop) {α : Type}
    (program : NetProgram α) (account : Account) (post : Account -> α -> Prop) : Prop :=
  forall ghost, At account ghost ->
    D.Obeys program ghost fun ghost' value => Exists fun account' =>
      At account' ghost' ∧ post account' value

/-- The program leaves the account as it was. -/
abbrev Balances (D : Discipline interface) (At : Account -> D.Ghost -> Prop) {α : Type}
    (program : NetProgram α) (account : Account) : Prop :=
  Moves D At program account fun account' _ => account' = account

theorem Moves.done {value : α} {account : Account} {post : Account -> α -> Prop}
    (holds : post account value) : Moves D At (.done value) account post :=
  fun _ at_ => ⟨account, at_, holds⟩

theorem Moves.mono {program : NetProgram α} {account : Account} {strong weak : Account -> α -> Prop}
    (moves : Moves D At program account strong)
    (implies : forall account value, strong account value -> weak account value) :
    Moves D At program account weak := by
  intro ghost at_
  refine (moves ghost at_).mono ?_
  rintro ghost' value ⟨account', there, holds⟩
  exact ⟨account', there, implies account' value holds⟩

theorem Moves.bind {program : NetProgram α} {continuation : α -> NetProgram β} {account : Account}
    {middle : Account -> α -> Prop} {post : Account -> β -> Prop}
    (moves : Moves D At program account middle)
    (rest : forall account value, middle account value -> Moves D At (continuation value) account post) :
    Moves D At (program >>= continuation) account post := by
  intro ghost at_
  refine (moves ghost at_).bind ?_
  rintro ghost' value ⟨account', there, holds⟩
  exact rest account' value holds ghost' there

/-- Sequencing after a program whose final account is known. -/
theorem Moves.bindTo {program : NetProgram α} {continuation : α -> NetProgram β}
    {account target : Account} {post : Account -> β -> Prop}
    (moves : Moves D At program account fun account' _ => account' = target)
    (rest : forall value, Moves D At (continuation value) target post) :
    Moves D At (program >>= continuation) account post := by
  refine moves.bind ?_
  rintro account' value rfl
  exact rest value

end Moves

/-- Operations outside the functions that take holds and give them back. -/
def Op.idle : Op -> Bool
  | .serializerAlloc => true
  | .serializerFree _ => true
  | .incReferenceCounter _ => true
  | .decReferenceCounter _ => true
  | .acquireContainorLock _ => true
  | .releaseContainorLock _ => true
  | .connectionNew _ => true
  | .insertConnection _ _ => true
  | .scanConnections => true
  | .getTickCount => true
  | .accept => true
  | .closesocket _ => true
  | .login _ => true
  | .mark (.packets _) => true
  | .halt => true
  | _ => false

/-- The same on a session. -/
def SessionOp.idle : SessionOp -> Bool
  | .storeCancelIoFlag value => value
  | .cancelIoEx _ => true
  | .recvedPacket _ => true
  | _ => false

/-- A discipline follows the holds of a thread through the functions that take them
and give them back. -/
structure Accounting (D : Discipline interface) (At : Account -> D.Ghost -> Prop) (fuel : Nat)
    (refusals : Bool) : Prop where
  idle : forall (op : Op) account, op.idle = true -> Balances D At (netOp op) account
  touch : forall slot (op : SessionOp) (account : Account), op.idle = true -> 1 ≤ account.owed slot ->
    Balances D At (sessionOp slot op) account
  dequeue : forall account, Moves D At (netOp .getQueuedCompletionStatus) account
    fun account' completion => account' = account.dequeue completion
  findSession : forall sessionID account, Moves D At (findSession fuel sessionID) account
    fun account' found =>
      match found with
      | none => account' = account
      | some slot => account' = account.add slot
  giveBack : forall slot (account : Account), 1 ≤ account.owed slot ->
    Moves D At (giveBack fuel slot) account fun account' _ => account' = account.remove slot
  post : forall slot packet (account : Account), 1 ≤ account.owed slot ->
    Balances D At (do
      let _ ← sessionOp slot .incrementIo
      netOp (.postQueuedCompletionStatus slot packet)) account
  recvIo : forall slot (account : Account), account.receiving = some slot ->
    Balances D At (recvIo fuel slot) account
  recved : forall slot transfer (account : Account), 1 ≤ account.owed slot -> transfer ≠ 0 ->
    Moves D At (sessionOp slot (.recved transfer)) account
      fun account' (accepted : Bool) => account' = account ∧ (refusals = false -> accepted = true)
  enterOnRecv : forall slot (account : Account), account.receiving = some slot ->
    Balances D At (do
      let id ← sessionOp slot .loadId
      mark (.onRecv slot id)
      return id) account
  handleRequest : forall slot packet (account : Account), 1 ≤ account.owed slot ->
    Balances D At (handleRequest fuel slot packet) account
  handleSend : forall slot transfer (account : Account), 1 ≤ account.owed slot -> transfer ≠ 0 ->
    Moves D At (handleSend fuel slot transfer) account
      fun account' handled => account' = account ∧ (refusals = false -> handled = true)

namespace Accounting

variable {D : Discipline interface} {At : Account -> D.Ghost -> Prop} {fuel : Nat} {refusals : Bool}
  (accounting : Accounting D At fuel refusals) {α : Type}

include accounting

/-- An idle operation in front. -/
theorem idle_then {op : Op} {account : Account} {post : Account -> α -> Prop}
    {continuation : op.Answer -> NetProgram α} (idle : op.idle = true)
    (rest : forall answer, Moves D At (continuation answer) account post) :
    Moves D At (netOp op >>= continuation) account post :=
  (accounting.idle op account idle).bindTo rest

/-- The same with an operation on a session. -/
theorem touch_then {slot : Slot} {op : SessionOp} {account : Account} {post : Account -> α -> Prop}
    {continuation : op.Answer -> NetProgram α} (idle : op.idle = true) (held : 1 ≤ account.owed slot)
    (rest : forall answer, Moves D At (continuation answer) account post) :
    Moves D At (sessionOp slot op >>= continuation) account post :=
  (accounting.touch slot op account idle held).bindTo rest

theorem giveBack_add (slot : Slot) (account : Account) :
    Moves D At (Network.giveBack fuel slot) (account.add slot) fun account' _ => account' = account := by
  refine (accounting.giveBack slot (account.add slot) (account.held_add slot)).mono ?_
  rintro account' _ rfl
  exact account.remove_add slot

theorem releaseSerializer (pointer : Pointer) (account : Account) :
    Balances D At (releaseSerializer pointer) account := by
  refine accounting.idle_then rfl fun (count : Int) => ?_
  split
  · exact accounting.idle (.serializerFree pointer) account rfl
  · exact .done rfl

theorem disconnectReq (sessionID : SessionID) (account : Account) :
    Balances D At (disconnectReq fuel sessionID) account := by
  refine (accounting.findSession sessionID account).bind ?_
  intro account' found
  cases found with
  | none =>
      rintro rfl
      exact .done rfl
  | some slot =>
      rintro rfl
      have held := account.held_add slot
      refine accounting.touch_then rfl held fun _ => accounting.touch_then rfl held fun _ => ?_
      exact accounting.touch_then rfl held fun _ => accounting.giveBack_add slot account

/-- The hold of the request goes to the port, and the caller's own is given
back. -/
theorem sendReq (sessionID : SessionID) (packet : Packet) (account : Account) :
    Balances D At (sendReq fuel sessionID packet) account := by
  refine (accounting.findSession sessionID account).bind ?_
  intro account' found
  cases found with
  | none =>
      rintro rfl
      exact .done rfl
  | some slot =>
      rintro rfl
      refine accounting.idle_then rfl fun _ => ?_
      have posted := accounting.post slot packet (account.add slot) (account.held_add slot)
      exact posted.bindTo fun _ => accounting.giveBack_add slot account

theorem sendReqPacket (sessionID : SessionID) (packet : Packet) (account : Account) :
    Balances D At (sendReqPacket fuel sessionID packet) account := by
  refine accounting.idle_then rfl fun _ => ?_
  refine (accounting.sendReq sessionID packet account).bindTo fun _ => ?_
  exact accounting.releaseSerializer packet.pointer account

theorem handleLogin (op : LoginOp) (account : Account) :
    Balances D At (handleLogin fuel op) account := by
  cases op with
  | disconnectReq sessionID => exact accounting.disconnectReq sessionID account
  | sendReq sessionID pointer packet => exact accounting.sendReqPacket sessionID _ account
  | packetNew =>
      refine accounting.idle_then rfl fun buffer => accounting.idle_then rfl fun _ => ?_
      exact .done rfl
  | packetDelete pointer => exact accounting.releaseSerializer pointer account
  | _ => exact accounting.idle (.login _) account rfl

theorem interprets (program : Program loginInterface α) (account : Account) :
    Balances D At (program.interpret (Network.handleLogin fuel)) account := by
  induction program with
  | done value => exact .done rfl
  | step op next inductionHypothesis =>
      exact (accounting.handleLogin op account).bindTo inductionHypothesis

omit accounting in
theorem enters_eq (slot : Slot) (callback : SessionID -> NetProgram Unit) (rest : NetProgram Unit) :
    (sessionOp slot .loadId >>= fun id =>
      (mark (.onRecv slot id) >>= fun _ => callback id) >>= fun _ => rest) =
    ((do
      let id ← sessionOp slot .loadId
      mark (.onRecv slot id)
      return id) >>= fun id => callback id >>= fun _ => rest) := rfl

theorem extraction (slot : Slot) (rounds : Nat) (account : Account)
    (receiving : account.receiving = some slot) :
    Balances D At (extraction fuel slot rounds) account := by
  induction rounds with
  | zero =>
      have stopped : Op.halt.idle = true := rfl
      exact accounting.idle_then stopped (by simp)
  | succ rounds inductionHypothesis =>
      refine accounting.idle_then rfl fun (p : PacketBuffer) => ?_
      refine accounting.idle_then rfl fun _ => ?_
      refine accounting.touch_then rfl (account.held slot receiving) fun (result : Bool × Serializer) => ?_
      rcases result with ⟨extracted, packet⟩
      cases extracted with
      | false => exact accounting.releaseSerializer _ account
      | true =>
          change Moves D At (sessionOp slot .loadId >>= fun id =>
            onRecv fuel slot id packet >>= fun _ =>
              Network.releaseSerializer p.pointer >>= fun _ => Network.extraction fuel slot rounds)
            account _
          simp only [onRecv]
          rw [enters_eq slot (fun id => (Login.onRecv id packet).interpret (Network.handleLogin fuel)) _]
          refine (accounting.enterOnRecv slot account receiving).bindTo fun id => ?_
          refine (accounting.interprets (Login.onRecv id packet) account).bindTo fun _ => ?_
          exact (accounting.releaseSerializer _ account).bindTo fun _ => inductionHypothesis

/-- Only a refused completion ends the round early. -/
theorem handleRecv (slot : Slot) (transfer : BitVec 32) (account : Account) (something : transfer ≠ 0)
    (receiving : account.receiving = some slot) :
    Moves D At (handleRecv fuel slot transfer) account
      fun account' handled => account' = account ∧ (refusals = false -> handled = true) := by
  refine (accounting.recved slot transfer account (account.held slot receiving) something).bind ?_
  rintro account' accepted ⟨rfl, complete⟩
  cases accepted with
  | false => exact .done ⟨rfl, complete⟩
  | true =>
      refine (accounting.extraction slot fuel account' receiving).bindTo fun _ => ?_
      exact (accounting.recvIo slot account' receiving).bindTo fun _ => .done ⟨rfl, fun _ => rfl⟩

theorem handleCompletion (completion : Completion) (account : Account)
    (held : 1 ≤ account.owed completion.slot)
    (receiving : completion.overlapped = .recv -> account.receiving = some completion.slot) :
    Moves D At (handleCompletion fuel completion) account
      fun account' handled => account' = account ∧ (refusals = false -> handled = true) := by
  unfold Network.handleCompletion
  split
  · split
    · exact (accounting.handleRequest _ _ account held).bindTo fun _ => .done ⟨rfl, fun _ => rfl⟩
    · exact .done ⟨rfl, fun _ => rfl⟩
  next something =>
    split
    · exact accounting.handleSend _ _ account held something
    next received => exact accounting.handleRecv _ _ account something (receiving received)
    · exact .done ⟨rfl, fun _ => rfl⟩

omit accounting in
theorem dequeue_remove (completion : Completion) :
    (Account.empty.dequeue completion).remove completion.slot = Account.empty := by
  have owed : ((Account.empty.dequeue completion).remove completion.slot).owed = nothingOwed := by
    rw [Account.remove_owed, Account.dequeue_owed]
    exact Owed.remove_add nothingOwed completion.slot
  refine Account.ext owed ?_
  cases receives : ((Account.empty.dequeue completion).remove completion.slot).receiving with
  | none => rfl
  | some slot =>
      have held := ((Account.empty.dequeue completion).remove completion.slot).held slot receives
      rw [owed] at held
      exact absurd held (Nat.not_succ_le_zero 0)

/-- A worker gives back the hold of the completion it dequeued. -/
theorem workerThread : Moves D At (workerThread fuel) Account.empty
    fun account _ => refusals = false -> account = Account.empty := by
  refine (accounting.dequeue Account.empty).bind ?_
  rintro account completion rfl
  have held : 1 ≤ (Account.empty.dequeue completion).owed completion.slot := by
    rw [Account.dequeue_owed]
    exact Account.held_add Account.empty completion.slot
  have returned : Moves D At (Network.giveBack fuel completion.slot)
      (Account.empty.dequeue completion) fun account _ => refusals = false -> account = Account.empty := by
    refine (accounting.giveBack _ _ held).mono ?_
    rintro account' _ rfl _
    exact dequeue_remove completion
  cases success : completion.success with
  | false => exact returned
  | true =>
      have receiving : completion.overlapped = .recv ->
          (Account.empty.dequeue completion).receiving = some completion.slot := by
        intro received
        unfold Account.dequeue
        rw [success, received]
        exact Account.receive_receiving _ _ (Account.held_add _ _)
      refine (accounting.handleCompletion completion _ held receiving).bind ?_
      rintro account handled ⟨rfl, complete⟩
      cases handled with
      | true => exact returned
      | false => exact .done fun none => Bool.noConfusion (complete none)

theorem timeOut (timeoutThreshold currentTick : BitVec 64)
    (connections : List (SessionID × ConnectionData)) (account : Account) :
    Balances D At (timeOut fuel timeoutThreshold currentTick connections) account := by
  induction connections with
  | nil => exact .done rfl
  | cons entry rest inductionHypothesis =>
      unfold Network.timeOut
      split
      · exact (accounting.disconnectReq entry.1 account).bindTo fun _ => inductionHypothesis
      · exact inductionHypothesis

theorem update (timeoutThreshold : BitVec 64) (account : Account) :
    Balances D At (update fuel timeoutThreshold) account := by
  refine accounting.idle_then rfl fun currentTick => accounting.idle_then rfl fun _ => ?_
  refine accounting.idle_then rfl fun connections => ?_
  refine (accounting.timeOut timeoutThreshold currentTick connections account).bindTo fun _ => ?_
  exact accounting.idle (.releaseContainorLock .shared) account rfl

theorem packetScope (statements : List PacketStatement) (objects : List Packet) (account : Account) :
    Balances D At (packetScope fuel statements objects) account := by
  have rules : ScopeRules fuel fun {_} program => Balances D At program account := {
    done := fun _ => .done rfl
    bind := fun balances rest => balances.bindTo rest
    mark := fun _ => accounting.idle _ account rfl
    alloc := accounting.idle _ account rfl
    increment := fun _ => accounting.idle _ account rfl
    release := fun pointer => accounting.releaseSerializer pointer account
    sendReq := fun sessionID packet => accounting.sendReq sessionID packet account
    sendReqPacket := fun sessionID packet => accounting.sendReqPacket sessionID packet account }
  exact rules.packetScope statements objects

theorem contentCall (call : ContentCall) (account : Account) :
    Balances D At (call.program fuel) account := by
  cases call with
  | disconnectReq sessionID => exact accounting.disconnectReq sessionID account
  | sendReq sessionID packet => exact accounting.sendReq sessionID packet account
  | sendReqPacket sessionID packet => exact accounting.sendReqPacket sessionID packet account
  | findSession sessionID =>
      refine (accounting.findSession sessionID account).bind ?_
      intro account' found
      cases found with
      | none =>
          rintro rfl
          exact .done rfl
      | some slot =>
          rintro rfl
          exact accounting.giveBack_add slot account
  | packets statements => exact accounting.packetScope statements [] account

/-- `OnNewConnect` from its call of `findSession` on. -/
theorem registers (sessionID : SessionID) (account : Account) :
    Balances D At (do
      match ← Network.findSession fuel sessionID with
      | some slot =>
          let timeOutTick ← netOp .getTickCount
          let connection ← netOp (.connectionNew timeOutTick)
          netOp (.acquireContainorLock .exclusive)
          netOp (.insertConnection sessionID connection)
          netOp (.releaseContainorLock .exclusive)
          Network.giveBack fuel slot
      | none => return) account := by
  refine (accounting.findSession sessionID account).bind ?_
  intro account' found
  cases found with
  | none =>
      rintro rfl
      exact .done rfl
  | some slot =>
      rintro rfl
      refine accounting.idle_then rfl fun _ => accounting.idle_then rfl fun _ => ?_
      refine accounting.idle_then rfl fun _ => accounting.idle_then rfl fun _ => ?_
      exact accounting.idle_then rfl fun _ => accounting.giveBack_add slot account

end Accounting

/-! ## The holds themselves -/

section Jobs

variable {refusals : Bool} {α : Type}

/-- The account goes by what is owed. -/
abbrev owes (refusals : Bool) (account : Account) (owed : (holds refusals).Ghost) : Prop :=
  owed = account.owed

theorem moves_of_obeys {program : NetProgram α} {account : Account} (after : α -> Account)
    {property : α -> Prop}
    (obeys : (holds refusals).Obeys program account.owed fun owed value =>
      owed = (after value).owed ∧ property value) :
    Moves (holds refusals) (owes refusals) program account
      fun account' value => account' = after value ∧ property value := by
  rintro _ rfl
  refine obeys.mono ?_
  rintro owed value ⟨same, holds⟩
  exact ⟨after value, same, rfl, holds⟩

theorem balances_of_keeps {program : NetProgram α} {account : Account}
    (keeps : (holds refusals).Keeps program account.owed) :
    Balances (holds refusals) (owes refusals) program account := by
  rintro _ rfl
  refine keeps.mono ?_
  rintro owed value same
  exact ⟨account, same, rfl⟩

theorem neutral_of_idle {op : Op} (idle : op.idle = true) : neutral op := by
  cases op <;> first | exact ⟨rfl, rfl, fun _ => rfl⟩ | exact Bool.noConfusion idle

theorem holds_accounting (fuel : Nat) (refusals : Bool) :
    Accounting (holds refusals) (owes refusals) fuel refusals where
  idle := by
    intro op account idle
    have uses : Neutral (netOp op) := ⟨neutral_of_idle idle, fun _ => trivial⟩
    exact balances_of_keeps (uses.keeps account.owed)
  touch := by
    intro slot op account idle _
    have unrelated : neutral (.session slot op) := by
      cases op <;> first | exact ⟨rfl, rfl, fun _ => rfl⟩ | exact Bool.noConfusion idle
    exact balances_of_keeps ((neutral_session unrelated).keeps account.owed)
  dequeue := by
    rintro account _ rfl
    refine ⟨permits_of_free rfl rfl, fun (completion : Completion) _ => ?_⟩
    exact ⟨account.dequeue completion, (account.dequeue_owed completion).symm, rfl⟩
  findSession := by
    rintro sessionID account _ rfl
    refine (findSession_obeys fuel sessionID account.owed).mono ?_
    intro owed found same
    cases found with
    | none => exact ⟨account, same, rfl⟩
    | some slot => exact ⟨account.add slot, same, rfl⟩
  giveBack := by
    rintro slot account held _ rfl
    refine (giveBack_obeys fuel slot account.owed held).mono ?_
    rintro owed _ same
    exact ⟨account.remove slot, same, rfl⟩
  post := by
    intro slot packet account held
    refine balances_of_keeps (obeys_take rfl rfl (fun _ => rfl) fun _ => ?_)
    exact ⟨permits_of_held rfl rfl (by simp), fun _ _ => account.owed.remove_add slot⟩
  recvIo := fun slot account _ => balances_of_keeps (recvIo_keeps fuel slot account.owed)
  recved := by
    intro slot transfer account _ something
    have transferring : transfers (.session slot (.recved transfer)) = true := by
      simpa [transfers] using something
    refine moves_of_obeys (fun _ => account) ?_
    refine ⟨permits_of_free transferring rfl, fun (accepted : Bool) expected => ?_⟩
    refine ⟨rfl, fun none => ?_⟩
    cases accepted with
    | false => exact Bool.noConfusion (expected none)
    | true => rfl
  enterOnRecv := by
    intro slot account _
    refine balances_of_keeps (obeys_neutral ⟨rfl, rfl, fun _ => rfl⟩ fun id => ?_)
    exact obeys_neutral ⟨rfl, rfl, fun _ => rfl⟩ fun _ => rfl
  handleRequest := fun slot packet account _ =>
    balances_of_keeps (handleRequest_keeps fuel slot packet account.owed)
  handleSend := fun slot transfer account _ _ =>
    moves_of_obeys (fun _ => account) (handleSend_obeys fuel slot transfer account.owed)

/-- The hold that `init` takes is the accept thread's own. -/
theorem acceptThread_keeps (fuel : Nat) :
    (holds refusals).Keeps (acceptThread fuel) nothingOwed := by
  refine obeys_neutral ⟨rfl, rfl, fun _ => rfl⟩ fun (accepted : Option Nat) => ?_
  cases accepted with
  | none => rfl
  | some clientSock =>
      refine obeys_neutral ⟨rfl, rfl, fun _ => rfl⟩ fun (popped : Option Slot) => ?_
      cases popped with
      | none => exact obeys_neutral ⟨rfl, rfl, fun _ => rfl⟩ fun _ => rfl
      | some index =>
          refine obeys_neutral ⟨rfl, rfl, fun _ => rfl⟩ fun sessionCount => ?_
          refine (init_obeys index _ clientSock nothingOwed).bindTo fun _ => ?_
          have registers := (holds_accounting fuel refusals).registers
            (makeSessionId sessionCount index) (Account.empty.add index) _ rfl
          have connected : (holds refusals).Keeps
              (onNewConnect fuel (makeSessionId sessionCount index)) (nothingOwed.add index) := by
            refine obeys_neutral ⟨rfl, rfl, fun _ => rfl⟩ fun _ => registers.mono ?_
            rintro owed _ ⟨account, same, rfl⟩
            exact same
          refine connected.bindTo fun _ => (recvIo_keeps fuel index _).bindTo fun _ => ?_
          exact giveBack_add fuel index nothingOwed

theorem jobs_obey {workers contents : Nat} {settings : Settings} {thread : Thread workers contents}
    {job : Job} {program : NetProgram Unit} (chosen : jobProgram settings thread job = some program) :
    (holds refusals).Obeys program nothingOwed
      fun owed _ => refusals = false -> owed = nothingOwed := by
  have accounting := holds_accounting settings.fuel refusals
  have balanced {program : NetProgram Unit}
      (balances : Balances (holds refusals) (owes refusals) program Account.empty) :
      (holds refusals).Obeys program nothingOwed
        fun owed _ => refusals = false -> owed = nothingOwed := by
    refine (balances nothingOwed rfl).mono ?_
    rintro owed _ ⟨account, same, rfl⟩ _
    exact same
  cases thread <;> cases job <;> cases chosen
  case accept.loop => exact (acceptThread_keeps settings.fuel).mono fun _ _ same _ => same
  case worker.loop =>
    refine (accounting.workerThread nothingOwed rfl).mono ?_
    rintro owed _ ⟨account, same, complete⟩ none
    rw [same, complete none]
    rfl
  case timeout.loop => exact balanced (accounting.update settings.timeoutThreshold Account.empty)
  case content.call => exact balanced (accounting.contentCall _ Account.empty)

end Jobs

end Network
end LoginServer
