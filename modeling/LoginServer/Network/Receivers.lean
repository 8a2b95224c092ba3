import LoginServer.Network.Rejection

namespace LoginServer
namespace Network

open Memory Buffers Receiving Login Concurrency

/-!
# Receivers

`recvBuffer` has no lock.  What keeps the threads apart is the right to receive
for a session.  It comes with a receive completion, or with the introduction of
the session, and goes back to the kernel with the next `WSARecv`.
-/

/-- The right to receive, the received bytes that are not counted yet, whether the frames that
were complete have been taken, and the buffers last read from the session. -/
structure Right where
  slot : Option Slot
  uncounted : Option (BitVec 32)
  exhausted : Bool
  asked : Option (List WsaBuf)

/-- A refused completion ends the right as well. -/
def slotAfter (slot : Option Slot) : Event interface -> Option Slot
  | ⟨.session _ (.recved _), accepted⟩ => if accepted = true then slot else none
  | event => tokenAfter slot event

def uncountedAfter (uncounted : Option (BitVec 32)) : Event interface -> Option (BitVec 32)
  | ⟨.getQueuedCompletionStatus, completion⟩ => some completion.transfer
  | ⟨.mark (.onNewConnect _), _⟩ => none
  | ⟨.session _ (.recved _), _⟩ => none
  | _ => uncounted

def exhaustedAfter (exhausted : Bool) : Event interface -> Bool
  | ⟨.session _ (.recvedPacket _), result⟩ => !result.1
  | ⟨.mark (.onNewConnect _), _⟩ => true
  | ⟨.session _ (.recved _), _⟩ => false
  | ⟨.getQueuedCompletionStatus, _⟩ => false
  | _ => exhausted

def askedAfter (asked : Option (List WsaBuf)) : Event interface -> Option (List WsaBuf)
  | ⟨.session _ .recvBuffers, buffers⟩ => some buffers
  | ⟨.session _ (.recved _), _⟩ => none
  | ⟨.session _ (.recvedPacket _), _⟩ => none
  | ⟨.getQueuedCompletionStatus, _⟩ => none
  | ⟨.mark (.onNewConnect _), _⟩ => none
  | _ => asked

/-- The session that a thread received for last, while it has a hold on it. -/
abbrev Position.receiving (position : Position) : Option Slot := position.account.receiving

/-- The right is lost with the last hold on the session. -/
def Right.track (position : Position) (right : Right) (event : Event interface) : Right where
  slot := (slotAfter right.slot event).filter fun slot =>
    decide ((position.track event).receiving = some slot)
  uncounted := uncountedAfter right.uncounted event
  exhausted := exhaustedAfter right.exhausted event
  asked := askedAfter right.asked event

/-- The thread has the right, and has counted what was received. -/
def Right.ready (right : Right) (slot : Slot) : Prop := right.slot = some slot ∧ right.uncounted = none

/-- Only the thread with the right works on the ring.  It counts what was received, takes the
complete frames, and posts the buffers that it has read then. -/
def rightful : Layer living where
  Extra := Right
  start := ⟨none, none, false, none⟩
  track := Right.track
  permits := fun _ right op =>
    match op with
    | .session slot (.recved transfer) => right.slot = some slot ∧ right.uncounted = some transfer
    | .session slot (.recvedPacket p) => right.ready slot ∧ Exists fun pooled => p = prepare pooled
    | .session slot .recvBuffers => right.ready slot ∧ right.exhausted = true
    | .session slot (.wsaRecv buffers) => right.ready slot ∧ right.asked = some buffers
    | _ => True
  expects := fun _ _ _ => True
  finish := fun _ => True
  finish_start := trivial

/-! ## Operations and the right -/

/-- Operations that need no right and give none. -/
def Op.unreceiving : Op -> Bool
  | .getQueuedCompletionStatus => false
  | .mark (.onNewConnect _) => false
  | .session _ .recvBuffers => false
  | .session _ (.recved _) => false
  | .session _ (.recvedPacket _) => false
  | .session _ (.wsaRecv _) => false
  | _ => true

/-- Operations that leave the right with the thread, as long as it has its hold. -/
def Op.sticks : Op -> Bool
  | .getQueuedCompletionStatus => false
  | .mark (.onNewConnect _) => false
  | .session _ (.wsaRecv _) => false
  | .session _ (.recved _) => false
  | .session _ .loadCancelIoFlag => false
  | _ => true

def Op.asideOfRight (op : Op) : Bool := op.sticks && op.unreceiving

theorem aside_of_registers {op : Op} (registers : op.registers = true) : op.asideOfRight = true := by
  cases op with
  | session slot op => cases op <;> first | rfl | exact registers
  | mark note => cases note <;> first | rfl | exact registers
  | _ => first | rfl | exact registers

theorem unreceiving_of_sends {op : Op} (sends : op.sends = true) : op.unreceiving = true := by
  cases op with
  | session slot op => cases op <;> first | rfl | exact sends
  | mark note => cases note <;> first | rfl | exact sends
  | _ => first | rfl | exact sends

theorem unreceiving_permits {op : Op} (unreceiving : op.unreceiving = true) (position : Position) (right : Right) :
    rightful.permits position right op := by
  cases op with
  | session slot op => cases op <;> trivial
  | _ => trivial

/-- Who does not receive comes to it with a completion or an introduction. -/
theorem slot_none {op : Op} (answer : op.Answer) (unreceiving : op.unreceiving = true) (position : Position)
    {right : Right} (none : right.slot = .none) : (right.track position ⟨op, answer⟩).slot = .none := by
  have after : slotAfter .none ⟨op, answer⟩ = .none := by
    cases op with
    | session slot op =>
        cases op with
        | loadCancelIoFlag => simp [slotAfter, tokenAfter]
        | recved transfer => cases unreceiving
        | _ => rfl
    | mark note => cases note <;> first | rfl | cases unreceiving
    | getQueuedCompletionStatus => cases unreceiving
    | _ => rfl
  change Option.filter _ (slotAfter right.slot ⟨op, answer⟩) = _
  rw [none, after]
  rfl

/-- The session that a thread receives for stays the same, or it is none any more. -/
theorem receiving_track (position : Position) {op : Op} (answer : op.Answer) (sticks : op.sticks = true) :
    (position.track ⟨op, answer⟩).receiving = position.receiving ∨ (position.track ⟨op, answer⟩).receiving = none := by
  have removed (target : Slot) : (position.account.remove target).receiving = position.account.receiving ∨
      (position.account.remove target).receiving = none := by
    change Option.filter _ _ = _ ∨ Option.filter _ _ = _
    cases position.account.receiving with
    | none => exact Or.inl rfl
    | some slot =>
        rw [Option.filter_some]
        split
        · exact Or.inl rfl
        · exact Or.inr rfl
  cases op with
  | session target op =>
      cases op with
      | decrementIo => exact removed target
      | wsaSend batch =>
          cases answer with
          | error code => exact Or.inl rfl
          | _ => exact removed target
      | wsaRecv buffers => cases sticks
      | _ => exact Or.inl rfl
  | postQueuedCompletionStatus target packet => exact removed target
  | getQueuedCompletionStatus => cases sticks
  | mark note => cases note <;> first | exact Or.inl rfl | cases sticks
  | _ => exact Or.inl rfl

/-- The right stays until the last hold is given away. -/
theorem slot_receiving {op : Op} (answer : op.Answer) (sticks : op.sticks = true) {position : Position} {right : Right}
    (own : right.slot = position.receiving) :
    (right.track position ⟨op, answer⟩).slot = (position.track ⟨op, answer⟩).receiving := by
  have after : slotAfter right.slot ⟨op, answer⟩ = right.slot := by
    cases op with
    | session slot op => cases op <;> first | rfl | cases sticks
    | mark note => cases note <;> first | rfl | cases sticks
    | getQueuedCompletionStatus => cases sticks
    | _ => rfl
  change Option.filter (fun slot => decide ((position.track ⟨op, answer⟩).receiving = some slot))
    (slotAfter right.slot ⟨op, answer⟩) = _
  rw [after, own]
  rcases receiving_track position answer sticks with same | lost
  · rw [same]
    cases position.receiving <;> simp
  · rw [lost]
    simp

theorem uncounted_none {op : Op} (answer : op.Answer) (sticks : op.sticks = true) (position : Position) {right : Right}
    (none : right.uncounted = .none) : (right.track position ⟨op, answer⟩).uncounted = .none := by
  cases op with
  | session slot op => cases op <;> first | exact none | rfl
  | mark note => cases note <;> first | exact none | rfl
  | getQueuedCompletionStatus => cases sticks
  | _ => exact none

theorem exhausted_track {op : Op} (answer : op.Answer) (aside : op.asideOfRight = true) (position : Position)
    (right : Right) : (right.track position ⟨op, answer⟩).exhausted = right.exhausted := by
  cases op with
  | session slot op => cases op <;> first | rfl | cases aside
  | mark note => cases note <;> first | rfl | cases aside
  | getQueuedCompletionStatus => cases aside
  | _ => rfl

section Functions

variable {fuel : Nat} {α : Type}

/-- Between the functions, a thread that does not receive. -/
def standsOutside (account : Account) (ghost : rightful.whole.Ghost) : Prop :=
  standsAt account ghost.1 ∧ Right.slot ghost.2 = none

/-- Between the functions, a thread with the right that it received last. -/
def standsRightful (exhausted : Bool) (account : Account) (ghost : rightful.whole.Ghost) : Prop :=
  standsAt account ghost.1 ∧ Right.slot ghost.2 = account.receiving ∧ Right.uncounted ghost.2 = none ∧
    Right.exhausted ghost.2 = exhausted

theorem obeys_outside {program : NetProgram α} {position : Position} {right : Right} {post : Position -> α -> Prop}
    (obeys : living.Obeys program position post) (uses : program.Uses fun (op : Op) => op.unreceiving = true)
    (nothing : right.slot = none) :
    rightful.whole.Obeys program (position, right) fun ghost value => post ghost.1 value ∧ Right.slot ghost.2 = none := by
  have kept (op : Op) (unreceiving : op.unreceiving = true) (position : Position) (right : Right)
      (nothing : right.slot = none) : rightful.permits position right op ∧
        forall answer, (right.track position ⟨op, answer⟩).slot = none :=
    ⟨unreceiving_permits unreceiving position right, fun answer => slot_none answer unreceiving position nothing⟩
  exact rightful.carry (fun _ right => Right.slot right = none) obeys nothing (uses.mono kept)

theorem moves_outside {program : NetProgram α} {account : Account} {post : Account -> α -> Prop}
    (moves : Moves living standsAt program account post)
    (uses : program.Uses fun (op : Op) => op.unreceiving = true) :
    Moves rightful.whole standsOutside program account post := by
  rintro ⟨position, right⟩ ⟨stands, nothing⟩
  refine (obeys_outside (moves position stands) uses nothing).mono ?_
  rintro ⟨position', right'⟩ value ⟨⟨account', there, holds⟩, nothing'⟩
  exact ⟨account', ⟨there, nothing'⟩, holds⟩

theorem moves_rightful {program : NetProgram α} {account : Account} {post : Account -> α -> Prop} (exhausted : Bool)
    (moves : Moves living standsAt program account post)
    (uses : program.Uses fun (op : Op) => op.asideOfRight = true) :
    Moves rightful.whole (standsRightful exhausted) program account post := by
  rintro ⟨position, right⟩ ⟨⟨rfl, idle⟩, own⟩
  have kept (op : Op) (aside : op.asideOfRight = true) (position : Position) (right : Right)
      (own : right.slot = position.receiving ∧ right.uncounted = none ∧ right.exhausted = exhausted) :
      rightful.permits position right op ∧
        forall answer, (right.track position ⟨op, answer⟩).slot = (position.track ⟨op, answer⟩).receiving ∧
          (right.track position ⟨op, answer⟩).uncounted = none ∧
          (right.track position ⟨op, answer⟩).exhausted = exhausted := by
    rcases Bool.and_eq_true_iff.mp aside with ⟨sticks, unreceiving⟩
    exact ⟨unreceiving_permits unreceiving position right, fun answer =>
      ⟨slot_receiving answer sticks own.1, uncounted_none answer sticks position own.2.1,
        (exhausted_track answer aside position right).trans own.2.2⟩⟩
  have carried := rightful.carry
    (fun position right => Right.slot right = Position.receiving position ∧ Right.uncounted right = none ∧
      Right.exhausted right = exhausted)
    (moves position ⟨rfl, idle⟩) own (uses.mono kept)
  refine carried.mono ?_
  rintro ⟨position', right'⟩ value ⟨⟨account', ⟨same, idle'⟩, holds⟩, own', counted⟩
  exact ⟨account', ⟨⟨same, idle'⟩, own'.trans (congrArg Account.receiving same), counted⟩, holds⟩

/-- A frame is taken off the ring by the thread with the right, or there is none. -/
theorem recvedPacket_rightful {slot : Slot} {account : Account} (receiving : account.receiving = some slot)
    (p : PooledSerializer) {exhausted : Bool} {ghost : rightful.whole.Ghost}
    (stands : standsRightful exhausted account ghost) :
    rightful.whole.Obeys (sessionOp slot (.recvedPacket (prepare p))) ghost fun ghost result =>
      standsRightful (!result.1) account ghost := by
  rcases ghost with ⟨position, right⟩
  rcases stands with ⟨⟨rfl, idle⟩, own, counted, _⟩
  have touches : position.touches slot := Or.inl ⟨idle, position.account.held slot receiving⟩
  refine ⟨⟨touches, ⟨own.trans receiving, counted⟩, p, rfl⟩, fun answer _ => ?_⟩
  have sticks : Op.sticks (.session slot (.recvedPacket (prepare p))) = true := rfl
  exact ⟨⟨rfl, idle⟩, slot_receiving answer sticks own, uncounted_none answer sticks position counted, rfl⟩

theorem handleLogin_asideOfRight (op : LoginOp) :
    (handleLogin fuel op).Uses fun (op : Op) => op.asideOfRight = true := by
  have near {α : Type} {program : NetProgram α} (requests : Requests program) :
      program.Uses fun (op : Op) => op.asideOfRight = true :=
    requests.mono fun _ requests => aside_of_registers (registers_of_requests requests)
  cases op with
  | disconnectReq sessionID => exact near (disconnectReq_requests sessionID)
  | sendReq sessionID pointer packet => exact near (sendReqPacket_requests sessionID _)
  | packetNew => exact ⟨rfl, fun _ => ⟨rfl, fun _ => trivial⟩⟩
  | packetDelete pointer => exact near (releaseSerializer_requests pointer)
  | _ => exact ⟨rfl, fun _ => trivial⟩

theorem interprets_asideOfRight (program : Program loginInterface α) :
    (program.interpret (handleLogin fuel)).Uses fun (op : Op) => op.asideOfRight = true := by
  induction program with
  | done value => trivial
  | step op next inductionHypothesis => exact (handleLogin_asideOfRight op).bind inductionHypothesis

theorem interprets_rightful (fuel : Nat) (program : Program loginInterface α) (exhausted : Bool) (account : Account) :
    Balances rightful.whole (standsRightful exhausted) (program.interpret (handleLogin fuel)) account :=
  moves_rightful exhausted ((living_accounting fuel).interprets program account) (interprets_asideOfRight program)

theorem releaseSerializer_asideOfRight (pointer : Pointer) :
    (releaseSerializer pointer).Uses fun (op : Op) => op.asideOfRight = true :=
  (releaseSerializer_requests pointer).mono fun _ requests => aside_of_registers (registers_of_requests requests)

/-- `OnNewConnect` from its call of `findSession` on. -/
theorem registers_asideOfRight (sessionID : SessionID) : Program.Uses (fun (op : Op) => op.asideOfRight = true) (do
    match ← findSession fuel sessionID with
    | some slot =>
        let timeOutTick ← netOp .getTickCount
        let connection ← netOp (.connectionNew timeOutTick)
        netOp (.acquireContainorLock .exclusive)
        netOp (.insertConnection sessionID connection)
        netOp (.releaseContainorLock .exclusive)
        giveBack fuel slot
    | none => return) := by
  have near {α : Type} {program : NetProgram α} (requests : Requests program) :
      program.Uses fun (op : Op) => op.asideOfRight = true :=
    requests.mono fun _ requests => aside_of_registers (registers_of_requests requests)
  refine (near (findSession_requests sessionID)).bind fun found => ?_
  cases found with
  | none => trivial
  | some slot =>
      refine ⟨rfl, fun _ => ⟨rfl, fun _ => ⟨rfl, fun _ => ⟨rfl, fun _ => ⟨rfl, fun _ => ?_⟩⟩⟩⟩⟩
      exact near (giveBack_requests slot)

theorem stands_of_balanced {exhausted : Bool} {account : Account} {ghost : rightful.whole.Ghost}
    (moved : Exists fun account' => standsRightful exhausted account' ghost ∧ account' = account) :
    standsRightful exhausted account ghost := by
  rcases moved with ⟨_, there, rfl⟩
  exact there

/-- The callback for a frame. -/
theorem enter_rightful {slot : Slot} {account : Account} (receiving : account.receiving = some slot)
    {callback : SessionID -> NetProgram Unit} {rest : NetProgram Unit} {exhausted : Bool}
    {post : rightful.whole.Ghost -> Unit -> Prop}
    (handled : forall id, Balances rightful.whole (standsRightful exhausted) (callback id) account)
    (ends : forall ghost, standsRightful exhausted account ghost -> rightful.whole.Obeys rest ghost post)
    {ghost : rightful.whole.Ghost} (stands : standsRightful exhausted account ghost) :
    rightful.whole.Obeys (sessionOp slot .loadId >>= fun id =>
      (mark (.onRecv slot id) >>= fun _ => callback id) >>= fun _ => rest) ghost post := by
  rw [Accounting.enters_eq slot callback rest]
  have entered := moves_rightful exhausted ((living_accounting 0).enterOnRecv slot account receiving)
    ⟨rfl, fun _ => ⟨rfl, fun _ => trivial⟩⟩
  refine (entered ghost stands).bind fun ghost id moved => ?_
  exact (handled id ghost (stands_of_balanced moved)).bind fun ghost _ moved => ends ghost (stands_of_balanced moved)

/-- The loop over the received frames takes all that are complete. -/
theorem extraction_rightful (slot : Slot) (rounds : Nat) (account : Account)
    (receiving : account.receiving = some slot) (exhausted : Bool) (ghost : rightful.whole.Ghost)
    (stands : standsRightful exhausted account ghost) :
    rightful.whole.Obeys (extraction fuel slot rounds) ghost fun ghost _ => standsRightful true account ghost := by
  have accounting := living_accounting fuel
  induction rounds generalizing exhausted ghost with
  | zero => exact ⟨⟨trivial, trivial⟩, fun answer => answer.elim⟩
  | succ rounds inductionHypothesis =>
      have taken (op : Op) (idle : op.idle = true) (aside : op.asideOfRight = true) :
          Balances rightful.whole (standsRightful exhausted) (netOp op) account :=
        moves_rightful exhausted (accounting.idle op account idle) ⟨aside, fun _ => trivial⟩
      have released (exhausted : Bool) (pointer : Pointer) :
          Balances rightful.whole (standsRightful exhausted) (releaseSerializer pointer) account :=
        moves_rightful exhausted (accounting.releaseSerializer pointer account) (releaseSerializer_asideOfRight pointer)
      refine (taken .serializerAlloc rfl rfl ghost stands).bind fun ghost (p : PacketBuffer) stands => ?_
      refine (taken (.incReferenceCounter p.pointer) rfl rfl ghost (stands_of_balanced stands)).bind fun ghost _ stands => ?_
      refine (recvedPacket_rightful receiving p.pooled (stands_of_balanced stands)).bind
        fun ghost (result : Bool × Serializer) stands => ?_
      rcases result with ⟨extracted, packet⟩
      cases extracted with
      | false =>
          refine (released true p.pointer ghost stands).mono ?_
          exact fun _ _ => stands_of_balanced
      | true =>
          have handled (id : SessionID) := interprets_rightful fuel (Login.onRecv id packet) false account
          refine enter_rightful receiving handled (fun ghost stands => ?_) stands
          refine (released false p.pointer ghost stands).bind fun ghost _ moved => ?_
          exact inductionHypothesis false ghost (stands_of_balanced moved)

/-- The right goes back to the kernel, unless the session is cancelled. -/
theorem recvIo_rightful (slot : Slot) (account : Account) (receiving : account.receiving = some slot)
    (loaded : Option (Slot × SessionID)) (right : Right) (ready : right.ready slot)
    (exhausted : right.exhausted = true) :
    rightful.whole.Obeys (recvIo fuel slot) (⟨account, .idle, loaded⟩, right)
      fun ghost _ => standsOutside account ghost := by
  have held := account.held slot receiving
  have touches : Position.touches ⟨account, .idle, loaded⟩ slot := Or.inl ⟨rfl, held⟩
  have kept (position : Position) {right : Right} (own : right.slot = some slot)
      (receiving : position.receiving = some slot) :
      (right.slot.filter fun slot => decide (position.receiving = some slot)) = some slot := by
    rw [own, receiving]
    simp
  refine ⟨⟨touches, trivial⟩, fun (cancelled : Bool) _ => ?_⟩
  cases cancelled with
  | true => exact ⟨⟨rfl, rfl⟩, rfl⟩
  | false =>
      let right₁ := right.track ⟨account, .idle, loaded⟩ ⟨.session slot .loadCancelIoFlag, false⟩
      have ready₁ : right₁.ready slot := ⟨kept ⟨account, .idle, loaded⟩ ready.1 receiving, ready.2⟩
      refine ⟨⟨touches, ready₁, exhausted⟩, fun (buffer : List WsaBuf) _ => ?_⟩
      let right₂ := right₁.track ⟨account, .idle, loaded⟩ ⟨.session slot .recvBuffers, buffer⟩
      have ready₂ : right₂.ready slot := ⟨kept ⟨account, .idle, loaded⟩ ready₁.1 receiving, ready₁.2⟩
      refine ⟨⟨Or.inr (Or.inr ⟨rfl, held⟩), trivial⟩, fun (count : IoCount) _ => ?_⟩
      refine ⟨⟨⟨rfl, receiving⟩, ⟨kept ⟨account.add slot, .idle, none⟩ ready₂.1 receiving, ready₂.2⟩, rfl⟩,
        fun (result : IoResult) _ => ?_⟩
      have back := account.remove_add slot
      cases result with
      | success => exact ⟨⟨back, rfl⟩, rfl⟩
      | pending =>
          change rightful.whole.Obeys _ (Position.mk ((account.add slot).remove slot) .idle none, _) _
          rw [back]
          refine (obeys_outside (recheck_living slot .recv account held) ?_ rfl).mono ?_
          · refine ⟨rfl, fun (cancelled : Bool) => ?_⟩
            cases cancelled with
            | true => exact ⟨rfl, fun _ => trivial⟩
            | false => trivial
          · rintro ghost _ ⟨⟨_, stands, rfl⟩, nothing⟩
            exact ⟨stands, nothing⟩
      | error code =>
          refine obeys_outside (abandon_living slot .send account) ⟨rfl, fun _ => ⟨rfl, fun _ => ?_⟩⟩ rfl
          exact (giveBack_sends slot).mono fun _ => unreceiving_of_sends

/-! ## Jobs -/

/-- A receive completion. -/
theorem handleRecv_rightful (slot : Slot) (transfer : BitVec 32) (account : Account)
    (receiving : account.receiving = some slot) (loaded : Option (Slot × SessionID)) (right : Right)
    (own : right.slot = some slot) (uncounted : right.uncounted = some transfer) :
    rightful.whole.Obeys (handleRecv fuel slot transfer) (⟨account, .idle, loaded⟩, right)
      fun ghost handled => ghost.1.stage = .idle ∧ (handled = true -> standsOutside account ghost) := by
  refine ⟨⟨Or.inl ⟨rfl, account.held slot receiving⟩, own, uncounted⟩, fun (accepted : Bool) _ => ?_⟩
  cases accepted with
  | false => exact ⟨rfl, nofun⟩
  | true =>
      have stands : standsRightful false account (⟨account, .idle, loaded⟩,
          right.track ⟨account, .idle, loaded⟩ ⟨.session slot (.recved transfer), true⟩) := by
        refine ⟨⟨rfl, rfl⟩, ?_, rfl, rfl⟩
        change Option.filter (fun slot => decide (account.receiving = some slot)) right.slot = _
        rw [own, receiving]
        simp
      refine (extraction_rightful slot fuel account receiving false _ stands).bind ?_
      rintro ⟨⟨_, _, loaded⟩, right⟩ _ ⟨⟨rfl, rfl⟩, own, counted, exhausted⟩
      refine (recvIo_rightful slot _ receiving loaded right ⟨own.trans receiving, counted⟩ exhausted).bind ?_
      exact fun _ _ outside => ⟨outside.1.2, fun _ => outside⟩

/-- Any other completion. -/
theorem handleCompletion_standsOutside (completion : Completion) (account : Account)
    (held : 1 ≤ account.owed completion.slot)
    (other : completion.transfer = 0 ∨ completion.overlapped ≠ .recv) :
    Moves rightful.whole standsOutside (handleCompletion fuel completion) account
      fun account' _ => account' = account := by
  have accounting := living_accounting fuel
  have near {α : Type} {program : NetProgram α} (sends : Sends program) :
      program.Uses fun (op : Op) => op.unreceiving = true := sends.mono fun _ => unreceiving_of_sends
  unfold handleCompletion
  split
  · split
    next packet _ =>
      have handled := moves_outside (accounting.handleRequest completion.slot packet account held)
        (near (handleRequest_sends completion.slot packet))
      exact handled.bindTo fun _ => .done rfl
    next => exact .done rfl
  next something =>
    split
    · have handled := moves_outside (accounting.handleSend completion.slot completion.transfer account held something)
        (near (handleSend_sends completion.slot completion.transfer))
      exact handled.mono fun _ _ both => both.1
    next receives =>
      rcases other with nothing | different
      · exact absurd nothing something
      · exact absurd receives different
    · exact .done rfl

theorem received_of_recv {completion : Completion} (success : completion.success = true)
    (something : completion.transfer ≠ 0) (receives : completion.overlapped = .recv) :
    received completion = some completion.slot := by
  unfold received
  rw [receives]
  exact if_pos ⟨success, something⟩

theorem received_none {completion : Completion}
    (other : completion.success = false ∨ completion.transfer = 0 ∨ completion.overlapped ≠ .recv) :
    received completion = none := by
  unfold received
  split
  next receives =>
    refine if_neg fun both => ?_
    rcases other with failed | nothing | different
    · exact Bool.noConfusion (failed.symm.trans both.1)
    · exact both.2 nothing
    · exact different receives
  next => rfl

theorem workerThread_rightful :
    rightful.whole.Obeys (workerThread fuel) rightful.whole.start fun ghost _ => rightful.whole.finish ghost := by
  refine ⟨⟨rfl, trivial⟩, fun (completion : Completion) _ => ?_⟩
  have held : 1 ≤ (Account.empty.dequeue completion).owed completion.slot := by
    rw [Account.dequeue_owed]
    exact Account.held_add Account.empty completion.slot
  have returned (ghost : rightful.whole.Ghost) (outside : standsOutside (Account.empty.dequeue completion) ghost) :
      rightful.whole.Obeys (giveBack fuel completion.slot) ghost fun ghost _ => rightful.whole.finish ghost := by
    have gives := moves_outside ((living_accounting fuel).giveBack completion.slot _ held)
      ((giveBack_sends completion.slot).mono fun _ => unreceiving_of_sends)
    refine (gives ghost outside).mono ?_
    rintro ghost' _ ⟨account', there, _⟩
    exact ⟨there.1.2, trivial⟩
  have idle (other : received completion = none) :
      standsOutside (Account.empty.dequeue completion)
        (rightful.whole.track rightful.whole.start ⟨.getQueuedCompletionStatus, completion⟩) := by
    refine ⟨⟨rfl, rfl⟩, ?_⟩
    change Option.filter _ (received completion) = none
    rw [other]
    rfl
  change rightful.whole.Obeys (if completion.success then _ else _) _ _
  cases success : completion.success with
  | false => exact returned _ (idle (received_none (Or.inl success)))
  | true =>
      by_cases other : completion.transfer = 0 ∨ completion.overlapped ≠ .recv
      · refine (handleCompletion_standsOutside completion _ held other _ (idle (received_none (Or.inr other)))).bind ?_
        rintro ghost handled ⟨_, outside, rfl⟩
        cases handled with
        | true => exact returned ghost outside
        | false => exact ⟨outside.1.2, trivial⟩
      · rcases not_or.mp other with ⟨something, same⟩
        have receives : completion.overlapped = .recv := not_not.mp same
        have right := received_of_recv success something receives
        have receiving : (Account.empty.dequeue completion).receiving = some completion.slot :=
          dequeue_receiving right
        have program : handleCompletion fuel completion = handleRecv fuel completion.slot completion.transfer := by
          unfold handleCompletion
          rw [if_neg something, receives]
        have own : (Right.track ⟨.empty, .idle, none⟩ ⟨none, none, false, none⟩
            ⟨.getQueuedCompletionStatus, completion⟩).slot = some completion.slot := by
          change Option.filter (fun slot => decide ((Account.empty.dequeue completion).receiving = some slot))
            (received completion) = _
          rw [right, receiving]
          simp
        change rightful.whole.Obeys (handleCompletion fuel completion >>= _) _ _
        rw [program]
        refine (handleRecv_rightful completion.slot _ _ receiving none _ own rfl).bind ?_
        rintro ghost handled ⟨finished, outside⟩
        cases handled with
        | true => exact returned ghost (outside rfl)
        | false => exact ⟨finished, trivial⟩

theorem acceptThread_rightful :
    rightful.whole.Obeys (acceptThread fuel) rightful.whole.start fun ghost _ => rightful.whole.finish ghost := by
  refine ⟨⟨trivial, trivial⟩, fun (accepted : Option Nat) _ => ?_⟩
  cases accepted with
  | none => exact ⟨rfl, trivial⟩
  | some clientSock =>
      refine ⟨⟨rfl, trivial⟩, fun (popped : Option Slot) _ => ?_⟩
      cases popped with
      | none => exact ⟨⟨trivial, trivial⟩, fun _ _ => ⟨rfl, trivial⟩⟩
      | some index =>
          refine ⟨⟨trivial, trivial⟩, fun sessionCount _ => ?_⟩
          let sessionID := makeSessionId sessionCount index
          have own : getIndex sessionID = index := getIndex_makeSessionId sessionCount index
          have touches (account : Account) (held : Bool) :
              Position.touches ⟨account, .starting index sessionID held, none⟩ index :=
            Or.inr (Or.inr ⟨sessionID, held, rfl⟩)
          refine ⟨⟨⟨rfl, own⟩, trivial⟩, fun _ _ => ⟨⟨touches _ false, trivial⟩, fun _ _ => ?_⟩⟩
          refine ⟨⟨Or.inr (Or.inl ⟨sessionID, rfl⟩), trivial⟩, fun _ _ => ?_⟩
          refine ⟨⟨touches _ true, trivial⟩, fun _ _ => ⟨⟨touches _ true, trivial⟩, fun _ _ => ?_⟩⟩
          refine ⟨⟨⟨sessionID, rfl⟩, trivial⟩, fun _ _ => ⟨⟨⟨index, rfl⟩, trivial⟩, fun _ _ => ?_⟩⟩
          let account := (Account.empty.add index).receive (getIndex sessionID)
          have receiving : account.receiving = some index := by
            rw [← own]
            exact Account.receive_receiving _ _ (by rw [own]; exact Account.held_add _ _)
          have accounting := living_accounting fuel
          refine (moves_rightful true (accounting.registers sessionID account) (registers_asideOfRight sessionID) _
            ⟨⟨rfl, rfl⟩, ?_, rfl, rfl⟩).bind ?_
          · change Option.filter (fun slot => decide (account.receiving = some slot)) (some (getIndex sessionID)) = _
            rw [own, receiving]
            simp
          rintro ⟨⟨account', _, loaded⟩, right⟩ _ ⟨_, ⟨⟨same, rfl⟩, stays, counted, exhausted⟩, kept⟩
          have there : account' = account := same.trans kept
          rw [there]
          rw [kept, receiving] at stays
          refine (recvIo_rightful index account receiving loaded right ⟨stays, counted⟩ exhausted).bind ?_
          intro ghost _ outside
          have gives := moves_outside (accounting.giveBack index account (account.held index receiving))
            ((giveBack_sends index).mono fun _ => unreceiving_of_sends)
          refine (gives ghost outside).mono ?_
          rintro ghost' _ ⟨account', there, _⟩
          exact ⟨there.1.2, trivial⟩

end Functions

theorem jobs_rightful {workers contents : Nat} {settings : Settings} {thread : Thread workers contents}
    {job : Job} {program : NetProgram Unit} (chosen : jobProgram settings thread job = some program) :
    rightful.whole.Obeys program rightful.whole.start fun ghost _ => rightful.whole.finish ghost := by
  have accounting := living_accounting settings.fuel
  have finished {program : NetProgram Unit} {post : Account -> Unit -> Prop}
      (moves : Moves living standsAt program Account.empty post)
      (uses : program.Uses fun (op : Op) => op.registers = true) :
      rightful.whole.Obeys program rightful.whole.start fun ghost _ => rightful.whole.finish ghost := by
    have apart := uses.mono fun _ registers => (Bool.and_eq_true_iff.mp (aside_of_registers registers)).2
    refine (moves_outside moves apart _ ⟨⟨rfl, rfl⟩, rfl⟩).mono ?_
    rintro ghost _ ⟨account, outside, _⟩
    exact ⟨outside.1.2, trivial⟩
  cases thread <;> cases job <;> cases chosen
  case accept.loop => exact acceptThread_rightful
  case worker.loop => exact workerThread_rightful
  case timeout.loop =>
      exact finished (accounting.update settings.timeoutThreshold Account.empty)
        (update_registers settings.timeoutThreshold)
  case content.call call =>
      exact finished (accounting.contentCall call Account.empty)
        ((contentCall_requests call).mono fun _ => registers_of_requests)

end Network
end LoginServer
