import LoginServer.Network.Accounting

namespace LoginServer
namespace Network

open Memory Buffers Receiving Login Concurrency

/-!
# The life of a session

An index is popped, the session in its slot is initialised, announced with
`OnNewConnect`, and used, until a compare-exchange finds its count at zero.
The winner clears the session, pushes the index, and calls `OnDisconnect`,
possibly when the slot is in use again.

`Life` is this course of a slot as an automaton over the events of all threads.
`living` is the part a single thread plays in it.
-/

/-! ## Slots -/

/-- Where a slot stands. -/
inductive Phase (Actor : Type) where
  /-- Beyond `maxSession`. -/
  | absent
  /-- In `indexStack`, and used before or not. -/
  | stacked (used : Bool)
  /-- Popped, and given an ID or not. -/
  | starting (used : Bool) (id : Option SessionID)
  /-- In use, and announced or not. -/
  | running (id : SessionID) (introduced : Bool)
  /-- Won by a compare-exchange, and not pushed yet. -/
  | deleting (actor : Actor) (id : SessionID)

/-- A slot, and the threads that have pushed it but not called `OnDisconnect`. -/
structure Life (Actor : Type) where
  phase : Phase Actor
  leaving : Actor -> Option SessionID

namespace Phase

variable {Actor : Type}

def isStacked : Phase Actor -> Bool
  | .stacked _ => true
  | _ => false

/-- The session in the slot has been in use. -/
def used : Phase Actor -> Bool
  | .absent => false
  | .stacked used => used
  | .starting used _ => used
  | .running _ _ => true
  | .deleting _ _ => true

/-- The deleted bit is known to be set. -/
def marked : Phase Actor -> Bool
  | .running _ _ => false
  | phase => phase.used

def isRunning : Phase Actor -> Bool
  | .running _ _ => true
  | _ => false

theorem isRunning_of_used {phase : Phase Actor} (used : phase.used = true)
    (unmarked : phase.marked = false) : phase.isRunning = true := by
  cases phase with
  | running id introduced => rfl
  | _ => exact Bool.noConfusion (used.symm.trans unmarked)

theorem used_of_isRunning {phase : Phase Actor} (running : phase.isRunning = true) :
    phase.used = true := by
  cases phase with
  | running id introduced => rfl
  | _ => exact Bool.noConfusion running

end Phase

section Lives

variable {Actor : Type} [DecidableEq Actor]

/-- What an event of a thread does to a slot; `none` when it is out of order. -/
def Life.next (life : Life Actor) (slot : Slot) (actor : Actor) : Event interface -> Option (Life Actor)
  | ⟨.popIndex, popped⟩ =>
      if popped = some slot then
        match life.phase with
        | .stacked used => some { life with phase := .starting used none }
        | _ => none
      else some life
  | ⟨.session target (.storeId id), _⟩ =>
      if target = slot then
        match life.phase with
        | .starting used none =>
            if getIndex id = slot then some { life with phase := .starting used (some id) } else none
        | _ => none
      else some life
  | ⟨.session target .clearDeleted, _⟩ =>
      if target = slot then
        match life.phase with
        | .starting _ (some id) => some { life with phase := .running id false }
        | _ => none
      else some life
  | ⟨.mark (.onNewConnect id), _⟩ =>
      if getIndex id = slot then
        match life.phase with
        | .running own false => if id = own then some { life with phase := .running own true } else none
        | _ => none
      else some life
  | ⟨.mark (.onRecv target id), _⟩ =>
      if target = slot then
        match life.phase with
        | .running own true => if id = own then some life else none
        | _ => none
      else some life
  | ⟨.session target .compareExchangeIo, previous⟩ =>
      if target = slot ∧ IoCount.isZero previous = true then
        match life.phase with
        | .running own true => some { life with phase := .deleting actor own }
        | _ => none
      else some life
  | ⟨.pushIndex index, _⟩ =>
      if index = slot then
        match life.phase with
        | .deleting winner own =>
            if winner = actor then
              some ⟨.stacked true, Function.update life.leaving actor (some own)⟩
            else none
        | _ => none
      else some life
  | ⟨.mark (.onDisconnect id), _⟩ =>
      if getIndex id = slot then
        if life.leaving actor = some id then
          some { life with leaving := Function.update life.leaving actor none }
        else none
      else some life
  | _ => some life

/-- A slot at the start. -/
def Life.initial (maxSession : Nat) (slot : Slot) : Life Actor where
  phase := if slot.toNat < maxSession then .stacked false else .absent
  leaving := fun _ => none

/-- A slot after the events of a run, if they were in order. -/
def lifeAfter (maxSession : Nat) (slot : Slot) : List (Actor × Event interface) -> Option (Life Actor)
  | [] => some (Life.initial maxSession slot)
  | (actor, event) :: earlier =>
      (lifeAfter maxSession slot earlier).bind fun life => life.next slot actor event

end Lives

/-! ## Threads -/

/-- Where a thread stands in the life of a session. -/
inductive Stage where
  | idle
  /-- `findSession` is about to take a hold. -/
  | looking (slot : Slot)
  /-- It has taken it from a deleted session. -/
  | refused (slot : Slot)
  /-- A hold was given back and the count was zero. -/
  | emptied (slot : Slot)
  | deleting (slot : Slot)
  | deletingAs (slot : Slot) (id : SessionID)
  | leaving (id : SessionID)
  | popped (slot : Slot)
  | starting (slot : Slot) (id : SessionID) (held : Bool)
  | introducing (slot : Slot) (id : SessionID)

namespace Stage

/-- The slot it is about. -/
def slot : Stage -> Option Slot
  | .idle => none
  | .looking slot => some slot
  | .refused slot => some slot
  | .emptied slot => some slot
  | .deleting slot => some slot
  | .deletingAs slot _ => some slot
  | .leaving id => some (getIndex id)
  | .popped slot => some slot
  | .starting slot _ _ => some slot
  | .introducing slot _ => some slot

/-- A hold of the thread that does not keep the session in use. -/
def extra (slot : Slot) : Stage -> Nat
  | .refused target => if target = slot then 1 else 0
  | .starting target _ held => if target = slot ∧ held = true then 1 else 0
  | _ => 0

def track (stage : Stage) : Event interface -> Stage
  | ⟨.mark (.findSession id), _⟩ => .looking (getIndex id)
  | ⟨.session slot .incrementIo, count⟩ =>
      match stage with
      | .looking _ => if IoCount.deleted count = true then .refused slot else .idle
      | .starting _ id _ => .starting slot id true
      | _ => stage
  | ⟨.session slot .decrementIo, count⟩ => if IoCount.isZero count = true then .emptied slot else .idle
  | ⟨.session slot .compareExchangeIo, previous⟩ =>
      if IoCount.isZero previous = true then .deleting slot else .idle
  | ⟨.session _ .loadId, id⟩ =>
      match stage with
      | .deleting slot => .deletingAs slot id
      | _ => stage
  | ⟨.pushIndex _, _⟩ =>
      match stage with
      | .deletingAs _ id => .leaving id
      | _ => stage
  | ⟨.mark (.onDisconnect _), _⟩ => .idle
  | ⟨.popIndex, some slot⟩ => .popped slot
  | ⟨.session slot (.storeId id), _⟩ => .starting slot id false
  | ⟨.session slot .clearDeleted, _⟩ =>
      match stage with
      | .starting _ id _ => .introducing slot id
      | _ => stage
  | ⟨.mark (.onNewConnect _), _⟩ => .idle
  | _ => stage

end Stage

def Account.change (account : Account) : Option (Slot × Bool) -> Account
  | some (slot, true) => account.add slot
  | some (slot, false) => account.remove slot
  | none => account

def Account.track (account : Account) (event : Event interface) : Account :=
  match event with
  | ⟨.getQueuedCompletionStatus, completion⟩ => account.dequeue completion
  | ⟨.mark (.onNewConnect id), _⟩ => account.receive (getIndex id)
  | event => account.change (holdChange event)

/-- The ID last read from a session, as long as no hold was taken or given away. -/
def loadedAfter (loaded : Option (Slot × SessionID)) (event : Event interface) :
    Option (Slot × SessionID) :=
  match event with
  | ⟨.session slot .loadId, id⟩ => some (slot, id)
  | ⟨.session _ .clearDeleted, _⟩ => none
  | event =>
      match holdChange event with
      | some _ => none
      | none => loaded

structure Position where
  account : Account
  stage : Stage
  loaded : Option (Slot × SessionID)

namespace Position

def track (position : Position) (event : Event interface) : Position where
  account := position.account.track event
  stage := position.stage.track event
  loaded := loadedAfter position.loaded event

/-- The thread has a hold that keeps the session in use. -/
def solid (position : Position) (slot : Slot) : Prop :=
  position.stage.extra slot < position.account.owed slot

/-- The thread may work on the session: it keeps it in use, deletes it, or
initialises it. -/
def touches (position : Position) (slot : Slot) : Prop :=
  (position.stage = .idle ∧ 1 ≤ position.account.owed slot) ∨
    (Exists fun id => position.stage = .deletingAs slot id) ∨
    Exists fun id => Exists fun held => position.stage = .starting slot id held

end Position

/-- What a thread may do where it stands. -/
def living : Discipline interface where
  Ghost := Position
  start := ⟨.empty, .idle, none⟩
  track := Position.track
  permits := fun position op =>
    match op with
    | .mark (.findSession _) => position.stage = .idle
    | .session slot .incrementIo =>
        position.stage = .looking slot ∨ (Exists fun id => position.stage = .starting slot id false) ∨
          (position.stage = .idle ∧ 1 ≤ position.account.owed slot)
    | .session slot .decrementIo =>
        1 ≤ position.account.owed slot ∧ (position.stage = .idle ∨ position.stage = .refused slot)
    | .session slot .compareExchangeIo => position.stage = .emptied slot
    | .session slot .loadId =>
        position.stage = .deleting slot ∨ (position.stage = .idle ∧ 1 ≤ position.account.owed slot)
    | .session slot (.storeId id) => position.stage = .popped slot ∧ getIndex id = slot
    | .session slot .clearDeleted => Exists fun id => position.stage = .starting slot id true
    | .session slot (.wsaSend _) => position.stage = .idle ∧ 1 ≤ position.account.owed slot
    | .session slot (.wsaRecv _) =>
        position.stage = .idle ∧ position.account.receiving = some slot
    | .session slot _ => position.touches slot
    | .postQueuedCompletionStatus slot _ =>
        position.stage = .idle ∧ 1 ≤ position.account.owed slot
    | .getQueuedCompletionStatus => position.stage = .idle
    | .popIndex => position.stage = .idle
    | .pushIndex index => Exists fun slot => Exists fun id =>
        position.stage = .deletingAs slot id ∧ index = getIndex id
    | .mark (.onNewConnect id) => Exists fun slot => position.stage = .introducing slot id
    | .mark (.onRecv slot id) =>
        position.stage = .idle ∧ position.account.receiving = some slot ∧
          position.loaded = some (slot, id)
    | .mark (.onDisconnect id) => position.stage = .leaving id
    | _ => True
  expects := fun _ _ => True
  finish := fun position => position.stage = .idle
  finish_start := rfl

/-- The holds of a position are those of `holds`. -/
theorem Account.track_owed (account : Account) (event : Event interface) :
    (account.track event).owed = account.owed.track event := by
  rcases event with ⟨op, answer⟩
  cases op with
  | getQueuedCompletionStatus => exact account.dequeue_owed answer
  | mark note => cases note <;> first | rfl | exact account.receive_owed _
  | session slot op =>
      cases op with
      | wsaSend batch => cases answer <;> rfl
      | wsaRecv buffers => cases answer <;> rfl
      | _ => rfl
  | _ => rfl

theorem living_owed (past : List (Event interface)) :
    (living.ghost past).account.owed = (holds true).ghost past :=
  Discipline.map_ghost (D := holds true) (E := living) (fun position => position.account.owed) rfl
    (fun position event => position.account.track_owed event) past

/-! ## Functions -/

section Functions

variable {fuel : Nat} {α : Type}

theorem living_local {slot : Slot} {program : NetProgram α} (near : Local slot program)
    {position : Position} (touches : position.touches slot) : living.Keeps program position := by
  refine Discipline.keeps_of_uses (D := living) near ?_ ?_
  · intro op isLocal
    cases op with
    | session target op =>
        rcases Bool.and_eq_true_iff.mp isLocal with ⟨same, quiet⟩
        rw [beq_iff_eq.mp same]
        cases op <;> first | exact touches | exact Bool.noConfusion quiet
    | mark note => exact Bool.noConfusion isLocal
    | _ => first | exact Bool.noConfusion isLocal | trivial
  · intro op answer isLocal
    cases op with
    | session target op =>
        have quiet := (Bool.and_eq_true_iff.mp isLocal).2
        cases op <;> first | rfl | exact Bool.noConfusion quiet
    | _ => first | rfl | exact Bool.noConfusion isLocal

/-- `OnDisconnect`, and the stage before it. -/
theorem onDisconnect_living (account : Account) (id : SessionID) (loaded : Option (Slot × SessionID)) :
    living.Obeys (onDisconnect id) ⟨account, .leaving id, loaded⟩
      fun position _ => position.account = account ∧ position.stage = .idle :=
  ⟨rfl, fun _ _ => ⟨trivial, fun _ _ => ⟨trivial, fun _ _ => ⟨trivial, fun _ _ => ⟨rfl, rfl⟩⟩⟩⟩⟩

theorem deleteSession_living (slot : Slot) (account : Account) (loaded : Option (Slot × SessionID)) :
    living.Obeys (deleteSession fuel slot) ⟨account, .emptied slot, loaded⟩
      fun position _ => position.account = account ∧ position.stage = .idle := by
  refine ⟨rfl, fun (previous : IoCount) _ => ?_⟩
  change living.Obeys (if previous.isZero then _ else _)
    (Position.mk account (if previous.isZero = true then .deleting slot else .idle) loaded) _
  by_cases zero : previous.isZero = true
  · rw [if_pos zero, if_pos zero]
    refine ⟨Or.inl rfl, fun (targetID : SessionID) _ => ?_⟩
    change living.Obeys _ (Position.mk account (.deletingAs slot targetID) (some (slot, targetID))) _
    have touches : Position.touches ⟨account, .deletingAs slot targetID, some (slot, targetID)⟩ slot :=
      Or.inr (Or.inl ⟨targetID, rfl⟩)
    refine ⟨touches, fun sock _ => ⟨trivial, fun closed _ => ?_⟩⟩
    refine (living_local (bufferClear_local fuel slot) touches).bindTo fun _ => ?_
    refine ⟨⟨slot, targetID, rfl, rfl⟩, fun _ _ => ?_⟩
    exact onDisconnect_living account targetID _
  · rw [if_neg zero, if_neg zero]
    exact ⟨rfl, rfl⟩

/-- Where a thread stands between the functions. -/
abbrev standsAt (account : Account) (position : living.Ghost) : Prop :=
  Position.account position = account ∧ Position.stage position = .idle

theorem giveBack_living (slot : Slot) {position : Position}
    (held : 1 ≤ position.account.owed slot)
    (stage : position.stage = .idle ∨ position.stage = .refused slot) :
    living.Obeys (giveBack fuel slot) position
      fun position' _ => standsAt (position.account.remove slot) position' := by
  refine ⟨⟨held, stage⟩, fun (count : IoCount) _ => ?_⟩
  change living.Obeys (if count.isZero then _ else _)
    (Position.mk (position.account.remove slot)
      (if count.isZero = true then .emptied slot else .idle) none) _
  by_cases zero : count.isZero = true
  · rw [if_pos zero, if_pos zero]
    exact deleteSession_living slot (position.account.remove slot) none
  · rw [if_neg zero, if_neg zero]
    exact ⟨rfl, rfl⟩

/-- Local operations, with a hold. -/
theorem local_stands {slot : Slot} {program : NetProgram α} (near : Local slot program)
    {position : Position} (stage : position.stage = .idle) (held : 1 ≤ position.account.owed slot) :
    living.Keeps program position := living_local near (Or.inl ⟨stage, held⟩)

theorem findSession_living (sessionID : SessionID) (account : Account) :
    Moves living standsAt (findSession fuel sessionID) account fun account' found =>
      match found with
      | none => account' = account
      | some slot => account' = account.add slot := by
  rintro ⟨account, _, loaded⟩ ⟨rfl, rfl⟩
  refine ⟨rfl, fun _ _ => ⟨Or.inl rfl, fun (temp : IoCount) _ => ?_⟩⟩
  change living.Obeys (if temp.deleted then _ else _) (Position.mk (account.add (getIndex sessionID))
    (if temp.deleted = true then .refused (getIndex sessionID) else .idle) none) _
  have held := account.held_add (getIndex sessionID)
  have returned (position : Position) (same : position.account = account.add (getIndex sessionID))
      (stage : position.stage = .idle ∨ position.stage = .refused (getIndex sessionID)) :
      living.Obeys (giveBack fuel (getIndex sessionID)) position
        fun position' _ => standsAt account position' := by
    refine (giveBack_living (getIndex sessionID) (by rw [same]; exact held) stage).mono ?_
    intro position' _ stands
    rw [same, Account.remove_add] at stands
    exact stands
  by_cases deleted : temp.deleted = true
  · rw [if_pos deleted, if_pos deleted]
    refine (returned _ rfl (Or.inr rfl)).bind ?_
    intro position' _ stands
    exact ⟨account, stands, rfl⟩
  · rw [if_neg deleted, if_neg deleted]
    refine ⟨Or.inr ⟨rfl, held⟩, fun (id : SessionID) _ => ?_⟩
    change living.Obeys (if id ≠ sessionID then _ else _) _ _
    split
    · refine (returned _ rfl (Or.inl rfl)).bind ?_
      intro position' _ stands
      exact ⟨account, stands, rfl⟩
    · exact ⟨account.add (getIndex sessionID), ⟨rfl, rfl⟩, rfl⟩

theorem post_living (slot : Slot) (packet : Packet) (account : Account) (held : 1 ≤ account.owed slot) :
    Balances living standsAt (do
      let _ ← sessionOp slot .incrementIo
      netOp (.postQueuedCompletionStatus slot packet)) account := by
  rintro ⟨account, _, loaded⟩ ⟨rfl, rfl⟩
  refine ⟨Or.inr (Or.inr ⟨rfl, held⟩), fun _ _ => ⟨⟨rfl, account.held_add slot⟩, fun _ _ => ?_⟩⟩
  exact ⟨account, ⟨account.remove_add slot, rfl⟩, rfl⟩

/-- The second check, and the cancellation that may follow. -/
theorem recheck_local (slot : Slot) (direction : Direction) : Local slot (do
    if ← sessionOp slot .loadCancelIoFlag then
      let _ ← sessionOp slot (.cancelIoEx direction)
      return
    else return) := by
  refine ⟨localTo_session rfl, fun (cancelled : Bool) => ?_⟩
  cases cancelled with
  | true => exact ⟨localTo_session rfl, fun _ => trivial⟩
  | false => trivial

theorem recheck_living (slot : Slot) (direction : Direction) (account : Account)
    (held : 1 ≤ account.owed slot) :
    living.Obeys (do
      if ← sessionOp slot .loadCancelIoFlag then
        let _ ← sessionOp slot (.cancelIoEx direction)
        return
      else return) (Position.mk account .idle none)
      fun position _ => Exists fun account' => standsAt account' position ∧ account' = account := by
  refine (living_local (recheck_local slot direction) (Or.inl ⟨rfl, held⟩)).mono ?_
  rintro position _ rfl
  exact ⟨account, ⟨rfl, rfl⟩, rfl⟩

/-- After a failed issue, the hold taken for it is given back. -/
theorem abandon_living (slot : Slot) (direction : Direction) (account : Account) :
    living.Obeys (do
      sessionOp slot (.storeCancelIoFlag true)
      let _ ← sessionOp slot (.cancelIoEx direction)
      giveBack fuel slot) (Position.mk (account.add slot) .idle none)
      fun position _ => standsAt account position := by
  have held := account.held_add slot
  refine ⟨Or.inl ⟨rfl, held⟩, fun _ _ => ⟨Or.inl ⟨rfl, held⟩, fun _ _ => ?_⟩⟩
  refine (giveBack_living slot held (Or.inl rfl)).mono ?_
  intro position _ stands
  have back : standsAt ((account.add slot).remove slot) position := stands
  rw [Account.remove_add] at back
  exact back

theorem recvIo_living (slot : Slot) (account : Account) (receiving : account.receiving = some slot) :
    Balances living standsAt (recvIo fuel slot) account := by
  rintro ⟨account, _, loaded⟩ ⟨rfl, rfl⟩
  have held := account.held slot receiving
  have touches : Position.touches ⟨account, .idle, loaded⟩ slot := Or.inl ⟨rfl, held⟩
  refine ⟨touches, fun (cancelled : Bool) _ => ?_⟩
  cases cancelled with
  | true => exact ⟨account, ⟨rfl, rfl⟩, rfl⟩
  | false =>
      refine ⟨touches, fun buffer _ => ⟨Or.inr (Or.inr ⟨rfl, held⟩), fun _ _ => ?_⟩⟩
      refine ⟨⟨rfl, receiving⟩, fun (result : IoResult) _ => ?_⟩
      have back := account.remove_add slot
      cases result with
      | success => exact ⟨account, ⟨back, rfl⟩, rfl⟩
      | pending =>
          change living.Obeys _ (Position.mk ((account.add slot).remove slot) .idle none) _
          rw [back]
          exact recheck_living slot .recv account held
      | error code =>
          refine (abandon_living slot .send account).mono ?_
          intro position _ stands
          exact ⟨account, stands, rfl⟩

theorem sendIo_living (slot : Slot) (account : Account) (held : 1 ≤ account.owed slot) :
    Balances living standsAt (sendIo fuel slot) account := by
  rintro ⟨account, _, loaded⟩ ⟨rfl, rfl⟩
  have touches : Position.touches ⟨account, .idle, loaded⟩ slot := Or.inl ⟨rfl, held⟩
  refine ⟨touches, fun (cancelled : Bool) _ => ?_⟩
  cases cancelled with
  | true => exact ⟨account, ⟨rfl, rfl⟩, rfl⟩
  | false =>
      refine ⟨touches, fun (busy : Bool) _ => ?_⟩
      cases busy with
      | true => exact ⟨account, ⟨rfl, rfl⟩, rfl⟩
      | false =>
          refine ⟨touches, fun (sendBufferSize : Int) _ => ?_⟩
          change living.Obeys (if sendBufferSize = 0 then _ else _) (Position.mk account .idle loaded) _
          split
          · exact ⟨touches, fun _ _ => ⟨account, ⟨rfl, rfl⟩, rfl⟩⟩
          refine ⟨Or.inr (Or.inr ⟨rfl, held⟩), fun _ _ => ?_⟩
          have taken : living.Keeps (gather slot (Serializer.sizeT sendBufferSize) fuel [])
              (Position.mk (account.add slot) .idle none) :=
            local_stands (gather_local slot _ fuel []) rfl (account.held_add slot)
          refine taken.bindTo fun buffer => ?_
          refine ⟨⟨rfl, account.held_add slot⟩, fun (result : IoResult) _ => ?_⟩
          have back := account.remove_add slot
          cases result with
          | success => exact ⟨account, ⟨back, rfl⟩, rfl⟩
          | pending =>
              change living.Obeys _ (Position.mk ((account.add slot).remove slot) .idle none) _
              rw [back]
              exact recheck_living slot .send account held
          | error code =>
              have rest : living.Obeys (do
                  sessionOp slot (.storeCancelIoFlag true)
                  let _ ← sessionOp slot (.cancelIoEx .recv)
                  giveBack fuel slot) (Position.mk (account.add slot) .idle none)
                  fun position _ => Exists fun account' =>
                    standsAt account' position ∧ account' = account := by
                refine (abandon_living slot .recv account).mono ?_
                intro position _ stands
                exact ⟨account, stands, rfl⟩
              change living.Obeys (if connectionLost code then _ else _)
                (Position.mk (account.add slot) .idle none) _
              split
              · exact rest
              · exact ⟨Or.inl ⟨rfl, account.held_add slot⟩, fun _ _ => rest⟩

theorem handleRequest_living (slot : Slot) (packet : Packet) (account : Account)
    (held : 1 ≤ account.owed slot) :
    Balances living standsAt (handleRequest fuel slot packet) account := by
  have pushed : Balances living standsAt (push slot packet) account := by
    rintro ⟨account, _, loaded⟩ ⟨rfl, rfl⟩
    refine (local_stands (push_local slot packet) rfl held).mono ?_
    rintro position _ rfl
    exact ⟨account, ⟨rfl, rfl⟩, rfl⟩
  refine pushed.bindTo fun collected => ?_
  cases collected with
  | true => exact sendIo_living slot account held
  | false =>
      rintro ⟨account, _, loaded⟩ ⟨rfl, rfl⟩
      refine (local_stands (releaseSerializer_local slot _) rfl held).mono ?_
      rintro position _ rfl
      exact ⟨account, ⟨rfl, rfl⟩, rfl⟩

theorem handleSend_living (slot : Slot) (transfer : BitVec 32) (account : Account)
    (held : 1 ≤ account.owed slot) : Balances living standsAt (handleSend fuel slot transfer) account := by
  rintro ⟨account, _, loaded⟩ ⟨rfl, rfl⟩
  refine ⟨Or.inr ⟨rfl, held⟩, fun id _ => ⟨trivial, fun _ _ => ?_⟩⟩
  change living.Obeys _ (Position.mk account .idle (some (slot, id))) _
  have counted : living.Keeps (sended fuel slot transfer) (Position.mk account .idle (some (slot, id))) :=
    local_stands (sended_local fuel slot transfer) rfl held
  refine counted.bindTo fun tp => ?_
  split
  · exact ⟨trivial, fun _ _ => ⟨account, ⟨rfl, rfl⟩, rfl⟩⟩
  have touches : Position.touches ⟨account, .idle, some (slot, id)⟩ slot := Or.inl ⟨rfl, held⟩
  refine ⟨touches, fun _ _ => ⟨touches, fun (size : Int) _ => ?_⟩⟩
  change living.Obeys (if size > 0 then _ else _) (Position.mk account .idle (some (slot, id))) _
  split
  · exact (sendIo_living slot account held _ ⟨rfl, rfl⟩).bind fun _ _ stands => stands
  · exact ⟨account, ⟨rfl, rfl⟩, rfl⟩

theorem living_accounting (fuel : Nat) : Accounting living standsAt fuel true where
  idle := by
    rintro op account idle ⟨account, _, loaded⟩ ⟨rfl, rfl⟩
    cases op with
    | mark note =>
        cases note <;> first
          | exact ⟨trivial, fun _ _ => ⟨account, ⟨rfl, rfl⟩, rfl⟩⟩
          | exact Bool.noConfusion idle
    | _ => first
      | exact ⟨trivial, fun _ _ => ⟨account, ⟨rfl, rfl⟩, rfl⟩⟩
      | exact Bool.noConfusion idle
  touch := by
    rintro slot op account idle held ⟨account, _, loaded⟩ ⟨rfl, rfl⟩
    have touches : Position.touches ⟨account, .idle, loaded⟩ slot := Or.inl ⟨rfl, held⟩
    cases op <;> first
      | exact ⟨touches, fun _ _ => ⟨account, ⟨rfl, rfl⟩, rfl⟩⟩
      | exact Bool.noConfusion idle
  dequeue := by
    rintro account ⟨account, _, loaded⟩ ⟨rfl, rfl⟩
    exact ⟨rfl, fun completion _ => ⟨_, ⟨rfl, rfl⟩, rfl⟩⟩
  findSession := findSession_living
  giveBack := by
    rintro slot account held ⟨account, _, loaded⟩ ⟨rfl, rfl⟩
    refine (giveBack_living slot held (Or.inl rfl)).mono ?_
    intro position _ stands
    exact ⟨_, stands, rfl⟩
  post := post_living
  recvIo := recvIo_living
  recved := by
    rintro slot transfer account held _ ⟨account, _, loaded⟩ ⟨rfl, rfl⟩
    exact ⟨Or.inl ⟨rfl, held⟩, fun _ _ => ⟨account, ⟨rfl, rfl⟩, rfl, by simp⟩⟩
  enterOnRecv := by
    rintro slot account receiving ⟨account, _, loaded⟩ ⟨rfl, rfl⟩
    refine ⟨Or.inr ⟨rfl, account.held slot receiving⟩, fun id _ => ?_⟩
    exact ⟨⟨rfl, receiving, rfl⟩, fun _ _ => ⟨account, ⟨rfl, rfl⟩, rfl⟩⟩
  handleRequest := handleRequest_living
  handleSend := fun slot transfer account held _ =>
    (handleSend_living slot transfer account held).mono fun _ _ same => ⟨same, by simp⟩

end Functions

/-! ## Jobs -/

theorem acceptThread_living (fuel : Nat) :
    living.Obeys (acceptThread fuel) (Position.mk .empty .idle none)
      fun position _ => position.stage = .idle := by
  refine ⟨trivial, fun (accepted : Option Nat) _ => ?_⟩
  cases accepted with
  | none => rfl
  | some clientSock =>
      refine ⟨rfl, fun (popped : Option Slot) _ => ?_⟩
      cases popped with
      | none => exact ⟨trivial, fun _ _ => rfl⟩
      | some index =>
          refine ⟨trivial, fun sessionCount _ => ?_⟩
          let sessionID := makeSessionId sessionCount index
          have own : getIndex sessionID = index := getIndex_makeSessionId sessionCount index
          have touches (account : Account) (held : Bool) :
              Position.touches ⟨account, .starting index sessionID held, none⟩ index :=
            Or.inr (Or.inr ⟨sessionID, held, rfl⟩)
          refine ⟨⟨rfl, own⟩, fun _ _ => ⟨touches _ false, fun _ _ => ?_⟩⟩
          refine ⟨Or.inr (Or.inl ⟨sessionID, rfl⟩), fun _ _ => ?_⟩
          refine ⟨touches _ true, fun _ _ => ⟨touches _ true, fun _ _ => ?_⟩⟩
          refine ⟨⟨sessionID, rfl⟩, fun _ _ => ⟨⟨index, rfl⟩, fun _ _ => ?_⟩⟩
          let account := (Account.empty.add index).receive (getIndex sessionID)
          change living.Obeys _ (Position.mk account .idle none) _
          have receiving : account.receiving = some index := by
            rw [← own]
            exact Account.receive_receiving _ _ (by rw [own]; exact Account.held_add _ _)
          have accounting := living_accounting fuel
          refine (accounting.registers sessionID account _ ⟨rfl, rfl⟩).bind ?_
          rintro position _ ⟨_, stands, rfl⟩
          refine (accounting.recvIo index account receiving position stands).bind ?_
          rintro position' _ ⟨_, there, rfl⟩
          refine (accounting.giveBack index account (account.held index receiving) position' there).mono ?_
          rintro position _ ⟨_, finished, _⟩
          exact finished.2

theorem jobs_living {workers contents : Nat} {settings : Settings} {thread : Thread workers contents}
    {job : Job} {program : NetProgram Unit} (chosen : jobProgram settings thread job = some program) :
    living.Obeys program (Position.mk .empty .idle none) fun position _ => position.stage = .idle := by
  have accounting := living_accounting settings.fuel
  have finished {program : NetProgram Unit} {post : Account -> Unit -> Prop}
      (moves : Moves living standsAt program Account.empty post) :
      living.Obeys program (Position.mk .empty .idle none) fun position _ => position.stage = .idle := by
    refine (moves _ ⟨rfl, rfl⟩).mono ?_
    rintro position _ ⟨_, stands, _⟩
    exact stands.2
  cases thread <;> cases job <;> cases chosen
  case accept.loop => exact acceptThread_living settings.fuel
  case worker.loop => exact finished accounting.workerThread
  case timeout.loop => exact finished (accounting.update settings.timeoutThreshold Account.empty)
  case content.call => exact finished (accounting.contentCall _ Account.empty)

end Network
end LoginServer
