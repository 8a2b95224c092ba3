import LoginServer.Network.Footprints
import LoginServer.Network.Handout

namespace LoginServer
namespace Network

open Memory Buffers Receiving Login Concurrency

/-!
# Rejected sessions

`OnRecv` rejects a frame with a call of `disconnectReq`.  The flag that this
sets keeps `recvIO` from asking for more, but the loop that hands the received
frames to `OnRecv` does not look at it: a frame behind the rejected one, in the
same completion, is handled like any other.

A worker that handles a receive completion is the only one to receive for the
session, from there to its next `WSARecv`.  The layer `reviewing` follows this
right, and what `OnRecv` has come to with the present frame.
-/

/-! ## What `OnRecv` does with a frame -/

/-- The tests of `OnRecv` that a frame can fail: checksum and type. -/
def turnsAway (packet : Serializer) : Bool :=
  let (_code, packet) := packet.extractChar
  let (_payloadSize, packet) := packet.extractShort
  let (_key, packet) := packet.extractChar
  let (valid, packet) := packet.decryption getStatickey
  let (_checkSum, packet) := packet.extractChar
  let (type, _packet) := packet.extractUnsignedShort
  !valid || type != 101

/-- How far the callback is with a frame, and for which session. -/
inductive Handling where
  | away
  | reading (slot : Slot) (id : SessionID)
  /-- The key has been written to Redis. -/
  | accepting (slot : Slot) (id : SessionID)
  /-- `disconnectReq` has been called. -/
  | rejecting (slot : Slot) (id : SessionID)

namespace Handling

def session : Handling -> Option (Slot × SessionID)
  | .away => none
  | .reading slot id => some (slot, id)
  | .accepting slot id => some (slot, id)
  | .rejecting slot id => some (slot, id)

/-- The session a frame is handled for. -/
def slot (handling : Handling) : Option Slot := handling.session.map Prod.fst

def track (handling : Handling) : Event interface -> Handling
  | ⟨.mark (.onRecv slot id), _⟩ => .reading slot id
  | ⟨.session _ (.recvedPacket _), _⟩ => .away
  | ⟨.login (.redisSet _ _ _), _⟩ =>
      match handling with
      | .reading slot id => .accepting slot id
      | _ => handling
  | ⟨.mark (.findSession _), _⟩ =>
      match handling with
      | .reading slot id => .rejecting slot id
      | _ => handling
  | _ => handling

def isReading : Handling -> Bool
  | .reading _ _ => true
  | _ => false

/-- It has rejected a frame of the session. -/
def rejects (slot : Slot) : Handling -> Bool
  | .rejecting target _ => target == slot
  | _ => false

end Handling

/-! ## Rejections in the course of a run -/

/-- A key is written, or a response handed over. -/
def answers : Event interface -> Bool
  | ⟨.login (.redisSet _ _ _), _⟩ => true
  | ⟨.postQueuedCompletionStatus _ _, _⟩ => true
  | _ => false

/-- A session is asked for.  A callback that has not written a key does so only to
disconnect it. -/
def asks : Event interface -> Bool
  | ⟨.mark (.findSession _), _⟩ => true
  | _ => false

def introduces (slot : Slot) : Event interface -> Bool
  | ⟨.mark (.onNewConnect id), _⟩ => getIndex id == slot
  | _ => false

/-- What has become of the frames of the session in each slot.  `OnNewConnect` begins
another session. -/
structure Verdicts (Actor : Type) where
  handling : Actor -> Handling
  /-- A frame of the session has been rejected. -/
  rejected : Slot -> Bool
  /-- After that, a key was written or a response sent for a frame. -/
  late : Slot -> Bool

section Histories

variable {Actor : Type} [DecidableEq Actor]

def Verdicts.start : Verdicts Actor := ⟨fun _ => .away, fun _ => false, fun _ => false⟩

def Verdicts.next (verdicts : Verdicts Actor) (actor : Actor) (event : Event interface) : Verdicts Actor where
  handling := Function.update verdicts.handling actor ((verdicts.handling actor).track event)
  rejected := fun slot =>
    (verdicts.rejected slot && !introduces slot event) ||
      (asks event && (verdicts.handling actor).isReading && (verdicts.handling actor).slot == some slot)
  late := fun slot =>
    verdicts.late slot ||
      (verdicts.rejected slot && answers event && (verdicts.handling actor).slot == some slot)

/-- The verdicts after the events of a run. -/
def verdictsAfter : List (Actor × Event interface) -> Verdicts Actor
  | [] => Verdicts.start
  | (actor, event) :: earlier => (verdictsAfter earlier).next actor event

end Histories

/-! ## The layer -/

/-- The session a completion gives the right to receive for. -/
def received (completion : Completion) : Option Slot :=
  match completion.overlapped with
  | .recv => if completion.success = true ∧ completion.transfer ≠ 0 then some completion.slot else none
  | _ => none

/-- The right to receive after an event.  It ends with a `WSARecv`, or when the flag
forbids one. -/
def tokenAfter (token : Option Slot) : Event interface -> Option Slot
  | ⟨.getQueuedCompletionStatus, completion⟩ => received completion
  | ⟨.mark (.onNewConnect id), _⟩ => some (getIndex id)
  | ⟨.session _ (.wsaRecv _), _⟩ => none
  | ⟨.session _ .loadCancelIoFlag, cancelled⟩ => if cancelled = true then none else token
  | _ => token

/-- What a thread has done with the frames of a completion. -/
structure Review where
  /-- The session it is the only one to receive for. -/
  token : Option Slot
  handling : Handling
  /-- It has rejected one of the frames, and set the flag. -/
  rejected : Bool

namespace Review

def start : Review := ⟨none, .away, false⟩

def rejectedAfter (review : Review) : Event interface -> Bool
  | ⟨.getQueuedCompletionStatus, _⟩ => false
  | ⟨.mark (.onNewConnect _), _⟩ => false
  | ⟨.session slot (.storeCancelIoFlag value), _⟩ => (value && review.handling.rejects slot) || review.rejected
  | _ => review.rejected

def track (review : Review) (event : Event interface) : Review where
  token := tokenAfter review.token event
  handling := review.handling.track event
  rejected := review.rejectedAfter event

/-- It may write a key or send a response. -/
def mayAnswer (review : Review) : Prop :=
  match review.handling with
  | .away => True
  | .reading _ _ => review.rejected = false
  | .accepting _ _ => review.rejected = false
  | .rejecting _ _ => False

/-- A frame that was rejected has had its flag set. -/
def settled (review : Review) : Prop :=
  forall slot id, review.handling = .rejecting slot id -> review.rejected = true

/-- The review after a series of events, latest first. -/
def ofPast (past : List (Event interface)) : Review :=
  past.foldr (fun event review => review.track event) start

end Review

/-- An event gives a hold on a session away. -/
def givesAway : Op -> Option Slot
  | .session slot .decrementIo => some slot
  | .session slot (.wsaSend _) => some slot
  | .postQueuedCompletionStatus slot _ => some slot
  | _ => none

/-- The right to receive comes with a hold, which is given away only with the right;
while a thread has it, the session stays as it is. -/
def reviewing : Layer living where
  Extra := Review
  start := Review.start
  track := fun _ review event => review.track event
  permits := fun position review op =>
    (forall slot, givesAway op = some slot -> review.token = some slot -> 2 ≤ position.account.owed slot) ∧
    match op with
    | .getQueuedCompletionStatus => review.handling = .away
    | .mark (.onNewConnect _) => review.handling = .away
    | .mark (.onRecv slot _) => review.token = some slot ∧ review.handling = .away
    | .login (.redisSet _ _ _) => review.mayAnswer
    | .postQueuedCompletionStatus _ _ => review.mayAnswer
    | .session slot (.wsaRecv _) =>
        review.token = some slot ∧ review.handling = .away ∧ review.rejected = false
    | .session _ .loadCancelIoFlag => review.handling = .away
    | .session slot (.storeCancelIoFlag false) =>
        Exists fun id => Exists fun held => position.stage = .starting slot id held
    | .session _ (.recvedPacket _) => review.settled
    | _ => True
  expects := fun _ review event =>
    match event with
    | ⟨.session slot .incrementIo, count⟩ => review.token = some slot -> IoCount.deleted count = false
    | ⟨.session slot .loadId, id⟩ =>
        (review.token = some slot -> getIndex id = slot) ∧
          forall own, review.handling.session = some (slot, own) -> id = own
    | ⟨.session slot .loadCancelIoFlag, cancelled⟩ =>
        review.token = some slot -> review.rejected = true -> cancelled = true
    | ⟨.session _ (.recvedPacket _), result⟩ =>
        result.1 = true -> review.rejected = true -> turnsAway result.2 = true
    | _ => True
  finish := fun review => review.handling = .away
  finish_start := rfl

/-! ## Operations without meaning to the layer -/

/-- Operations that mean something even to a thread without the right to receive. -/
def Op.unreviewed : Op -> Bool
  | .getQueuedCompletionStatus => false
  | .mark (.onNewConnect _) => false
  | .mark (.onRecv _ _) => false
  | .session _ (.wsaRecv _) => false
  | .session _ (.storeCancelIoFlag value) => value
  | _ => true

theorem unreviewed_of_registers {op : Op} (registers : op.registers = true) : op.unreviewed = true := by
  cases op with
  | session slot op => cases op <;> first | rfl | exact registers
  | mark note => cases note <;> first | rfl | exact Bool.noConfusion registers
  | _ => first | rfl | exact Bool.noConfusion registers

theorem unreviewed_of_sends {op : Op} (sends : op.sends = true) : op.unreviewed = true := by
  cases op with
  | session slot op => cases op <;> first | rfl | exact sends
  | mark note => cases note <;> first | rfl | exact Bool.noConfusion sends
  | _ => first | rfl | exact Bool.noConfusion sends

/-- A thread that does not receive and handles no frame. -/
def Review.outside (rejected : Bool) : Review := ⟨none, .away, rejected⟩

theorem outside_ignores {op : Op} (unreviewed : op.unreviewed = true) (rejected : Bool) :
    reviewing.Ignores (Review.outside rejected) op := by
  intro position
  have kept (slot : Slot) (_ : givesAway op = some slot) (token : (none : Option Slot) = some slot) :
      2 ≤ position.account.owed slot := by cases token
  cases op with
  | session slot op =>
      cases op with
      | loadCancelIoFlag =>
          refine ⟨⟨kept, rfl⟩, fun (cancelled : Bool) => ?_⟩
          cases cancelled <;> rfl
      | storeCancelIoFlag value =>
          cases (unreviewed : value = true)
          exact ⟨⟨kept, trivial⟩, fun _ => rfl⟩
      | recvedPacket p => exact ⟨⟨kept, by simp [Review.settled, Review.outside]⟩, fun _ => rfl⟩
      | wsaRecv buffers => exact Bool.noConfusion unreviewed
      | _ => exact ⟨⟨kept, trivial⟩, fun _ => rfl⟩
  | mark note =>
      cases note <;> first
        | exact ⟨⟨kept, trivial⟩, fun _ => rfl⟩
        | exact Bool.noConfusion unreviewed
  | login op => cases op <;> exact ⟨⟨kept, trivial⟩, fun _ => rfl⟩
  | getQueuedCompletionStatus => exact Bool.noConfusion unreviewed
  | _ => exact ⟨⟨kept, trivial⟩, fun _ => rfl⟩

theorem deletes_ignores {op : Op} (deletes : op.deletes = true) (review : Review) :
    reviewing.Ignores review op := by
  intro position
  have keeps : givesAway op = none := by
    cases op with
    | session slot op => cases op <;> first | rfl | exact Bool.noConfusion deletes
    | _ => first | rfl | exact Bool.noConfusion deletes
  have kept (slot : Slot) (given : givesAway op = some slot) (_ : review.token = some slot) :
      2 ≤ position.account.owed slot := by
    rw [keeps] at given
    cases given
  cases op with
  | session slot op =>
      cases op <;> first
        | exact ⟨⟨kept, trivial⟩, fun _ => rfl⟩
        | exact Bool.noConfusion deletes
  | mark note =>
      cases note <;> first
        | exact ⟨⟨kept, trivial⟩, fun _ => rfl⟩
        | exact Bool.noConfusion deletes
  | login op => exact Bool.noConfusion deletes
  | _ => first | exact ⟨⟨kept, trivial⟩, fun _ => rfl⟩ | exact Bool.noConfusion deletes

/-! ## Functions with the right to receive -/

section Functions

variable {fuel : Nat} {α : Type}

theorem giveBack_reviewing (slot : Slot) {position : Position} {review : Review}
    (held : 1 ≤ position.account.owed slot) (stage : position.stage = .idle ∨ position.stage = .refused slot)
    (kept : review.token = some slot -> 2 ≤ position.account.owed slot) :
    reviewing.whole.Obeys (giveBack fuel slot) (position, review)
      fun ghost _ => standsWith reviewing review (position.account.remove slot) ghost := by
  have returned : living.Obeys (giveBack fuel slot) position
      fun position' _ => standsAt (position.account.remove slot) position' := giveBack_living slot held stage
  refine ⟨⟨returned.1, ?_, trivial⟩, fun (count : IoCount) _ => ?_⟩
  · intro target same token
    cases same
    exact kept token
  have rest := returned.2 count trivial
  refine (Layer.lift (L := reviewing) rest ?_).mono fun _ _ stands => stands
  change Program.Uses _ (if count.isZero then deleteSession fuel slot else _)
  split
  · exact (deleteSession_deletes fuel slot).mono fun op deletes => deletes_ignores deletes review
  · trivial

/-- `findSession` after its mark. -/
def lookup (fuel : Nat) (sessionID : SessionID) : NetProgram (Option Slot) := do
  let temp ← sessionOp (getIndex sessionID) .incrementIo
  if temp.deleted then
    giveBack fuel (getIndex sessionID)
    return none
  else
    let id ← sessionOp (getIndex sessionID) .loadId
    if id ≠ sessionID then
      giveBack fuel (getIndex sessionID)
      return none
    else return some (getIndex sessionID)

/-- A thread finds the session it receives for. -/
theorem lookup_reviewing (sessionID : SessionID) (account : Account) (loaded : Option (Slot × SessionID))
    (review : Review) (rights : forall slot, review.token = some slot -> 1 ≤ account.owed slot) :
    reviewing.whole.Obeys (lookup fuel sessionID) (⟨account, .looking (getIndex sessionID), loaded⟩, review)
      fun ghost found =>
        match found with
        | none => standsWith reviewing review account ghost ∧
            ¬ (review.token = some (getIndex sessionID) ∧
              review.handling.session = some (getIndex sessionID, sessionID))
        | some slot => slot = getIndex sessionID ∧ standsWith reviewing review (account.add slot) ghost := by
  refine ⟨⟨Or.inl rfl, nofun, trivial⟩, fun (temp : IoCount) alive => ?_⟩
  change reviewing.whole.Obeys (if temp.deleted then _ else _)
    (Position.mk (account.add (getIndex sessionID))
      (if temp.deleted = true then .refused (getIndex sessionID) else .idle) none, review) _
  have held := account.held_add (getIndex sessionID)
  have kept (token : review.token = some (getIndex sessionID)) :
      2 ≤ (account.add (getIndex sessionID)).owed (getIndex sessionID) := by
    have before := rights _ token
    rw [Account.add_owed, Owed.add_same]
    exact Nat.succ_le_succ before
  have back : (account.add (getIndex sessionID)).remove (getIndex sessionID) = account := account.remove_add _
  by_cases deleted : temp.deleted = true
  · rw [if_pos deleted, if_pos deleted]
    refine (giveBack_reviewing (getIndex sessionID) held (Or.inr rfl) kept).bind ?_
    intro ghost _ stands
    rw [back] at stands
    refine ⟨stands, fun both => ?_⟩
    have running : temp.deleted = false := alive.2 both.1
    exact Bool.noConfusion (running.symm.trans deleted)
  · rw [if_neg deleted, if_neg deleted]
    refine ⟨⟨Or.inr ⟨rfl, held⟩, nofun, trivial⟩, fun (id : SessionID) named => ?_⟩
    change reviewing.whole.Obeys (if id ≠ sessionID then _ else _) (Position.mk _ .idle _, review) _
    split
    next other =>
      refine (giveBack_reviewing (getIndex sessionID) held (Or.inl rfl) kept).bind ?_
      intro ghost _ stands
      have there : standsWith reviewing review ((account.add (getIndex sessionID)).remove (getIndex sessionID))
          ghost := stands
      rw [back] at there
      exact ⟨there, fun both => other (named.2.2 sessionID both.2)⟩
    next => exact ⟨rfl, ⟨rfl, rfl⟩, rfl⟩

/-- The program leaves the account alone and turns one review into another. -/
structure Turns (program : NetProgram α) (account : Account) (review review' : Review) : Prop where
  obeys : forall loaded, reviewing.whole.Obeys program (⟨account, .idle, loaded⟩, review)
    fun ghost _ => standsWith reviewing review' account ghost

theorem Turns.done (value : α) (account : Account) (review : Review) :
    Turns (.done value) account review review := ⟨fun _ => ⟨⟨rfl, rfl⟩, rfl⟩⟩

theorem Turns.before {β : Type} {program : NetProgram α} {continuation : α -> NetProgram β}
    {account : Account} {review middle : Review} {post : reviewing.whole.Ghost -> β -> Prop}
    (turns : Turns program account review middle) (loaded : Option (Slot × SessionID))
    (rest : forall value loaded,
      reviewing.whole.Obeys (continuation value) (⟨account, .idle, loaded⟩, middle) post) :
    reviewing.whole.Obeys (program >>= continuation) (⟨account, .idle, loaded⟩, review) post := by
  refine (turns.obeys loaded).bind ?_
  rintro ⟨⟨_, _, loaded'⟩, _⟩ value ⟨⟨rfl, rfl⟩, rfl⟩
  exact rest value loaded'

theorem Turns.bind {β : Type} {program : NetProgram α} {continuation : α -> NetProgram β}
    {account : Account} {review middle review' : Review} (turns : Turns program account review middle)
    (rest : forall value, Turns (continuation value) account middle review') :
    Turns (program >>= continuation) account review review' :=
  ⟨fun loaded => turns.before loaded fun value => (rest value).obeys⟩

/-- A thread receives for a session, and keeps it in use. -/
structure Review.Receives (review : Review) (slot : Slot) (account : Account) : Prop where
  token : review.token = some slot
  receiving : account.receiving = some slot

theorem Review.Receives.rights {review : Review} {slot : Slot} {account : Account}
    (receives : review.Receives slot account) (target : Slot) (token : review.token = some target) :
    1 ≤ account.owed target := by
  cases receives.token.symm.trans token
  exact account.held slot receives.receiving

/-- Giving back a hold that was taken before. -/
theorem giveBack_add_reviewing (slot : Slot) (account : Account) (review : Review)
    (rights : forall target, review.token = some target -> 1 ≤ account.owed target)
    (loaded : Option (Slot × SessionID)) :
    reviewing.whole.Obeys (giveBack fuel slot) (⟨account.add slot, .idle, loaded⟩, review)
      fun ghost _ => standsWith reviewing review account ghost := by
  have kept (token : review.token = some slot) : 2 ≤ (account.add slot).owed slot := by
    rw [Account.add_owed, Owed.add_same]
    exact Nat.succ_le_succ (rights slot token)
  refine (giveBack_reviewing slot (account.held_add slot) (Or.inl rfl) kept).mono ?_
  intro ghost _ stands
  have there : standsWith reviewing review ((account.add slot).remove slot) ghost := stands
  rw [Account.remove_add] at there
  exact there

/-- The call of `disconnectReq` for a frame sets the flag. -/
theorem disconnectReq_turns (id : SessionID) (rejected : Bool) (account : Account)
    (receiving : account.receiving = some (getIndex id)) :
    Turns (disconnectReq fuel id) account ⟨some (getIndex id), .reading (getIndex id) id, rejected⟩
      ⟨some (getIndex id), .rejecting (getIndex id) id, true⟩ := by
  refine ⟨fun loaded => ⟨⟨rfl, nofun, trivial⟩, fun _ _ => ?_⟩⟩
  change reviewing.whole.Obeys (lookup fuel id >>= fun found => match found with
    | none => .done ()
    | some slot => do
        sessionOp slot (.storeCancelIoFlag true)
        let _ ← sessionOp slot (.cancelIoEx .recv)
        let _ ← sessionOp slot (.cancelIoEx .send)
        giveBack fuel slot)
    (⟨account, .looking (getIndex id), loaded⟩,
      ⟨some (getIndex id), .rejecting (getIndex id) id, rejected⟩) _
  have receives (rejected : Bool) : Review.Receives ⟨some (getIndex id), .rejecting (getIndex id) id, rejected⟩
      (getIndex id) account := ⟨rfl, receiving⟩
  refine (lookup_reviewing id account loaded _ (receives rejected).rights).bind ?_
  intro ghost found outcome
  cases found with
  | none => exact absurd ⟨rfl, rfl⟩ outcome.2
  | some slot =>
      rcases ghost with ⟨⟨_, _, loaded'⟩, _⟩
      rcases outcome with ⟨rfl, ⟨rfl, rfl⟩, rfl⟩
      have touches : Position.touches ⟨account.add (getIndex id), .idle, loaded'⟩ (getIndex id) :=
        Or.inl ⟨rfl, account.held_add _⟩
      refine ⟨⟨touches, nofun, trivial⟩, fun _ _ => ?_⟩
      have set : (Review.mk (some (getIndex id)) (.rejecting (getIndex id) id) rejected).track
          ⟨.session (getIndex id) (.storeCancelIoFlag true), ()⟩ =
            ⟨some (getIndex id), .rejecting (getIndex id) id, true⟩ := by
        simp [Review.track, tokenAfter, Handling.track, Review.rejectedAfter, Handling.rejects]
      change reviewing.whole.Obeys _ (_, Review.track _ ⟨.session (getIndex id) (.storeCancelIoFlag true), ()⟩) _
      rw [set]
      refine ⟨⟨touches, nofun, trivial⟩, fun _ _ => ⟨⟨touches, nofun, trivial⟩, fun _ _ => ?_⟩⟩
      exact giveBack_add_reviewing _ account _ (receives true).rights _

/-- An operation writes a key. -/
def Op.writes : Op -> Bool
  | .login (.redisSet _ _ _) => true
  | _ => false

/-- Other operations outside sessions. -/
theorem idle_turns (op : Op) (idle : op.idle = true) (unwritten : op.writes = false)
    (account : Account) (review : Review) : Turns (netOp op) account review review := by
  refine ⟨fun loaded => ?_⟩
  cases op with
  | login op =>
      cases op with
      | redisSet field value expire => exact Bool.noConfusion unwritten
      | _ => exact ⟨⟨trivial, nofun, trivial⟩, fun _ _ => ⟨⟨rfl, rfl⟩, rfl⟩⟩
  | mark note =>
      cases note <;> first
        | exact ⟨⟨trivial, nofun, trivial⟩, fun _ _ => ⟨⟨rfl, rfl⟩, rfl⟩⟩
        | exact Bool.noConfusion idle
  | _ => first
      | exact ⟨⟨trivial, nofun, trivial⟩, fun _ _ => ⟨⟨rfl, rfl⟩, rfl⟩⟩
      | exact Bool.noConfusion idle

theorem releaseSerializer_turns (pointer : Pointer) (account : Account) (review : Review) :
    Turns (releaseSerializer pointer) account review review := by
  refine (idle_turns _ rfl rfl account review).bind fun (count : Int) => ?_
  split
  · exact idle_turns _ rfl rfl account review
  · exact .done _ account review

/-- The response to an accepted frame. -/
theorem sendReqPacket_turns (id : SessionID) (packet : Packet) (account : Account)
    (receiving : account.receiving = some (getIndex id)) :
    Turns (sendReqPacket fuel id packet) account ⟨some (getIndex id), .accepting (getIndex id) id, false⟩
      ⟨some (getIndex id), .accepting (getIndex id) id, false⟩ := by
  have receives : Review.Receives ⟨some (getIndex id), .accepting (getIndex id) id, false⟩ (getIndex id)
      account := ⟨rfl, receiving⟩
  have requested : Turns (sendReq fuel id packet) account
      ⟨some (getIndex id), .accepting (getIndex id) id, false⟩
      ⟨some (getIndex id), .accepting (getIndex id) id, false⟩ := by
    refine ⟨fun loaded => ⟨⟨rfl, nofun, trivial⟩, fun _ _ => ?_⟩⟩
    change reviewing.whole.Obeys (lookup fuel id >>= fun found => match found with
      | none => .done ()
      | some slot => do
          let _ ← netOp (.incReferenceCounter packet.pointer)
          let _ ← sessionOp slot .incrementIo
          netOp (.postQueuedCompletionStatus slot packet)
          giveBack fuel slot)
      (⟨account, .looking (getIndex id), loaded⟩,
        ⟨some (getIndex id), .accepting (getIndex id) id, false⟩) _
    refine (lookup_reviewing id account loaded _ receives.rights).bind ?_
    intro ghost found outcome
    cases found with
    | none => exact absurd ⟨rfl, rfl⟩ outcome.2
    | some slot =>
        rcases ghost with ⟨⟨_, _, loaded'⟩, _⟩
        rcases outcome with ⟨rfl, ⟨rfl, rfl⟩, rfl⟩
        have held := (account.add (getIndex id)).held_add (getIndex id)
        refine ⟨⟨trivial, nofun, trivial⟩, fun _ _ => ?_⟩
        refine ⟨⟨Or.inr (Or.inr ⟨rfl, account.held_add _⟩), nofun, trivial⟩, fun _ _ => ?_⟩
        refine ⟨⟨⟨rfl, held⟩, ?_, rfl⟩, fun _ _ => ?_⟩
        · intro target _ _
          cases (by assumption : some (getIndex id) = some target)
          change 2 ≤ ((account.add (getIndex id)).add (getIndex id)).owed (getIndex id)
          rw [Account.add_owed, Owed.add_same]
          exact Nat.succ_le_succ (account.held_add _)
        · have back : reviewing.whole.Obeys (giveBack fuel (getIndex id)) _ _ :=
            giveBack_add_reviewing (getIndex id) account _ receives.rights none
          rw [← (account.add (getIndex id)).remove_add (getIndex id)] at back
          exact back
  refine (idle_turns _ rfl rfl account _).bind fun _ => requested.bind fun _ => ?_
  exact releaseSerializer_turns packet.pointer account _

/-- A frame that is turned away is rejected. -/
theorem onRecv_rejects (id : SessionID) {packet : Serializer} (away : turnsAway packet = true)
    (rejected : Bool) (account : Account) (receiving : account.receiving = some (getIndex id)) :
    Turns ((Login.onRecv id packet).interpret (handleLogin fuel)) account
      ⟨some (getIndex id), .reading (getIndex id) id, rejected⟩
      ⟨some (getIndex id), .rejecting (getIndex id) id, true⟩ := by
  have ended : Turns (Program.bind (disconnectReq fuel id) fun _ => .done ()) account
      ⟨some (getIndex id), .reading (getIndex id) id, rejected⟩
      ⟨some (getIndex id), .rejecting (getIndex id) id, true⟩ :=
    (disconnectReq_turns id rejected account receiving).bind fun _ => .done _ account _
  unfold turnsAway at away
  unfold Login.onRecv
  dsimp only at away ⊢
  split
  next valid =>
    rw [valid, Bool.not_true, Bool.false_or] at away
    rw [if_pos (bne_iff_ne.mp away)]
    exact ended
  next =>
    exact (idle_turns (.login (.log _)) rfl rfl account _).bind fun _ => ended

/-- A frame that is not turned away is accepted, and answered. -/
theorem onRecv_accepts (id : SessionID) {packet : Serializer} (taken : turnsAway packet = false)
    (account : Account) (receiving : account.receiving = some (getIndex id)) :
    Turns ((Login.onRecv id packet).interpret (handleLogin fuel)) account
      ⟨some (getIndex id), .reading (getIndex id) id, false⟩
      ⟨some (getIndex id), .accepting (getIndex id) id, false⟩ := by
  have plain (op : Op) (idle : op.idle = true) (unwritten : op.writes = false) :
      Turns (netOp op) account ⟨some (getIndex id), .accepting (getIndex id) id, false⟩
        ⟨some (getIndex id), .accepting (getIndex id) id, false⟩ := idle_turns op idle unwritten account _
  have responded (accountNo : BitVec 64) :
      Turns (Program.interpret (I := loginInterface) (handleLogin fuel) (sendResponse id accountNo)) account
        ⟨some (getIndex id), .accepting (getIndex id) id, false⟩
        ⟨some (getIndex id), .accepting (getIndex id) id, false⟩ := by
    refine (plain .serializerAlloc rfl rfl).bind fun (buffer : PacketBuffer) => ?_
    refine (plain (.incReferenceCounter _) rfl rfl).bind fun _ => ?_
    refine (plain (.login (.stackBytes 40)) rfl rfl).bind fun (temp : StackBytes 40) => ?_
    simp only [Program.bind]
    generalize responseBody buffer accountNo temp.bytes = body
    cases body with
    | none => exact .done _ account _
    | some response =>
        refine (plain (.login .getRandKey) rfl rfl).bind fun key => ?_
        refine (sendReqPacket_turns id _ account receiving).bind fun _ => ?_
        exact (releaseSerializer_turns buffer.pointer account _).bind fun _ => .done _ account _
  have written (field : String) (value : List Byte) (expire : Nat) :
      Turns (netOp (.login (.redisSet field value expire))) account
        ⟨some (getIndex id), .reading (getIndex id) id, false⟩
        ⟨some (getIndex id), .accepting (getIndex id) id, false⟩ := by
    refine ⟨fun _ => ⟨⟨trivial, ?_, rfl⟩, fun _ _ => ⟨⟨rfl, rfl⟩, rfl⟩⟩⟩
    intro slot given _
    cases given
  unfold turnsAway at taken
  unfold Login.onRecv
  dsimp only at taken ⊢
  rcases Bool.or_eq_false_iff.mp taken with ⟨valid, type⟩
  rw [if_pos (by simpa using valid), if_neg (by simpa using type)]
  refine (idle_turns (.login (.query _)) rfl rfl account _).bind fun rows => ?_
  exact (written _ _ _).bind fun _ => responded _

/-- One frame.  Behind a rejected one, it is expected to be turned away too. -/
theorem onRecv_turns (fuel : Nat) (id : SessionID) (packet : Serializer) (rejected : Bool)
    (behind : rejected = true -> turnsAway packet = true) (account : Account)
    (receiving : account.receiving = some (getIndex id)) :
    Exists fun review => review.token = some (getIndex id) ∧ review.settled ∧
      Turns ((Login.onRecv id packet).interpret (handleLogin fuel)) account
        ⟨some (getIndex id), .reading (getIndex id) id, rejected⟩ review := by
  cases away : turnsAway packet with
  | true => exact ⟨_, rfl, fun _ _ _ => rfl, onRecv_rejects id away rejected account receiving⟩
  | false =>
      have clean : rejected = false := by
        by_contra before
        have turned := behind (Bool.eq_true_of_not_eq_false before)
        exact Bool.noConfusion (turned.symm.trans away)
      subst clean
      exact ⟨_, rfl, by simp [Review.settled], onRecv_accepts id away account receiving⟩

/-- The callback is called for the session the thread receives for. -/
theorem enter_reviewing {slot : Slot} {callback : SessionID -> NetProgram Unit} {rest : NetProgram Unit}
    {account : Account} (receiving : account.receiving = some slot) {rejected : Bool}
    {post : reviewing.whole.Ghost -> Unit -> Prop} (loaded : Option (Slot × SessionID))
    (handled : forall id, getIndex id = slot -> forall loaded, reviewing.whole.Obeys
      (callback id >>= fun _ => rest) (⟨account, .idle, loaded⟩, ⟨some slot, .reading slot id, rejected⟩) post) :
    reviewing.whole.Obeys (sessionOp slot .loadId >>= fun id =>
      (mark (.onRecv slot id) >>= fun _ => callback id) >>= fun _ => rest)
      (⟨account, .idle, loaded⟩, ⟨some slot, .away, rejected⟩) post := by
  refine ⟨⟨Or.inr ⟨rfl, account.held slot receiving⟩, nofun, trivial⟩, fun (id : SessionID) named => ?_⟩
  refine ⟨⟨⟨rfl, receiving, rfl⟩, nofun, rfl, rfl⟩, fun _ _ => ?_⟩
  exact handled id (named.2.1 rfl) _

/-- The loop over the received frames. -/
theorem extraction_reviewing (slot : Slot) (rounds : Nat) (account : Account)
    (receiving : account.receiving = some slot) (review : Review) (token : review.token = some slot)
    (settled : review.settled) (loaded : Option (Slot × SessionID)) :
    reviewing.whole.Obeys (extraction fuel slot rounds) (⟨account, .idle, loaded⟩, review)
      fun ghost _ => Exists fun rejected => standsWith reviewing ⟨some slot, .away, rejected⟩ account ghost := by
  have held := account.held slot receiving
  induction rounds generalizing review loaded with
  | zero => exact ⟨⟨trivial, nofun, trivial⟩, fun answer => answer.elim⟩
  | succ rounds inductionHypothesis =>
      refine (idle_turns _ rfl rfl account review).before loaded fun (p : PacketBuffer) loaded => ?_
      refine (idle_turns _ rfl rfl account review).before loaded fun _ loaded => ?_
      rcases review with ⟨_, handling, rejected⟩
      cases (token : _ = some slot)
      refine ⟨⟨Or.inl ⟨rfl, held⟩, nofun, settled⟩, fun (result : Bool × Serializer) expected => ?_⟩
      rcases result with ⟨extracted, packet⟩
      have behind : extracted = true -> rejected = true -> turnsAway packet = true := expected.2
      cases extracted with
      | false =>
          refine ((releaseSerializer_turns p.pointer account ⟨some slot, .away, rejected⟩).obeys loaded).mono ?_
          exact fun ghost _ stands => ⟨rejected, stands⟩
      | true =>
          change reviewing.whole.Obeys (sessionOp slot .loadId >>= fun id =>
            onRecv fuel slot id packet >>= fun _ =>
              releaseSerializer p.pointer >>= fun _ => extraction fuel slot rounds)
            (⟨account, .idle, loaded⟩, ⟨some slot, .away, rejected⟩) _
          simp only [onRecv]
          refine enter_reviewing receiving loaded fun id own loaded => ?_
          cases own
          have turned := onRecv_turns fuel id packet rejected (behind rfl) account receiving
          generalize (Login.onRecv id packet).interpret (handleLogin fuel) = program at turned ⊢
          rcases turned with ⟨review, token, settled, handled⟩
          refine handled.before loaded fun _ loaded => ?_
          refine (releaseSerializer_turns p.pointer account review).before loaded fun _ loaded => ?_
          exact inductionHypothesis review token settled loaded

/-- Local operations, without the right to receive. -/
theorem recheck_reviewing (slot : Slot) (rejected : Bool) (account : Account)
    (held : 1 ≤ account.owed slot) :
    reviewing.whole.Obeys (do
      if ← sessionOp slot .loadCancelIoFlag then
        let _ ← sessionOp slot (.cancelIoEx .recv)
        return
      else return) (Position.mk account .idle none, Review.outside rejected)
      fun ghost _ => standsWith reviewing (Review.outside rejected) account ghost := by
  refine (Layer.lift (recheck_living slot .recv account held) ?_).mono ?_
  · refine ⟨outside_ignores rfl rejected, fun (cancelled : Bool) => ?_⟩
    cases cancelled with
    | true => exact ⟨outside_ignores rfl rejected, fun _ => trivial⟩
    | false => trivial
  · rintro ghost _ ⟨⟨account', stands, rfl⟩, same⟩
    exact ⟨stands, same⟩

/-- After a rejection, nothing more is received for the session. -/
theorem recvIo_reviewing (slot : Slot) (rejected : Bool) (account : Account)
    (receiving : account.receiving = some slot) :
    Turns (recvIo fuel slot) account ⟨some slot, .away, rejected⟩ (Review.outside rejected) := by
  refine ⟨fun loaded => ?_⟩
  have held := account.held slot receiving
  have touches : Position.touches ⟨account, .idle, loaded⟩ slot := Or.inl ⟨rfl, held⟩
  refine ⟨⟨touches, nofun, rfl⟩, fun (cancelled : Bool) flagged => ?_⟩
  cases cancelled with
  | true => exact ⟨⟨rfl, rfl⟩, rfl⟩
  | false =>
      have clean : rejected = false := by
        by_contra before
        exact Bool.noConfusion (flagged.2 rfl (Bool.eq_true_of_not_eq_false before))
      subst clean
      refine ⟨⟨touches, nofun, trivial⟩, fun buffer _ => ?_⟩
      refine ⟨⟨Or.inr (Or.inr ⟨rfl, held⟩), nofun, trivial⟩, fun _ _ => ?_⟩
      refine ⟨⟨⟨rfl, receiving⟩, nofun, rfl, rfl, rfl⟩, fun (result : IoResult) _ => ?_⟩
      have back := account.remove_add slot
      cases result with
      | success => exact ⟨⟨back, rfl⟩, rfl⟩
      | pending =>
          change reviewing.whole.Obeys _
            (Position.mk ((account.add slot).remove slot) .idle none, Review.outside false) _
          rw [back]
          exact recheck_reviewing slot false account held
      | error code =>
          refine (Layer.lift (abandon_living slot .send account) ?_).mono fun _ _ stands => stands
          refine ⟨outside_ignores rfl false, fun _ => ⟨outside_ignores rfl false, fun _ => ?_⟩⟩
          refine (giveBack_requests slot).mono fun op requests => outside_ignores ?_ false
          exact unreviewed_of_registers (registers_of_requests requests)

/-- Functions without a right to receive. -/
theorem outside_stands {program : NetProgram α} {account : Account} {post : Account -> α -> Prop}
    (rejected : Bool) (moves : Moves living standsAt program account post)
    (uses : program.Uses fun (op : Op) => op.unreviewed = true) :
    Moves reviewing.whole (standsWith reviewing (Review.outside rejected)) program account post :=
  moves.lift (uses.mono fun _ unreviewed => outside_ignores unreviewed rejected)

/-! ## Jobs -/

/-- A receive completion. -/
theorem handleRecv_reviewing (slot : Slot) (transfer : BitVec 32) (account : Account)
    (receiving : account.receiving = some slot) (rejected : Bool) (loaded : Option (Slot × SessionID)) :
    reviewing.whole.Obeys (handleRecv fuel slot transfer)
      (⟨account, .idle, loaded⟩, ⟨some slot, .away, rejected⟩)
      fun ghost handled => (ghost.1.stage = .idle ∧ ghost.2.handling = .away) ∧
        (handled = true -> Exists fun rejected => standsWith reviewing (Review.outside rejected) account ghost) := by
  have held := account.held slot receiving
  have quiet : Review.settled ⟨some slot, .away, rejected⟩ := by simp [Review.settled]
  refine ⟨⟨Or.inl ⟨rfl, held⟩, nofun, trivial⟩, fun (accepted : Bool) _ => ?_⟩
  cases accepted with
  | false => exact ⟨⟨rfl, rfl⟩, nofun⟩
  | true =>
      refine (extraction_reviewing slot fuel account receiving _ rfl quiet loaded).bind ?_
      rintro ⟨⟨_, _, loaded'⟩, _⟩ _ ⟨rejected', ⟨rfl, rfl⟩, rfl⟩
      refine ((recvIo_reviewing slot rejected' _ receiving).obeys loaded').bind ?_
      rintro ghost _ ⟨stands, same⟩
      exact ⟨⟨stands.2, congrArg Review.handling same⟩, fun _ => ⟨rejected', stands, same⟩⟩

/-- Any other completion. -/
theorem handleCompletion_outside (completion : Completion) (account : Account)
    (held : 1 ≤ account.owed completion.slot)
    (other : completion.transfer = 0 ∨ completion.overlapped ≠ .recv) :
    Moves reviewing.whole (standsWith reviewing (Review.outside false)) (handleCompletion fuel completion) account
      fun account' _ => account' = account := by
  have accounting := living_accounting fuel
  have near {α : Type} {program : NetProgram α} (sends : Sends program) :
      program.Uses fun (op : Op) => op.unreviewed = true := sends.mono fun _ => unreviewed_of_sends
  unfold handleCompletion
  split
  · split
    next packet _ =>
      have handled := outside_stands false (accounting.handleRequest completion.slot packet account held)
        (near (handleRequest_sends completion.slot packet))
      exact handled.bindTo fun _ => .done rfl
    next => exact .done rfl
  next something =>
    split
    · have handled := outside_stands false
        (accounting.handleSend completion.slot completion.transfer account held something)
        (near (handleSend_sends completion.slot completion.transfer))
      exact handled.mono fun _ _ both => both.1
    next receives =>
      rcases other with nothing | different
      · exact absurd nothing something
      · exact absurd receives different
    · exact .done rfl

theorem workerThread_reviewing :
    reviewing.whole.Obeys (workerThread fuel) reviewing.whole.start
      fun ghost _ => ghost.1.stage = .idle ∧ ghost.2.handling = .away := by
  refine ⟨⟨rfl, nofun, rfl⟩, fun (completion : Completion) _ => ?_⟩
  have held : 1 ≤ (Account.empty.dequeue completion).owed completion.slot := by
    rw [Account.dequeue_owed]
    exact Account.held_add Account.empty completion.slot
  have returned (rejected : Bool) (ghost : reviewing.whole.Ghost)
      (stands : standsWith reviewing (Review.outside rejected) (Account.empty.dequeue completion) ghost) :
      reviewing.whole.Obeys (giveBack fuel completion.slot) ghost
        fun ghost _ => ghost.1.stage = .idle ∧ ghost.2.handling = .away := by
    have gives := outside_stands rejected ((living_accounting fuel).giveBack completion.slot _ held)
      ((giveBack_sends completion.slot).mono fun _ => unreviewed_of_sends)
    refine (gives ghost stands).mono ?_
    rintro ghost' _ ⟨account', there, _⟩
    exact ⟨there.1.2, congrArg Review.handling there.2⟩
  have otherwise (other : received completion = none)
      (foreign : completion.transfer = 0 ∨ completion.overlapped ≠ .recv) :
      reviewing.whole.Obeys (handleCompletion fuel completion >>= fun handled =>
          if handled then giveBack fuel completion.slot else pure ())
        (⟨Account.empty.dequeue completion, .idle, none⟩, ⟨received completion, .away, false⟩)
        fun ghost _ => ghost.1.stage = .idle ∧ ghost.2.handling = .away := by
    rw [other]
    refine (handleCompletion_outside completion _ held foreign _ ⟨⟨rfl, rfl⟩, rfl⟩).bind ?_
    rintro ghost handled ⟨_, stands, rfl⟩
    cases handled with
    | true => exact returned false ghost stands
    | false => exact ⟨stands.1.2, congrArg Review.handling stands.2⟩
  change reviewing.whole.Obeys (if completion.success then _ else _)
    (Position.mk (Account.empty.dequeue completion) .idle none,
      Review.mk (received completion) .away false) _
  cases success : completion.success with
  | false =>
      have other : received completion = none := by
        unfold received
        split
        · rw [success]
          exact if_neg (by simp)
        · rfl
      rw [other]
      exact returned false _ ⟨⟨rfl, rfl⟩, rfl⟩
  | true =>
      by_cases foreign : completion.transfer = 0 ∨ completion.overlapped ≠ .recv
      · refine otherwise ?_ foreign
        unfold received
        split
        next receives =>
          rcases foreign with nothing | different
          · exact if_neg fun both => both.2 nothing
          · exact absurd receives different
        next => rfl
      · rcases not_or.mp foreign with ⟨something, same⟩
        have receives : completion.overlapped = .recv := not_not.mp same
        have right : received completion = some completion.slot := by
          unfold received
          rw [receives]
          exact if_pos ⟨success, something⟩
        have receiving : (Account.empty.dequeue completion).receiving = some completion.slot := by
          unfold Account.dequeue
          rw [success, receives]
          exact Account.receive_receiving _ _ (Account.held_add _ _)
        have program : handleCompletion fuel completion =
            handleRecv fuel completion.slot completion.transfer := by
          unfold handleCompletion
          rw [if_neg something, receives]
        rw [right]
        change reviewing.whole.Obeys (handleCompletion fuel completion >>= _) _ _
        rw [program]
        refine (handleRecv_reviewing completion.slot _ _ receiving false none).bind ?_
        rintro ghost handled ⟨finished, stands⟩
        cases handled with
        | true =>
            rcases stands rfl with ⟨rejected, there⟩
            exact returned rejected ghost there
        | false => exact finished

/-- `OnNewConnect` of the thread that is going to receive. -/
theorem registers_reviewing (sessionID : SessionID) (account : Account)
    (receiving : account.receiving = some (getIndex sessionID)) :
    Turns (do
      match ← findSession fuel sessionID with
      | some slot =>
          let timeOutTick ← netOp .getTickCount
          let connection ← netOp (.connectionNew timeOutTick)
          netOp (.acquireContainorLock .exclusive)
          netOp (.insertConnection sessionID connection)
          netOp (.releaseContainorLock .exclusive)
          giveBack fuel slot
      | none => return) account ⟨some (getIndex sessionID), .away, false⟩
        ⟨some (getIndex sessionID), .away, false⟩ := by
  refine ⟨fun loaded => ?_⟩
  have receives : Review.Receives ⟨some (getIndex sessionID), .away, false⟩ (getIndex sessionID) account :=
    ⟨rfl, receiving⟩
  refine ⟨⟨rfl, nofun, trivial⟩, fun _ _ => ?_⟩
  change reviewing.whole.Obeys (lookup fuel sessionID >>= fun found => match found with
    | some slot => do
        let timeOutTick ← netOp .getTickCount
        let connection ← netOp (.connectionNew timeOutTick)
        netOp (.acquireContainorLock .exclusive)
        netOp (.insertConnection sessionID connection)
        netOp (.releaseContainorLock .exclusive)
        giveBack fuel slot
    | none => .done ()) (⟨account, .looking (getIndex sessionID), loaded⟩,
      ⟨some (getIndex sessionID), .away, false⟩) _
  refine (lookup_reviewing sessionID account loaded _ receives.rights).bind ?_
  rintro ⟨⟨_, _, loaded'⟩, _⟩ found outcome
  cases found with
  | none =>
      rcases outcome.1 with ⟨⟨rfl, rfl⟩, rfl⟩
      exact ⟨⟨rfl, rfl⟩, rfl⟩
  | some slot =>
      rcases outcome with ⟨rfl, ⟨rfl, rfl⟩, rfl⟩
      refine (idle_turns .getTickCount rfl rfl _ _).before loaded' fun timeOutTick loaded => ?_
      refine (idle_turns (.connectionNew timeOutTick) rfl rfl _ _).before loaded fun connection loaded => ?_
      refine (idle_turns (.acquireContainorLock _) rfl rfl _ _).before loaded fun _ loaded => ?_
      refine (idle_turns (.insertConnection _ _) rfl rfl _ _).before loaded fun _ loaded => ?_
      refine (idle_turns (.releaseContainorLock _) rfl rfl _ _).before loaded fun _ loaded => ?_
      exact giveBack_add_reviewing _ account _ receives.rights loaded

theorem acceptThread_reviewing :
    reviewing.whole.Obeys (acceptThread fuel) reviewing.whole.start
      fun ghost _ => ghost.1.stage = .idle ∧ ghost.2.handling = .away := by
  refine ⟨⟨trivial, nofun, trivial⟩, fun (accepted : Option Nat) _ => ?_⟩
  cases accepted with
  | none => exact ⟨rfl, rfl⟩
  | some clientSock =>
      refine ⟨⟨rfl, nofun, trivial⟩, fun (popped : Option Slot) _ => ?_⟩
      cases popped with
      | none => exact ⟨⟨trivial, nofun, trivial⟩, fun _ _ => ⟨rfl, rfl⟩⟩
      | some index =>
          refine ⟨⟨trivial, nofun, trivial⟩, fun sessionCount _ => ?_⟩
          let sessionID := makeSessionId sessionCount index
          have own : getIndex sessionID = index := getIndex_makeSessionId sessionCount index
          have touches (account : Account) (held : Bool) :
              Position.touches ⟨account, .starting index sessionID held, none⟩ index :=
            Or.inr (Or.inr ⟨sessionID, held, rfl⟩)
          refine ⟨⟨⟨rfl, own⟩, nofun, trivial⟩, fun _ _ => ?_⟩
          refine ⟨⟨touches _ false, nofun, trivial⟩, fun _ _ => ?_⟩
          refine ⟨⟨Or.inr (Or.inl ⟨sessionID, rfl⟩), nofun, trivial⟩, fun _ _ => ?_⟩
          refine ⟨⟨touches _ true, nofun, trivial⟩, fun _ _ => ?_⟩
          refine ⟨⟨touches _ true, nofun, ⟨sessionID, true, rfl⟩⟩, fun _ _ => ?_⟩
          refine ⟨⟨⟨sessionID, rfl⟩, nofun, trivial⟩, fun _ _ => ?_⟩
          refine ⟨⟨⟨index, rfl⟩, nofun, rfl⟩, fun _ _ => ?_⟩
          let account := (Account.empty.add index).receive (getIndex sessionID)
          have receiving : account.receiving = some index := by
            rw [← own]
            exact Account.receive_receiving _ _ (by rw [own]; exact Account.held_add _ _)
          change reviewing.whole.Obeys _
            (Position.mk account .idle none, Review.mk (some (getIndex sessionID)) .away false) _
          refine (registers_reviewing sessionID account (by rw [own]; exact receiving)).before none fun _ loaded => ?_
          rw [own]
          refine ((recvIo_reviewing index false account receiving).obeys loaded).bind ?_
          rintro ghost _ stands
          have gives := outside_stands false
            ((living_accounting fuel).giveBack index account (account.held index receiving))
            ((giveBack_sends index).mono fun _ => unreviewed_of_sends)
          refine (gives ghost stands).mono ?_
          rintro ghost' _ ⟨account', there, _⟩
          exact ⟨there.1.2, congrArg Review.handling there.2⟩

end Functions

theorem jobs_reviewing {workers contents : Nat} {settings : Settings} {thread : Thread workers contents}
    {job : Job} {program : NetProgram Unit} (chosen : jobProgram settings thread job = some program) :
    reviewing.whole.Obeys program reviewing.whole.start fun ghost _ => reviewing.whole.finish ghost := by
  have accounting := living_accounting settings.fuel
  have finished {program : NetProgram Unit} {post : Account -> Unit -> Prop}
      (moves : Moves living standsAt program Account.empty post)
      (uses : program.Uses fun (op : Op) => op.unreviewed = true) :
      reviewing.whole.Obeys program reviewing.whole.start fun ghost _ => reviewing.whole.finish ghost := by
    refine (outside_stands false moves uses _ ⟨⟨rfl, rfl⟩, rfl⟩).mono ?_
    rintro ghost _ ⟨account, stands, _⟩
    exact ⟨stands.1.2, congrArg Review.handling stands.2⟩
  cases thread <;> cases job <;> cases chosen
  case accept.loop => exact acceptThread_reviewing
  case worker.loop => exact workerThread_reviewing
  case timeout.loop =>
      refine finished (accounting.update settings.timeoutThreshold Account.empty) ?_
      exact (update_registers settings.timeoutThreshold).mono fun _ => unreviewed_of_registers
  case content.call call =>
      refine finished (accounting.contentCall call Account.empty) ?_
      refine (contentCall_requests call).mono fun _ requests => ?_
      exact unreviewed_of_registers (registers_of_requests requests)

end Network
end LoginServer
