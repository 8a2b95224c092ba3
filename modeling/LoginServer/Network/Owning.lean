import Mathlib.Data.List.Perm.Basic
import LoginServer.Concurrency.Comparison
import LoginServer.Login.Authenticity
import LoginServer.Network.Senders

namespace LoginServer
namespace Network

open Memory Buffers Receiving Login Concurrency

/-!
# Who owns a packet

A serializer is counted by its owners.  A thread has references in hand while it
works with a packet, and passes them on: to a message on the completion port, to
a node of a queue, or to `sendedBuffer`, without touching the counter.  It takes
them back in the same way, and lets go of them with `decReferenceCounter`.

The discipline of this module follows what a thread has in hand.  A thread may
only count down, pass on or copy a reference that it has; only content code may
begin with a packet it was given from outside.  What it has loose, it sees to
before anything else.
-/

/-- A serializer that nobody owns. -/
inductive Loose where
  /-- Just allocated. -/
  | fresh (pointer : Pointer)
  /-- About to be freed, since its last owner let go of it. -/
  | last (pointer : Pointer)
  deriving DecidableEq

namespace Loose

def pointer : Loose -> Pointer
  | .fresh pointer => pointer
  | .last pointer => pointer

/-- What has to be done with it. -/
def next : Loose -> Op
  | .fresh pointer => .incReferenceCounter pointer
  | .last pointer => .serializerFree pointer

end Loose

/-- What a thread has in hand. -/
structure Hands where
  /-- The references, latest first. -/
  held : List Pointer
  loose : Option Loose
  /-- The thread does nothing but what its caller asked for. -/
  outside : Bool

namespace Hands

def take (hands : Hands) (pointer : Pointer) : Hands := { hands with held := pointer :: hands.held }

def give (hands : Hands) (pointer : Pointer) : Hands := { hands with held := hands.held.erase pointer }

@[simp] theorem give_take (hands : Hands) (pointer : Pointer) : (hands.take pointer).give pointer = hands := by
  simp [take, give]

def track (hands : Hands) : Event interface -> Hands
  | ⟨.serializerAlloc, buffer⟩ => { hands with loose := some (.fresh buffer.pointer) }
  | ⟨.serializerFree _, _⟩ => { hands with loose := none }
  | ⟨.incReferenceCounter pointer, _⟩ => { hands.take pointer with loose := none }
  | ⟨.decReferenceCounter pointer, count⟩ =>
      { hands.give pointer with loose := if count = (0 : Int) then some (.last pointer) else none }
  | ⟨.postQueuedCompletionStatus _ packet, _⟩ => hands.give packet.pointer
  | ⟨.getQueuedCompletionStatus, completion⟩ =>
      match completion.overlapped with
      | .request packet => { hands.take packet.pointer with outside := false }
      | _ => { hands with outside := false }
  | ⟨.accept, _⟩ => { hands with outside := false }
  | ⟨.getTickCount, _⟩ => { hands with outside := false }
  | ⟨.session _ (.linkNode packet), _⟩ => hands.give packet.pointer
  | ⟨.session _ .unlinkNode, packet⟩ => hands.take packet.pointer
  | ⟨.session _ (.pushSended packet), stored⟩ => if stored = true then hands.give packet.pointer else hands
  | ⟨.session _ .popSended, popped⟩ =>
      match popped with
      | none => hands
      | some packet => hands.take packet.pointer
  | _ => hands

def permits (hands : Hands) : Op -> Prop
  | .serializerFree pointer => hands.loose = some (.last pointer)
  | .incReferenceCounter pointer =>
      hands.loose = some (.fresh pointer) ∨ hands.loose = none ∧ (pointer ∈ hands.held ∨ hands.outside = true)
  | .decReferenceCounter pointer => hands.loose = none ∧ pointer ∈ hands.held
  | .postQueuedCompletionStatus _ packet => hands.loose = none ∧ packet.pointer ∈ hands.held
  | .session _ (.linkNode packet) => hands.loose = none ∧ packet.pointer ∈ hands.held
  | .session _ (.pushSended packet) => hands.loose = none ∧ packet.pointer ∈ hands.held
  | .mark (.packets buffers) => hands.loose = none ∧ hands.held.Perm buffers
  | _ => hands.loose = none

/-- What is loose is seen to before anything else is done. -/
theorem next_of_loose {hands : Hands} {loose : Loose} {op : Op} (own : hands.loose = some loose)
    (permitted : hands.permits op) : op = loose.next := by
  have free {refused : Prop} (none : hands.loose = none) : refused := by
    cases own.symm.trans none
  cases op with
  | serializerFree target =>
      cases own.symm.trans permitted
      rfl
  | incReferenceCounter target =>
      rcases permitted with fresh | ⟨none, _⟩
      · cases own.symm.trans fresh
        rfl
      · exact free none
  | decReferenceCounter target => exact free permitted.1
  | postQueuedCompletionStatus slot packet => exact free permitted.1
  | session slot op =>
      cases op with
      | linkNode packet => exact free permitted.1
      | pushSended packet => exact free permitted.1
      | _ => exact free permitted
  | mark note =>
      cases note with
      | packets buffers => exact free permitted.1
      | _ => exact free permitted
  | _ => exact free permitted

end Hands

/-- A thread and the packets. -/
structure Owning where
  hands : Hands
  /-- The session and the rest of the transfer, while a send completion is handled. -/
  completing : Option (Slot × BitVec 32)
  /-- The thread has deleted a session. -/
  deleted : Bool

namespace Owning

/-- What is left of the transfer. -/
def transferAfter (completing : Option (Slot × BitVec 32)) : Event interface -> Option (Slot × BitVec 32)
  | ⟨.getQueuedCompletionStatus, completion⟩ =>
      if completion.handled completion.slot = true then some (completion.slot, completion.transfer) else completing
  | ⟨.session target .popSended, popped⟩ =>
      match completing with
      | some (slot, left) =>
          if target = slot then (popped : Option Packet).map fun packet => (slot, left - BitVec.ofNat 32 packet.size)
          else some (slot, left)
      | none => none
  | _ => completing

def deletedAfter (deleted : Bool) : Event interface -> Bool
  | ⟨.session _ .compareExchangeIo, previous⟩ => deleted || IoCount.isZero previous
  | _ => deleted

def track (owning : Owning) (event : Event interface) : Owning where
  hands := owning.hands.track event
  completing := transferAfter owning.completing event
  deleted := deletedAfter owning.deleted event

/-- `sendedBuffer` does not run out while there is transfer left, and requests come as they were
posted. -/
def expects (owning : Owning) : Event interface -> Prop
  | ⟨.session target .popSended, popped⟩ => owning.deleted = false -> forall left : BitVec 32, left ≠ 0 ->
      owning.completing = some (target, left) -> popped ≠ none
  | ⟨.getQueuedCompletionStatus, completion⟩ => forall packet : Packet, completion.overlapped = .request packet ->
      completion.success = true ∧ completion.transfer = 0
  | _ => True

end Owning

/-- The part of a thread in the sharing of packets. -/
def owning : Discipline interface where
  Ghost := Owning
  start := ⟨⟨[], none, true⟩, none, false⟩
  track := Owning.track
  permits := fun ghost => ghost.hands.permits
  expects := Owning.expects
  finish := fun ghost => ghost.hands.held = [] ∧ ghost.hands.loose = none
  finish_start := ⟨rfl, rfl⟩

/-! ## Programs and hands -/

section Functions

variable {fuel : Nat} {slot : Slot} {α β : Type} {hands : Hands} {held : List Pointer} {outside : Bool}

/-- The program obeys, whatever else there is to the thread, and leads from what it has in hand
to what it has then. -/
def Leads (program : NetProgram α) (hands : Hands) (post : Hands -> α -> Prop) : Prop :=
  forall ghost : Owning, ghost.hands = hands ->
    owning.Obeys program ghost fun (ghost' : Owning) value => post ghost'.hands value

/-- The program ends with the same in hand. -/
abbrev Settles (program : NetProgram α) (hands : Hands) : Prop :=
  Leads program hands fun hands' _ => hands' = hands

theorem Leads.done {value : α} {post : Hands -> α -> Prop} (holds : post hands value) :
    Leads (.done value) hands post := by
  rintro ghost rfl
  exact holds

theorem Leads.step {op : Op} {next : op.Answer -> NetProgram α} {post : Hands -> α -> Prop}
    (permitted : hands.permits op) (rest : forall answer, Leads (next answer) (hands.track ⟨op, answer⟩) post) :
    Leads (Program.step (I := interface) op next) hands post := by
  rintro ghost rfl
  exact ⟨permitted, fun answer _ => rest answer (ghost.track ⟨op, answer⟩) rfl⟩

theorem Leads.mono {program : NetProgram α} {strong weak : Hands -> α -> Prop} (leads : Leads program hands strong)
    (implies : forall hands value, strong hands value -> weak hands value) : Leads program hands weak :=
  fun ghost same => (leads ghost same).mono fun ghost' value => implies (Owning.hands ghost') value

theorem Leads.bind {program : NetProgram α} {continuation : α -> NetProgram β} {middle : Hands -> α -> Prop}
    {post : Hands -> β -> Prop} (leads : Leads program hands middle)
    (rest : forall hands value, middle hands value -> Leads (continuation value) hands post) :
    Leads (program >>= continuation) hands post := by
  intro ghost same
  refine (leads ghost same).bind fun (ghost' : Owning) value reached => ?_
  exact rest ghost'.hands value reached ghost' rfl

/-- Sequencing after a program that ends with something known in hand. -/
theorem Leads.bindTo {program : NetProgram α} {continuation : α -> NetProgram β} {target : Hands}
    {post : Hands -> β -> Prop} (leads : Leads program hands fun hands' _ => hands' = target)
    (rest : forall value, Leads (continuation value) target post) :
    Leads (program >>= continuation) hands post := by
  refine leads.bind ?_
  rintro hands' value rfl
  exact rest value

theorem leads_halt {post : Hands -> α -> Prop} (free : hands.loose = none) :
    Leads (halt : NetProgram α) hands post :=
  .step free fun answer => answer.elim

/-! ## References -/

/-- One reference less, and nothing else changes. -/
theorem releaseSerializer_owning {ghost : Owning} {pointer : Pointer} (member : pointer ∈ held)
    (same : ghost.hands = ⟨held, none, outside⟩) :
    owning.Obeys (releaseSerializer pointer) ghost fun ghost' _ =>
      ghost' = ⟨⟨held.erase pointer, none, outside⟩, ghost.completing, ghost.deleted⟩ := by
  rcases ghost with ⟨hands, completing, deleted⟩
  cases (same : hands = _)
  refine ⟨⟨rfl, member⟩, fun (count : Int) _ => ?_⟩
  change owning.Obeys (if count = 0 then _ else _)
    (Owning.mk ⟨held.erase pointer, if count = (0 : Int) then some (.last pointer) else none, outside⟩ completing
      deleted) _
  by_cases last : count = 0
  · rw [if_pos last, if_pos last]
    exact ⟨rfl, fun _ _ => rfl⟩
  · rw [if_neg last, if_neg last]
    rfl

theorem releaseSerializer_of_mem {pointer : Pointer} (member : pointer ∈ held) :
    Leads (releaseSerializer pointer) ⟨held, none, outside⟩
      fun hands _ => hands = ⟨held.erase pointer, none, outside⟩ :=
  fun _ same => (releaseSerializer_owning member same).mono fun _ _ reached => congrArg Owning.hands reached

theorem releaseSerializer_leads (pointer : Pointer) :
    Leads (releaseSerializer pointer) ⟨pointer :: held, none, outside⟩
      fun hands _ => hands = ⟨held, none, outside⟩ := by
  have less : (pointer :: held).erase pointer = held := List.erase_cons_head _ _
  refine (releaseSerializer_of_mem List.mem_cons_self).mono fun _ _ reached => ?_
  rw [reached, less]

/-- What `pop` brings is in hand. -/
theorem pop_leads (free : hands.loose = none) : Leads (pop slot) hands fun hands' popped =>
    hands' = match popped with
      | none => hands
      | some packet => hands.take packet.pointer := by
  refine .step free fun (size : Int) => ?_
  change Leads (if size < 0 then _ else _) hands _
  split
  · exact .step free fun _ => .done rfl
  · exact .step free fun packet => .done rfl

/-- What is pushed is no longer in hand. -/
theorem push_leads (packet : Packet) (free : hands.loose = none) :
    Leads (push slot packet) (hands.take packet.pointer) fun hands' pushed =>
      hands' = if pushed then hands else hands.take packet.pointer := by
  refine .step free fun (allocated : Bool) => ?_
  cases allocated with
  | false => exact .done rfl
  | true =>
      refine .step ⟨free, List.mem_cons_self⟩ fun _ => .step free fun _ => .done ?_
      exact hands.give_take packet.pointer

/-! ## Giving back -/

theorem clearSendBuffer_leads (rounds : Nat) :
    Settles (clearSendBuffer slot rounds) ⟨held, none, outside⟩ := by
  induction rounds with
  | zero => exact leads_halt rfl
  | succ rounds inductionHypothesis =>
      refine (pop_leads rfl).bind ?_
      rintro _ popped rfl
      cases popped with
      | none => exact .done rfl
      | some packet => exact (releaseSerializer_leads packet.pointer).bindTo fun _ => inductionHypothesis

theorem clearSendedBuffer_leads (rounds : Nat) :
    Settles (clearSendedBuffer slot rounds) ⟨held, none, outside⟩ := by
  induction rounds with
  | zero => exact leads_halt rfl
  | succ rounds inductionHypothesis =>
      refine .step rfl fun (isEmpty : Bool) => ?_
      cases isEmpty with
      | true => exact .done rfl
      | false =>
          refine .step rfl fun (popped : Option Packet) => ?_
          cases popped with
          | none => exact leads_halt rfl
          | some packet => exact (releaseSerializer_leads packet.pointer).bindTo fun _ => inductionHypothesis

theorem bufferClear_leads : Settles (bufferClear fuel slot) ⟨held, none, outside⟩ := by
  refine (clearSendBuffer_leads fuel).bindTo fun _ => ?_
  refine (clearSendedBuffer_leads fuel).bindTo fun _ => ?_
  exact .step rfl fun _ => .done rfl

theorem onDisconnect_leads (sessionID : SessionID) : Settles (onDisconnect sessionID) ⟨held, none, outside⟩ :=
  .step rfl fun _ => .step rfl fun _ => .step rfl fun _ => .step rfl fun _ => .done rfl

theorem giveBack_leads (slot : Slot) : Settles (giveBack fuel slot) ⟨held, none, outside⟩ := by
  refine .step rfl fun (count : IoCount) => ?_
  change Settles (if count.isZero then _ else _) _
  split
  · refine .step rfl fun (previous : IoCount) => ?_
    change Settles (if previous.isZero then _ else _) _
    split
    · refine .step rfl fun targetID => .step rfl fun _ => .step rfl fun _ => ?_
      exact bufferClear_leads.bindTo fun _ => .step rfl fun _ => onDisconnect_leads targetID
    · exact .done rfl
  · exact .done rfl

/-! ## Requests -/

theorem findSession_leads (sessionID : SessionID) :
    Settles (findSession fuel sessionID) ⟨held, none, outside⟩ := by
  refine .step rfl fun _ => .step rfl fun (temp : IoCount) => ?_
  change Settles (if temp.deleted then _ else _) _
  split
  · exact (giveBack_leads _).bindTo fun _ => .done rfl
  · refine .step rfl fun (id : SessionID) => ?_
    change Settles (if id ≠ sessionID then _ else _) _
    split
    · exact (giveBack_leads _).bindTo fun _ => .done rfl
    · exact .done rfl

theorem disconnectReq_leads (sessionID : SessionID) :
    Settles (disconnectReq fuel sessionID) ⟨held, none, outside⟩ := by
  refine (findSession_leads sessionID).bindTo fun found => ?_
  cases found with
  | none => exact .done rfl
  | some target =>
      exact .step rfl fun _ => .step rfl fun _ => .step rfl fun _ => giveBack_leads target

/-- The message owns the packet as well. -/
theorem sendReq_leads (sessionID : SessionID) (packet : Packet)
    (known : packet.pointer ∈ held ∨ outside = true) :
    Settles (sendReq fuel sessionID packet) ⟨held, none, outside⟩ := by
  refine (findSession_leads sessionID).bindTo fun found => ?_
  cases found with
  | none => exact .done rfl
  | some target =>
      refine .step (Or.inr ⟨rfl, known⟩) fun _ => .step rfl fun _ => ?_
      refine .step ⟨rfl, List.mem_cons_self⟩ fun _ => ?_
      have passed : (Hands.mk (packet.pointer :: held) none outside).give packet.pointer = ⟨held, none, outside⟩ :=
        Hands.give_take ⟨held, none, outside⟩ packet.pointer
      change Leads (giveBack fuel target) ((Hands.mk (packet.pointer :: held) none outside).give packet.pointer) _
      rw [passed]
      exact giveBack_leads target

theorem sendReqPacket_leads (sessionID : SessionID) (packet : Packet)
    (known : packet.pointer ∈ held ∨ outside = true) :
    Settles (sendReqPacket fuel sessionID packet) ⟨held, none, outside⟩ := by
  refine .step (Or.inr ⟨rfl, known⟩) fun _ => ?_
  refine (sendReq_leads sessionID packet (Or.inl List.mem_cons_self)).bindTo fun _ => ?_
  exact releaseSerializer_leads packet.pointer

/-! ## Packets of content code -/

/-- What content code has in hand when these objects are in scope. -/
def InScope (objects : List Packet) (hands : Hands) : Prop :=
  Exists fun held => hands = ⟨held, none, true⟩ ∧ held.Perm (objects.map Packet.pointer)

section Scope

variable {objects : List Packet} (own : held.Perm (objects.map Packet.pointer))
include own

theorem held_of_getElem? {position : Nat} {packet : Packet} (found : objects[position]? = some packet) :
    packet.pointer ∈ held :=
  own.mem_iff.mpr (List.mem_map_of_mem (List.mem_of_getElem? found))

theorem erase_perm_eraseIdx {position : Nat} {packet : Packet} (found : objects[position]? = some packet) :
    (held.erase packet.pointer).Perm ((objects.eraseIdx position).map Packet.pointer) := by
  rcases List.getElem?_eq_some_iff.mp found with ⟨inside, rfl⟩
  have taken := ((List.getElem_cons_eraseIdx_perm inside).map Packet.pointer).symm
  have rest := (own.trans taken).erase objects[position].pointer
  rwa [List.map_cons, List.erase_cons_head] at rest

/-- After an assignment the source has one owner more, and what the target had one less. -/
theorem assign_perm_set {position : Nat} {p q : Packet} (found : objects[position]? = some p) :
    ((q.pointer :: held).erase p.pointer).Perm ((objects.set position q).map Packet.pointer) := by
  have rest := erase_perm_eraseIdx own found
  rcases List.getElem?_eq_some_iff.mp found with ⟨inside, rfl⟩
  have assigned := (List.set_perm_cons_eraseIdx inside q).map Packet.pointer
  have member : objects[position].pointer ∈ held := held_of_getElem? own found
  have before : (q.pointer :: held).Perm (objects[position].pointer :: q.pointer :: held.erase objects[position].pointer) :=
    ((List.perm_cons_erase member).cons q.pointer).trans (List.Perm.swap _ _ _)
  have less := before.erase objects[position].pointer
  rw [List.erase_cons_head] at less
  exact (less.trans (rest.cons q.pointer)).trans assigned.symm

omit own in
theorem withObject_leads {use : Packet -> NetProgram (List Packet)} {position : Nat} {hands : Hands}
    (same : InScope objects hands)
    (uses : forall packet, objects[position]? = some packet ->
      Leads (use packet) hands fun hands' objects' => InScope objects' hands') :
    Leads (withObject objects position use) hands fun hands' objects' => InScope objects' hands' := by
  unfold withObject
  split
  · exact .done same
  next packet found => exact uses packet found

theorem statement_leads (statement : PacketStatement) :
    Leads (statement.program fuel objects) ⟨held, none, true⟩
      fun hands objects' => InScope objects' hands := by
  have same : InScope objects ⟨held, none, true⟩ := ⟨held, rfl, own⟩
  cases statement with
  | construct bytes =>
      refine .step rfl fun buffer => .step (Or.inl rfl) fun _ => .done ?_
      exact ⟨buffer.pointer :: held, rfl, own.cons buffer.pointer⟩
  | copy source =>
      refine withObject_leads same fun q found => ?_
      refine .step (Or.inr ⟨rfl, Or.inr rfl⟩) fun _ => .done ?_
      exact ⟨q.pointer :: held, rfl, own.cons q.pointer⟩
  | copyOther source =>
      refine .step (Or.inr ⟨rfl, Or.inr rfl⟩) fun _ => .done ?_
      exact ⟨source.pointer :: held, rfl, own.cons source.pointer⟩
  | assign target source =>
      refine withObject_leads same fun p found => withObject_leads same fun q there => ?_
      have member : p.pointer ∈ q.pointer :: held := List.mem_cons_of_mem _ (held_of_getElem? own found)
      have assigned : Leads (assignPacket p.pointer q) ⟨held, none, true⟩ fun hands packet =>
          hands = ⟨(q.pointer :: held).erase p.pointer, none, true⟩ ∧ packet = q :=
        .step (Or.inr ⟨rfl, Or.inr rfl⟩) fun _ =>
          (releaseSerializer_of_mem member).bindTo fun _ => .done ⟨rfl, rfl⟩
      refine assigned.bind ?_
      rintro _ packet ⟨rfl, rfl⟩
      exact .done ⟨_, rfl, assign_perm_set own found⟩
  | destroy target =>
      refine withObject_leads same fun p found => ?_
      refine (releaseSerializer_of_mem (held_of_getElem? own found)).bindTo fun _ => .done ?_
      exact ⟨_, rfl, erase_perm_eraseIdx own found⟩
  | sendReq sessionID source =>
      refine withObject_leads same fun q found => ?_
      exact (sendReq_leads sessionID q (Or.inr rfl)).bindTo fun _ => .done same
  | sendReqPacket sessionID source =>
      refine withObject_leads same fun q found => ?_
      exact (sendReqPacket_leads sessionID q (Or.inr rfl)).bindTo fun _ => .done same

omit own in
theorem destroyPackets_leads (objects : List Packet) (own : held.Perm (objects.map Packet.pointer)) :
    Leads (destroyPackets objects) ⟨held, none, true⟩ fun hands _ => hands = ⟨[], none, true⟩ := by
  induction objects generalizing held with
  | nil =>
      cases own.eq_nil
      exact .done rfl
  | cons packet objects inductionHypothesis =>
      have member : packet.pointer ∈ held := own.mem_iff.mpr List.mem_cons_self
      refine (releaseSerializer_of_mem member).bindTo fun _ => inductionHypothesis ?_
      have rest := own.erase packet.pointer
      rwa [List.map_cons, List.erase_cons_head] at rest

/-- Between two statements a scope has its objects in hand, and at its end nothing. -/
theorem packetScope_leads (statements : List PacketStatement) :
    Leads (packetScope fuel statements objects) ⟨held, none, true⟩
      fun hands _ => hands = ⟨[], none, true⟩ := by
  induction statements generalizing objects held with
  | nil => exact .step ⟨rfl, own⟩ fun _ => destroyPackets_leads objects own
  | cons statement rest inductionHypothesis =>
      refine .step ⟨rfl, own⟩ fun _ => (statement_leads own statement).bind ?_
      rintro _ objects' ⟨held', rfl, own'⟩
      exact inductionHypothesis own'

end Scope

theorem contentCall_leads (call : ContentCall) : Settles (call.program fuel) ⟨[], none, true⟩ := by
  cases call with
  | disconnectReq sessionID => exact disconnectReq_leads sessionID
  | sendReq sessionID packet => exact sendReq_leads sessionID packet (Or.inr rfl)
  | sendReqPacket sessionID packet => exact sendReqPacket_leads sessionID packet (Or.inr rfl)
  | findSession sessionID =>
      refine (findSession_leads sessionID).bindTo fun found => ?_
      cases found with
      | none => exact .done rfl
      | some target => exact giveBack_leads target
  | packets statements => exact packetScope_leads (List.Perm.refl []) statements

/-! ## Sending -/

/-- The packets a batch consists of are in `sendedBuffer`. -/
theorem gather_leads (packetCount rounds : Nat) (batch : List Packet) (free : hands.loose = none) :
    Settles (gather slot packetCount rounds batch) hands := by
  induction rounds generalizing batch with
  | zero => exact leads_halt free
  | succ rounds inductionHypothesis =>
      unfold gather
      split
      · refine (pop_leads free).bind ?_
        rintro _ popped rfl
        cases popped with
        | none => exact inductionHypothesis batch
        | some packet =>
            dsimp only
            split
            · refine .step ⟨free, List.mem_cons_self⟩ fun (stored : Bool) => ?_
              cases stored with
              | false => exact leads_halt free
              | true =>
                  change Leads (gather slot packetCount rounds (batch ++ [packet]))
                    ((hands.take packet.pointer).give packet.pointer) _
                  rw [hands.give_take]
                  exact inductionHypothesis (batch ++ [packet])
            · exact leads_halt free
      · exact .done rfl

theorem sendIo_leads : Settles (sendIo fuel slot) ⟨held, none, outside⟩ := by
  refine .step rfl fun (cancelled : Bool) => ?_
  cases cancelled with
  | true => exact .done rfl
  | false =>
      refine .step rfl fun (busy : Bool) => ?_
      cases busy with
      | true => exact .done rfl
      | false =>
          refine .step rfl fun (sendBufferSize : Int) => ?_
          change Settles (if sendBufferSize = 0 then _ else _) _
          split
          · exact .step rfl fun _ => .done rfl
          refine .step rfl fun _ => (gather_leads _ fuel [] rfl).bindTo fun buffer => ?_
          refine .step rfl fun (result : IoResult) => ?_
          cases result with
          | success => exact .done rfl
          | pending =>
              refine .step rfl fun (cancelled : Bool) => ?_
              cases cancelled with
              | true => exact .step rfl fun _ => .done rfl
              | false => exact .done rfl
          | error code =>
              have rest : Settles (do
                  sessionOp slot (.storeCancelIoFlag true)
                  let _ ← sessionOp slot (.cancelIoEx .recv)
                  giveBack fuel slot) ⟨held, none, outside⟩ :=
                .step rfl fun _ => .step rfl fun _ => giveBack_leads slot
              change Settles (if connectionLost code then _ else _) _
              split
              · exact rest
              · exact .step rfl fun _ => rest

/-- The message's reference goes to the queue, or is let go of. -/
theorem handleRequest_leads (packet : Packet) :
    Leads (handleRequest fuel slot packet) ⟨packet.pointer :: held, none, outside⟩
      fun hands _ => hands = ⟨held, none, outside⟩ := by
  have collects : Leads (collectSendPacket slot packet) ((Hands.mk held none outside).take packet.pointer)
      fun hands pushed => hands =
        if pushed then ⟨held, none, outside⟩ else ⟨packet.pointer :: held, none, outside⟩ := push_leads packet rfl
  refine collects.bind ?_
  rintro _ pushed rfl
  cases pushed with
  | true => exact sendIo_leads
  | false => exact releaseSerializer_leads packet.pointer

/-- The loop has as many references to let go of as the transfer says. -/
theorem sendedLoop_owning (rounds : Nat) (transfer : BitVec 32) (packetBuffer : Option Packet)
    (sendedCount : BitVec 32)
    {ghost : Owning} (same : ghost.hands = ⟨held, none, outside⟩)
    (completing : ghost.completing = some (slot, transfer)) (undeleted : ghost.deleted = false) :
    owning.Obeys (sendedLoop slot rounds transfer packetBuffer sendedCount) ghost
      fun (ghost' : Owning) _ => ghost'.hands = ⟨held, none, outside⟩ := by
  induction rounds generalizing transfer packetBuffer sendedCount ghost with
  | zero => exact ⟨congrArg Hands.loose same, fun answer => answer.elim⟩
  | succ rounds inductionHypothesis =>
      rcases ghost with ⟨hands, rest, deleted⟩
      cases (same : hands = _)
      cases (completing : rest = _)
      cases (undeleted : deleted = _)
      unfold sendedLoop
      split
      · rfl
      next something =>
        refine ⟨rfl, fun (popped : Option Packet) expected => ?_⟩
        cases popped with
        | none => exact absurd rfl (expected rfl transfer something rfl)
        | some packet =>
            refine (releaseSerializer_owning List.mem_cons_self rfl).bind ?_
            rintro _ _ rfl
            rw [List.erase_cons_head]
            refine inductionHypothesis (transfer - BitVec.ofNat 32 packet.size) (some packet) (sendedCount + 1)
              rfl ?_ rfl
            exact if_pos rfl

theorem handleSend_owning {transfer : BitVec 32} {ghost : Owning} (same : ghost.hands = ⟨held, none, outside⟩)
    (completing : ghost.completing = some (slot, transfer)) (undeleted : ghost.deleted = false) :
    owning.Obeys (handleSend fuel slot transfer) ghost fun (ghost' : Owning) _ =>
      ghost'.hands = ⟨held, none, outside⟩ := by
  rcases ghost with ⟨hands, rest, deleted⟩
  cases (same : hands = _)
  refine ⟨rfl, fun id _ => ⟨rfl, fun _ _ => ?_⟩⟩
  have lets : owning.Obeys (sended fuel slot transfer) (Owning.mk ⟨held, none, outside⟩ rest deleted)
      fun (ghost' : Owning) _ => ghost'.hands = ⟨held, none, outside⟩ := by
    unfold sended
    split
    · rfl
    · exact sendedLoop_owning fuel transfer none 0 rfl completing undeleted
  refine lets.bind fun (ghost' : Owning) tp reached => ?_
  have sends : Settles (do
      sessionOp slot (.storeSendFlag false)
      let size ← sessionOp slot .loadSize
      if size > 0 then sendIo fuel slot
      return true) ⟨held, none, outside⟩ := by
    refine .step rfl fun _ => .step rfl fun (size : Int) => ?_
    change Settles (if size > 0 then _ else _) _
    split
    · exact sendIo_leads.bindTo fun _ => .done rfl
    · exact .done rfl
  split
  · exact ⟨congrArg Hands.loose reached, fun _ _ => reached⟩
  · exact sends ghost' reached

/-! ## Receiving -/

theorem recvIo_leads : Settles (recvIo fuel slot) ⟨held, none, outside⟩ := by
  refine .step rfl fun (cancelled : Bool) => ?_
  cases cancelled with
  | true => exact .done rfl
  | false =>
      refine .step rfl fun _ => .step rfl fun _ => .step rfl fun (result : IoResult) => ?_
      cases result with
      | success => exact .done rfl
      | pending =>
          refine .step rfl fun (cancelled : Bool) => ?_
          cases cancelled with
          | true => exact .step rfl fun _ => .done rfl
          | false => exact .done rfl
      | error code => exact .step rfl fun _ => .step rfl fun _ => giveBack_leads slot

/-- The login handler's part: it sends only a packet that it made, and destroys what it made. -/
def lending : Discipline loginInterface where
  Ghost := List Pointer
  start := []
  track := fun made event =>
    match event with
    | ⟨.packetNew, buffer⟩ => buffer.pointer :: made
    | ⟨.packetDelete pointer, _⟩ => List.erase made pointer
    | _ => made
  permits := fun made op =>
    match op with
    | .sendReq _ pointer _ => pointer ∈ made
    | .packetDelete pointer => pointer ∈ made
    | _ => True
  expects := fun _ _ => True
  finish := fun made => made = []
  finish_start := rfl

theorem sendResponse_lending (sessionID : SessionID) (accountNo : BitVec 64) :
    lending.Keeps (sendResponse sessionID accountNo) ([] : List Pointer) := by
  have body (buffer : PacketBuffer) (temp : StackBytes 40) := (responseBody_eq buffer accountNo temp).2
  simp only [sendResponse, packetNew, stackBytes, getRandKey, Login.sendReq, packetDelete, Program.perform,
    Program.bind_step, Program.bind_done, body]
  refine ⟨trivial, fun (buffer : PacketBuffer) _ => ⟨trivial, fun _ _ => ⟨trivial, fun _ _ => ?_⟩⟩⟩
  refine ⟨List.mem_singleton_self _, fun _ _ => ⟨List.mem_singleton_self _, fun _ _ => ?_⟩⟩
  exact List.erase_cons_head buffer.pointer []

theorem onRecv_lending (sessionID : SessionID) (packet : Serializer) :
    lending.Keeps (Login.onRecv sessionID packet) ([] : List Pointer) := by
  unfold Login.onRecv
  generalize packet.extractChar = code
  rcases code with ⟨_, packet⟩
  dsimp only
  generalize packet.extractShort = payloadSize
  rcases payloadSize with ⟨_, packet⟩
  dsimp only
  generalize packet.extractChar = key
  rcases key with ⟨_, packet⟩
  dsimp only
  generalize packet.decryption getStatickey = opened
  rcases opened with ⟨valid, packet⟩
  cases valid with
  | false => exact ⟨trivial, fun _ _ => ⟨trivial, fun _ _ => rfl⟩⟩
  | true =>
      dsimp only
      generalize packet.extractChar = checkSum
      rcases checkSum with ⟨_, packet⟩
      dsimp only
      generalize packet.extractUnsignedShort = type
      rcases type with ⟨type, packet⟩
      change lending.Keeps (if type ≠ 101 then _ else _) ([] : List Pointer)
      split
      · exact ⟨trivial, fun _ _ => rfl⟩
      · exact ⟨trivial, fun _ _ => ⟨trivial, fun _ _ => sendResponse_lending sessionID _⟩⟩

/-- What the handler made comes on top of what the thread has in hand. -/
theorem handleLogin_leads (op : LoginOp) (made : List Pointer) (permitted : lending.permits made op) :
    Leads (handleLogin fuel op) ⟨made ++ held, none, outside⟩ fun hands answer =>
      hands = ⟨(show List Pointer from lending.track made ⟨op, answer⟩) ++ held, none, outside⟩ := by
  cases op with
  | disconnectReq sessionID => exact disconnectReq_leads sessionID
  | sendReq sessionID pointer packet =>
      exact sendReqPacket_leads sessionID ⟨pointer, packet.bytes⟩ (Or.inl (List.mem_append_left held permitted))
  | packetNew => exact .step rfl fun buffer => .step (Or.inl rfl) fun _ => .done rfl
  | packetDelete pointer =>
      have member : pointer ∈ made := permitted
      refine (releaseSerializer_of_mem (List.mem_append_left held member)).mono ?_
      rintro _ _ rfl
      rw [List.erase_append_left held member]
      rfl
  | _ => exact .step rfl fun _ => .done rfl

theorem interpret_leads {program : LoginProgram Unit} (obeys : lending.Keeps program ([] : List Pointer)) :
    Settles (program.interpret (handleLogin fuel)) ⟨held, none, outside⟩ := by
  intro ghost same
  let relation (made : List Pointer) (ghost : owning.Ghost) : Prop :=
    Owning.hands ghost = ⟨made ++ held, none, outside⟩
  have below := obeys.interpretBelow relation (handleLogin fuel)
    (fun made ghost op same permitted =>
      (handleLogin_leads op made permitted ghost same).mono fun _ _ reached => ⟨trivial, reached⟩) same
  refine below.mono ?_
  rintro ghost' value ⟨made, reached, nothing⟩
  cases (nothing : made = [])
  exact reached

theorem onRecv_leads (sessionID : SessionID) (packet : Serializer) :
    Settles (onRecv fuel slot sessionID packet) ⟨held, none, outside⟩ := by
  have lends := onRecv_lending sessionID packet
  unfold onRecv
  generalize Login.onRecv sessionID packet = program at lends ⊢
  exact .step rfl fun _ => interpret_leads lends

theorem extraction_leads (rounds : Nat) : Settles (extraction fuel slot rounds) ⟨held, none, outside⟩ := by
  induction rounds with
  | zero => exact leads_halt rfl
  | succ rounds inductionHypothesis =>
      refine .step rfl fun p => .step (Or.inl rfl) fun _ => .step rfl fun (result : Bool × Serializer) => ?_
      rcases result with ⟨extracted, packet⟩
      cases extracted with
      | false => exact releaseSerializer_leads p.pointer
      | true =>
          refine .step rfl fun id => (onRecv_leads id packet).bindTo fun _ => ?_
          exact (releaseSerializer_leads p.pointer).bindTo fun _ => inductionHypothesis

theorem handleRecv_leads (transfer : BitVec 32) : Settles (handleRecv fuel slot transfer) ⟨held, none, outside⟩ := by
  refine .step rfl fun (accepted : Bool) => ?_
  cases accepted with
  | false => exact .done rfl
  | true => exact (extraction_leads fuel).bindTo fun _ => recvIo_leads.bindTo fun _ => .done rfl

/-! ## Jobs -/

/-- The completion of a send begins its transfer; a request brings a reference. -/
theorem handleCompletion_owning (completion : Completion) (successful : completion.success = true)
    (posted : forall packet, completion.overlapped = .request packet -> completion.transfer = 0) :
    owning.Obeys (handleCompletion fuel completion)
      (Owning.track ⟨⟨[], none, true⟩, none, false⟩ ⟨.getQueuedCompletionStatus, completion⟩)
      fun (ghost : Owning) _ => ghost.hands = ⟨[], none, false⟩ := by
  rcases completion with ⟨slot, success, transfer, overlapped⟩
  cases (successful : success = true)
  have brought : (Hands.mk [] none true).track ⟨.getQueuedCompletionStatus, ⟨slot, true, transfer, overlapped⟩⟩ =
      ⟨(requestCheck overlapped).toList.map Packet.pointer, none, false⟩ := by
    cases overlapped <;> rfl
  unfold handleCompletion
  by_cases nothing : transfer = 0
  · rw [if_pos nothing]
    cases overlapped with
    | request packet =>
        have handles : Leads (handleRequest fuel slot packet >>= fun _ => pure true) ⟨[packet.pointer], none, false⟩
            fun hands _ => hands = ⟨[], none, false⟩ := (handleRequest_leads packet).bindTo fun _ => .done rfl
        exact handles _ brought
    | _ => rfl
  · rw [if_neg nothing]
    cases overlapped with
    | send batch =>
        refine handleSend_owning brought (if_pos ?_) rfl
        simpa [Completion.handled, Completion.sent] using nothing
    | recv => exact handleRecv_leads transfer _ brought
    | request packet => exact absurd (posted packet rfl) nothing

theorem workerThread_owning : owning.Obeys (workerThread fuel) owning.start
    fun (ghost : Owning) _ => ghost.hands = ⟨[], none, false⟩ := by
  refine ⟨rfl, fun (completion : Completion) posted => ?_⟩
  change owning.Obeys (if completion.success then _ else _) _ _
  by_cases successful : completion.success = true
  · rw [if_pos successful]
    refine (handleCompletion_owning completion successful fun packet asks => (posted packet asks).2).bind ?_
    intro (ghost : Owning) handled reached
    cases handled with
    | true => exact giveBack_leads completion.slot ghost reached
    | false => exact reached
  · rw [if_neg successful]
    have returns : Settles (giveBack fuel completion.slot) ⟨[], none, false⟩ := giveBack_leads completion.slot
    refine returns _ ?_
    cases overlapped : completion.overlapped with
    | request packet => exact absurd (posted packet overlapped).1 successful
    | _ => simp [Owning.track, owning, Hands.track, overlapped]

theorem onNewConnect_leads (sessionID : SessionID) :
    Settles (onNewConnect fuel sessionID) ⟨held, none, false⟩ := by
  refine .step rfl fun _ => (findSession_leads sessionID).bindTo fun found => ?_
  cases found with
  | none => exact .done rfl
  | some target =>
      exact .step rfl fun _ => .step rfl fun _ => .step rfl fun _ => .step rfl fun _ =>
        .step rfl fun _ => giveBack_leads target

theorem acceptThread_leads :
    Leads (acceptThread fuel) ⟨[], none, true⟩ fun hands _ => hands = ⟨[], none, false⟩ := by
  refine .step rfl fun (accepted : Option Nat) => ?_
  cases accepted with
  | none => exact .done rfl
  | some clientSock =>
      refine .step rfl fun (popped : Option Slot) => ?_
      cases popped with
      | none => exact .step rfl fun _ => .done rfl
      | some index =>
          refine .step rfl fun sessionCount => ?_
          refine .step rfl fun _ => .step rfl fun _ => .step rfl fun _ => .step rfl fun _ =>
            .step rfl fun _ => .step rfl fun _ => ?_
          refine (onNewConnect_leads _).bindTo fun _ => ?_
          exact recvIo_leads.bindTo fun _ => giveBack_leads index

theorem update_leads (timeoutThreshold : BitVec 64) :
    Leads (update fuel timeoutThreshold) ⟨[], none, true⟩ fun hands _ => hands = ⟨[], none, false⟩ := by
  have each (currentTick : BitVec 64) (connections : List (SessionID × ConnectionData)) :
      Settles (timeOut fuel timeoutThreshold currentTick connections) ⟨[], none, false⟩ := by
    induction connections with
    | nil => exact .done rfl
    | cons entry rest inductionHypothesis =>
        unfold timeOut
        split
        · exact (disconnectReq_leads entry.1).bindTo fun _ => inductionHypothesis
        · exact inductionHypothesis
  exact .step rfl fun currentTick => .step rfl fun _ => .step rfl fun connections =>
    (each currentTick connections).bindTo fun _ => .step rfl fun _ => .done rfl

theorem jobs_owning {workers contents : Nat} {settings : Settings} {thread : Thread workers contents}
    {job : Job} {program : NetProgram Unit} (chosen : jobProgram settings thread job = some program) :
    owning.Obeys program owning.start fun ghost _ => owning.finish ghost := by
  have finished (ghost : Owning) (outside : Bool) (same : ghost.hands = ⟨[], none, outside⟩) :
      owning.finish ghost := by
    rw [show owning.finish ghost = (ghost.hands.held = [] ∧ ghost.hands.loose = none) from rfl, same]
    exact ⟨rfl, rfl⟩
  cases thread <;> cases job <;> cases chosen
  case accept.loop => exact (acceptThread_leads _ rfl).mono fun ghost _ same => finished ghost false same
  case worker.loop => exact workerThread_owning.mono fun ghost _ same => finished ghost false same
  case timeout.loop =>
      exact (update_leads settings.timeoutThreshold _ rfl).mono fun ghost _ same => finished ghost false same
  case content.call => exact (contentCall_leads _ _ rfl).mono fun ghost _ same => finished ghost true same

end Functions

end Network
end LoginServer
