import LoginServer.Network.Receivers
import LoginServer.Network.SendPath

namespace LoginServer
namespace Network

open Memory Buffers Receiving Login Concurrency

/-!
# Clearing the ring

`bufferClear` ends with `recvBuffer.clear()`, without asking who else works on
the ring.  Only the thread that deletes the session gets there, and it pushes
the index of the slot afterwards.
-/

/-- How far a thread is with deleting a session. -/
inductive Tidying where
  | away
  | deleting (slot : Slot)
  | cleared (slot : Slot)
  deriving DecidableEq

namespace Tidying

def slot : Tidying -> Option Slot
  | .away => none
  | .deleting slot => some slot
  | .cleared slot => some slot

def track (stage : Tidying) : Event interface -> Tidying
  | ⟨.session slot .compareExchangeIo, previous⟩ => if IoCount.isZero previous = true then .deleting slot else stage
  | ⟨.session slot .clearRecvBuffer, _⟩ => .cleared slot
  | ⟨.pushIndex _, _⟩ => .away
  | _ => stage

end Tidying

/-- The ring is cleared between the exchange and the push. -/
def tidying : Discipline interface where
  Ghost := Tidying
  start := .away
  track := Tidying.track
  permits := fun stage op =>
    match op with
    | .session _ .compareExchangeIo => stage = .away
    | .session slot .clearRecvBuffer => stage = .deleting slot
    | .pushIndex _ => Exists fun slot => stage = .cleared slot
    | _ => True
  expects := fun _ _ => True
  finish := fun stage => stage = .away
  finish_start := rfl

/-- Operations that are no step of a deletion. -/
def Op.untidying : Op -> Bool
  | .session _ .compareExchangeIo => false
  | .session _ .clearRecvBuffer => false
  | .pushIndex _ => false
  | _ => true

theorem untidying_ignored {op : Op} (untidying : op.untidying = true) (stage : Tidying) :
    tidying.permits stage op ∧ forall answer, stage.track ⟨op, answer⟩ = stage := by
  cases op with
  | session slot op => cases op <;> first | exact ⟨trivial, fun _ => rfl⟩ | cases untidying
  | pushIndex index => cases untidying
  | _ => exact ⟨trivial, fun _ => rfl⟩

theorem untidying_of_outside {op : Op} (outside : op.outside = true) : op.untidying = true := by
  cases op with
  | session slot op => cases op <;> first | rfl | exact outside
  | _ => first | rfl | exact outside

theorem untidying_of_works {op : Op} (works : op.works = true) : op.untidying = true := by
  cases op with
  | session slot op => cases op <;> first | rfl | exact works
  | _ => first | rfl | exact works

section Functions

variable {fuel : Nat} {α : Type} {slot : Slot}

theorem untidying_keeps {program : NetProgram α} (uses : program.Uses fun (op : Op) => op.untidying = true)
    (stage : Tidying) : tidying.Keeps program stage :=
  Discipline.keeps_of_uses uses (fun _ untidying => (untidying_ignored untidying stage).1)
    fun _ answer untidying => (untidying_ignored untidying stage).2 answer

theorem pop_untidying (slot : Slot) : (pop slot).Uses fun (op : Op) => op.untidying = true := by
  refine ⟨rfl, fun (size : Int) => ?_⟩
  change Program.Uses _ (if size < 0 then _ else _)
  split
  · exact ⟨rfl, fun _ => trivial⟩
  · exact ⟨rfl, fun _ => trivial⟩

theorem releaseSerializer_untidying (pointer : Pointer) :
    (releaseSerializer pointer).Uses fun (op : Op) => op.untidying = true := by
  refine ⟨rfl, fun (count : Int) => ?_⟩
  change Program.Uses _ (if count = 0 then _ else _)
  split
  · exact ⟨rfl, fun _ => trivial⟩
  · trivial

theorem clearSendBuffer_untidying (rounds : Nat) :
    (clearSendBuffer slot rounds).Uses fun (op : Op) => op.untidying = true := by
  induction rounds with
  | zero => exact ⟨rfl, nofun⟩
  | succ rounds inductionHypothesis =>
      refine (pop_untidying slot).bind fun popped => ?_
      cases popped with
      | none => trivial
      | some packet => exact (releaseSerializer_untidying _).bind fun _ => inductionHypothesis

theorem clearSendedBuffer_untidying (rounds : Nat) :
    (clearSendedBuffer slot rounds).Uses fun (op : Op) => op.untidying = true := by
  induction rounds with
  | zero => exact ⟨rfl, nofun⟩
  | succ rounds inductionHypothesis =>
      refine ⟨rfl, fun (empty : Bool) => ?_⟩
      cases empty with
      | true => trivial
      | false =>
          refine ⟨rfl, fun (popped : Option Packet) => ?_⟩
          cases popped with
          | none => exact ⟨rfl, nofun⟩
          | some packet => exact (releaseSerializer_untidying _).bind fun _ => inductionHypothesis

theorem bufferClear_tidying : tidying.Obeys (bufferClear fuel slot) (.deleting slot)
    fun stage _ => stage = .cleared slot := by
  refine (untidying_keeps (clearSendBuffer_untidying fuel) _).bindTo fun _ => ?_
  refine (untidying_keeps (clearSendedBuffer_untidying fuel) _).bindTo fun _ => ?_
  exact ⟨rfl, fun _ _ => rfl⟩

theorem giveBack_tidying (slot : Slot) : tidying.Keeps (giveBack fuel slot) .away := by
  refine ⟨trivial, fun (count : IoCount) _ => ?_⟩
  change tidying.Obeys (if count.isZero then _ else _) .away _
  split
  · refine ⟨rfl, fun (previous : IoCount) _ => ?_⟩
    have moved : tidying.track .away ⟨.session slot .compareExchangeIo, previous⟩ =
        if previous.isZero = true then .deleting slot else .away := rfl
    change tidying.Obeys (if previous.isZero then _ else _) (tidying.track .away
      ⟨.session slot .compareExchangeIo, previous⟩) _
    rw [moved]
    cases previous.isZero with
    | false => rfl
    | true =>
        refine ⟨trivial, fun targetID _ => ⟨trivial, fun sock _ => ⟨trivial, fun closed _ => ?_⟩⟩⟩
        refine bufferClear_tidying.bindTo fun _ => ?_
        refine ⟨⟨slot, rfl⟩, fun _ _ => ⟨trivial, fun _ _ => ⟨trivial, fun _ _ => ?_⟩⟩⟩
        exact ⟨trivial, fun _ _ => ⟨trivial, fun _ _ => rfl⟩⟩
  · rfl

end Functions

theorem jobs_tidying {workers contents : Nat} {settings : Settings} {thread : Thread workers contents}
    {job : Job} {program : NetProgram Unit} (chosen : jobProgram settings thread job = some program) :
    tidying.Obeys program .away fun stage _ => stage = .away := by
  have ignored (op : Op) (untidying : op.untidying = true) : tidying.permits .away op ∧
      forall answer, tidying.expects .away ⟨op, answer⟩ -> Tidying.track .away ⟨op, answer⟩ = .away :=
    ⟨(untidying_ignored untidying .away).1, fun answer _ => (untidying_ignored untidying .away).2 answer⟩
  refine (jobs_composed chosen).keeps (fun op outside => ignored op (untidying_of_outside outside)) ?_
  intro program block
  exact block.works.keeps (fun op works => ignored op (untidying_of_works works)) giveBack_tidying

/-! ## The deletion in the life of the session -/

/-- A deletion goes on until the index is pushed. -/
theorem deletes_track {position : Position} {op : Op} {answer : op.Answer} {slot : Slot}
    (deletes : position.deletes slot) (permitted : living.permits position op)
    (unpushed : forall index, op ≠ .pushIndex index) : (position.track ⟨op, answer⟩).deletes slot := by
  rcases position with ⟨account, stage, loaded⟩
  have busy : stage ≠ .idle := by
    rintro rfl
    rcases deletes with same | ⟨_, same⟩ <;> cases same
  have strange {other : Stage} (there : stage = other) (unlike : other ≠ .deleting slot)
      (different : forall id, other ≠ .deletingAs slot id) : False := by
    subst there
    rcases deletes with same | ⟨id, same⟩
    · exact unlike same
    · exact different id same
  cases op with
  | session target op =>
      cases op with
      | incrementIo =>
          rcases permitted with there | ⟨id, there⟩ | ⟨idle, _⟩
          · exact (strange there nofun nofun).elim
          · exact (strange there nofun nofun).elim
          · exact absurd idle busy
      | decrementIo =>
          rcases permitted.2 with idle | there
          · exact absurd idle busy
          · exact (strange there nofun nofun).elim
      | compareExchangeIo => exact (strange permitted nofun nofun).elim
      | clearDeleted =>
          rcases permitted with ⟨id, there⟩
          exact (strange there nofun nofun).elim
      | loadId =>
          rcases permitted with there | ⟨idle, _⟩
          · cases (there : stage = .deleting target)
            rcases deletes with same | ⟨id, same⟩
            · cases same
              exact Or.inr ⟨answer, rfl⟩
            · cases same
          · exact absurd idle busy
      | storeId id => exact (strange permitted.1 nofun nofun).elim
      | wsaSend batch => exact absurd permitted.1 busy
      | wsaRecv buffers => exact absurd permitted.1 busy
      | _ => exact deletes
  | postQueuedCompletionStatus target packet => exact absurd permitted.1 busy
  | getQueuedCompletionStatus => exact absurd permitted busy
  | popIndex => exact absurd permitted busy
  | pushIndex index => exact absurd rfl (unpushed index)
  | mark note =>
      cases note with
      | findSession id => exact absurd permitted busy
      | onNewConnect id =>
          rcases permitted with ⟨target, there⟩
          exact (strange there nofun nofun).elim
      | onDisconnect id => exact (strange permitted nofun nofun).elim
      | _ => exact deletes
  | _ => exact deletes

/-- The slot that a thread is tidying is one whose session it deletes. -/
def Tidied (position : Position) (stage : Tidying) : Prop :=
  forall slot, stage.slot = some slot -> position.deletes slot

theorem tidied_track {position : Position} {stage : Tidying} {op : Op} {answer : op.Answer}
    (tidied : Tidied position stage) (lives : living.permits position op) (tidies : tidying.permits stage op) :
    Tidied (position.track ⟨op, answer⟩) (stage.track ⟨op, answer⟩) := by
  have kept (same : stage.track ⟨op, answer⟩ = stage) (unpushed : forall index, op ≠ .pushIndex index) :
      Tidied (position.track ⟨op, answer⟩) (stage.track ⟨op, answer⟩) := by
    rw [same]
    exact fun slot named => deletes_track (tidied slot named) lives unpushed
  by_cases untidying : op.untidying = true
  · refine kept ((untidying_ignored untidying stage).2 answer) ?_
    rintro index rfl
    cases untidying
  cases op with
  | session target op =>
      cases op with
      | compareExchangeIo =>
          cases (tidies : stage = .away)
          intro slot named
          change Tidying.slot (if IoCount.isZero answer = true then .deleting target else .away) = some slot at named
          split at named
          next zero =>
            cases named
            exact Or.inl (if_pos zero)
          next => cases named
      | clearRecvBuffer =>
          cases (tidies : stage = .deleting target)
          intro slot named
          exact deletes_track (tidied slot named) lives nofun
      | _ => exact absurd rfl untidying
  | pushIndex index => exact nofun
  | _ => exact absurd rfl untidying

end Network
end LoginServer
