import LoginServer.Network.MemorySafety

namespace LoginServer
namespace Network

open Memory Buffers Receiving Login Concurrency

/-!
# Packet objects and their counters

A `packet` object is one owner of its serializer.  It comes and goes with the
counter, whereas the other owners take over what a packet, a message or a queue
had before them.  So an object may be destroyed while its serializer is still
under way in several sessions, and the other way round.
-/

/-- The buffers of the packet objects of a thread that is between two statements of a scope, or
between two jobs. -/
def objectsOf : NetProgram Unit -> Option (List Pointer)
  | .done _ => some []
  | .step (.mark (.packets buffers)) _ => some buffers
  | _ => none

/-- The latest operation of the thread counted the serializer down to 0. -/
def letGoLast (pointer : Pointer) : List (Event interface) -> Bool
  | ⟨.decReferenceCounter target, count⟩ :: _ => target == pointer && count == (0 : Int)
  | _ => false

/-- The thread has done with `bufferClear`, and the next operation of the program pushes the
index. -/
def pushesNext (slot : Slot) : NetProgram Unit -> Bool
  | .step (.pushIndex index) _ => index == slot
  | _ => false

/-- The next operation of the program counts one owner more. -/
def countsNext (pointer : Pointer) : NetProgram Unit -> Bool
  | .step (.incReferenceCounter target) _ => target == pointer
  | _ => false

section Runs

variable {workers contents : Nat} {settings : Settings} {c : (server settings workers contents).Config}
  (reach : (server settings workers contents).Reach orderly c) {thread : Thread workers contents}
include reach

theorem objects_inHand {buffers : List Pointer} (objects : objectsOf (c.running thread) = some buffers) :
    (Owning.hands (owning.ghosts c thread)).held.Perm buffers := by
  unfold objectsOf at objects
  split at objects
  next idle =>
    cases objects
    rw [(hands_of_idle reach idle).1]
  next turn =>
    cases objects
    exact (owning_permits reach turn).2
  next => cases objects

/-- A thread sees to what it has loose in hand. -/
theorem running_of_loose {loose : Loose} (own : (Owning.hands (owning.ghosts c thread)).loose = some loose) :
    Exists fun next => c.running thread = .step (I := interface) loose.next next := by
  cases turn : c.running thread with
  | done value => cases own.symm.trans (hands_of_idle reach turn).2
  | step op next =>
      cases Hands.next_of_loose own (owning_permits reach turn)
      exact ⟨next, rfl⟩

/-- Whoever lets go of a serializer as its last owner puts it back at once. -/
theorem freesNext_of_letGoLast {pointer : Pointer} (last : letGoLast pointer (c.past thread) = true) :
    freesNext pointer (c.running thread) = true := by
  have loose : (Owning.hands (owning.ghosts c thread)).loose = some (.last pointer) := by
    unfold letGoLast at last
    split at last
    next target count earlier past =>
      rcases Bool.and_eq_true_iff.mp last with ⟨same, zero⟩
      cases beq_iff_eq.mp same
      unfold Discipline.ghosts
      rw [past]
      exact if_pos (beq_iff_eq.mp zero)
    next => cases last
  rcases running_of_loose reach loose with ⟨next, turn⟩
  rw [turn]
  exact beq_self_eq_true pointer

omit reach in
theorem loose_of_frees {hands : Hands} {pointer : Pointer} (frees : hands.frees pointer ≠ 0) :
    Exists fun loose => hands.loose = some loose ∧ loose.pointer = pointer := by
  unfold Hands.frees at frees
  split at frees
  next same => exact Option.map_eq_some_iff.mp same
  next => exact absurd rfl frees

/-- A serializer that is out of the pool without owner is being taken or put back. -/
theorem owned_of_allocated {pointer : Pointer} (allocated : c.state.allocated pointer = true) :
    0 < owners c.state (owning.ghosts c) pointer ∨
      Exists fun thread => countsNext pointer (c.running thread) = true ∨
        freesNext pointer (c.running thread) = true := by
  by_contra! nobody
  have out := ((owned_of_reach reach).counted.out_iff pointer).mp allocated
  have none : looseIn (owning.ghosts c) pointer = 0 := by
    refine (tally_eq_zero_iff _ _).mpr fun thread => ?_
    by_contra frees
    rcases loose_of_frees frees with ⟨loose, own, rfl⟩
    rcases running_of_loose reach own with ⟨next, turn⟩
    have neither := nobody.2 thread
    rw [turn] at neither
    cases loose with
    | fresh pointer => exact neither.1 (beq_self_eq_true pointer)
    | last pointer => exact neither.2 (beq_self_eq_true pointer)
  have unowned := nobody.1
  omega

/-- `bufferClear` leaves nothing behind, and nothing comes until the slot is in use again. -/
theorem buffers_cleared {slot : Slot} (pushes : pushesNext slot (c.running thread) = true) :
    (c.state.sessionArray slot).sendBuffer.nodes = [] ∧ (c.state.sessionArray slot).sendedBuffer = [] := by
  have known := handedOut_of_orderly reach
  unfold pushesNext at pushes
  split at pushes
  next index next turn =>
    cases beq_iff_eq.mp pushes
    have obeys := (Discipline.sound (rested_preserved slot) (fun _ _ _ => jobs_sending) known).2 thread
    rw [turn] at obeys
    have emptied := emptied_of_pushIndex known turn obeys.1
    have drained := (rested_of_reach known slot).drained thread
    rw [emptied] at drained
    exact ⟨drained.queue rfl, drained.sent rfl⟩
  next => cases pushes

end Runs

/-- Content code constructs a packet and copies it, constructs another one, assigns the first to it
and sends it. -/
def assignedAndSent : List (Machine.Move (server oneSession 1 1)) :=
  [.takeUp .accept Job.loop] ++ acts .accept 25 usual ++
    [.takeUp (.content ⟨0, Nat.one_pos⟩)
      (Job.call (.packets [.construct [7], .copy 0, .construct [8], .assign 0 1, .sendReqPacket 0 0]))] ++
    acts (.content ⟨0, Nat.one_pos⟩) 6 usual ++
    acts (.content ⟨0, Nat.one_pos⟩) 1 { usual with buffer := ⟨2, freshSerializer, id⟩ } ++
    acts (.content ⟨0, Nat.one_pos⟩) 15 usual

end Network
end LoginServer
