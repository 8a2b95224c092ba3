import LoginServer.Network.Serializers
import LoginServer.Network.Rejection

namespace LoginServer
namespace Network

open Memory Buffers Receiving Login Concurrency

/-!
# Memory safety of packets

What follows from counters that are right.  No thread uses a serializer that is
back in the pool; what the kernel sends stays allocated until its completion is
handled; a serializer goes back once, with its last owner; and none stays out
when the server is idle.
-/

section Runs

variable {workers contents : Nat} {settings : Settings} {c : (server settings workers contents).Config}

/-- A client connects, and a worker has a serializer in hand for its first byte.  Content code sends
the same serializer, and another worker handles the request. -/
def sharedOut (steps : Nat) : List (Machine.Move (server oneSession 2 1)) :=
  [.takeUp .accept Job.loop] ++ acts .accept 25 usual ++
    [.surround (Surroundings.completeRecv 0 0 true [7]), .takeUp (.worker ⟨0, Nat.zero_lt_two⟩) Job.loop] ++
      acts (.worker ⟨0, Nat.zero_lt_two⟩) 4 usual ++
    requested ⟨1, [7]⟩ ++ [.takeUp (.worker ⟨1, Nat.one_lt_two⟩) Job.loop] ++
      acts (.worker ⟨1, Nat.one_lt_two⟩) steps usual

variable (reach : (server settings workers contents).Reach orderly c)

/-! ## What is sent -/

theorem owns_of_mem {packet : Packet} {packets : List Packet} (member : packet ∈ packets) :
    1 ≤ occurrences packet.pointer packets :=
  List.count_pos_iff.mpr (List.mem_map_of_mem member)

theorem owned_of_session {Thread : Type} [Fintype Thread] {state : State} {ghosts : Thread -> Owning} (slot : Slot)
    {pointer : Pointer} (owns : 1 ≤ (state.sessionArray slot).owns pointer) : 1 ≤ owners state ghosts pointer := by
  have own := le_tally (Session.owns pointer) state.sessionArray slot
  unfold owners
  omega

include reach

theorem owning_permits {op : Op} {next : op.Answer -> NetProgram Unit} {thread : Thread workers contents}
    (turn : c.running thread = .step (I := interface) op next) :
    (Owning.hands (owning.ghosts c thread)).permits op := by
  have obeys := (Discipline.sound owned_preserved (fun _ _ _ => jobs_owning) reach).2 thread
  rw [turn] at obeys
  exact obeys.1

/-- The batch was handed to `WSASend`, and no thread has taken its completion yet. -/
def State.onTheWay (state : State) (slot : Slot) (batch : List Packet) : Prop :=
  (Exists fun pending => pending ∈ (state.sessionArray slot).pendingSends ∧ pending.batch = batch) ∨
    Exists fun completion => completion ∈ state.port ∧ completion.slot = slot ∧ completion.overlapped = .send batch

omit reach in
theorem kernelHolds_of_onTheWay {state : State} {slot : Slot} {batch : List Packet}
    (onTheWay : state.onTheWay slot batch) : 1 ≤ state.kernelHolds slot := by
  unfold State.kernelHolds
  rcases onTheWay with ⟨pending, there, _⟩ | ⟨completion, queued, here, _⟩
  · have some_ := List.length_pos_of_mem there
    omega
  · have some_ : 0 < state.port.countP fun completion => completion.slot == slot :=
      List.countP_pos_iff.mpr ⟨completion, queued, beq_iff_eq.mpr here⟩
    omega

theorem sended_of_onTheWay {slot : Slot} {batch : List Packet} (onTheWay : c.state.onTheWay slot batch) :
    batch = (c.state.sessionArray slot).sendedBuffer := by
  have reach' := handedOut_of_orderly reach
  rcases (alive_of_reach (informed_of_reach reach').1).slots slot with ⟨life, current, fits⟩
  have holds := kernelHolds_of_onTheWay onTheWay
  have running : life.phase.isRunning = true := by
    by_contra stopped
    have none := fits.kernel (Bool.not_eq_true _ ▸ stopped)
    omega
  have known := matches_of_reach (wholly_of_orderly reach slot) current (Phase.occupied_of_isRunning running)
    (nothing_lingers reach slot)
  rcases onTheWay with ⟨pending, there, rfl⟩ | ⟨completion, queued, here, sent⟩
  · exact known.pending pending there
  · exact known.queued completion queued here batch sent

/-- The operation is about this serializer. -/
def Op.uses (pointer : Pointer) : Op -> Bool
  | .incReferenceCounter target => target == pointer
  | .decReferenceCounter target => target == pointer
  | .serializerFree target => target == pointer
  | .postQueuedCompletionStatus _ packet => packet.pointer == pointer
  | .session _ (.linkNode packet) => packet.pointer == pointer
  | .session _ (.pushSended packet) => packet.pointer == pointer
  | _ => false

/-- The next operation of the program is about this serializer: it counts it up or down, posts
it, links it, pushes it or frees it. -/
def usesNext (pointer : Pointer) : NetProgram Unit -> Bool
  | .step op _ => Op.uses pointer op
  | .done _ => false

/-- The next operation of the program puts the serializer back into the pool. -/
def freesNext (pointer : Pointer) : NetProgram Unit -> Bool
  | .step (.serializerFree target) _ => target == pointer
  | _ => false

theorem last_of_freesNext {thread : Thread workers contents} {pointer : Pointer}
    (frees : freesNext pointer (c.running thread) = true) :
    (Owning.hands (owning.ghosts c thread)).loose = some (.last pointer) := by
  unfold freesNext at frees
  split at frees
  next target next turn =>
    cases beq_iff_eq.mp frees
    exact owning_permits reach turn
  next => cases frees

/-- What a thread has loose in hand is out of the pool, nobody owns it, and no other thread has it
loose. -/
theorem alone_with_loose {thread : Thread workers contents} {loose : Loose}
    (own : (Owning.hands (owning.ghosts c thread)).loose = some loose) :
    c.state.allocated loose.pointer = true ∧ owners c.state (owning.ghosts c) loose.pointer = 0 ∧
      forall other, other ≠ thread -> forall loose', (Owning.hands (owning.ghosts c other)).loose = some loose' ->
        loose'.pointer ≠ loose.pointer := by
  have counted := (owned_of_reach reach).counted
  have one := counted.unowned_of_loose (loose_of_hand loose own)
  refine ⟨counted.out_of_loose (loose_of_hand loose own), one.1, fun other different loose' again same => ?_⟩
  have both := add_le_tally (fun ghost => (Owning.hands ghost).frees loose.pointer) (owning.ghosts c) different
  have another : (Owning.hands (owning.ghosts c other)).frees loose.pointer = 1 := by
    rw [← same]
    exact Hands.frees_loose again
  rw [another, Hands.frees_loose own] at both
  have total := one.2
  unfold looseIn at total
  omega

/-- Between two jobs a thread has nothing in hand. -/
theorem hands_of_idle {thread : Thread workers contents} (idle : c.running thread = .done ()) :
    (Owning.hands (owning.ghosts c thread)).held = [] ∧ (Owning.hands (owning.ghosts c thread)).loose = none := by
  have obeys := (Discipline.sound owned_preserved (fun _ _ _ => jobs_owning) reach).2 thread
  rw [idle] at obeys
  exact obeys

section Vacant

variable (vacant : forall slot : Slot, slot.toNat < settings.maxSession ->
  forall life, lifeAfter settings.maxSession slot c.history = some life -> life.phase.rests = true)

include vacant

/-- Also the slots beyond `maxSession` are out of use. -/
theorem rests_of_vacant (slot : Slot) : Exists fun life => lifeAfter settings.maxSession slot c.history = some life ∧
    SlotFits c.state (living.ghosts c) slot life ∧ life.phase.rests = true := by
  have reach' := handedOut_of_orderly reach
  rcases (alive_of_reach (informed_of_reach reach').1).slots slot with ⟨life, current, fits⟩
  refine ⟨life, current, fits, ?_⟩
  by_cases inside : slot.toNat < settings.maxSession
  · exact vacant slot inside life current
  · rw [(lifeAfter_absent current).mpr (Nat.not_lt.mp inside)]
    rfl

theorem sessions_own_nothing (pointer : Pointer) : tally (Session.owns pointer) c.state.sessionArray = 0 := by
  refine (tally_eq_zero_iff _ _).mpr fun slot => ?_
  rcases rests_of_vacant reach vacant slot with ⟨life, current, _, resting⟩
  rcases (rested_of_reach (handedOut_of_orderly reach) slot).vacant life current resting with ⟨nodes, sended⟩
  rw [Session.owns, nodes, sended]
  rfl

theorem port_of_vacant : c.state.port = [] := by
  by_contra queued
  rcases List.exists_mem_of_ne_nil _ queued with ⟨completion, member⟩
  rcases rests_of_vacant reach vacant completion.slot with ⟨life, _, fits, resting⟩
  have stopped : life.phase.isRunning = false := by
    rw [← Bool.not_eq_true]
    intro running
    cases (Phase.rests_of_running running).symm.trans resting
  have none := fits.kernel stopped
  have some_ : 0 < c.state.port.countP fun other => other.slot == completion.slot :=
    List.countP_pos_iff.mpr ⟨completion, member, beq_self_eq_true completion.slot⟩
  unfold State.kernelHolds at none
  omega

end Vacant

end Runs

end Network
end LoginServer
