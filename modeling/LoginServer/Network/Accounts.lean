import LoginServer.Concurrency.Tally
import LoginServer.Network.Accounting
import LoginServer.Network.SendRounds

namespace LoginServer
namespace Network

open Memory Buffers Receiving Login Concurrency

/-!
# The accounts of a run

The count of a session is compared with the holds that are outstanding: those
in the kernel's keeping, and those the threads owe.
-/

section Runs

variable {workers contents : Nat} {settings : Settings}

/-- What all threads together owe on a session. -/
def owedTotal (ghosts : Thread workers contents -> Owed) (slot : Slot) : Nat :=
  tally (fun owed => owed slot) ghosts

/-- What the threads owe in a configuration. -/
def owedIn (c : (server settings workers contents).Config) : Thread workers contents -> Owed :=
  (holds false).ghosts c

/-- Whether an operation hands `recved` more than `recvBuffer` has room for.
As one byte of the room is kept free, filling it is already too much. -/
def overflows (state : State) : Op -> Bool
  | .session slot (.recved transfer) =>
      decide ((state.sessionArray slot).recvBuffer.freeSize ≤ transfer.toNat)
  | _ => false

/-- Every receive leaves room in `recvBuffer`. -/
def roomy : (server settings workers contents).Rule := fun c _ event =>
  overflows c.state event.op = false

instance (c : (server settings workers contents).Config) (thread : Thread workers contents)
    (event : Event interface) : Decidable (roomy c thread event) :=
  inferInstanceAs (Decidable (_ = false))

/-- No hold is forgotten: every receive leaves room in `recvBuffer`, so that `recved` does not
refuse it, and no call of `sended` has 2^32 - 1 rounds, so that it does not answer -1. After
either, `workerThread` goes on to its next completion without giving back the hold. -/
def remembered : (server settings workers contents).Rule := fun c thread event =>
  roomy c thread event ∧ countsRight c thread event

instance (c : (server settings workers contents).Config) (thread : Thread workers contents)
    (event : Event interface) : Decidable (remembered c thread event) :=
  inferInstanceAs (Decidable (_ ∧ _))

/-- The accounts balance, apart from holds that were forgotten. -/
def Balanced (refusals : Bool) : (holds refusals).Assertion (server settings workers contents) :=
  fun state ghosts _ => forall slot, owedTotal ghosts slot ≤ state.balance slot ∧
    (refusals = false -> owedTotal ghosts slot = state.balance slot)

theorem owedTotal_track (ghosts : Thread workers contents -> Owed) (thread : Thread workers contents)
    (event : Event interface)
    (enough : forall slot, holdChange event = some (slot, false) -> 1 ≤ ghosts thread slot)
    (slot : Slot) :
    (owedTotal (Function.update ghosts thread ((ghosts thread).track event)) slot : Int) =
      owedTotal ghosts slot + balanceChange (holdChange event) slot := by
  have change := tally_update (fun owed : Owed => owed slot) ghosts thread
    ((ghosts thread).track event)
  have own : ((ghosts thread).track event slot : Int) =
      ghosts thread slot + balanceChange (holdChange event) slot := by
    rcases held : holdChange event with _ | ⟨target, _ | _⟩
    · simp [Owed.track_neutral held, balanceChange]
    · have owes := enough target held
      rw [Owed.track_loss held]
      simp only [Owed.remove, Function.update_apply, balanceChange]
      split
      next same =>
        subst same
        omega
      next => omega
    · rw [Owed.track_gain held]
      simp only [Owed.add, Function.update_apply, balanceChange]
      split
      next same =>
        subst same
        omega
      next => omega
  unfold owedTotal
  omega

/-- Only what a thread has is given away. -/
theorem needsHold_of_loss {event : Event interface} {slot : Slot}
    (loses : holdChange event = some (slot, false)) : needsHold event.op = some slot := by
  rcases event with ⟨op, answer⟩
  cases op with
  | session target op =>
      cases op <;> simp only [holdChange, Option.some.injEq, Prod.mk.injEq, Bool.true_eq_false,
        and_false, reduceCtorEq] at loses
      case decrementIo => exact congrArg some loses.1
      all_goals
        split at loses <;> cases loses
        rfl
  | postQueuedCompletionStatus target packet => cases loses; rfl
  | _ => cases loses

/-- With room for its bytes, a receive completion is not refused, nor is a send completion that
`sended` counts right. -/
theorem refuses_eq_false {choice : Choice} {state state' : State} {op : Op} {answer : op.Answer}
    (performed : perform choice state op = some (answer, state')) (transferring : transfers op = true)
    (fits : overflows state op = false) (answered : forall slot, op ≠ .mark (.sendedFailed slot)) :
    refuses ⟨op, answer⟩ = false := by
  cases op with
  | mark note =>
      cases note with
      | sendedFailed slot => exact absurd rfl (answered slot)
      | _ => rfl
  | session slot op =>
      cases op with
      | recved transfer =>
          rcases perform_session performed with ⟨s', inner, rfl⟩
          have room : ¬ (state.sessionArray slot).recvBuffer.freeSize ≤ transfer.toNat := by
            simpa [overflows] using fits
          have something : transfer ≠ 0 := by simpa [transfers] using transferring
          simp only [performSession, Receiving.recved, if_neg (not_or.mpr ⟨room, something⟩)] at inner
          cases inner
          rfl
      | _ => rfl
  | _ => rfl

theorem balanced_preserved (refusals : Bool) :
    (holds refusals).Preserved (server settings workers contents)
      (fun c thread event => refusals = false -> remembered c thread event) (Balanced refusals) where
  initial := by
    intro slot
    have none : owedTotal (fun _ : Thread workers contents => nothingOwed) slot = 0 := by
      simp [owedTotal, tally, nothingOwed]
    change (owedTotal (fun _ : Thread workers contents => nothingOwed) slot : Int) ≤ 0 ∧
      (refusals = false -> (owedTotal (fun _ : Thread workers contents => nothingOwed) slot : Int) = 0)
    rw [none]
    exact ⟨le_refl _, fun _ => rfl⟩
  act := by
    intro c thread op _ choice answer state reach turn balanced permitted performed fits
    refine ⟨fun none => ?_, ?_⟩
    · have known := reach.mono fun _ _ _ (lawful : refusals = false -> remembered _ _ _) => (lawful none).2
      exact refuses_eq_false performed permitted.1 (fits none).1 (answered_of_countsRight known turn)
    intro slot
    have enough : forall slot, op = .session slot .decrementIo -> 1 ≤ c.state.refs slot := by
      rintro slot rfl
      have own := le_tally (fun owed : Owed => owed slot) ((holds refusals).ghosts c) thread
      have held := permitted.2 slot rfl
      have total := (balanced slot).1
      unfold State.balance owedTotal at total
      omega
    have change := perform_balance performed enough slot
    have track := owedTotal_track ((holds refusals).ghosts c) thread ⟨op, answer⟩
      (fun slot loses => permitted.2 slot (needsHold_of_loss loses)) slot
    have before := balanced slot
    refine ⟨le_trans (le_of_eq track) ?_, fun none => track.trans ?_⟩
    · rw [change]
      omega
    · rw [change, before.2 none]
  takeUp := by
    intro state ghosts history thread balanced finished slot
    have change : owedTotal (Function.update ghosts thread nothingOwed) slot + ghosts thread slot =
        owedTotal ghosts slot := tally_update (fun owed : Owed => owed slot) ghosts thread nothingOwed
    have before := balanced slot
    have kept : refusals = false -> ghosts thread slot = 0 := fun none =>
      congrFun (finished none) slot
    change (owedTotal (Function.update ghosts thread nothingOwed) slot : Int) ≤ _ ∧
      (refusals = false -> (owedTotal (Function.update ghosts thread nothingOwed) slot : Int) = _)
    refine ⟨by omega, fun none => ?_⟩
    have same := before.2 none
    have zero := kept none
    omega
  surround := by
    intro state ghosts history change state' balanced changed slot
    rw [surround_balance changed]
    exact balanced slot

/-- In runs whose receives leave room in `recvBuffer` and whose calls of `sended` do not count
round to -1 (`remembered`), the count of a session is at all times the number of its
outstanding holds, and a thread at the end of its round has given back every hold it took
over. -/
theorem ioCount_eq_holds {c : (server settings workers contents).Config}
    (reach : (server settings workers contents).Reach remembered c) :
    (forall slot, c.state.refs slot = c.state.kernelHolds slot + owedTotal (owedIn c) slot) ∧
      forall thread, c.running thread = .done () -> owedIn c thread = nothingOwed := by
  have lawful : (server settings workers contents).Reach
      (fun c thread event => false = false -> remembered c thread event) c :=
    reach.mono fun _ _ _ fits _ => fits
  rcases Discipline.sound (balanced_preserved false) (fun _ _ _ => jobs_obey) lawful with
    ⟨balanced, obedient⟩
  constructor
  · intro slot
    have same := (balanced slot).2 rfl
    unfold State.balance at same
    change ((owedTotal (owedIn c) slot : Nat) : Int) = _ at same
    omega
  · intro thread idle
    have finished := obedient thread
    rw [idle] at finished
    exact finished rfl

/-- A client connects and sends one byte. -/
def shortReceive : List (Machine.Move (server oneSession 1 0)) :=
  [.takeUp .accept Job.loop] ++ acts .accept 25 usual ++
    [.surround (Surroundings.completeRecv 0 0 true [7]), .takeUp (.worker 0) Job.loop] ++
    acts (.worker 0) 3 usual

theorem ioCount_eq_holds_shortReceive : Exists fun c : (server oneSession 1 0).Config =>
    (c.state.sessionArray 0).ioCount = ⟨false, 1⟩ ∧ c.state.kernelHolds 0 = 0 ∧
      owedTotal (owedIn c) 0 = 1 := by
  have run : Exists fun c => (server oneSession 1 0).Reach remembered c ∧
      ((c.state.sessionArray 0).ioCount == ⟨false, 1⟩ && c.state.kernelHolds 0 == 0) = true :=
    Machine.exists_of_runSchedule shortReceive _ (by decide +kernel)
  rcases run with ⟨c, reach, found⟩
  simp only [Bool.and_eq_true, beq_iff_eq] at found
  have balanced := (ioCount_eq_holds reach).1 0
  simp only [State.refs, found.1, found.2] at balanced
  exact ⟨c, found.1, found.2, by omega⟩

/-- The client fills `recvBuffer` to the last byte.  The worker goes on to its next
round, and the session's count stays at one with nothing outstanding. -/
theorem fullReceive_forgetsHold : Exists fun c : (server oneSession 1 0).Config =>
    (server oneSession 1 0).Reach (Machine.anyEvent _) c ∧
      (c.state.sessionArray 0).ioCount = ⟨false, 1⟩ ∧ c.state.kernelHolds 0 = 0 ∧
      owedTotal (owedIn c) 0 = 0 := by
  have run : Exists fun c => (server oneSession 1 0).Reach (Machine.anyEvent _) c ∧
      ((c.state.sessionArray 0).ioCount == ⟨false, 1⟩ && c.state.kernelHolds 0 == 0 &&
        owedTotal (owedIn c) 0 == 0) = true :=
    Machine.exists_of_runSchedule
      ([.takeUp .accept Job.loop] ++ acts .accept 25 usual ++
        [.surround (Surroundings.completeRecv 0 0 true (List.replicate 255 7)),
          .takeUp (.worker 0) Job.loop] ++
        acts (.worker 0) 2 usual ++ [.takeUp (.worker 0) Job.loop])
      _ (by decide +kernel)
  rcases run with ⟨c, reach, found⟩
  simp only [Bool.and_eq_true, beq_iff_eq] at found
  exact ⟨c, reach, found.1.1, found.1.2, found.2⟩

/-- The same with refused receives: there are at least as many holds as are
outstanding. -/
theorem holds_le_ioCount {c : (server settings workers contents).Config}
    {rule : (server settings workers contents).Rule}
    (reach : (server settings workers contents).Reach rule c) (slot : Slot) :
    c.state.kernelHolds slot + owedTotal ((holds true).ghosts c) slot ≤ c.state.refs slot := by
  have lawful : (server settings workers contents).Reach
      (fun c thread event => true = false -> remembered c thread event) c :=
    reach.mono fun _ _ _ _ impossible => Bool.noConfusion impossible
  rcases Discipline.sound (balanced_preserved true) (fun _ _ _ => jobs_obey) lawful with
    ⟨balanced, _⟩
  have total := (balanced slot).1
  unfold State.balance at total
  omega

end Runs

end Network
end LoginServer
