import LoginServer.Network.Routine

namespace LoginServer
namespace Network

open Memory Buffers Receiving Login Concurrency

/-!
# `containorLock`

A slim lock is not recursive: a thread that requests it in a mode conflicting
with its own waits for itself.  `update` goes through the connections with the
lock held shared, and `disconnectReq` below it gives back a hold.  If that is
the last one, the session is deleted, and `OnDisconnect` requests the lock
exclusively.
-/

/-- The mode in which a thread holds the lock after an event. -/
def lockChange (held : Option LockMode) : Event interface -> Option LockMode
  | ⟨.acquireContainorLock mode, _⟩ => some mode
  | ⟨.releaseContainorLock _, _⟩ => none
  | _ => held

def heldMode (past : List (Event interface)) : Option LockMode :=
  past.foldr (fun event held => lockChange held event) none

/-- The mode a thread is about to request. -/
def requests {α : Type} : NetProgram α -> Option LockMode
  | .step (.acquireContainorLock mode) _ => some mode
  | _ => none

/-- Whether a thread is about to enter `OnDisconnect`. -/
def entersOnDisconnect {α : Type} : NetProgram α -> Bool
  | .step (.mark (.onDisconnect _)) _ => true
  | _ => false

/-- The lock is requested, and `OnDisconnect` entered, only without it.  Nobody
deletes a session while holding it. -/
def lockUse : Discipline interface where
  Ghost := Option LockMode
  start := none
  track := lockChange
  permits := fun held op =>
    match op with
    | .acquireContainorLock _ => held = none
    | .mark (.onDisconnect _) => held = none
    | _ => True
  expects := fun held event =>
    match event with
    | ⟨.session _ .compareExchangeIo, previous⟩ => IoCount.isZero previous = true -> held = none
    | _ => True
  finish := fun held => held = none
  finish_start := rfl

/-! ## Functions -/

theorem lockUse_quiet {α : Type} {program : NetProgram α} (quiet : Quiet program)
    (held : Option LockMode) : lockUse.Keeps program held := by
  refine Discipline.obeys_of_uses (D := lockUse) quiet ?_ ?_ held
  · intro op held opQuiet
    cases op <;> trivial
  · intro op answer held opQuiet
    cases op <;> first | rfl | exact Bool.noConfusion opQuiet

theorem onDisconnect_lockUse (sessionID : SessionID) : lockUse.Keeps (onDisconnect sessionID) none :=
  ⟨rfl, fun _ _ => ⟨rfl, fun _ _ => ⟨trivial, fun _ _ => ⟨trivial, fun _ _ => rfl⟩⟩⟩⟩

theorem deleteSession_lockUse (fuel : Nat) (slot : Slot) (held : Option LockMode) :
    lockUse.Keeps (deleteSession fuel slot) held := by
  refine ⟨trivial, fun (previous : IoCount) expected => ?_⟩
  change lockUse.Obeys (if previous.isZero then _ else _) held _
  split
  next zero =>
    have free : held = none := expected zero
    subst free
    refine ⟨trivial, fun targetID _ => ⟨trivial, fun sock _ => ⟨trivial, fun closed _ => ?_⟩⟩⟩
    refine (lockUse_quiet (bufferClear_local fuel slot).quiet none).bindTo fun _ => ?_
    exact ⟨trivial, fun _ _ => onDisconnect_lockUse targetID⟩
  next => rfl

theorem giveBack_lockUse (fuel : Nat) (slot : Slot) (held : Option LockMode) :
    lockUse.Keeps (giveBack fuel slot) held := by
  refine ⟨trivial, fun (count : IoCount) _ => ?_⟩
  change lockUse.Obeys (if count.isZero then _ else _) held _
  split
  · exact deleteSession_lockUse fuel slot held
  · rfl

theorem works_lockUse {fuel : Nat} {α : Type} {program : NetProgram α} (works : Works fuel program)
    (held : Option LockMode) : lockUse.Keeps program held := by
  refine works.keeps (D := lockUse) ?_ fun slot => giveBack_lockUse fuel slot held
  intro op permitted
  cases op with
  | session slot op => exact ⟨trivial, fun _ _ => rfl⟩
  | mark note => cases note <;> first | exact ⟨trivial, fun _ _ => rfl⟩ | exact Bool.noConfusion permitted
  | _ => first | exact ⟨trivial, fun _ _ => rfl⟩ | exact Bool.noConfusion permitted

theorem onNewConnect_lockUse (fuel : Nat) (sessionID : SessionID) :
    lockUse.Keeps (onNewConnect fuel sessionID) none := by
  refine ⟨trivial, fun _ _ => ?_⟩
  refine (works_lockUse (findSession_assembled sessionID).works none).bindTo fun found => ?_
  cases found with
  | none => rfl
  | some slot =>
      refine ⟨trivial, fun _ _ => ⟨trivial, fun _ _ => ⟨rfl, fun _ _ => ⟨trivial, fun _ _ => ?_⟩⟩⟩⟩
      exact ⟨trivial, fun _ _ => giveBack_lockUse fuel slot none⟩

theorem acceptThread_lockUse (fuel : Nat) : lockUse.Keeps (acceptThread fuel) none := by
  refine ⟨trivial, fun (accepted : Option Nat) _ => ?_⟩
  cases accepted with
  | none => rfl
  | some clientSock =>
      refine ⟨trivial, fun (popped : Option Slot) _ => ?_⟩
      cases popped with
      | none => exact ⟨trivial, fun _ _ => rfl⟩
      | some index =>
          refine ⟨trivial, fun sessionCount _ => ?_⟩
          have started : lockUse.Keeps (init index (makeSessionId sessionCount index) clientSock) none :=
            ⟨trivial, fun _ _ => ⟨trivial, fun _ _ => ⟨trivial, fun _ _ => ⟨trivial, fun _ _ =>
              ⟨trivial, fun _ _ => ⟨trivial, fun _ _ => rfl⟩⟩⟩⟩⟩⟩
          refine started.bindTo fun _ => (onNewConnect_lockUse fuel _).bindTo fun _ => ?_
          refine (works_lockUse (recvIo_works index) none).bindTo fun _ => ?_
          exact giveBack_lockUse fuel index none

theorem update_lockUse (fuel : Nat) (timeoutThreshold : BitVec 64) :
    lockUse.Keeps (update fuel timeoutThreshold) none := by
  refine ⟨trivial, fun currentTick _ => ⟨rfl, fun _ _ => ⟨trivial, fun connections _ => ?_⟩⟩⟩
  refine (works_lockUse (timeOut_assembled timeoutThreshold currentTick connections).works _).bindTo
    fun _ => ?_
  exact ⟨trivial, fun _ _ => rfl⟩

section Runs

variable {workers contents : Nat} {settings : Settings}

theorem jobs_lockUse {thread : Thread workers contents} {job : Job} {program : NetProgram Unit}
    (chosen : jobProgram settings thread job = some program) : lockUse.Keeps program none := by
  cases thread <;> cases job <;> cases chosen
  case accept.loop => exact acceptThread_lockUse settings.fuel
  case worker.loop => exact works_lockUse workerThread_assembled.works none
  case timeout.loop => exact update_lockUse settings.fuel settings.timeoutThreshold
  case content.call => exact works_lockUse (contentCall_assembled _).works none

/-! ## Runs -/

/-- Whether a thread deletes a session by its next operation while it holds the
lock. -/
def deletesUnderLock (c : (server settings workers contents).Config)
    (thread : Thread workers contents) : Op -> Bool
  | .session slot .compareExchangeIo =>
      (heldMode (c.past thread)).isSome && (c.state.sessionArray slot).ioCount.isZero
  | _ => false

/-- Whoever holds the lock and comes to the compare-exchange of `deleteSession` finds that
somebody else still holds the session, or that it is deleted already, so that `OnDisconnect` is
not called under the lock. -/
def othersHold : (server settings workers contents).Rule := fun c thread event =>
  deletesUnderLock c thread event.op = false

instance (c : (server settings workers contents).Config) (thread : Thread workers contents)
    (event : Event interface) : Decidable (othersHold c thread event) :=
  inferInstanceAs (Decidable (_ = false))

theorem lockUse_preserved : lockUse.Preserved (server settings workers contents) othersHold
    fun _ _ _ => True where
  initial := trivial
  act := by
    intro c thread op next choice answer state _ _ _ _ performed others
    refine ⟨?_, trivial⟩
    cases op with
    | session slot op =>
        cases op with
        | compareExchangeIo =>
            have answered : perform choice c.state (.session slot .compareExchangeIo) =
                some (answer, state) := performed
            rcases perform_session answered with ⟨s', inner, _⟩
            cases inner
            intro zero
            change ((heldMode (c.past thread)).isSome && _) = false at others
            rw [show IoCount.isZero _ = true from zero, Bool.and_true] at others
            exact Option.isSome_eq_false_iff.mp others |> Option.isNone_iff_eq_none.mp
        | _ => trivial
    | _ => trivial
  takeUp := fun _ _ _ _ _ _ => trivial
  surround := fun _ _ _ _ _ _ _ => trivial

/-- In every run in which no thread that holds the lock deletes a session (`othersHold`), a
thread requests the lock, shared or exclusively, only when it does not hold it in any mode,
and enters `OnDisconnect` only then. -/
theorem requests_unheld {c : (server settings workers contents).Config}
    (reach : (server settings workers contents).Reach othersHold c)
    (thread : Thread workers contents) :
    (forall mode, requests (c.running thread) = some mode -> heldMode (c.past thread) = none) ∧
      (entersOnDisconnect (c.running thread) = true -> heldMode (c.past thread) = none) := by
  have obedient := (Discipline.sound lockUse_preserved (fun _ _ _ => jobs_lockUse) reach).2 thread
  constructor
  · intro mode requesting
    cases turn : c.running thread with
    | done value => rw [turn] at requesting; cases requesting
    | step op next =>
        rw [turn] at obedient requesting
        cases op with
        | acquireContainorLock mode => exact obedient.1
        | _ => cases requesting
  · intro entering
    cases turn : c.running thread with
    | done value => rw [turn] at entering; cases entering
    | step op next =>
        rw [turn] at obedient entering
        cases op with
        | mark note =>
            cases note with
            | onDisconnect sessionID => exact obedient.1
            | _ => cases entering
        | _ => cases entering

/-- The accept thread in `OnNewConnect`, while `update` holds the lock. -/
theorem requests_unheld_duringUpdate : Exists fun c : (server oneSession 1 0).Config =>
    requests (c.running .accept) = some .exclusive ∧ heldMode (c.past .timeout) = some .shared ∧
      heldMode (c.past .accept) = none := by
  have run : Exists fun c => (server oneSession 1 0).Reach othersHold c ∧
      (requests (c.running .accept) == some .exclusive &&
        heldMode (c.past .timeout) == some .shared) = true :=
    Machine.exists_of_runSchedule ([.takeUp .timeout Job.loop] ++ acts .timeout 2 usual ++
      [.takeUp .accept Job.loop] ++ acts .accept 15 usual) _ (by decide +kernel)
  rcases run with ⟨c, reach, found⟩
  simp only [Bool.and_eq_true, beq_iff_eq] at found
  exact ⟨c, found.1, found.2, (requests_unheld reach .accept).1 _ found.1⟩

/-- A session times out.  Its cancelled receive is completed and handled before
`update` gives back its own hold, which is then the last one: with the lock held
shared, the timeout thread requests it exclusively. -/
theorem update_waitsForItself : Exists fun c : (server oneSession 1 0).Config =>
    (server oneSession 1 0).Reach (Machine.anyEvent _) c ∧
      requests (c.running .timeout) = some .exclusive ∧
      heldMode (c.past .timeout) = some .shared := by
  have run : Exists fun c => (server oneSession 1 0).Reach (Machine.anyEvent _) c ∧
      (requests (c.running .timeout) == some .exclusive &&
        heldMode (c.past .timeout) == some .shared) = true :=
    Machine.exists_of_runSchedule
      ([.takeUp .accept Job.loop] ++ acts .accept 25 usual ++
        [.surround (Surroundings.tick 60), .takeUp .timeout Job.loop] ++ acts .timeout 9 usual ++
        [.surround (Surroundings.completeRecv 0 0 false []), .takeUp (.worker 0) Job.loop] ++
        acts (.worker 0) 2 usual ++ acts .timeout 11 usual)
      _ (by decide +kernel)
  rcases run with ⟨c, reach, found⟩
  simp only [Bool.and_eq_true, beq_iff_eq] at found
  exact ⟨c, reach, found.1, found.2⟩

end Runs

end Network
end LoginServer
