import LoginServer.Network.Lifetimes
import LoginServer.Network.Records

namespace LoginServer
namespace Network

open Memory Buffers Receiving Login Concurrency

/-!
# IDs that are handed out

The server's own threads call `findSession` with IDs they were given by
`OnNewConnect`, by `OnRecv` or by `connectionMap`.  Content code is trusted to
do the same.  That much makes every ID in use one that has been handed out.
-/

/-! ## What a thread learns -/

/-- The IDs known after an event. -/
def learn (known : List SessionID) : Event interface -> List SessionID
  | ⟨.mark (.onNewConnect id), _⟩ => id :: known
  | ⟨.mark (.onRecv _ id), _⟩ => id :: known
  | ⟨.scanConnections, connections⟩ => List.map Prod.fst connections ++ known
  | _ => known

/-- A thread asks about IDs it has come to know, and stores no others. -/
def informed : Discipline interface where
  Ghost := List SessionID
  start := []
  track := learn
  permits := fun known op =>
    match op with
    | .mark (.findSession id) => id ∈ known
    | .insertConnection id _ => id ∈ known
    | _ => True
  expects := fun _ _ => True
  finish := fun _ => True
  finish_start := trivial

/-- Operations for which no ID need be known. -/
def Op.unasking : Op -> Bool
  | .mark (.findSession _) => false
  | .insertConnection _ _ => false
  | _ => true

theorem informed_grows (known : List SessionID) (event : Event interface) :
    known ⊆ informed.track known event := by
  rcases event with ⟨op, answer⟩
  cases op with
  | scanConnections => exact List.subset_append_right _ _
  | mark note =>
      cases note with
      | onNewConnect id => exact List.subset_cons_self _ _
      | onRecv slot id => exact List.subset_cons_self _ _
      | _ => exact List.Subset.refl _
  | _ => exact List.Subset.refl _

/-- The program asks only about IDs known by then, and forgets none. -/
abbrev Learns {α : Type} (program : NetProgram α) (known : List SessionID) : Prop :=
  informed.Obeys program known fun known' _ => known ⊆ known'

section Functions

variable {fuel : Nat} {α β : Type}

theorem Learns.bind {program : NetProgram α} {continuation : α -> NetProgram β} {known : List SessionID}
    (learns : Learns program known)
    (rest : forall value known', known ⊆ known' -> Learns (continuation value) known') :
    Learns (program >>= continuation) known := by
  refine Discipline.Obeys.bind learns ?_
  intro known' value more
  exact (rest value known' more).mono fun _ _ most => List.Subset.trans more most

theorem permits_of_unasking {op : Op} (unasking : op.unasking = true) (known : List SessionID) :
    informed.permits known op := by
  cases op with
  | mark note =>
      cases note with
      | findSession id => exact Bool.noConfusion unasking
      | _ => trivial
  | insertConnection id connection => exact Bool.noConfusion unasking
  | _ => trivial

/-- An operation for which nothing need be known. -/
theorem Learns.step {op : Op} {next : op.Answer -> NetProgram α} {known : List SessionID}
    (unasking : op.unasking = true)
    (rest : forall answer known', known ⊆ known' -> known' = informed.track known ⟨op, answer⟩ ->
      Learns (next answer) known') :
    Learns (Program.step (I := interface) op next) known := by
  refine ⟨permits_of_unasking unasking known, fun answer _ => ?_⟩
  have more := informed_grows known ⟨op, answer⟩
  refine (rest answer _ more rfl).mono ?_
  exact fun _ _ most => List.Subset.trans more most

theorem learns_of_uses {program : NetProgram α}
    (uses : program.Uses fun (op : Op) => op.unasking = true) (known : List SessionID) :
    Learns program known := by
  induction program generalizing known with
  | done value => exact List.Subset.refl known
  | step op next inductionHypothesis =>
      exact .step uses.1 fun answer known' _ _ => inductionHypothesis answer (uses.2 answer) known'

theorem unasking_of_closes {op : Op} (closes : op.closes = true) : op.unasking = true := by
  cases op with
  | mark note => cases note <;> first | rfl | exact Bool.noConfusion closes
  | _ => first | rfl | exact Bool.noConfusion closes

theorem giveBack_learns (slot : Slot) (known : List SessionID) : Learns (giveBack fuel slot) known :=
  learns_of_uses ((giveBack_closes fuel slot).mono fun _ => unasking_of_closes) known

theorem io_learns {program : NetProgram α} (routine : Routine Op.io fuel program)
    (known : List SessionID) : Learns program known := by
  refine learns_of_uses (routine.uses ?_ fun slot => ?_) known
  · intro op io
    cases op <;> first | rfl | exact Bool.noConfusion io
  · exact (giveBack_closes fuel slot).mono fun _ => unasking_of_closes

theorem local_learns {slot : Slot} {program : NetProgram α} (near : Local slot program)
    (known : List SessionID) : Learns program known := by
  refine learns_of_uses (near.mono ?_) known
  intro op isLocal
  cases op <;> first | rfl | exact Bool.noConfusion isLocal

/-- `findSession`, asked about an ID that is known. -/
theorem findSession_learns {sessionID : SessionID} {known : List SessionID} (asked : sessionID ∈ known) :
    Learns (findSession fuel sessionID) known := by
  refine ⟨asked, fun _ _ => ?_⟩
  refine Learns.step rfl fun (temp : IoCount) known' _ _ => ?_
  change Learns (if temp.deleted then _ else _) known'
  split
  · exact (giveBack_learns _ known').bind fun _ _ _ => List.Subset.refl _
  · refine Learns.step rfl fun (id : SessionID) known' _ _ => ?_
    change Learns (if id ≠ sessionID then _ else _) known'
    split
    · exact (giveBack_learns _ known').bind fun _ _ _ => List.Subset.refl _
    · exact List.Subset.refl _

theorem disconnectReq_learns {sessionID : SessionID} {known : List SessionID}
    (asked : sessionID ∈ known) : Learns (disconnectReq fuel sessionID) known := by
  refine (findSession_learns asked).bind fun found known' _ => ?_
  cases found with
  | none => exact List.Subset.refl _
  | some slot =>
      refine Learns.step rfl fun _ _ _ _ => Learns.step rfl fun _ _ _ _ => ?_
      exact Learns.step rfl fun _ known' _ _ => giveBack_learns slot known'

theorem releaseSerializer_learns (pointer : Pointer) (known : List SessionID) :
    Learns (releaseSerializer pointer) known := local_learns (releaseSerializer_local 0 pointer) known

theorem sendReqPacket_learns {sessionID : SessionID} {packet : Packet} {known : List SessionID}
    (asked : sessionID ∈ known) : Learns (sendReqPacket fuel sessionID packet) known := by
  refine Learns.step rfl fun _ known' more _ => ?_
  have requested : Learns (sendReq fuel sessionID packet) known' := by
    refine (findSession_learns (more asked)).bind fun found _ _ => ?_
    cases found with
    | none => exact List.Subset.refl _
    | some slot =>
        refine Learns.step rfl fun _ _ _ _ => Learns.step rfl fun _ _ _ _ => ?_
        exact Learns.step rfl fun _ known' _ _ => giveBack_learns slot known'
  exact requested.bind fun _ known' _ => releaseSerializer_learns packet.pointer known'

/-- The session a request of the login handler is about. -/
def loginTarget : LoginOp -> Option SessionID
  | .disconnectReq sessionID => some sessionID
  | .sendReq sessionID _ _ => some sessionID
  | _ => none

/-- `OnRecv` makes requests for the session it was called for. -/
theorem onRecv_targets (sessionID : SessionID) (packet : Serializer) :
    (Login.onRecv sessionID packet).Uses fun (op : LoginOp) =>
      loginTarget op = none ∨ loginTarget op = some sessionID := by
  have response (accountNo : BitVec 64) : (sendResponse sessionID accountNo).Uses fun (op : LoginOp) =>
      loginTarget op = none ∨ loginTarget op = some sessionID := by
    refine ⟨Or.inl rfl, fun buffer => ⟨Or.inl rfl, fun (temp : StackBytes 40) => ?_⟩⟩
    simp only [Program.bind]
    split
    · trivial
    · exact ⟨Or.inl rfl, fun _ => ⟨Or.inr rfl, fun _ => ⟨Or.inl rfl, fun _ => trivial⟩⟩⟩
  unfold Login.onRecv
  dsimp only
  split
  · split
    · exact ⟨Or.inr rfl, fun _ => trivial⟩
    · exact ⟨Or.inl rfl, fun _ => ⟨Or.inl rfl, fun _ => response _⟩⟩
  · exact ⟨Or.inl rfl, fun _ => ⟨Or.inr rfl, fun _ => trivial⟩⟩

theorem handleLogin_learns {op : LoginOp} {sessionID : SessionID} {known : List SessionID}
    (target : loginTarget op = none ∨ loginTarget op = some sessionID) (asked : sessionID ∈ known) :
    Learns (handleLogin fuel op) known := by
  cases op with
  | disconnectReq id =>
      cases target with
      | inl none => cases none
      | inr same =>
          cases same
          exact disconnectReq_learns asked
  | sendReq id pointer packet =>
      cases target with
      | inl none => cases none
      | inr same =>
          cases same
          exact sendReqPacket_learns asked
  | packetNew =>
      exact Learns.step rfl fun _ _ _ _ => Learns.step rfl fun _ _ _ _ => List.Subset.refl _
  | packetDelete pointer => exact releaseSerializer_learns pointer known
  | _ => exact Learns.step rfl fun _ _ _ _ => List.Subset.refl _

theorem interprets_learns {program : Program loginInterface Unit} {sessionID : SessionID}
    {known : List SessionID} (asked : sessionID ∈ known)
    (targets : program.Uses fun (op : LoginOp) =>
      loginTarget op = none ∨ loginTarget op = some sessionID) :
    Learns (program.interpret (handleLogin fuel)) known := by
  induction program generalizing known with
  | done value => exact List.Subset.refl known
  | step op next inductionHypothesis =>
      refine (handleLogin_learns targets.1 asked).bind fun answer known' more => ?_
      exact inductionHypothesis answer (more asked) (targets.2 answer)

theorem extraction_learns (slot : Slot) (rounds : Nat) (known : List SessionID) :
    Learns (extraction fuel slot rounds) known := by
  induction rounds generalizing known with
  | zero => exact Learns.step rfl (by simp)
  | succ rounds inductionHypothesis =>
      refine Learns.step rfl fun (p : PacketBuffer) _ _ _ => Learns.step rfl fun _ _ _ _ => ?_
      refine Learns.step rfl fun (result : Bool × Serializer) known' _ _ => ?_
      rcases result with ⟨extracted, packet⟩
      cases extracted with
      | false => exact releaseSerializer_learns _ known'
      | true =>
          refine Learns.step rfl fun (id : SessionID) known' _ _ => ?_
          have handled : Learns (onRecv fuel slot id packet) known' := by
            refine Learns.step rfl fun _ known'' _ same => ?_
            have asked : id ∈ known'' := same ▸ List.mem_cons_self
            exact interprets_learns asked (onRecv_targets id packet)
          refine handled.bind fun _ known' _ => ?_
          exact (releaseSerializer_learns _ known').bind fun _ known' _ => inductionHypothesis known'

theorem handleRequest_learns (slot : Slot) (packet : Packet) (known : List SessionID) :
    Learns (handleRequest fuel slot packet) known := by
  refine (local_learns (push_local slot packet) known).bind fun collected known' _ => ?_
  cases collected with
  | true => exact io_learns (sendIo_io slot) known'
  | false => exact releaseSerializer_learns _ known'

theorem handleSend_learns (slot : Slot) (transfer : BitVec 32) (known : List SessionID) :
    Learns (handleSend fuel slot transfer) known := by
  refine Learns.step rfl fun id _ _ _ => Learns.step rfl fun _ known' _ _ => ?_
  refine (local_learns (sended_local fuel slot transfer) known').bind fun tp known' _ => ?_
  split
  · exact Learns.step rfl fun _ _ _ _ => List.Subset.refl _
  · refine Learns.step rfl fun _ _ _ _ => Learns.step rfl fun (size : Int) known' _ _ => ?_
    change Learns (if size > 0 then _ else _) known'
    split
    · exact (io_learns (sendIo_io slot) known').bind fun _ _ _ => List.Subset.refl _
    · exact List.Subset.refl _

theorem handleRecv_learns (slot : Slot) (transfer : BitVec 32) (known : List SessionID) :
    Learns (handleRecv fuel slot transfer) known := by
  refine Learns.step rfl fun (accepted : Bool) known' _ _ => ?_
  cases accepted with
  | false => exact List.Subset.refl _
  | true =>
      refine (extraction_learns slot fuel known').bind fun _ known' _ => ?_
      exact (io_learns (recvIo_io slot) known').bind fun _ _ _ => List.Subset.refl _

theorem workerThread_learns : Learns (workerThread fuel) [] := by
  refine Learns.step rfl fun (completion : Completion) known _ _ => ?_
  have handled : Learns (handleCompletion fuel completion) known := by
    unfold handleCompletion
    split
    · split
      · exact (handleRequest_learns _ _ known).bind fun _ _ _ => List.Subset.refl _
      · exact List.Subset.refl _
    · split
      · exact handleSend_learns _ _ known
      · exact handleRecv_learns _ _ known
      · exact List.Subset.refl _
  change Learns (if completion.success then _ else _) known
  split
  · refine handled.bind fun result known' _ => ?_
    cases result with
    | true => exact giveBack_learns _ known'
    | false => exact List.Subset.refl _
  · exact giveBack_learns _ known

theorem timeOut_learns (timeoutThreshold currentTick : BitVec 64)
    {connections : List (SessionID × ConnectionData)} {known : List SessionID}
    (scanned : connections.map Prod.fst ⊆ known) :
    Learns (timeOut fuel timeoutThreshold currentTick connections) known := by
  induction connections generalizing known with
  | nil => exact List.Subset.refl known
  | cons entry rest inductionHypothesis =>
      have first : entry.1 ∈ known := scanned List.mem_cons_self
      have others : rest.map Prod.fst ⊆ known := fun _ member => scanned (List.mem_cons_of_mem _ member)
      unfold timeOut
      split
      · refine (disconnectReq_learns first).bind fun _ _ more => ?_
        exact inductionHypothesis (List.Subset.trans others more)
      · exact inductionHypothesis others

theorem update_learns (timeoutThreshold : BitVec 64) : Learns (update fuel timeoutThreshold) [] := by
  refine Learns.step rfl fun currentTick _ _ _ => Learns.step rfl fun _ _ _ _ => ?_
  refine Learns.step rfl fun (connections : List (SessionID × ConnectionData)) known _ same => ?_
  have scanned : connections.map Prod.fst ⊆ known := same ▸ List.subset_append_left _ _
  refine (timeOut_learns timeoutThreshold currentTick scanned).bind fun _ _ _ => ?_
  exact Learns.step rfl fun _ known' _ _ => List.Subset.refl known'

theorem onNewConnect_learns (sessionID : SessionID) (known : List SessionID) :
    Learns (onNewConnect fuel sessionID) known := by
  refine Learns.step rfl fun _ known' _ same => ?_
  have asked : sessionID ∈ known' := same ▸ List.mem_cons_self
  refine (findSession_learns asked).bind fun found known'' more => ?_
  cases found with
  | none => exact List.Subset.refl _
  | some slot =>
      refine Learns.step rfl fun _ _ most _ => Learns.step rfl fun _ _ most' _ => ?_
      refine Learns.step rfl fun _ _ most'' _ => ?_
      refine ⟨most'' (most' (most (more asked))), fun _ _ => ?_⟩
      exact Learns.step rfl fun _ known' _ _ => giveBack_learns slot known'

theorem acceptThread_learns : Learns (acceptThread fuel) [] := by
  refine Learns.step rfl fun (accepted : Option Nat) known _ _ => ?_
  cases accepted with
  | none => exact List.Subset.refl known
  | some clientSock =>
      refine Learns.step rfl fun (popped : Option Slot) known _ _ => ?_
      cases popped with
      | none => exact Learns.step rfl fun _ known _ _ => List.Subset.refl known
      | some index =>
          refine Learns.step rfl fun sessionCount _ _ _ => Learns.step rfl fun _ _ _ _ => ?_
          refine Learns.step rfl fun _ _ _ _ => Learns.step rfl fun _ _ _ _ => ?_
          refine Learns.step rfl fun _ _ _ _ => Learns.step rfl fun _ _ _ _ => ?_
          refine Learns.step rfl fun _ known _ _ => ?_
          refine (onNewConnect_learns _ known).bind fun _ known _ => ?_
          refine (io_learns (recvIo_io index) known).bind fun _ known _ => ?_
          exact giveBack_learns index known

end Functions

/-! ## Runs -/

section Runs

variable {workers contents : Nat} {settings : Settings}

/-- Content threads are handed their IDs by other code. -/
def Thread.isContent : Thread workers contents -> Bool
  | .content _ => true
  | _ => false

theorem jobs_learn {thread : Thread workers contents} {job : Job} {program : NetProgram Unit}
    (own : thread.isContent = false) (chosen : jobProgram settings thread job = some program) :
    Learns program [] := by
  cases thread <;> cases job <;> cases chosen
  case accept.loop => exact acceptThread_learns
  case worker.loop => exact workerThread_learns
  case timeout.loop => exact update_learns settings.timeoutThreshold
  case content.call => exact Bool.noConfusion own

/-- Content code calls `findSession`, through `sendReq` and `disconnectReq`, only with IDs that
`OnNewConnect` has handed out before.  The threads of the server itself are not restricted: that
they keep to it is proved. -/
def handedOut : (server settings workers contents).Rule := fun c thread event =>
  thread.isContent = true -> introduced c thread event

instance (c : (server settings workers contents).Config) (thread : Thread workers contents)
    (event : Event interface) : Decidable (handedOut c thread event) := by
  unfold handedOut introduced
  split <;> infer_instance

/-- The IDs a thread knows. -/
def knownTo (c : (server settings workers contents).Config) (thread : Thread workers contents) :
    List SessionID := informed.ghosts c thread

/-- What the threads know, and what is in the map, has been handed out. -/
structure Informed (c : (server settings workers contents).Config) : Prop where
  threads : forall thread, thread.isContent = false -> forall id, id ∈ knownTo c thread ->
    announced c.history id = true
  connections : forall entry, entry ∈ c.state.connectionMap -> announced c.history entry.1 = true

theorem next_announced {life life' : Life (Thread workers contents)} {slot : Slot}
    {actor : Thread workers contents} {event : Event interface} {id : SessionID}
    (next : life.next slot actor event = some life') (running : life'.phase = .running id true) :
    life.phase = .running id true ∨ announces id event = true := by
  rcases life with ⟨phase, leaving⟩
  unfold Life.next at next
  split at next
  case h_4 id' _ =>
    -- `OnNewConnect` itself
    split at next
    next =>
      split at next
      next own _ =>
        split at next <;> cases next
        cases running
        rename_i same
        exact Or.inr (beq_iff_eq.mpr same)
      next => cases next
    next =>
      cases next
      exact Or.inl running
  all_goals
    repeat' split at next
    all_goals cases next
    all_goals first | exact Or.inl running | cases running

/-- An announced session in use has been announced under its ID. -/
theorem announced_of_running {slot : Slot} {history : List (Thread workers contents × Event interface)}
    {life : Life (Thread workers contents)} {maxSession : Nat} {id : SessionID}
    (current : lifeAfter maxSession slot history = some life) (running : life.phase = .running id true) :
    announced history id = true := by
  induction history generalizing life with
  | nil =>
      cases current
      unfold Life.initial at running
      dsimp only at running
      split at running <;> cases running
  | cons entry earlier inductionHypothesis =>
      rcases Option.bind_eq_some_iff.mp current with ⟨before, reached, moved⟩
      rw [announced, List.any_cons, Bool.or_eq_true]
      rcases next_announced moved running with earlier | now
      · exact Or.inr (inductionHypothesis reached earlier)
      · exact Or.inl now

theorem announced_cons {history : List (Thread workers contents × Event interface)} {id : SessionID}
    (known : announced history id = true) (entry : Thread workers contents × Event interface) :
    announced (entry :: history) id = true := by
  rw [announced, List.any_cons, Bool.or_eq_true]
  exact Or.inr known

/-- Only the accept thread inserts into the map. -/
theorem jobs_insert {thread : Thread workers contents} {job : Job} {program : NetProgram Unit}
    (chosen : jobProgram settings thread job = some program) :
    program.Uses fun (op : Op) => thread ≠ .accept ->
      forall id connection, op ≠ .insertConnection id connection := by
  by_cases accepting : thread = .accept
  · exact Program.uses_of_forall _ fun _ other => absurd accepting other
  · have others : program.Uses fun (op : Op) => forall id connection, op ≠ .insertConnection id connection := by
      refine jobs_use ?_ ?_ ?_ accepting chosen
      · rintro op works id connection rfl
        cases works
      · rintro op closes id connection rfl
        cases closes
      · exact ⟨fun _ _ => (by simp), fun _ _ => (by simp), fun _ _ => (by simp)⟩
    exact others.mono fun _ different _ => different

/-- What a thread learns from an event has been handed out. -/
theorem informed_track {c : (server settings workers contents).Config} {actor : Thread workers contents}
    {op : Op} {answer : op.Answer} {choice : Choice} {state : State} {next : op.Answer -> NetProgram Unit}
    (reach : (server settings workers contents).Reach introduced
      (c.record actor ⟨op, answer⟩ state (next answer)))
    (known : Informed c) (own : actor.isContent = false)
    (performed : perform choice c.state op = some (answer, state)) (id : SessionID)
    (member : id ∈ learn (knownTo c actor) ⟨op, answer⟩) :
    announced ((actor, ⟨op, answer⟩) :: c.history) id = true := by
  have before (there : id ∈ knownTo c actor) :
      announced ((actor, (⟨op, answer⟩ : Event interface)) :: c.history) id = true :=
    announced_cons (known.threads actor own id there) _
  cases op with
  | scanConnections =>
      cases performed
      rcases List.mem_append.mp member with scanned | earlier
      · rcases List.mem_map.mp scanned with ⟨entry, inside, rfl⟩
        exact announced_cons (known.connections entry inside) _
      · exact before earlier
  | mark note =>
      cases note with
      | onNewConnect other =>
          rcases List.mem_cons.mp member with rfl | earlier
          · rw [announced, List.any_cons, Bool.or_eq_true]
            exact Or.inl (beq_self_eq_true id)
          · exact before earlier
      | onRecv slot other =>
          rcases List.mem_cons.mp member with rfl | earlier
          · rcases (alive_of_reach reach).slots slot with ⟨life', current, _⟩
            rcases Option.bind_eq_some_iff.mp current with ⟨life, reached, moved⟩
            apply announced_cons
            apply announced_of_running reached
            simp only [Life.next, if_true] at moved
            split at moved
            next phase =>
              split at moved
              next same => rw [phase, same]
              next => cases moved
            next => cases moved
          · exact before earlier
      | _ => exact before member
  | _ => exact before member

/-- The server's own threads ask only about IDs that have been handed out. -/
theorem informed_of_reach {c : (server settings workers contents).Config}
    (reach : (server settings workers contents).Reach handedOut c) :
    (server settings workers contents).Reach introduced c ∧ Informed c := by
  induction reach with
  | start => exact ⟨.start, nofun, nofun⟩
  | @step c c' before step inductionHypothesis =>
      rcases inductionHypothesis with ⟨reach, known⟩
      cases step with
      | takeUp actor job program idle chosen =>
          refine ⟨reach.step (.takeUp actor job program idle chosen), ?_, known.connections⟩
          intro thread own id member
          unfold knownTo at member
          rw [Discipline.ghosts_takeUp, Function.update_apply] at member
          split at member
          · cases member
          · exact known.threads thread own id member
      | act actor choice op next answer state turn performed lawful =>
          have permitted (own : actor.isContent = false) : informed.permits (knownTo c actor) op := by
            have obeys := Discipline.obeys_running (D := informed) (fun _ _ => trivial)
              (fun job program chosen => (jobs_learn own chosen).mono fun _ _ _ => trivial) before
            rw [turn] at obeys
            exact obeys.1
          have asked : introduced c actor ⟨op, answer⟩ := by
            cases own : actor.isContent with
            | true => exact lawful own
            | false =>
                have allowed := permitted own
                cases op with
                | mark note =>
                    cases note with
                    | findSession id => exact known.threads actor own id allowed
                    | _ => trivial
                | _ => trivial
          have stepped := reach.step (.act actor choice op next answer state turn performed asked)
          refine ⟨stepped, ?_, ?_⟩
          · intro thread own id member
            unfold knownTo at member
            rw [Discipline.ghosts_record, Function.update_apply] at member
            split at member
            next same =>
              subst same
              exact informed_track stepped known own performed id member
            next => exact announced_cons (known.threads thread own id member) _
          · intro entry member
            have records : state.connectionMap = mapChange c.state.connectionMap ⟨op, answer⟩ :=
              (perform_records performed).1
            change entry ∈ state.connectionMap at member
            rw [records] at member
            apply announced_cons
            cases op with
            | insertConnection id connection =>
                have accepting : actor = .accept := by
                  have uses := before.running_uses (fun _ _ _ => jobs_insert) actor
                  rw [turn] at uses
                  by_contra other
                  exact uses.1 other id connection rfl
                rcases List.mem_append.mp member with kept | inserted
                · exact known.connections entry (List.mem_of_mem_filter kept)
                · cases List.mem_singleton.mp inserted
                  subst accepting
                  exact known.threads .accept rfl id (permitted rfl)
            | eraseConnection id => exact known.connections entry (List.mem_of_mem_filter member)
            | _ => exact known.connections entry member
      | surround change state changed =>
          refine ⟨reach.step (.surround change state changed), known.threads, ?_⟩
          intro entry member
          change entry ∈ state.connectionMap at member
          rw [(surround_records changed).1] at member
          exact known.connections entry member

/-- In every run in which content code calls `findSession` only with IDs that have been handed
out (`handedOut`), the events of every slot are in order.  Its index is on the stack once while
it is stacked, and not at all otherwise.  A compare-exchange that is going to win finds a
session that nobody holds, and the count of sessions does not underflow. -/
theorem slots_inOrder {c : (server settings workers contents).Config}
    (reach : (server settings workers contents).Reach handedOut c) :
    (forall slot, Exists fun life => lifeAfter settings.maxSession slot c.history = some life ∧
      (life.phase = .absent ↔ settings.maxSession ≤ slot.toNat) ∧
      c.state.indexStack.count slot = (if life.phase.isStacked then 1 else 0) ∧
      forall id, life.phase.id = some id -> (c.state.sessionArray slot).id = id) ∧
    (forall slot, (c.state.sessionArray slot).ioCount.isZero = true ->
      c.state.kernelHolds slot = 0 ∧ forall thread, (holds true).ghosts c thread slot = 0) ∧
    (getSessionCount settings.maxSession c.state).toNat + c.state.indexStack.length =
      settings.maxSession := by
  have alive := alive_of_reach (informed_of_reach reach).1
  refine ⟨?_, ?_, ?_⟩
  · intro slot
    rcases alive.slots slot with ⟨life, current, fits⟩
    exact ⟨life, current, lifeAfter_absent current, fits.stacked, fun id named => (fits.named id named).1⟩
  · intro slot zero
    have counted := holds_le_ioCount reach slot
    have none := ((IoCount.isZero_iff _).mp zero).2
    unfold State.refs at counted
    rw [none] at counted
    refine ⟨by omega, ?_⟩
    exact (tally_eq_zero_iff (fun owed : Owed => owed slot) _).mp (by unfold owedTotal at counted; omega)
  · refine getSessionCount_toNat settings.maxSession_lt (length_le_of_count ?_ ?_)
    · intro slot
      rcases alive.slots slot with ⟨life, _, fits⟩
      rw [fits.stacked]
      split <;> omega
    · intro slot member
      rcases alive.slots slot with ⟨life, current, fits⟩
      by_contra beyond
      have absent := (lifeAfter_absent current).mpr (Nat.not_lt.mp beyond)
      have positive := List.count_pos_iff.mpr member
      rw [fits.stacked, absent] at positive
      exact absurd positive (Nat.lt_irrefl 0)

/-- A client connects and is gone again: its receive fails. -/
def briefVisit : List (Machine.Move (server oneSession 1 0)) :=
  [.takeUp .accept Job.loop] ++ acts .accept 25 usual ++
    [.surround (Surroundings.completeRecv 0 0 false []), .takeUp (.worker ⟨0, Nat.one_pos⟩) Job.loop] ++
    acts (.worker ⟨0, Nat.one_pos⟩) 13 usual

theorem slots_inOrder_briefVisit : Exists fun c : (server oneSession 1 0).Config =>
    c.state.indexStack = [0] ∧ (getSessionCount 1 c.state).toNat = 0 ∧
      Exists fun life => lifeAfter 1 0 c.history = some life ∧ life.phase.isStacked = true := by
  have run : Exists fun c => (server oneSession 1 0).Reach handedOut c ∧
      (c.state.indexStack == [0]) = true :=
    Machine.exists_of_runSchedule briefVisit _ (by decide +kernel)
  rcases run with ⟨c, reach, found⟩
  have stack : c.state.indexStack = [0] := beq_iff_eq.mp found
  rcases slots_inOrder reach with ⟨slots, _, counted⟩
  rcases slots 0 with ⟨life, current, _, count, _⟩
  rw [stack] at counted count
  refine ⟨c, stack, Nat.succ.inj counted, life, current, ?_⟩
  by_contra other
  rw [if_neg other] at count
  cases count

end Runs

end Network
end LoginServer
