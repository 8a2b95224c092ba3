import Mathlib.Algebra.Order.Group.Multiset
import LoginServer.Network.Routine

namespace LoginServer
namespace Network

open Memory Buffers Receiving Login Concurrency

/-!
# Connection records

`OnNewConnect` takes a `connectionData` from the pool and puts it into
`connectionMap`; `OnDisconnect` erases the entry.  Nobody gives the object
back.  So the records taken are those in the map, the one `OnNewConnect` has in
its hands, and all those that were dropped.
-/

/-! ## The map and the dropped records, from the events -/

/-- The map after an event. -/
def mapChange (connections : List (SessionID × ConnectionData)) :
    Event interface -> List (SessionID × ConnectionData)
  | ⟨.insertConnection sessionID connection, _⟩ =>
      assignConnection connections sessionID connection
  | ⟨.eraseConnection sessionID, _⟩ => connections.filter fun entry => entry.1 != sessionID
  | _ => connections

/-- The records that an event takes out of the map. -/
def dropsOf (connections : List (SessionID × ConnectionData)) : Event interface -> List ConnectionData
  | ⟨.insertConnection sessionID _, _⟩ =>
      (connections.filter fun entry => !(entry.1 != sessionID)).map Prod.snd
  | ⟨.eraseConnection sessionID, _⟩ =>
      (connections.filter fun entry => !(entry.1 != sessionID)).map Prod.snd
  | _ => []

section Histories

variable {Actor : Type}

def mapAfter : List (Actor × Event interface) -> List (SessionID × ConnectionData)
  | [] => []
  | (_, event) :: earlier => mapChange (mapAfter earlier) event

/-- The records taken out of the map so far, by `OnDisconnect` or by another record
for the same key. -/
def droppedRecords : List (Actor × Event interface) -> List ConnectionData
  | [] => []
  | (_, event) :: earlier => droppedRecords earlier ++ dropsOf (mapAfter earlier) event

/-- The last of the insertions and erasures of a key was an insertion. -/
def registered (sessionID : SessionID) : List (Actor × Event interface) -> Bool
  | [] => false
  | (_, ⟨.insertConnection id _, _⟩) :: earlier => id == sessionID || registered sessionID earlier
  | (_, ⟨.eraseConnection id, _⟩) :: earlier => id != sessionID && registered sessionID earlier
  | _ :: earlier => registered sessionID earlier

theorem keys_erase (connections : List (SessionID × ConnectionData)) (id : SessionID) :
    (connections.filter fun entry => entry.1 != id).map Prod.fst =
      (connections.map Prod.fst).filter fun key => key != id := by
  rw [List.filter_map]
  rfl

theorem registered_iff (sessionID : SessionID) (history : List (Actor × Event interface)) :
    registered sessionID history = true ↔ sessionID ∈ (mapAfter history).map Prod.fst := by
  induction history with
  | nil => simp [registered, mapAfter]
  | cons entry earlier inductionHypothesis =>
      rcases entry with ⟨actor, op, answer⟩
      cases op with
      | insertConnection id connection =>
          simp only [registered, mapAfter, mapChange, assignConnection, Bool.or_eq_true, beq_iff_eq,
            inductionHypothesis, List.map_append, List.mem_append, keys_erase, List.mem_filter,
            bne_iff_ne, List.map_cons, List.map_nil, List.mem_singleton]
          by_cases same : id = sessionID
          · exact ⟨fun _ => Or.inr same.symm, fun _ => Or.inl same⟩
          · constructor
            · rintro (equal | there)
              · exact absurd equal same
              · exact Or.inl ⟨there, fun equal => same equal.symm⟩
            · rintro (⟨there, _⟩ | equal)
              · exact Or.inr there
              · exact Or.inl equal.symm
      | eraseConnection id =>
          simp only [registered, mapAfter, mapChange, Bool.and_eq_true, bne_iff_ne,
            inductionHypothesis, keys_erase, List.mem_filter]
          exact ⟨fun both => ⟨both.2, both.1.symm⟩, fun both => ⟨both.2.symm, both.1⟩⟩
      | _ => exact inductionHypothesis

end Histories

/-! ## Records in transit -/

/-- Operations of `OnNewConnect` on a record. -/
def handlesRecord : Op -> Bool
  | .connectionNew _ => true
  | .insertConnection _ _ => true
  | _ => false

/-- A record that was taken is inserted before the next one is taken. -/
def recordKeeping : Discipline interface where
  Ghost := Option ConnectionData
  start := none
  track := fun transit event =>
    match event with
    | ⟨.connectionNew _, connection⟩ => some connection
    | ⟨.insertConnection _ _, _⟩ => none
    | _ => transit
  permits := fun transit op =>
    match op with
    | .connectionNew _ => transit = none
    | .insertConnection _ connection => transit = some connection
    | _ => True
  expects := fun _ _ => True
  finish := fun transit => transit = none
  finish_start := rfl

abbrev Recordless {α : Type} (program : NetProgram α) : Prop :=
  program.Uses fun op => handlesRecord op = false

theorem recordless_of_works {op : Op} (works : op.works = true) : handlesRecord op = false := by
  cases op <;> first | rfl | exact Bool.noConfusion works

theorem recordless_of_closes {op : Op} (closes : op.closes = true) : handlesRecord op = false := by
  cases op <;> first | rfl | exact Bool.noConfusion closes

theorem giveBack_recordless (fuel : Nat) (slot : Slot) : Recordless (giveBack fuel slot) :=
  (giveBack_closes fuel slot).mono fun _ => recordless_of_closes

theorem works_recordless {fuel : Nat} {α : Type} {program : NetProgram α}
    (works : Works fuel program) : Recordless program :=
  works.uses (fun _ => recordless_of_works) fun slot => giveBack_recordless fuel slot

theorem Recordless.keeps {α : Type} {program : NetProgram α} (recordless : Recordless program)
    (transit : Option ConnectionData) : recordKeeping.Keeps program transit := by
  refine Discipline.obeys_of_uses (D := recordKeeping) recordless ?_ ?_ transit
  · intro op transit free
    cases op <;> trivial
  · intro op answer transit free
    cases op <;> first | rfl | exact Bool.noConfusion free

theorem acceptThread_recordKeeping (fuel : Nat) : recordKeeping.Keeps (acceptThread fuel) none := by
  refine ⟨trivial, fun (accepted : Option Nat) _ => ?_⟩
  cases accepted with
  | none => rfl
  | some clientSock =>
      refine ⟨trivial, fun (popped : Option Slot) _ => ?_⟩
      cases popped with
      | none => exact ⟨trivial, fun _ _ => rfl⟩
      | some index =>
          refine ⟨trivial, fun sessionCount _ => ?_⟩
          have started : Recordless (init index (makeSessionId sessionCount index) clientSock) :=
            ⟨rfl, fun _ => ⟨rfl, fun _ => ⟨rfl, fun _ => ⟨rfl, fun _ => ⟨rfl, fun _ => ⟨rfl,
              fun _ => trivial⟩⟩⟩⟩⟩⟩
          refine (started.keeps none).bindTo fun _ => ?_
          have connected : recordKeeping.Keeps
              (onNewConnect fuel (makeSessionId sessionCount index)) none := by
            refine ⟨trivial, fun _ _ => ?_⟩
            refine ((works_recordless (findSession_assembled _).works).keeps none).bindTo fun found => ?_
            cases found with
            | none => rfl
            | some slot =>
                refine ⟨trivial, fun timeOutTick _ => ⟨rfl, fun connection _ => ?_⟩⟩
                refine ⟨trivial, fun _ _ => ⟨rfl, fun _ _ => ⟨trivial, fun _ _ => ?_⟩⟩⟩
                exact (giveBack_recordless fuel slot).keeps none
          refine connected.bindTo fun _ => ?_
          refine ((works_recordless (recvIo_works index)).keeps none).bindTo fun _ => ?_
          exact (giveBack_recordless fuel index).keeps none

section Runs

variable {workers contents : Nat} {settings : Settings}

theorem jobs_recordless {thread : Thread workers contents} {job : Job} {program : NetProgram Unit}
    (chosen : jobProgram settings thread job = some program) :
    program.Uses fun op => thread ≠ .accept -> handlesRecord op = false := by
  by_cases accepting : thread = .accept
  · exact Program.uses_of_forall program fun _ other => absurd accepting other
  · refine jobs_use ?_ ?_ ⟨fun _ => rfl, fun _ => rfl, fun _ => rfl⟩ accepting chosen
    · exact fun _ works _ => recordless_of_works works
    · exact fun _ closes _ => recordless_of_closes closes

theorem jobs_recordKeeping {thread : Thread workers contents} {job : Job} {program : NetProgram Unit}
    (chosen : jobProgram settings thread job = some program) : recordKeeping.Keeps program none := by
  by_cases accepting : thread = .accept
  · subst accepting
    cases job <;> cases chosen
    exact acceptThread_recordKeeping settings.fuel
  · exact Recordless.keeps ((jobs_recordless chosen).mono fun _ free => free accepting) none

/-! ## Runs -/

/-- Of the operations, only those on the map change the map, and only those on the
pool the pool. -/
theorem perform_records {choice : Choice} {state state' : State} {op : Op} {answer : op.Answer}
    (performed : perform choice state op = some (answer, state')) :
    state'.connectionMap = mapChange state.connectionMap ⟨op, answer⟩ ∧
      state'.connectionPool = state.connectionPool ++
        match (⟨op, answer⟩ : Event interface) with
        | ⟨.connectionNew _, connection⟩ => [connection]
        | _ => [] := by
  cases op with
  | session slot op =>
      rcases perform_session performed with ⟨s', _, rfl⟩
      exact ⟨rfl, (List.append_nil _).symm⟩
  | getQueuedCompletionStatus =>
      simp only [perform] at performed
      split at performed <;> cases performed
      exact ⟨rfl, (List.append_nil _).symm⟩
  | popIndex =>
      simp only [perform] at performed
      split at performed <;> cases performed <;> exact ⟨rfl, (List.append_nil _).symm⟩
  | serializerAlloc =>
      simp only [perform] at performed
      split at performed <;> cases performed
      exact ⟨rfl, (List.append_nil _).symm⟩
  | acquireContainorLock mode =>
      rcases Option.map_eq_some_iff.mp performed with ⟨lock, _, same⟩
      cases same
      exact ⟨rfl, (List.append_nil _).symm⟩
  | halt => cases answer
  | connectionNew timeOutTick =>
      cases performed
      exact ⟨rfl, rfl⟩
  | _ =>
      cases performed
      exact ⟨rfl, (List.append_nil _).symm⟩

theorem surround_records {state state' : State} {change : Surroundings}
    (changed : surround state change = some state') :
    state'.connectionMap = state.connectionMap ∧ state'.connectionPool = state.connectionPool ∧
      state'.containorLock = state.containorLock ∧ state.clock ≤ state'.clock := by
  cases change with
  | completeSend target position success transfer =>
      simp only [surround] at changed
      split at changed
      next => cases changed
      next =>
        split at changed <;> cases changed
        exact ⟨rfl, rfl, rfl, BitVec.le_refl _⟩
  | completeRecv target position success data =>
      simp only [surround] at changed
      split at changed
      next => cases changed
      next =>
        split at changed <;> cases changed
        exact ⟨rfl, rfl, rfl, BitVec.le_refl _⟩
  | tick count =>
      simp only [surround] at changed
      split at changed
      next forward =>
        cases changed
        refine ⟨rfl, rfl, rfl, ?_⟩
        rw [BitVec.le_def, BitVec.toNat_add, Nat.mod_eq_of_lt forward]
        exact Nat.le_add_right _ _
      next => cases changed

/-- The map is the one of the events, and every record taken is in it, in transit or
dropped. -/
structure Recorded {Actor : Type} (state : State) (transit : Option ConnectionData)
    (history : List (Actor × Event interface)) : Prop where
  map : state.connectionMap = mapAfter history
  pool : state.connectionPool.Perm
    ((mapAfter history).map Prod.snd ++ transit.toList ++ droppedRecords history)

theorem perm_dropped {α : Type} {all kept gone between dropped : List α}
    (split : (kept ++ gone).Perm all) :
    (all ++ between ++ dropped).Perm (kept ++ between ++ (dropped ++ gone)) := by
  rw [← Multiset.coe_eq_coe] at split ⊢
  simp only [← Multiset.coe_add] at split ⊢
  rw [← split]
  simp only [add_comm, add_left_comm, add_assoc]

theorem perm_taken {α : Type} {pool values dropped : List α} {taken : α}
    (before : pool.Perm (values ++ [] ++ dropped)) :
    (pool ++ [taken]).Perm (values ++ [taken] ++ (dropped ++ [])) := by
  rw [← Multiset.coe_eq_coe] at before ⊢
  simp only [← Multiset.coe_add, List.append_nil] at before ⊢
  rw [before, add_assoc, add_assoc, add_comm (dropped : Multiset α)]

theorem perm_inserted {α : Type} {all kept gone dropped : List α} (split : (kept ++ gone).Perm all)
    (taken : α) :
    (all ++ [taken] ++ dropped).Perm (kept ++ [taken] ++ [] ++ (dropped ++ gone)) := by
  rw [List.append_nil]
  exact perm_dropped split

theorem values_split (connections : List (SessionID × ConnectionData)) (id : SessionID) :
    ((connections.filter fun entry => entry.1 != id).map Prod.snd ++
      (connections.filter fun entry => !(entry.1 != id)).map Prod.snd).Perm
        (connections.map Prod.snd) := by
  rw [← List.map_append]
  exact (List.filter_append_perm _ connections).map _

theorem recorded_preserved : recordKeeping.Preserved (server settings workers contents)
    (Machine.anyEvent _) fun state ghosts history => Recorded state (ghosts .accept) history where
  initial := ⟨rfl, .refl _⟩
  act := by
    intro c thread op next choice answer state reach turn recorded permitted performed _
    refine ⟨trivial, ?_⟩
    rcases perform_records performed with ⟨map, pool⟩
    refine ⟨by rw [map, recorded.map]; rfl, ?_⟩
    have before := recorded.pool
    by_cases handles : handlesRecord op = false
    · have ghost : Function.update (recordKeeping.ghosts c) thread
          (recordKeeping.track (recordKeeping.ghosts c thread) ⟨op, answer⟩) .accept =
            recordKeeping.ghosts c .accept := by
        have same : recordKeeping.track (recordKeeping.ghosts c thread) ⟨op, answer⟩ =
            recordKeeping.ghosts c thread := by
          cases op <;> first | rfl | exact Bool.noConfusion handles
        rw [same, Function.update_eq_self]
      rw [ghost, pool]
      cases op with
      | connectionNew timeOutTick => exact Bool.noConfusion handles
      | insertConnection id connection => exact Bool.noConfusion handles
      | eraseConnection id =>
          simp only [List.append_nil]
          exact before.trans (perm_dropped (values_split _ id))
      | _ =>
          simp only [List.append_nil, droppedRecords, dropsOf, mapAfter, mapChange]
          exact before
    · have uses := reach.running_uses (fun _ _ _ => jobs_recordless) thread
      rw [turn] at uses
      have accepting : thread = .accept := by
        by_contra other
        exact handles (uses.1 other)
      subst accepting
      rw [Function.update_self, pool]
      cases op with
      | connectionNew timeOutTick =>
          have free : recordKeeping.ghosts c .accept = none := permitted
          rw [free] at before
          exact perm_taken before
      | insertConnection id connection =>
          have held : recordKeeping.ghosts c .accept = some connection := permitted
          rw [held] at before
          have after : (assignConnection (mapAfter c.history) id connection).map Prod.snd =
              ((mapAfter c.history).filter fun entry => entry.1 != id).map Prod.snd ++ [connection] :=
            List.map_append
          simp only [List.append_nil, mapAfter, mapChange, after]
          exact before.trans (perm_inserted (values_split _ id) connection)
      | _ => exact absurd rfl handles
  takeUp := by
    intro state ghosts history thread recorded finished
    have same : Function.update ghosts thread recordKeeping.start = ghosts := by
      rw [show recordKeeping.start = ghosts thread from finished.symm]
      exact Function.update_eq_self _ _
    rw [same]
    exact recorded
  surround := by
    intro state ghosts history change state' recorded changed
    rcases surround_records changed with ⟨map, pool, _, _⟩
    exact ⟨map.trans recorded.map, by rw [pool]; exact recorded.pool⟩

/-- The records taken are exactly those in the map and the one that `OnNewConnect` is
about to insert, and the keys of the map are those inserted and not erased
since. -/
structure Accounted (c : (server settings workers contents).Config) : Prop where
  records : c.state.connectionPool.Perm
    (c.state.connectionMap.map Prod.snd ++ Option.toList (recordKeeping.ghosts c .accept))
  keys : forall sessionID, sessionID ∈ c.state.connectionMap.map Prod.fst ↔
    registered sessionID c.history = true

end Runs

end Network
end LoginServer
