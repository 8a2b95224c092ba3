import LoginServer.Network.Records

namespace LoginServer
namespace Network

open Memory Buffers Receiving Login Concurrency

/-!
# Timeouts

A round of `update` reads the clock, waits for the lock, and disconnects the
sessions whose records are older than `timeoutThreshold`.  A connection is
registered at the tick its record is stamped with.  The age is an unsigned
difference, so it is the record's age only if the record is not newer than the
reading of the clock.
-/

/-- What a round of `update` has read: the clock, and later the map. -/
structure Round where
  currentTick : Option (BitVec 64)
  connections : List (SessionID × ConnectionData)

/-- Sessions are looked up only because their entry is found too old. -/
def rounds (timeoutThreshold : BitVec 64) : Discipline interface where
  Ghost := Round
  start := ⟨none, []⟩
  track := fun round event =>
    match event with
    | ⟨.getTickCount, tick⟩ => ⟨some tick, []⟩
    | ⟨.scanConnections, connections⟩ => { round with connections := connections }
    | _ => round
  permits := fun round op =>
    match op with
    | .mark (.findSession sessionID) => Exists fun currentTick => Exists fun connection =>
        round.currentTick = some currentTick ∧ (sessionID, connection) ∈ round.connections ∧
          currentTick - connection.timeOutTick > timeoutThreshold
    | _ => True
  expects := fun _ _ => True
  finish := fun _ => True
  finish_start := trivial

/-- Operations that have nothing to do with the reading of clock and map. -/
def roundless : Op -> Bool
  | .getTickCount => false
  | .scanConnections => false
  | .mark (.findSession _) => false
  | _ => true

theorem roundless_of_closes {op : Op} (closes : op.closes = true) : roundless op = true := by
  cases op with
  | mark note => cases note <;> first | rfl | exact Bool.noConfusion closes
  | _ => first | rfl | exact Bool.noConfusion closes

section Functions

variable {timeoutThreshold : BitVec 64}

theorem rounds_roundless {α : Type} {program : NetProgram α}
    (uses : program.Uses fun op => roundless op = true) (round : Round) :
    (rounds timeoutThreshold).Keeps program round := by
  refine Discipline.obeys_of_uses (D := rounds timeoutThreshold) uses ?_ ?_ round
  · intro op round free
    cases op with
    | mark note =>
        cases note with
        | findSession sessionID => exact Bool.noConfusion free
        | _ => trivial
    | _ => trivial
  · intro op answer round free
    cases op <;> first | rfl | exact Bool.noConfusion free

theorem giveBack_rounds (fuel : Nat) (slot : Slot) (round : Round) :
    (rounds timeoutThreshold).Keeps (giveBack fuel slot) round :=
  rounds_roundless ((giveBack_closes fuel slot).mono fun _ => roundless_of_closes) round

theorem disconnectReq_rounds (fuel : Nat) {sessionID : SessionID} {round : Round}
    (overdue : (rounds timeoutThreshold).permits round (.mark (.findSession sessionID))) :
    (rounds timeoutThreshold).Keeps (disconnectReq fuel sessionID) round := by
  have found : (rounds timeoutThreshold).Keeps (findSession fuel sessionID) round := by
    refine ⟨overdue, fun _ _ => ⟨trivial, fun (temp : IoCount) _ => ?_⟩⟩
    change (rounds timeoutThreshold).Obeys (if temp.deleted then _ else _) round _
    split
    · exact (giveBack_rounds fuel _ round).bindTo fun _ => rfl
    · refine ⟨trivial, fun (id : SessionID) _ => ?_⟩
      change (rounds timeoutThreshold).Obeys (if id ≠ sessionID then _ else _) round _
      split
      · exact (giveBack_rounds fuel _ round).bindTo fun _ => rfl
      · rfl
  refine found.bindTo fun slot => ?_
  cases slot with
  | none => rfl
  | some slot =>
      exact ⟨trivial, fun _ _ => ⟨trivial, fun _ _ => ⟨trivial, fun _ _ =>
        giveBack_rounds fuel slot round⟩⟩⟩

/-- The loop goes through entries that were read under the lock. -/
theorem timeOut_rounds (fuel : Nat) {currentTick : BitVec 64}
    {entries connections : List (SessionID × ConnectionData)}
    (read : forall entry, entry ∈ entries -> entry ∈ connections) :
    (rounds timeoutThreshold).Keeps (timeOut fuel timeoutThreshold currentTick entries)
      ⟨some currentTick, connections⟩ := by
  induction entries with
  | nil => rfl
  | cons entry rest inductionHypothesis =>
      have later := inductionHypothesis fun other member => read other (List.mem_cons_of_mem _ member)
      unfold timeOut
      split
      next tooOld =>
        have overdue : (rounds timeoutThreshold).permits ⟨some currentTick, connections⟩
            (.mark (.findSession entry.1)) :=
          ⟨currentTick, entry.2, rfl, read entry List.mem_cons_self, tooOld⟩
        exact (disconnectReq_rounds fuel overdue).bindTo fun _ => later
      next => exact later

theorem update_rounds (fuel : Nat) :
    (rounds timeoutThreshold).Obeys (update fuel timeoutThreshold) ⟨none, []⟩ fun _ _ => True := by
  refine ⟨trivial, fun currentTick _ => ⟨trivial, fun _ _ => ⟨trivial, fun connections _ => ?_⟩⟩⟩
  refine (timeOut_rounds fuel fun _ member => member).bindTo fun _ => ?_
  exact ⟨trivial, fun _ _ => trivial⟩

end Functions

/-! ## Runs -/

/-- The last reading of the clock. -/
def readTick : List (Event interface) -> Option (BitVec 64)
  | [] => none
  | ⟨.getTickCount, tick⟩ :: _ => some tick
  | _ :: earlier => readTick earlier

/-- Whether the map is read while it has a record that is newer than the thread's
reading of the clock. -/
def scansNewer (past : List (Event interface)) (state : State) : Op -> Bool
  | .scanConnections => state.connectionMap.any fun entry =>
      (readTick past).any fun currentTick => decide (currentTick < entry.2.timeOutTick)
  | _ => false

section Runs

variable {workers contents : Nat} {settings : Settings}

/-- No record that a round of `update` finds in the map is stamped later than the round's own
reading of the clock.  A connection that registers between the two would be stamped later, when
the clock ticks in between. -/
def noneNewer : (server settings workers contents).Rule := fun c thread event =>
  scansNewer (c.past thread) c.state event.op = false

instance (c : (server settings workers contents).Config) (thread : Thread workers contents)
    (event : Event interface) : Decidable (noneNewer c thread event) :=
  inferInstanceAs (Decidable (_ = false))

/-- The round under way. -/
def roundOf (c : (server settings workers contents).Config) : Round :=
  (rounds settings.timeoutThreshold).ghosts c .timeout

theorem readTick_eq (timeoutThreshold : BitVec 64) (past : List (Event interface)) :
    readTick past = ((rounds timeoutThreshold).ghost past).currentTick := by
  induction past with
  | nil => rfl
  | cons event earlier inductionHypothesis =>
      rcases event with ⟨op, answer⟩
      cases op <;> first | rfl | exact inductionHypothesis

/-- The connection was put into the map. -/
def Inserted {Actor : Type} (entry : SessionID × ConnectionData)
    (history : List (Actor × Event interface)) : Prop :=
  Exists fun actor => (actor, ⟨.insertConnection entry.1 entry.2, ()⟩) ∈ history

/-- Since a reading of the clock, no other has been less. -/
def ReadSince (currentTick : BitVec 64)
    (history : List (Thread workers contents × Event interface)) : Prop :=
  Exists fun since => Exists fun earlier =>
    history = since ++ (.timeout, ⟨.getTickCount, currentTick⟩) :: earlier ∧
      forall thread tick, (thread, ⟨.getTickCount, tick⟩) ∈ since -> currentTick ≤ tick

/-- What a round knows. -/
structure Timed (c : (server settings workers contents).Config) : Prop where
  registered : forall entry, entry ∈ c.state.connectionMap -> Inserted entry c.history
  read : forall entry, entry ∈ (roundOf c).connections -> Inserted entry c.history
  ticked : forall currentTick, (roundOf c).currentTick = some currentTick ->
    currentTick ≤ c.state.clock ∧ ReadSince currentTick c.history
  older : forall currentTick, (roundOf c).currentTick = some currentTick ->
    forall entry, entry ∈ (roundOf c).connections -> entry.2.timeOutTick ≤ currentTick

theorem mem_mapChange {connections : List (SessionID × ConnectionData)} {event : Event interface}
    {entry : SessionID × ConnectionData} (member : entry ∈ mapChange connections event) :
    entry ∈ connections ∨ event = ⟨.insertConnection entry.1 entry.2, ()⟩ := by
  rcases event with ⟨op, answer⟩
  cases op with
  | insertConnection id connection =>
      rcases List.mem_append.mp member with kept | new
      · exact Or.inl (List.mem_of_mem_filter kept)
      · rw [List.mem_singleton.mp new]
        exact Or.inr rfl
  | eraseConnection id => exact Or.inl (List.mem_of_mem_filter member)
  | _ => exact Or.inl member

theorem perform_clock {choice : Choice} {state state' : State} {op : Op} {answer : op.Answer}
    (performed : perform choice state op = some (answer, state')) :
    state'.clock = state.clock := by
  cases op with
  | session slot op =>
      rcases perform_session performed with ⟨s', _, rfl⟩
      rfl
  | getQueuedCompletionStatus =>
      simp only [perform] at performed
      split at performed <;> cases performed
      rfl
  | popIndex =>
      simp only [perform] at performed
      split at performed <;> cases performed <;> rfl
  | serializerAlloc =>
      simp only [perform] at performed
      split at performed <;> cases performed
      rfl
  | acquireContainorLock mode =>
      rcases Option.map_eq_some_iff.mp performed with ⟨lock, _, same⟩
      cases same
      rfl
  | halt => cases answer
  | _ =>
      cases performed
      rfl

theorem Inserted.later {Actor : Type} {entry : SessionID × ConnectionData}
    {history : List (Actor × Event interface)} (inserted : Inserted entry history)
    (next : Actor × Event interface) : Inserted entry (next :: history) := by
  rcases inserted with ⟨actor, member⟩
  exact ⟨actor, List.mem_cons_of_mem _ member⟩

/-- The readings of the clock never go down. -/
theorem ReadSince.later {currentTick : BitVec 64}
    {history : List (Thread workers contents × Event interface)}
    (read : ReadSince currentTick history) {thread : Thread workers contents} {event : Event interface}
    (higher : forall tick, event = ⟨.getTickCount, tick⟩ -> currentTick ≤ tick) :
    ReadSince currentTick ((thread, event) :: history) := by
  rcases read with ⟨since, earlier, split, least⟩
  refine ⟨(thread, event) :: since, earlier, by rw [split]; rfl, ?_⟩
  intro actor tick member
  rcases List.mem_cons.mp member with same | before
  · cases same
    exact higher tick rfl
  · exact least actor tick before

/-- What an event does to the round. -/
theorem roundOf_record (c : (server settings workers contents).Config)
    (thread : Thread workers contents) (event : Event interface)
    (state : (server settings workers contents).State) (rest : NetProgram Unit) :
    (Exists fun currentTick => thread = .timeout ∧ event = ⟨.getTickCount, currentTick⟩ ∧
      roundOf (c.record thread event state rest) = ⟨some currentTick, []⟩) ∨
    (Exists fun connections => thread = .timeout ∧ event = ⟨.scanConnections, connections⟩ ∧
      roundOf (c.record thread event state rest) = { roundOf c with connections := connections }) ∨
    roundOf (c.record thread event state rest) = roundOf c := by
  unfold roundOf
  rw [Discipline.ghosts_record]
  by_cases same : thread = .timeout
  · subst same
    rw [Function.update_self]
    rcases event with ⟨op, answer⟩
    cases op with
    | getTickCount => exact Or.inl ⟨answer, rfl, rfl, rfl⟩
    | scanConnections => exact Or.inr (Or.inl ⟨answer, rfl, rfl, rfl⟩)
    | _ => exact Or.inr (Or.inr rfl)
  · rw [Function.update_of_ne (Ne.symm same)]
    exact Or.inr (Or.inr rfl)

theorem timed_of_reach {c : (server settings workers contents).Config}
    (reach : (server settings workers contents).Reach noneNewer c) : Timed c := by
  induction reach with
  | start => exact ⟨nofun, nofun, nofun, nofun⟩
  | @step c c' before step timed =>
      cases step with
      | takeUp thread job program idle chosen =>
          by_cases same : thread = .timeout
          · subst same
            have fresh : roundOf (c.takeUp Thread.timeout program) = ⟨none, []⟩ := by
              rw [roundOf, Discipline.ghosts_takeUp, Function.update_self]
              rfl
            constructor
            · exact timed.registered
            all_goals
              rw [fresh]
              simp
          · have kept : roundOf (c.takeUp thread program) = roundOf c := by
              rw [roundOf, Discipline.ghosts_takeUp, Function.update_of_ne (Ne.symm same)]
              rfl
            refine ⟨timed.registered, ?_, ?_, ?_⟩ <;> rw [kept]
            · exact timed.read
            · exact timed.ticked
            · exact timed.older
      | act thread choice op next answer state turn performed lawful =>
          have registered : forall entry, entry ∈ state.connectionMap ->
              Inserted entry ((thread, ⟨op, answer⟩) :: c.history) := by
            intro entry member
            rw [(perform_records performed).1] at member
            rcases mem_mapChange member with there | inserts
            · exact (timed.registered entry there).later _
            · exact ⟨thread, by rw [inserts]; exact List.mem_cons_self⟩
          have clock : state.clock = c.state.clock := perform_clock performed
          have answered : forall tick, (⟨op, answer⟩ : Event interface) = ⟨.getTickCount, tick⟩ ->
              tick = c.state.clock := by
            intro tick reads
            cases reads
            cases performed
            rfl
          have kept : forall currentTick, (roundOf c).currentTick = some currentTick ->
              currentTick ≤ state.clock ∧ ReadSince currentTick ((thread, ⟨op, answer⟩) :: c.history) := by
            intro currentTick reads
            rcases timed.ticked currentTick reads with ⟨passed, since⟩
            refine ⟨by rw [clock]; exact passed, since.later fun tick same => ?_⟩
            rw [answered tick same]
            exact passed
          rcases roundOf_record c thread ⟨op, answer⟩ state (next answer) with
            ⟨currentTick, rfl, event, round⟩ | ⟨connections, rfl, event, round⟩ | round
          · -- a new round: the clock is read
            refine ⟨registered, ?_, ?_, ?_⟩ <;> rw [round]
            · simp
            · rintro _ ⟨⟩
              refine ⟨?_, [], c.history, by rw [event]; rfl, by simp⟩
              change currentTick ≤ state.clock
              rw [clock, answered currentTick event]
              exact BitVec.le_refl _
            · simp
          · -- the map is read, and by the rule it has no newer record
            cases event
            cases performed
            refine ⟨registered, ?_, ?_, ?_⟩ <;> rw [round]
            · exact registered
            · exact kept
            · intro currentTick reads entry member
              have newest := List.any_eq_false.mp lawful entry member
              have reading : readTick (c.past .timeout) = some currentTick :=
                (readTick_eq settings.timeoutThreshold _).trans reads
              rw [reading] at newest
              simpa using newest
          · refine ⟨registered, ?_, ?_, ?_⟩ <;> rw [round]
            · exact fun entry member => (timed.read entry member).later _
            · exact kept
            · exact timed.older
      | surround change state changed =>
          rcases surround_records changed with ⟨map, _, _, later⟩
          refine ⟨fun entry member => timed.registered entry (map ▸ member), timed.read, ?_,
            timed.older⟩
          intro currentTick reads
          exact ⟨BitVec.le_trans (timed.ticked currentTick reads).1 later,
            (timed.ticked currentTick reads).2⟩

/-- The session a thread is about to look up. -/
def looksUp {α : Type} : NetProgram α -> Option SessionID
  | .step (.mark (.findSession sessionID)) _ => some sessionID
  | _ => none

/-- The connection of the record that this round of `update` found in the map was
registered more than `timeoutThreshold` ticks ago, and not since the round read the
clock. -/
structure Overdue (c : (server settings workers contents).Config) (sessionID : SessionID)
    (connection : ConnectionData) : Prop where
  scanned : (sessionID, connection) ∈ (roundOf c).connections
  inserted : Inserted (sessionID, connection) c.history
  old : connection.timeOutTick.toNat + settings.timeoutThreshold.toNat < c.state.clock.toNat
  before : Exists fun currentTick => (roundOf c).currentTick = some currentTick ∧
    connection.timeOutTick < currentTick ∧ ReadSince currentTick c.history

end Runs

end Network
end LoginServer
