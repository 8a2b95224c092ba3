import LoginServer.Network.Identifiers

namespace LoginServer
namespace Network

open Memory Buffers Receiving Login Concurrency

/-!
# A run with 65537 clients

Each client's connection breaks right after it was accepted, so that the round
of the accept thread also deletes the session.  A server with one slot gives
the first client's ID again to client number 65536.

The rounds are followed on a view of the state: the one session, and what the
accept thread itself works on.
-/

/-- A client connects, and its `WSARecv` fails with `WSAECONNRESET`. -/
def connectionReset : Choice := { usual with result := .error 10054 }

/-- The part of the state that a round of the accept thread depends on. -/
structure View where
  indexStack : List Slot
  sessionCount : BitVec 32
  containorLock : SrwLock
  session : Session

def view (state : State) : View where
  indexStack := state.indexStack
  sessionCount := state.sessionCount
  containorLock := state.containorLock
  session := state.sessionArray 0

/-- What holds of the value, the view and the acceptances at the end. -/
abbrev Outcome (α : Type) := α -> View -> List (Slot × SessionID) -> Prop

/-- The program, run by the accept thread alone, ends with the outcome. -/
def Runs {α : Type} (program : NetProgram α) (v : View) (outcome : Outcome α) : Prop :=
  forall state, view state = v ->
    Machine.Alone (server oneSession 1 0) .accept connectionReset program state
      fun value state' events => outcome value (view state') (events.filterMap acceptance)

namespace Runs

variable {α β : Type} {v : View}

theorem done {value : α} {outcome : Outcome α} (holds : outcome value v []) :
    Runs (Program.done value) v outcome := by
  rintro state rfl
  exact holds

theorem net {op : Op} {next : op.Answer -> NetProgram α} {w : View} {outcome : Outcome α}
    (performs : forall state, view state = v -> Exists fun result =>
      perform connectionReset state op = some result ∧ view result.2 = w ∧
        Runs (next result.1) w fun value v accepted =>
          outcome value v ((acceptance ⟨op, result.1⟩).toList ++ accepted)) :
    Runs (Program.step (I := interface) op next) v outcome := by
  rintro state same
  rcases performs state same with ⟨result, performed, after, rest⟩
  refine ⟨result, performed, (rest _ after).mono fun value state' events holds => ?_⟩
  cases accepted : acceptance ⟨op, result.1⟩ with
  | none =>
      rw [accepted] at holds
      rw [List.filterMap_cons_none accepted]
      exact holds
  | some entry =>
      rw [accepted] at holds
      rw [List.filterMap_cons_some accepted]
      exact holds

theorem session {op : SessionOp} {next : op.Answer -> NetProgram α} {a : op.Answer} {s : Session}
    {outcome : Outcome α}
    (performed : performSession connectionReset v.session op = some (a, s))
    (rest : Runs (next a) { v with session := s } fun value v accepted =>
      outcome value v ((acceptance ⟨.session 0 op, a⟩).toList ++ accepted)) :
    Runs (Program.step (I := interface) (.session 0 op) next) v outcome := by
  refine net (w := { v with session := s }) ?_
  rintro state rfl
  refine ⟨(a, state.setSession 0 s), ?_, ?_, rest⟩
  · exact Option.map_eq_some_iff.mpr ⟨(a, s), performed, rfl⟩
  · simp only [view, State.setSession_same, State.setSession_indexStack, State.setSession_sessionCount,
      State.setSession_containorLock]

/-- An operation that the view does not show. -/
theorem unseen {op : Op} {next : op.Answer -> NetProgram α} {outcome : Outcome α}
    (performs : forall state, Exists fun result =>
      perform connectionReset state op = some result ∧ view result.2 = view state)
    (rest : forall answer, Runs (next answer) v fun value v accepted =>
      outcome value v ((acceptance ⟨op, answer⟩).toList ++ accepted)) :
    Runs (Program.step (I := interface) op next) v outcome := by
  refine net (w := v) fun state same => ?_
  rcases performs state with ⟨result, performed, after⟩
  exact ⟨result, performed, after.trans same, rest result.1⟩

theorem pushIndex {index : Slot} {next : Unit -> NetProgram α} {outcome : Outcome α}
    (rest : Runs (next ()) { v with indexStack := index :: v.indexStack } outcome) :
    Runs (Program.step (I := interface) (.pushIndex index) next) v outcome := by
  refine net (w := { v with indexStack := index :: v.indexStack }) ?_
  rintro state rfl
  exact ⟨_, rfl, rfl, rest⟩

theorem popIndex {index : Slot} {indices : List Slot} {next : Option Slot -> NetProgram α}
    {outcome : Outcome α} (stacked : v.indexStack = index :: indices)
    (rest : Runs (next (some index)) { v with indexStack := indices } outcome) :
    Runs (Program.step (I := interface) .popIndex next) v outcome := by
  refine net (w := { v with indexStack := indices }) ?_
  rintro state rfl
  refine ⟨(some index, { state with indexStack := indices }), ?_, rfl, rest⟩
  have there : state.indexStack = index :: indices := stacked
  simp only [perform, there]

theorem nextSessionCount {next : BitVec 32 -> NetProgram α} {outcome : Outcome α}
    (rest : Runs (next v.sessionCount) { v with sessionCount := v.sessionCount + 1 } outcome) :
    Runs (Program.step (I := interface) .nextSessionCount next) v outcome := by
  refine net (w := { v with sessionCount := v.sessionCount + 1 }) ?_
  rintro state rfl
  exact ⟨_, rfl, rfl, rest⟩

theorem accept {next : Option Nat -> NetProgram α} {outcome : Outcome α}
    (rest : Runs (next (some 1)) v outcome) :
    Runs (Program.step (I := interface) .accept next) v outcome :=
  net fun _ same => ⟨_, rfl, same, rest⟩

theorem acquire {next : Unit -> NetProgram α} {outcome : Outcome α} (free : v.containorLock = ⟨0, false⟩)
    (rest : Runs (next ()) { v with containorLock := ⟨0, true⟩ } outcome) :
    Runs (Program.step (I := interface) (.acquireContainorLock .exclusive) next) v outcome := by
  refine net (w := { v with containorLock := ⟨0, true⟩ }) ?_
  rintro state rfl
  refine ⟨((), { state with containorLock := ⟨0, true⟩ }), ?_, rfl, rest⟩
  have unlocked : state.containorLock = ⟨0, false⟩ := free
  change (state.containorLock.acquire .exclusive).map _ = _
  rw [unlocked]
  rfl

theorem release {next : Unit -> NetProgram α} {outcome : Outcome α} (held : v.containorLock = ⟨0, true⟩)
    (rest : Runs (next ()) { v with containorLock := ⟨0, false⟩ } outcome) :
    Runs (Program.step (I := interface) (.releaseContainorLock .exclusive) next) v outcome := by
  refine net (w := { v with containorLock := ⟨0, false⟩ }) ?_
  rintro state rfl
  refine ⟨((), { state with containorLock := ⟨0, false⟩ }), ?_, rfl, rest⟩
  have locked : state.containorLock = ⟨0, true⟩ := held
  change some ((), { state with containorLock := state.containorLock.release .exclusive }) = _
  rw [locked]
  rfl

theorem mono {program : NetProgram α} {strong weak : Outcome α} (runs : Runs program v strong)
    (implies : forall value v accepted, strong value v accepted -> weak value v accepted) :
    Runs program v weak :=
  fun state same => (runs state same).mono fun value state' _ => implies value (view state') _

theorem bind {program : NetProgram α} {continuation : α -> NetProgram β} {outcome : Outcome β}
    (runs : Runs program v fun value v accepted =>
      Runs (continuation value) v fun result v later => outcome result v (accepted ++ later)) :
    Runs (program >>= continuation) v outcome := by
  intro state same
  apply Machine.Alone.bind
  refine (runs state same).mono fun value state' events rest => (rest state' rfl).mono ?_
  intro result state'' later holds
  rw [List.filterMap_append]
  exact holds

end Runs

/-! ## The functions of a round -/

variable {v : View}

theorem init_runs (id : SessionID) (sock : Nat) {outcome : Outcome Unit}
    (rest : forall s : Session, s.id = id -> s.ioCount = ⟨false, v.session.ioCount.refs + 1⟩ ->
      s.cancelIoFlag = false -> s.sendBuffer = v.session.sendBuffer ->
      s.sendedBuffer = v.session.sendedBuffer -> outcome () { v with session := s } [(0, id)]) :
    Runs (init 0 id sock) v outcome := by
  refine .session rfl <| .session rfl <| .session rfl <| .session rfl <| .session rfl <|
    .session rfl <| .done ?_
  exact rest _ rfl rfl rfl rfl rfl

theorem findSession_runs (fuel : Nat) {refs : Nat} (alive : v.session.ioCount = ⟨false, refs⟩)
    (index : getIndex v.session.id = 0) {outcome : Outcome (Option Slot)}
    (rest : outcome (some 0) { v with session := { v.session with ioCount := ⟨false, refs + 1⟩ } } []) :
    Runs (findSession fuel v.session.id) v outcome := by
  simp only [findSession, index]
  refine .net fun state same => ⟨_, rfl, same, .session rfl ?_⟩
  rw [alive]
  refine .session rfl ?_
  change Runs (if _ ≠ _ then _ else _) _ _
  rw [if_neg (not_not_intro rfl)]
  exact .done rest

/-- Giving back a hold that is not the last one. -/
theorem giveBack_runs (fuel : Nat) {refs : Nat} (alive : v.session.ioCount = ⟨false, refs + 2⟩)
    {outcome : Outcome Unit}
    (rest : outcome () { v with session := { v.session with ioCount := ⟨false, refs + 1⟩ } } []) :
    Runs (giveBack fuel 0) v outcome := by
  refine .session rfl ?_
  rw [alive]
  exact .done rest

theorem onNewConnect_runs (fuel : Nat) {refs : Nat} (alive : v.session.ioCount = ⟨false, refs + 1⟩)
    (index : getIndex v.session.id = 0) (free : v.containorLock = ⟨0, false⟩)
    {outcome : Outcome Unit}
    (rest : outcome () { v with
      containorLock := ⟨0, false⟩
      session := { v.session with ioCount := ⟨false, refs + 1⟩ } } []) :
    Runs (onNewConnect fuel v.session.id) v outcome := by
  refine .unseen (fun _ => ⟨_, rfl, rfl⟩) fun _ => ?_
  change Runs (findSession fuel v.session.id >>= _) _ _
  refine .bind (findSession_runs fuel alive index ?_)
  refine .unseen (fun _ => ⟨_, rfl, rfl⟩) fun _ => .unseen (fun _ => ⟨_, rfl, rfl⟩) fun _ => ?_
  refine .acquire free (.unseen (fun _ => ⟨_, rfl, rfl⟩) fun _ => .release rfl ?_)
  exact giveBack_runs fuel rfl rest

/-- `WSARecv` fails, and the hold taken for it is given back. -/
theorem recvIo_runs (fuel : Nat) {refs : Nat} (alive : v.session.ioCount = ⟨false, refs + 1⟩)
    (uncancelled : v.session.cancelIoFlag = false) {outcome : Outcome Unit}
    (rest : forall s : Session, s.id = v.session.id -> s.ioCount = ⟨false, refs + 1⟩ ->
      s.sendBuffer = v.session.sendBuffer -> s.sendedBuffer = v.session.sendedBuffer ->
      outcome () { v with session := s } []) :
    Runs (recvIo fuel 0) v outcome := by
  refine .session rfl ?_
  rw [uncancelled]
  refine .session rfl (.session rfl (.session rfl (.session rfl (.session rfl ?_))))
  refine giveBack_runs fuel (show _ = (⟨false, refs + 2⟩ : IoCount) from ?_) ?_
  · simp only [Session.cancel, alive, IoCount.increment]
  exact rest _ rfl rfl rfl rfl

theorem bufferClear_runs (fuel : Nat) {nodes : Nat}
    (nothingQueued : v.session.sendBuffer = ⟨[], 0, nodes⟩) (nothingSent : v.session.sendedBuffer = [])
    {outcome : Outcome Unit}
    (rest : forall s : Session, s.ioCount = v.session.ioCount ->
      s.sendBuffer = v.session.sendBuffer -> s.sendedBuffer = [] ->
      outcome () { v with session := s } []) :
    Runs (bufferClear (fuel + 1) 0) v outcome := by
  refine .session (a := (-1 : Int)) (s := { v.session with sendBuffer := ⟨[], -1, nodes⟩ }) ?_ ?_
  · simp only [performSession, nothingQueued]
    rfl
  refine .session (a := (0 : Int)) (s := { v.session with sendBuffer := ⟨[], 0, nodes⟩ }) rfl ?_
  refine .session (a := true) (s := { v.session with sendBuffer := ⟨[], 0, nodes⟩ }) ?_ ?_
  · simp only [performSession, nothingSent]
    rfl
  exact .session rfl (.done (rest _ rfl nothingQueued.symm nothingSent))

theorem onDisconnect_runs (sessionID : SessionID) (free : v.containorLock = ⟨0, false⟩)
    {outcome : Outcome Unit} (rest : outcome () { v with containorLock := ⟨0, false⟩ } []) :
    Runs (onDisconnect sessionID) v outcome := by
  refine .unseen (fun _ => ⟨_, rfl, rfl⟩) fun _ => .acquire free ?_
  exact .unseen (fun _ => ⟨_, rfl, rfl⟩) fun _ => .release rfl (.done rest)

/-- Giving back the last hold deletes the session and frees its slot. -/
theorem giveBack_deletes_runs (fuel : Nat) (alive : v.session.ioCount = ⟨false, 1⟩)
    (index : getIndex v.session.id = 0) (free : v.containorLock = ⟨0, false⟩) {nodes : Nat}
    (nothingQueued : v.session.sendBuffer = ⟨[], 0, nodes⟩) (nothingSent : v.session.sendedBuffer = [])
    {outcome : Outcome Unit}
    (rest : forall s : Session, s.ioCount = ⟨true, 0⟩ -> s.sendBuffer = ⟨[], 0, nodes⟩ ->
      s.sendedBuffer = [] -> outcome () { v with
        indexStack := 0 :: v.indexStack
        containorLock := ⟨0, false⟩
        session := s } []) :
    Runs (giveBack (fuel + 1) 0) v outcome := by
  refine .session rfl ?_
  rw [alive]
  refine .session (a := (⟨false, 0⟩ : IoCount)) (s := { v.session with ioCount := ⟨true, 0⟩ }) rfl ?_
  refine .session rfl (.session rfl (.unseen (fun _ => ⟨_, rfl, rfl⟩) fun _ => ?_))
  change Runs (bufferClear (fuel + 1) 0 >>= _) _ _
  refine .bind (bufferClear_runs fuel (v := { v with session := { v.session with ioCount := ⟨true, 0⟩ } })
    nothingQueued nothingSent fun s count queue sent => ?_)
  refine .pushIndex ?_
  rw [index]
  apply onDisconnect_runs
  · exact free
  · exact rest s count (queue.trans nothingQueued) sent

/-! ## The round -/

/-- Before a round: the slot is free, and nothing is left of its last session. -/
structure Vacant (number : Nat) (v : View) : Prop where
  indexStack : v.indexStack = [0]
  sessionCount : v.sessionCount = BitVec.ofNat 32 number
  containorLock : v.containorLock = ⟨0, false⟩
  refs : v.session.ioCount.refs = 0
  nothingQueued : v.session.sendBuffer = ⟨[], 0, 255⟩
  nothingSent : v.session.sendedBuffer = []

/-- The round from the callback on. -/
theorem connected_runs (fuel : Nat) {number : Nat} (alive : v.session.ioCount = ⟨false, 1⟩)
    (index : getIndex v.session.id = 0) (uncancelled : v.session.cancelIoFlag = false)
    (vacant : Vacant number { v with indexStack := [0], session := { v.session with ioCount := ⟨false, 0⟩ } })
    (taken : v.indexStack = []) :
    Runs (do onNewConnect (fuel + 1) v.session.id; recvIo (fuel + 1) 0; giveBack (fuel + 1) 0) v
      fun _ v accepted => Vacant number v ∧ accepted = [] := by
  have free : v.containorLock = ⟨0, false⟩ := vacant.containorLock
  have queue : v.session.sendBuffer = ⟨[], 0, 255⟩ := vacant.nothingQueued
  have sent : v.session.sendedBuffer = [] := vacant.nothingSent
  refine .bind (onNewConnect_runs (fuel + 1) alive index free ?_)
  refine .bind ?_
  apply recvIo_runs (fuel + 1)
  · rfl
  · exact uncancelled
  intro s named count sameQueue sameSent
  apply giveBack_deletes_runs fuel count
  · change getIndex s.id = 0
    rw [named]
    exact index
  · rfl
  · exact sameQueue.trans queue
  · exact sameSent.trans sent
  intro s count queue sent
  refine ⟨⟨?_, vacant.sessionCount, rfl, ?_, queue, sent⟩, rfl⟩
  · change 0 :: v.indexStack = [0]
    rw [taken]
  · change s.ioCount.refs = 0
    rw [count]

/-- A round with a client deletes its session again. -/
theorem acceptThread_runs (fuel : Nat) {number : Nat} (vacant : Vacant number v) :
    Runs (acceptThread (fuel + 1)) v fun _ v accepted =>
      Vacant (number + 1) v ∧ accepted = [(0, makeSessionId (BitVec.ofNat 32 number) 0)] := by
  refine .accept (.popIndex vacant.indexStack (.nextSessionCount ?_))
  have index := getIndex_makeSessionId v.sessionCount 0
  rw [← vacant.sessionCount]
  change Runs
    (do init 0 (makeSessionId v.sessionCount 0) 1
        onNewConnect (fuel + 1) (makeSessionId v.sessionCount 0)
        recvIo (fuel + 1) 0
        giveBack (fuel + 1) 0)
    { v with indexStack := [], sessionCount := v.sessionCount + 1 } _
  generalize makeSessionId v.sessionCount 0 = id at *
  refine .bind (init_runs id 1 fun s named count uncancelled queue sent => ?_)
  subst named
  have next : v.sessionCount + 1 = BitVec.ofNat 32 (number + 1) := by
    rw [vacant.sessionCount]
    apply BitVec.eq_of_toNat_eq
    simp [BitVec.toNat_add]
  have empty : s.ioCount = ⟨false, 1⟩ := by
    rw [count]
    exact congrArg (fun refs => (⟨false, refs + 1⟩ : IoCount)) vacant.refs
  have runs := connected_runs (v := { v with indexStack := [], sessionCount := v.sessionCount + 1, session := s })
    fuel empty index uncancelled
    ⟨rfl, next, vacant.containorLock, rfl, queue.trans vacant.nothingQueued,
      sent.trans vacant.nothingSent⟩ rfl
  refine runs.mono fun _ v accepted holds => ⟨holds.1, ?_⟩
  rw [holds.2]
  rfl

/-! ## The run -/

theorem acceptances_append {Actor : Type} (actor : Actor) (events : List (Event interface))
    (earlier : List (Actor × Event interface)) :
    acceptances ((events.map fun event => (actor, event)).reverse ++ earlier) =
      acceptances earlier ++ events.filterMap acceptance := by
  induction events generalizing earlier with
  | nil => simp
  | cons event events inductionHypothesis =>
      rw [List.map_cons, List.reverse_cons, List.append_assoc, List.singleton_append,
        inductionHypothesis, acceptances, List.append_assoc]
      cases accepted : acceptance event with
      | none => rw [List.filterMap_cons_none accepted, Option.toList_none, List.nil_append]
      | some entry => rw [List.filterMap_cons_some accepted, Option.toList_some, List.singleton_append]

/-- Any number of clients connect and are deleted again, one after the other. -/
theorem exists_clients (count : Nat) : Exists fun c : (server oneSession 1 0).Config =>
    (server oneSession 1 0).Reach (Machine.anyEvent _) c ∧ c.running .accept = .done () ∧
      Vacant count (view c.state) ∧
      acceptances c.history = (List.range count).map fun number =>
        (0, makeSessionId (BitVec.ofNat 32 number) 0) := by
  induction count with
  | zero => exact ⟨_, .start, rfl, ⟨rfl, rfl, rfl, rfl, rfl, rfl⟩, rfl⟩
  | succ count inductionHypothesis =>
      rcases inductionHypothesis with ⟨c, reach, idle, vacant, clients⟩
      have started := reach.step (Machine.Step.takeUp .accept Job.loop _ idle rfl)
      have round := acceptThread_runs 9 vacant c.state rfl
      have turn : (c.takeUp .accept (acceptThread oneSession.fuel)).running .accept = acceptThread 10 := by
        simp only [Machine.Config.takeUp, Function.update_self]
        rfl
      rcases Machine.reach_alone started (by rw [turn]; exact round) with
        ⟨c', reach', finished, _, events, after, history⟩
      refine ⟨c', reach', finished, after.1, ?_⟩
      rw [history, acceptances_append, after.2, List.range_succ, List.map_append]
      exact congrArg (· ++ _) clients

/-- Client number 65536 gets the ID of client number 0. -/
theorem client_receivesStaleId : Exists fun c : (server oneSession 1 0).Config =>
    (server oneSession 1 0).Reach (Machine.anyEvent _) c ∧
      ¬ NeverStale c.state (acceptances c.history) := by
  rcases exists_clients 65537 with ⟨c, reach, _, _, clients⟩
  refine ⟨c, reach, fun never => ?_⟩
  have fresh := never.fresh
  rw [List.nodup_iff_getElem?_ne_getElem?, clients] at fresh
  refine fresh 0 65536 (by decide) (by simp) ?_
  simp only [List.map_map, List.getElem?_map]
  rw [List.getElem?_range (by decide), List.getElem?_range (by decide)]
  exact congrArg some ((makeSessionId_eq_iff 0 65536 0 0).mpr ⟨rfl, by decide⟩)

end Network
end LoginServer
