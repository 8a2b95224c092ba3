import LoginServer.Network.Accounts

namespace LoginServer
namespace Network

open Memory Buffers Receiving Login Concurrency

/-!
# `findSession` on its own

The lookup raises the count of a slot before it knows what is in there, and
gives the hold back when the session is not the one.  Giving it back deletes
whatever session has no other hold.

Which client a slot belongs to is read from the course of events: the ID that
`init` stored last, unless a compare-exchange has won the session since.
-/

/-! ## Whose slot it is -/

/-- The ID last stored in a slot, and whether its client is still there. -/
structure Occupancy where
  named : Option SessionID
  present : Bool

/-- `init` names the client first and opens the session last. -/
def Occupancy.next (occupancy : Occupancy) (slot : Slot) : Event interface -> Occupancy
  | ⟨.session target (.storeId id), _⟩ => if target = slot then ⟨some id, true⟩ else occupancy
  | ⟨.session target .clearDeleted, _⟩ =>
      if target = slot then { occupancy with present := occupancy.named.isSome } else occupancy
  | ⟨.session target .compareExchangeIo, previous⟩ =>
      if target = slot ∧ IoCount.isZero previous = true then { occupancy with present := false }
      else occupancy
  | _ => occupancy

section Lookups

variable {Actor : Type} {workers contents : Nat} {settings : Settings}

/-- A slot after the events of a run, latest first. -/
def occupancy (slot : Slot) : List (Actor × Event interface) -> Occupancy
  | [] => ⟨none, false⟩
  | (_, event) :: earlier => (occupancy slot earlier).next slot event

/-- The client with this ID is connected. -/
def Connected (c : (server settings workers contents).Config) (sessionID : SessionID) : Prop :=
  occupancy (getIndex sessionID) c.history = ⟨some sessionID, true⟩

/-- The slot has been given to a client before. -/
def EverUsed (c : (server settings workers contents).Config) (slot : Slot) : Prop :=
  (occupancy slot c.history).named.isSome = true

/-- A session against the course of events. -/
structure Occupied (s : Session) (occupancy : Occupancy) : Prop where
  named : forall id, occupancy.named = some id -> s.id = id
  present : s.ioCount.deleted = false -> occupancy.present = occupancy.named.isSome

theorem Occupied.fresh : Occupied Session.fresh ⟨none, false⟩ where
  named := by
    intro id stored
    cases stored
  present := fun _ => rfl

theorem Occupied.congr {s s' : Session} {o : Occupancy} (occupied : Occupied s o)
    (id : s'.id = s.id) (ioCount : s'.ioCount = s.ioCount) : Occupied s' o where
  named := by
    intro name stored
    rw [id]
    exact occupied.named name stored
  present := by
    intro opened
    rw [ioCount] at opened
    exact occupied.present opened

theorem Occupancy.next_elsewhere (o : Occupancy) {slot target : Slot} (other : target ≠ slot) (op : SessionOp)
    (answer : op.Answer) : o.next slot ⟨.session target op, answer⟩ = o := by
  cases op with
  | storeId id => exact if_neg other
  | clearDeleted => exact if_neg other
  | compareExchangeIo => exact if_neg fun both => other both.1
  | _ => rfl

/-- One operation on the slot's session.  A decrement leaves the top bit alone
as long as there is a hold to give back. -/
theorem Occupied.session {choice : Choice} {s s' : Session} {o : Occupancy} {slot : Slot} {op : SessionOp}
    {answer : op.Answer} (occupied : Occupied s o)
    (performed : performSession choice s op = some (answer, s'))
    (held : op = .decrementIo -> 1 ≤ s.ioCount.refs) :
    Occupied s' (o.next slot ⟨.session slot op, answer⟩) := by
  cases op with
  | storeId id =>
      cases performed
      rw [show o.next slot ⟨.session slot (.storeId id), ()⟩ = ⟨some id, true⟩ from if_pos rfl]
      exact ⟨fun _ stored => Option.some.inj stored, fun _ => rfl⟩
  | clearDeleted =>
      cases performed
      rw [show o.next slot ⟨.session slot .clearDeleted, ()⟩ =
        { o with present := o.named.isSome } from if_pos rfl]
      exact ⟨occupied.named, fun _ => rfl⟩
  | compareExchangeIo =>
      cases performed
      by_cases zero : s.ioCount.isZero = true
      · rw [show o.next slot ⟨.session slot .compareExchangeIo, s.ioCount⟩ =
          { o with present := false } from if_pos ⟨rfl, zero⟩, if_pos zero]
        exact ⟨occupied.named, fun opened => Bool.noConfusion opened⟩
      · rw [show o.next slot ⟨.session slot .compareExchangeIo, s.ioCount⟩ = o from
          if_neg fun both => zero both.2, if_neg zero]
        exact occupied
  | incrementIo =>
      cases performed
      exact ⟨occupied.named, occupied.present⟩
  | decrementIo =>
      cases performed
      have counts : ¬ s.ioCount.refs = 0 := Nat.ne_of_gt (held rfl)
      refine ⟨occupied.named, fun opened => occupied.present ?_⟩
      simpa [IoCount.decrement, counts] using opened
  | loadId =>
      cases performed
      exact occupied
  | wsaSend batch =>
      simp only [performSession] at performed
      split at performed <;> cases performed <;> exact occupied.congr rfl rfl
  | wsaRecv buffers =>
      simp only [performSession] at performed
      split at performed <;> cases performed <;> exact occupied.congr rfl rfl
  | recved transfer =>
      cases performed
      exact occupied.congr rfl rfl
  | _ =>
      have untouched := performSession_quiet rfl performed
      exact occupied.congr untouched.id untouched.ioCount

theorem Occupied.step {choice : Choice} {state state' : State} {o : Occupancy} {slot : Slot} {op : Op}
    {answer : op.Answer} (occupied : Occupied (state.sessionArray slot) o)
    (performed : perform choice state op = some (answer, state'))
    (held : op = .session slot .decrementIo -> 1 ≤ state.refs slot) :
    Occupied (state'.sessionArray slot) (o.next slot ⟨op, answer⟩) := by
  have kept := (perform_sameBut performed).sessionArray
  cases op with
  | session target op =>
      rcases perform_session performed with ⟨s', inner, rfl⟩
      by_cases here : target = slot
      · subst here
        rw [State.setSession_same]
        apply occupied.session inner
        intro same
        exact held (congrArg (Op.session target) same)
      · rw [State.setSession_other state s' (Ne.symm here), Occupancy.next_elsewhere o here]
        exact occupied
  | _ =>
      rw [kept (by simp [Op.component])]
      exact occupied

/-- A thread that gives a hold back has one. -/
theorem decrement_held {c : (server settings workers contents).Config}
    {rule : (server settings workers contents).Rule}
    (reach : (server settings workers contents).Reach rule c) {thread : Thread workers contents}
    {slot : Slot} {next : IoCount -> NetProgram Unit}
    (turn : c.running thread = .step (.session slot .decrementIo) next) : 1 ≤ c.state.refs slot := by
  have lawful : (server settings workers contents).Reach
      (fun c thread event => true = false -> remembered c thread event) c :=
    reach.mono fun _ _ _ _ impossible => Bool.noConfusion impossible
  have obedient := (Discipline.sound (balanced_preserved true) (fun _ _ _ => jobs_obey) lawful).2 thread
  rw [turn] at obedient
  have owes := obedient.1.2 slot rfl
  have own := le_tally (fun owed : Owed => owed slot) ((holds true).ghosts c) thread
  have total := holds_le_ioCount reach slot
  unfold owedTotal at total
  omega

/-- In every run, a slot that is open belongs to the client whose ID is stored in
it, if it has ever been given to one. -/
theorem occupied_of_reach {c : (server settings workers contents).Config}
    (reach : (server settings workers contents).Reach (Machine.anyEvent _) c) (slot : Slot) :
    Occupied (c.state.sessionArray slot) (occupancy slot c.history) := by
  induction reach with
  | start => exact Occupied.fresh
  | @step c c' before step inductionHypothesis =>
      cases step with
      | takeUp thread job program idle chosen => exact inductionHypothesis
      | act thread choice op next answer state turn performed lawful =>
          change Occupied (state.sessionArray slot) ((occupancy slot c.history).next slot ⟨op, answer⟩)
          apply inductionHypothesis.step performed
          rintro rfl
          exact decrement_held before turn
      | surround change state changed =>
          have same := (surround_sameFields changed).1 slot
          exact Occupied.congr inductionHypothesis same.id same.ioCount

/-! ## The call -/

/-- Closing a socket, and the callbacks. -/
def disturbs : Op -> Bool
  | .closesocket _ => true
  | .mark (.findSession _) => false
  | .mark _ => true
  | _ => false

/-- What a lookup promises: a session only of the connected client, with one hold
more, and otherwise nothing, with the slot, the stack and the socket as they were
and no callback. -/
def Exact (c : (server settings workers contents).Config) (sessionID : SessionID) (found : Option Slot)
    (state : State) (events : List (Event interface)) : Prop :=
  let before := c.state.sessionArray (getIndex sessionID)
  let after := state.sessionArray (getIndex sessionID)
  match found with
  | some slot => slot = getIndex sessionID ∧ Connected c sessionID ∧
      after.ioCount = before.ioCount.increment
  | none => after.ioCount = before.ioCount ∧ after.socket = before.socket ∧
      state.indexStack = c.state.indexStack ∧
      forall event, event ∈ events -> disturbs event.op = false

/-- A call of `findSession`, run without interference, terminates and does what it promises,
with the given outcomes of what is decided outside. -/
def FindsExactly (c : (server settings workers contents).Config) (thread : Thread workers contents)
    (choice : Choice) (fuel : Nat) (sessionID : SessionID) : Prop :=
  Machine.Alone (server settings workers contents) thread choice (findSession fuel sessionID) c.state
    (Exact c sessionID)

section Call

variable {c : (server settings workers contents).Config} {thread : Thread workers contents}
  {choice : Choice} {fuel : Nat} {sessionID : SessionID}

theorem decrement_increment (count : IoCount) : count.increment.decrement = count := by
  simp [IoCount.increment, IoCount.decrement]

/-- Giving back the hold just taken, when it is not the last one. -/
theorem giveBack_undoes {slot : Slot} {state : State} (kept : (state.sessionArray slot).ioCount.isZero = false) :
    Machine.Alone (server settings workers contents) thread choice (giveBack fuel slot)
      (state.setSession slot { state.sessionArray slot with
        ioCount := (state.sessionArray slot).ioCount.increment })
      fun _ state' events => state' = state ∧ forall event, event ∈ events -> disturbs event.op = false := by
  have undone : (state.setSession slot { state.sessionArray slot with
      ioCount := (state.sessionArray slot).ioCount.increment }).setSession slot
        (state.sessionArray slot) = state := by
    simp [State.setSession]
  have performed : (server settings workers contents).perform thread (.session slot .decrementIo) choice
      (state.setSession slot { state.sessionArray slot with
        ioCount := (state.sessionArray slot).ioCount.increment }) =
        some ((state.sessionArray slot).ioCount, state) := by
    simp [server, perform, performSession, decrement_increment, undone]
  have finished : (if (state.sessionArray slot).ioCount.isZero = true then deleteSession fuel slot
      else return) = pure () := by
    rw [kept]
    rfl
  apply (Machine.alone_step performed).mpr
  change Machine.Alone _ _ _ (if (state.sessionArray slot).ioCount.isZero = true then deleteSession fuel slot
    else return) _ _
  rw [finished]
  exact ⟨rfl, by simp [disturbs]⟩

/-- Deleting a session whose count is zero closes its socket. -/
theorem deleteSession_disturbs {slot : Slot} {state : State}
    (zero : (state.sessionArray slot).ioCount.isZero = true)
    {post : Unit -> State -> List (Event interface) -> Prop}
    (alone : Machine.Alone (server settings workers contents) thread choice (deleteSession fuel slot)
      state post) :
    Exists fun state' => Exists fun events => post () state' events ∧
      Exists fun event => event ∈ events ∧ disturbs event.op = true := by
  rcases alone with ⟨result, won, rest⟩
  cases won
  change Machine.Alone _ _ _ (if (state.sessionArray slot).ioCount.isZero = true then _ else _) _ _ at rest
  rw [if_pos zero] at rest
  rcases rest with ⟨result, loaded, result', socket, result'', closed, rest⟩
  cases loaded
  cases socket
  cases closed
  rcases rest.returned (show Program.Returns (fun _ => True) _ from
      Program.returns_of_forall _ fun _ => trivial) with ⟨_, state', events, _, holds⟩
  exact ⟨state', _, holds, _, .tail _ (.tail _ (.tail _ (.head _))), rfl⟩

/-- The part of `findSession` that follows the increment. -/
def findSessionRest (fuel : Nat) (sessionID : SessionID) (temp : IoCount) : NetProgram (Option Slot) := do
  if temp.deleted then
    giveBack fuel (getIndex sessionID)
    return none
  else
    let id ← sessionOp (getIndex sessionID) .loadId
    if id ≠ sessionID then
      giveBack fuel (getIndex sessionID)
      return none
    else return some (getIndex sessionID)

theorem findSession_eq : findSession fuel sessionID =
    Program.step (I := interface) (.mark (.findSession sessionID)) fun _ =>
      Program.step (I := interface) (.session (getIndex sessionID) .incrementIo)
        (findSessionRest fuel sessionID) := rfl

/-- The call from any state, whatever the course of events has been. -/
theorem findsExactly_cases : FindsExactly c thread choice fuel sessionID ↔
    (c.state.sessionArray (getIndex sessionID)).ioCount.deleted = true ∨
      ((c.state.sessionArray (getIndex sessionID)).id = sessionID ∧ Connected c sessionID) ∨
      ((c.state.sessionArray (getIndex sessionID)).id ≠ sessionID ∧
        (c.state.sessionArray (getIndex sessionID)).ioCount.refs ≠ 0) := by
  let before := c.state.sessionArray (getIndex sessionID)
  let raised : State :=
    c.state.setSession (getIndex sessionID) { before with ioCount := before.ioCount.increment }
  let post (events : List (Event interface)) (found : Option Slot) (state : State)
      (later : List (Event interface)) : Prop :=
    Exact c sessionID found state (⟨.mark (.findSession sessionID), ()⟩ ::
      ⟨.session (getIndex sessionID) .incrementIo, before.ioCount.increment⟩ :: (events ++ later))
  -- Both operations in front always happen.
  have called : FindsExactly c thread choice fuel sessionID ↔
      Machine.Alone (server settings workers contents) thread choice
        (findSessionRest fuel sessionID before.ioCount.increment) raised (post []) := by
    have marked : (server settings workers contents).perform thread (.mark (.findSession sessionID))
        choice c.state = some ((), c.state) := rfl
    have increased : (server settings workers contents).perform thread
        (.session (getIndex sessionID) .incrementIo) choice c.state =
          some (before.ioCount.increment, raised) := rfl
    unfold FindsExactly
    rw [findSession_eq]
    exact (Machine.alone_step marked).trans (Machine.alone_step increased)
  have restored (events : List (Event interface))
      (quiet : forall event, event ∈ events -> disturbs event.op = false)
      (kept : before.ioCount.isZero = false) :
      Machine.Alone (server settings workers contents) thread choice
        (do giveBack fuel (getIndex sessionID); return none) raised (post events) := by
    apply Machine.Alone.bind
    apply (giveBack_undoes kept).mono
    rintro _ state later ⟨rfl, same⟩
    refine ⟨rfl, rfl, rfl, ?_⟩
    intro event member
    simp only [List.append_nil, List.mem_cons, List.mem_append] at member
    rcases member with rfl | rfl | earlier | recent
    · rfl
    · rfl
    · exact quiet event earlier
    · exact same event recent
  have destroyed (events : List (Event interface)) (zero : before.ioCount.isZero = true) :
      ¬ Machine.Alone (server settings workers contents) thread choice
        (do giveBack fuel (getIndex sessionID); return none) raised (post events) := by
    intro alone
    have given := alone.of_bind
    have decreased : (server settings workers contents).perform thread
        (.session (getIndex sessionID) .decrementIo) choice raised =
          some (before.ioCount, raised.setSession (getIndex sessionID) before) := by
      simp [server, perform, performSession, decrement_increment, raised]
    have deleted := (Machine.alone_step decreased).mp given
    change Machine.Alone _ _ _ (if before.ioCount.isZero = true then deleteSession fuel (getIndex sessionID)
      else return) _ _ at deleted
    rw [if_pos zero] at deleted
    rcases deleteSession_disturbs (by simpa using zero) deleted with ⟨state, later, holds, event, member, loud⟩
    have quiet : disturbs event.op = false := by
      apply holds.2.2.2 event
      simp [member]
    exact Bool.noConfusion (quiet.symm.trans loud)
  rw [called]
  by_cases deleted : before.ioCount.deleted = true
  · have rest : findSessionRest fuel sessionID before.ioCount.increment =
        (do giveBack fuel (getIndex sessionID); return none) := if_pos deleted
    have kept : before.ioCount.isZero = false := by simp [IoCount.isZero, deleted]
    rw [rest]
    exact iff_of_true (restored [] (by simp) kept) (Or.inl deleted)
  have opened := Bool.eq_false_iff.mpr deleted
  have rest : findSessionRest fuel sessionID before.ioCount.increment =
      Program.step (I := interface) (.session (getIndex sessionID) .loadId) fun id =>
        if id ≠ sessionID then do giveBack fuel (getIndex sessionID); return none
        else return some (getIndex sessionID) := if_neg deleted
  have loaded : (server settings workers contents).perform thread
      (.session (getIndex sessionID) .loadId) choice raised = some (before.id, raised) := by
    simp [server, perform, performSession, raised, State.setSession]
  rw [rest]
  apply (Machine.alone_step loaded).trans
  by_cases same : before.id = sessionID
  · change Machine.Alone _ _ _ (if before.id ≠ sessionID then _ else _) _ _ ↔ _
    rw [if_neg (not_not_intro same)]
    constructor
    · rintro ⟨_, there, _⟩
      exact Or.inr (Or.inl ⟨same, there⟩)
    · rintro (impossible | ⟨_, there⟩ | ⟨other, _⟩)
      · exact absurd impossible deleted
      · exact ⟨rfl, there, congrArg Session.ioCount (State.setSession_same _ _ _)⟩
      · exact absurd same other
  · change Machine.Alone _ _ _ (if before.id ≠ sessionID then _ else _) _ _ ↔ _
    rw [if_pos same]
    by_cases none : before.ioCount.refs = 0
    · have zero : before.ioCount.isZero = true := by simp [opened, none]
      apply iff_of_false (destroyed [⟨.session (getIndex sessionID) .loadId, before.id⟩] zero)
      rintro (impossible | ⟨equal, _⟩ | ⟨_, some⟩)
      · exact deleted impossible
      · exact same equal
      · exact some none
    · have kept : before.ioCount.isZero = false := by simp [IoCount.isZero, none]
      apply iff_of_true (restored [⟨.session (getIndex sessionID) .loadId, before.id⟩] _ kept)
      · exact Or.inr (Or.inr ⟨same, none⟩)
      · simp [disturbs]

/-- In every state of every run, whoever calls it with whatever ID, `findSession` is exact and
harmless unless the slot is open with a count of zero and another ID stored, or has never been
given to a client and stores that very ID. Exact means that it answers the slot just when that
session is connected, and harmless that a refusal leaves everything as it was. -/
theorem findSession_exact_iff
    (reach : (server settings workers contents).Reach (Machine.anyEvent _) c) :
    FindsExactly c thread choice fuel sessionID ↔
      (c.state.sessionArray (getIndex sessionID)).ioCount.deleted = true ∨
        ((c.state.sessionArray (getIndex sessionID)).id = sessionID ∧ EverUsed c (getIndex sessionID)) ∨
        ((c.state.sessionArray (getIndex sessionID)).id ≠ sessionID ∧
          (c.state.sessionArray (getIndex sessionID)).ioCount.refs ≠ 0) := by
  have occupied := occupied_of_reach reach (getIndex sessionID)
  rw [findsExactly_cases]
  by_cases deleted : (c.state.sessionArray (getIndex sessionID)).ioCount.deleted = true
  · simp only [deleted, true_or]
  have opened := Bool.eq_false_iff.mpr deleted
  have connected (same : (c.state.sessionArray (getIndex sessionID)).id = sessionID) :
      Connected c sessionID ↔ EverUsed c (getIndex sessionID) := by
    unfold Connected EverUsed
    rcases whole : occupancy (getIndex sessionID) c.history with ⟨named, present⟩
    rw [whole] at occupied
    have there : present = named.isSome := occupied.present opened
    cases named with
    | none => simp
    | some id =>
        have stored := occupied.named id rfl
        simp [there, ← stored, same]
  constructor
  · rintro (impossible | ⟨same, holds⟩ | other)
    · exact Or.inl impossible
    · exact Or.inr (Or.inl ⟨same, (connected same).mp holds⟩)
    · exact Or.inr (Or.inr other)
  · rintro (impossible | ⟨same, holds⟩ | other)
    · exact Or.inl impossible
    · exact Or.inr (Or.inl ⟨same, (connected same).mpr holds⟩)
    · exact Or.inr (Or.inr other)

end Call

end Lookups

/-- The first client of a server is found. -/
theorem firstClient_found : Exists fun c : (server oneSession 1 0).Config =>
    (server oneSession 1 0).Reach (Machine.anyEvent _) c ∧
      FindsExactly c (.worker 0) usual 0 0 := by
  have run : Exists fun c : (server oneSession 1 0).Config =>
      (server oneSession 1 0).Reach (Machine.anyEvent _) c ∧
        ((c.state.sessionArray 0).id == 0 && (occupancy 0 c.history).named.isSome) = true :=
    Machine.exists_of_runSchedule ([.takeUp .accept Job.loop] ++ acts .accept 25 usual) _ (by decide +kernel)
  rcases run with ⟨c, reach, checked⟩
  have both : (c.state.sessionArray 0).id = 0 ∧ EverUsed c 0 := by
    simpa [EverUsed] using checked
  exact ⟨c, reach, (findSession_exact_iff reach).mpr (Or.inr (Or.inl both))⟩

/-- Before any client has come, the ID 0 finds the first slot, and any other ID
of the slot deletes it. -/
theorem unusedSlot_found :
    (¬ FindsExactly (server oneSession 1 0).start (.worker 0) usual 100 0 ∧
      Machine.Alone (server oneSession 1 0) (.worker 0) usual (findSession 100 0) (State.initial 1)
        fun found _ _ => found = some 0) ∧
    (¬ FindsExactly (server oneSession 1 0).start (.worker 0) usual 100 0x0001000000000000 ∧
      Machine.Alone (server oneSession 1 0) (.worker 0) usual (findSession 100 0x0001000000000000) (State.initial 1)
        fun _ state events => state.indexStack = [0, 0] ∧
          (events.any fun event => disturbs event.op) = true) := by
  refine ⟨⟨?_, ?_⟩, ?_, ?_⟩
  · intro exactly
    rcases findsExactly_cases.mp exactly with deleted | ⟨_, there⟩ | ⟨other, _⟩
    · cases deleted
    · cases there
    · exact other rfl
  · exact ⟨_, rfl, _, rfl, _, rfl, rfl⟩
  · intro exactly
    rcases findsExactly_cases.mp exactly with deleted | ⟨same, _⟩ | ⟨_, held⟩
    · cases deleted
    · exact absurd same (by decide)
    · exact held rfl
  · exact ⟨_, rfl, _, rfl, _, rfl, _, rfl, _, rfl, _, rfl, _, rfl, _, rfl, _, rfl, _, rfl, _, rfl, _, rfl,
      _, rfl, _, rfl, _, rfl, _, rfl, _, rfl, rfl, rfl⟩

end Network
end LoginServer
