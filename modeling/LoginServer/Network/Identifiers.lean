import LoginServer.Network.Routine

namespace LoginServer
namespace Network

open Memory Buffers Receiving Login Concurrency

/-!
# Session identifiers

An ID is the slot in the low 16 bits and the running number in the high ones.
The number has 32 bits, and the shift by 48 leaves room for 16 of them.  So
two sessions have the same ID exactly if they were given the same slot and
their numbers differ by a multiple of `2 ^ 16`.
-/

theorem makeSessionId_high (sessionCount : BitVec 32) (index : Slot) :
    ((makeSessionId sessionCount index) >>> 48).truncate 16 = sessionCount.truncate 16 := by
  apply BitVec.eq_of_getLsbD_eq
  intro position inside
  have outside : index.getLsbD (48 + position) = false := BitVec.getLsbD_of_ge _ _ (by omega)
  have below : 48 + position < 64 := by omega
  have above : ¬ 48 + position < 48 := by omega
  have small : position < 64 := by omega
  simp [makeSessionId, inside, outside, below, above, small]

theorem makeSessionId_congr {first second : BitVec 32} (index : Slot)
    (same : first.truncate 16 = second.truncate 16) :
    makeSessionId first index = makeSessionId second index := by
  apply BitVec.eq_of_getLsbD_eq
  intro position inside
  by_cases low : position < 48
  · simp [makeSessionId, low]
  · have bit := congrArg (fun count : BitVec 16 => count.getLsbD (position - 48)) same
    simp only [BitVec.truncate_eq_setWidth, BitVec.getLsbD_setWidth] at bit
    have small : position - 48 < 16 := by omega
    simp only [small, decide_true, Bool.true_and] at bit
    simp [makeSessionId, bit]

theorem makeSessionId_eq_iff (first second : Nat) (index other : Slot) :
    makeSessionId (BitVec.ofNat 32 first) index = makeSessionId (BitVec.ofNat 32 second) other ↔
      index = other ∧ first % 2 ^ 16 = second % 2 ^ 16 := by
  have numbers : (BitVec.ofNat 32 first).truncate 16 = (BitVec.ofNat 32 second).truncate 16 ↔
      first % 2 ^ 16 = second % 2 ^ 16 := by
    rw [← BitVec.toNat_inj]
    simp only [BitVec.truncate_eq_setWidth, BitVec.toNat_setWidth, BitVec.toNat_ofNat]
    omega
  rw [← numbers]
  constructor
  · intro same
    have low := congrArg getIndex same
    have high := congrArg (fun id : SessionID => (id >>> 48).truncate 16) same
    simp only [getIndex_makeSessionId] at low
    simp only [makeSessionId_high] at high
    exact ⟨low, high⟩
  · rintro ⟨rfl, same⟩
    exact makeSessionId_congr index same

/-! ## Acceptances -/

/-- The slot and the ID a session is given by an event. -/
def acceptance : Event interface -> Option (Slot × SessionID)
  | ⟨.session slot (.storeId id), _⟩ => some (slot, id)
  | _ => none

/-- The sessions of a history, first to last. -/
def acceptances {Actor : Type} : List (Actor × Event interface) -> List (Slot × SessionID)
  | [] => []
  | (_, event) :: earlier => acceptances earlier ++ (acceptance event).toList

/-- Operations of the accept thread alone. -/
def issues : Op -> Bool
  | .session _ (.storeId _) => true
  | .nextSessionCount => true
  | _ => false

theorem acceptance_unissued {op : Op} (unissued : issues op = false) (answer : op.Answer) :
    acceptance ⟨op, answer⟩ = none := by
  cases op with
  | session slot op => cases op <;> first | rfl | exact Bool.noConfusion unissued
  | _ => rfl

theorem performSession_id {choice : Choice} {s s' : Session} {op : SessionOp} {answer : op.Answer}
    (performed : performSession choice s op = some (answer, s')) (kept : forall id, op ≠ .storeId id) :
    s'.id = s.id := by
  by_cases quiet : op.quiet = true
  · exact (performSession_quiet quiet performed).id
  · cases op with
    | storeId id => exact absurd rfl (kept id)
    | compareExchangeIo =>
        cases performed
        split <;> rfl
    | wsaSend batch =>
        simp only [performSession] at performed
        split at performed <;> cases performed <;> rfl
    | wsaRecv buffers =>
        simp only [performSession] at performed
        split at performed <;> cases performed <;> rfl
    | _ => first | exact absurd rfl quiet | (cases performed; rfl)

/-- Only the accept thread's operations change an ID or the running number. -/
theorem perform_unissued {choice : Choice} {state state' : State} {op : Op} {answer : op.Answer}
    (performed : perform choice state op = some (answer, state')) (unissued : issues op = false) :
    state'.sessionCount = state.sessionCount ∧
      forall slot, (state'.sessionArray slot).id = (state.sessionArray slot).id := by
  cases op with
  | session slot op =>
      rcases perform_session performed with ⟨s', inner, rfl⟩
      refine ⟨rfl, fun other => ?_⟩
      by_cases same : other = slot
      · subst same
        rw [State.setSession_same]
        apply performSession_id inner
        rintro id rfl
        exact Bool.noConfusion unissued
      · rw [State.setSession_other state s' same]
  | getQueuedCompletionStatus =>
      simp only [perform] at performed
      split at performed <;> cases performed
      exact ⟨rfl, fun _ => rfl⟩
  | popIndex =>
      simp only [perform] at performed
      split at performed <;> cases performed <;> exact ⟨rfl, fun _ => rfl⟩
  | serializerAlloc =>
      simp only [perform] at performed
      split at performed <;> cases performed
      exact ⟨rfl, fun _ => rfl⟩
  | acquireContainorLock mode =>
      rcases Option.map_eq_some_iff.mp performed with ⟨lock, _, same⟩
      cases same
      exact ⟨rfl, fun _ => rfl⟩
  | halt => cases answer
  | _ => first | exact Bool.noConfusion unissued | (cases performed; exact ⟨rfl, fun _ => rfl⟩)

/-! ## Numbering -/

/-- A session is given the ID of its slot and of the number drawn for it. -/
def numbering : Discipline interface where
  Ghost := Option (BitVec 32)
  start := none
  track := fun drawn event =>
    match event with
    | ⟨.nextSessionCount, number⟩ => some number
    | ⟨.session _ (.storeId _), _⟩ => none
    | _ => drawn
  permits := fun drawn op =>
    match op with
    | .nextSessionCount => drawn = none
    | .session slot (.storeId id) => Exists fun number =>
        drawn = some number ∧ id = makeSessionId number slot
    | _ => True
  expects := fun _ _ => True
  finish := fun drawn => drawn = none
  finish_start := rfl

theorem numbering_permits {op : Op} (unissued : issues op = false) (drawn : Option (BitVec 32)) :
    numbering.permits drawn op := by
  cases op with
  | session slot op => cases op <;> trivial
  | _ => trivial

theorem numbering_track {op : Op} (unissued : issues op = false) (answer : op.Answer)
    (drawn : Option (BitVec 32)) : numbering.track drawn ⟨op, answer⟩ = drawn := by
  cases op with
  | session slot op => cases op <;> first | rfl | exact Bool.noConfusion unissued
  | _ => first | rfl | exact Bool.noConfusion unissued

abbrev Unissued {α : Type} (program : NetProgram α) : Prop := program.Uses fun op => issues op = false

theorem issues_of_closes {op : Op} (closes : op.closes = true) : issues op = false := by
  cases op with
  | session slot op => cases op <;> first | rfl | exact Bool.noConfusion closes
  | _ => first | rfl | exact Bool.noConfusion closes

theorem issues_of_works {op : Op} (works : op.works = true) : issues op = false := by
  cases op with
  | session slot op => cases op <;> first | rfl | exact Bool.noConfusion works
  | _ => first | rfl | exact Bool.noConfusion works

theorem giveBack_unissued (fuel : Nat) (slot : Slot) : Unissued (giveBack fuel slot) :=
  (giveBack_closes fuel slot).mono fun _ => issues_of_closes

theorem works_unissued {fuel : Nat} {α : Type} {program : NetProgram α} (works : Works fuel program) :
    Unissued program :=
  works.uses (fun _ => issues_of_works) fun slot => giveBack_unissued fuel slot

theorem Unissued.keeps {α : Type} {program : NetProgram α} (unissued : Unissued program)
    (drawn : Option (BitVec 32)) : numbering.Keeps program drawn :=
  Discipline.obeys_of_uses (D := numbering) unissued (fun _ ghost free => numbering_permits free ghost)
    (fun _ answer ghost free => numbering_track free answer ghost) drawn

theorem onNewConnect_unissued (fuel : Nat) (sessionID : SessionID) :
    Unissued (onNewConnect fuel sessionID) := by
  refine ⟨rfl, fun _ => (works_unissued (findSession_assembled sessionID).works).bind fun found => ?_⟩
  cases found with
  | none => trivial
  | some slot =>
      refine ⟨rfl, fun _ => ⟨rfl, fun _ => ⟨rfl, fun _ => ⟨rfl, fun _ => ⟨rfl, fun _ => ?_⟩⟩⟩⟩⟩
      exact giveBack_unissued fuel slot

theorem update_unissued (fuel : Nat) (timeoutThreshold : BitVec 64) :
    Unissued (update fuel timeoutThreshold) := by
  refine ⟨rfl, fun currentTick => ⟨rfl, fun _ => ⟨rfl, fun connections => ?_⟩⟩⟩
  refine (works_unissued (timeOut_assembled timeoutThreshold currentTick connections).works).bind fun _ => ?_
  exact ⟨rfl, fun _ => trivial⟩

theorem acceptThread_numbering (fuel : Nat) : numbering.Keeps (acceptThread fuel) none := by
  refine ⟨trivial, fun (accepted : Option Nat) _ => ?_⟩
  cases accepted with
  | none => rfl
  | some clientSock =>
      refine ⟨trivial, fun (popped : Option Slot) _ => ?_⟩
      cases popped with
      | none => exact ⟨trivial, fun _ _ => rfl⟩
      | some index =>
          refine ⟨rfl, fun sessionCount _ => ⟨⟨sessionCount, rfl, rfl⟩, fun _ _ => ?_⟩⟩
          refine Unissued.keeps ?_ none
          refine ⟨rfl, fun _ => ⟨rfl, fun _ => ⟨rfl, fun _ => ⟨rfl, fun _ => ⟨rfl, fun _ => ?_⟩⟩⟩⟩⟩
          refine (onNewConnect_unissued fuel _).bind fun _ => ?_
          refine (works_unissued (recvIo_works index)).bind fun _ => ?_
          exact giveBack_unissued fuel index

section Runs

variable {workers contents : Nat} {settings : Settings}

theorem jobs_numbering {thread : Thread workers contents} {job : Job} {program : NetProgram Unit}
    (chosen : jobProgram settings thread job = some program) : numbering.Keeps program none := by
  cases thread <;> cases job <;> cases chosen
  case accept.loop => exact acceptThread_numbering settings.fuel
  case worker.loop => exact (works_unissued workerThread_assembled.works).keeps none
  case timeout.loop => exact (update_unissued settings.fuel settings.timeoutThreshold).keeps none
  case content.call => exact (works_unissued (contentCall_assembled _).works).keeps none

theorem jobs_unissued {thread : Thread workers contents} {job : Job} {program : NetProgram Unit}
    (chosen : jobProgram settings thread job = some program) :
    program.Uses fun op => thread ≠ .accept -> issues op = false := by
  by_cases accepting : thread = .accept
  · subst accepting
    exact Program.uses_of_forall program fun op other => absurd rfl other
  · refine jobs_use ?_ ?_ ⟨fun _ => rfl, fun _ => rfl, fun _ => rfl⟩ accepting chosen
    · exact fun _ works _ => issues_of_works works
    · exact fun _ closes _ => issues_of_closes closes

/-- The sessions so far are numbered from 0, `sessionCount` is the next number, and
a slot holds the ID of its last session. -/
structure Numbered (state : State) (drawn : Option (BitVec 32)) (sessions : List (Slot × SessionID)) :
    Prop where
  ids : forall number slot id, sessions[number]? = some (slot, id) ->
    id = makeSessionId (BitVec.ofNat 32 number) slot
  sessionCount : state.sessionCount =
    BitVec.ofNat 32 (sessions.length + if drawn.isSome then 1 else 0)
  drawn : forall number, drawn = some number -> number = BitVec.ofNat 32 sessions.length
  current : forall number slot id, sessions[number]? = some (slot, id) ->
    (forall (later : Nat) other, number < later -> sessions[later]? ≠ some (slot, other)) ->
    (state.sessionArray slot).id = id

theorem Numbered.congr {state state' : State} {drawn : Option (BitVec 32)}
    {sessions : List (Slot × SessionID)} (numbered : Numbered state drawn sessions)
    (same : state'.sessionCount = state.sessionCount ∧
      forall slot, (state'.sessionArray slot).id = (state.sessionArray slot).id) :
    Numbered state' drawn sessions where
  ids := numbered.ids
  sessionCount := same.1.trans numbered.sessionCount
  drawn := numbered.drawn
  current number slot id entry last := (same.2 slot).trans (numbered.current number slot id entry last)

theorem Numbered.draw {state : State} {sessions : List (Slot × SessionID)}
    (numbered : Numbered state none sessions) :
    Numbered { state with sessionCount := state.sessionCount + 1 } (some state.sessionCount) sessions where
  ids := numbered.ids
  sessionCount := by
    have count := numbered.sessionCount
    simp only [Option.isSome_none, Bool.false_eq_true, if_false, Nat.add_zero] at count
    simp only [count, Option.isSome_some, if_true]
    apply BitVec.eq_of_toNat_eq
    simp [BitVec.toNat_add]
  drawn := by
    rintro number ⟨⟩
    simpa using numbered.sessionCount
  current := numbered.current

theorem Numbered.store {state : State} {number : BitVec 32} {sessions : List (Slot × SessionID)}
    (numbered : Numbered state (some number) sessions) (slot : Slot) :
    Numbered
      (state.setSession slot { state.sessionArray slot with id := makeSessionId number slot }) none
      (sessions ++ [(slot, makeSessionId number slot)]) where
  ids := by
    intro position target id entry
    rcases Nat.lt_trichotomy position sessions.length with before | same | after
    · rw [List.getElem?_append_left before] at entry
      exact numbered.ids position target id entry
    · subst same
      simp only [List.getElem?_concat_length, Option.some.injEq, Prod.mk.injEq] at entry
      rw [← entry.2, ← entry.1, numbered.drawn number rfl]
    · rw [List.getElem?_append_right (by omega), List.getElem?_eq_none (by simp; omega)] at entry
      cases entry
  sessionCount := by
    rw [List.length_append]
    exact numbered.sessionCount
  drawn := by simp
  current := by
    intro position target id entry last
    by_cases here : target = slot
    · subst here
      rw [State.setSession_same]
      rcases Nat.lt_trichotomy position sessions.length with before | same | after
      · exact absurd List.getElem?_concat_length (last _ _ before)
      · subst same
        simp only [List.getElem?_concat_length, Option.some.injEq, Prod.mk.injEq] at entry
        exact entry.2
      · rw [List.getElem?_append_right (by omega), List.getElem?_eq_none (by simp; omega)] at entry
        cases entry
    · rw [State.setSession_other state _ here]
      rcases Nat.lt_trichotomy position sessions.length with before | same | after
      · rw [List.getElem?_append_left before] at entry
        refine numbered.current position target id entry fun later other beyond present => ?_
        have inside := (List.getElem?_eq_some_iff.mp present).1
        exact last later other beyond (by rw [List.getElem?_append_left inside]; exact present)
      · subst same
        simp only [List.getElem?_concat_length, Option.some.injEq, Prod.mk.injEq] at entry
        exact absurd entry.1.symm here
      · rw [List.getElem?_append_right (by omega), List.getElem?_eq_none (by simp; omega)] at entry
        cases entry

theorem numbering_preserved : numbering.Preserved (server settings workers contents)
    (Machine.anyEvent _)
    fun state ghosts history => Numbered state (ghosts .accept) (acceptances history) where
  initial :=
    { ids := by intro number slot id entry; cases entry
      sessionCount := rfl
      drawn := nofun
      current := by intro number slot id entry; cases entry }
  act := by
    intro c thread op next choice answer state reach turn numbered permitted performed _
    refine ⟨trivial, ?_⟩
    by_cases unissued : issues op = false
    · have ghost : Function.update (numbering.ghosts c) thread
          (numbering.track (numbering.ghosts c thread) ⟨op, answer⟩) = numbering.ghosts c := by
        rw [show numbering.track (numbering.ghosts c thread) ⟨op, answer⟩ = numbering.ghosts c thread from
          numbering_track unissued answer _]
        exact Function.update_eq_self _ _
      have entries : acceptances ((thread, ⟨op, answer⟩) :: c.history) = acceptances c.history := by
        simp [acceptances, acceptance_unissued unissued]
      rw [ghost, entries]
      exact numbered.congr (perform_unissued performed unissued)
    · have uses := reach.running_uses (fun _ _ _ => jobs_unissued) thread
      rw [turn] at uses
      have accepting : thread = .accept := by
        by_contra other
        exact unissued (uses.1 other)
      subst accepting
      rw [Function.update_self]
      cases op with
      | nextSessionCount =>
          have free : numbering.ghosts c .accept = none := permitted
          rw [free] at numbered
          cases performed
          have entries : acceptances ((Thread.accept, (⟨.nextSessionCount, c.state.sessionCount⟩ :
              Event interface)) :: c.history) = acceptances c.history := List.append_nil _
          rw [entries]
          exact numbered.draw
      | session slot op =>
          cases op with
          | storeId id =>
              rcases permitted with ⟨number, drawn, rfl⟩
              rw [show numbering.ghosts c .accept = some number from drawn] at numbered
              cases performed
              exact numbered.store slot
          | _ => exact absurd rfl unissued
      | _ => exact absurd rfl unissued
  takeUp := by
    intro state ghosts history thread numbered finished
    have same : Function.update ghosts thread numbering.start = ghosts := by
      rw [show numbering.start = ghosts thread from finished.symm]
      exact Function.update_eq_self _ _
    rw [same]
    exact numbered
  surround := by
    intro state ghosts history change state' numbered changed
    rcases surround_sameFields changed with ⟨sessions, _, count⟩
    exact numbered.congr ⟨count, fun slot => (sessions slot).id⟩

/-! ## Stale IDs -/

/-- No slot is given out at two acceptances whose numbers differ by a multiple of
`2 ^ 16`. -/
def SparseReuse (slots : List Slot) : Prop :=
  forall (first second : Nat) slot, first < second -> slots[first]? = some slot ->
    slots[second]? = some slot -> first % 2 ^ 16 ≠ second % 2 ^ 16

/-- No ID is given twice, and a slot that holds an ID holds the session it was
given to. -/
structure NeverStale (state : State) (sessions : List (Slot × SessionID)) : Prop where
  fresh : (sessions.map Prod.snd).Nodup
  current : forall (number later : Nat) slot id other, sessions[number]? = some (slot, id) ->
    (state.sessionArray slot).id = id -> number < later -> sessions[later]? ≠ some (slot, other)

/-- Two acceptances share their ID if they share the slot and the low half of the
number. -/
theorem Numbered.same_id_iff {state : State} {drawn : Option (BitVec 32)}
    {sessions : List (Slot × SessionID)} (numbered : Numbered state drawn sessions)
    {first second : Nat} {slot other : Slot} {id id' : SessionID}
    (left : sessions[first]? = some (slot, id)) (right : sessions[second]? = some (other, id')) :
    id = id' ↔ slot = other ∧ first % 2 ^ 16 = second % 2 ^ 16 := by
  rw [numbered.ids first slot id left, numbered.ids second other id' right, makeSessionId_eq_iff]

theorem Numbered.nodup_iff {state : State} {drawn : Option (BitVec 32)}
    {sessions : List (Slot × SessionID)} (numbered : Numbered state drawn sessions) :
    (sessions.map Prod.snd).Nodup ↔ SparseReuse (sessions.map Prod.fst) := by
  rw [List.nodup_iff_getElem?_ne_getElem?]
  constructor
  · intro fresh first second slot before left right same
    rw [List.getElem?_map, Option.map_eq_some_iff] at left right
    rcases left with ⟨⟨slot, id⟩, left, rfl⟩
    rcases right with ⟨⟨other, id'⟩, right, equal⟩
    have inside := (List.getElem?_eq_some_iff.mp right).1
    refine fresh first second before (by rw [List.length_map]; exact inside) ?_
    rw [List.getElem?_map, List.getElem?_map, left, right]
    exact congrArg some ((numbered.same_id_iff left right).mpr ⟨equal.symm, same⟩)
  · intro sparse first second before inside same
    rw [List.length_map] at inside
    have left : sessions[first]? = some (sessions[first].1, sessions[first].2) :=
      List.getElem?_eq_getElem (by omega)
    have right : sessions[second]? = some (sessions[second].1, sessions[second].2) :=
      List.getElem?_eq_getElem inside
    rw [List.getElem?_map, List.getElem?_map, left, right] at same
    rcases (numbered.same_id_iff left right).mp (Option.some.inj same) with ⟨slots, numbers⟩
    refine sparse first second sessions[first].1 before ?_ ?_ numbers
    · rw [List.getElem?_map, left]
      rfl
    · rw [List.getElem?_map, right, slots]
      rfl

/-- Without a repeated ID, the session a slot's ID was given to is its last one. -/
theorem Numbered.current_of_nodup {state : State} {drawn : Option (BitVec 32)}
    {sessions : List (Slot × SessionID)} (numbered : Numbered state drawn sessions)
    (fresh : (sessions.map Prod.snd).Nodup) {number later : Nat} {slot : Slot} {id other : SessionID}
    (entry : sessions[number]? = some (slot, id)) (holds : (state.sessionArray slot).id = id)
    (before : number < later) : sessions[later]? ≠ some (slot, other) := by
  intro present
  -- The last acceptance of the slot.
  have last : Exists fun final => number < final ∧ (Exists fun id => sessions[final]? = some (slot, id)) ∧
      forall (beyond : Nat) id, final < beyond -> sessions[beyond]? ≠ some (slot, id) := by
    have bounded : forall final, (number < final ∧ Exists fun id => sessions[final]? = some (slot, id)) ->
        final ≤ sessions.length := by
      rintro final ⟨_, id, there⟩
      exact Nat.le_of_lt (List.getElem?_eq_some_iff.mp there).1
    have found := Nat.findGreatest_spec (P := fun final => number < final ∧
      Exists fun id => sessions[final]? = some (slot, id)) (bounded later ⟨before, other, present⟩)
      ⟨before, other, present⟩
    refine ⟨_, found.1, found.2, fun beyond id after there => ?_⟩
    have ahead : number < beyond := Nat.lt_trans found.1 after
    exact Nat.findGreatest_is_greatest after (bounded beyond ⟨ahead, id, there⟩) ⟨ahead, id, there⟩
  rcases last with ⟨final, after, ⟨lastId, there⟩, greatest⟩
  have same := numbered.current final slot lastId there greatest
  rw [List.nodup_iff_getElem?_ne_getElem?] at fresh
  have inside := (List.getElem?_eq_some_iff.mp there).1
  refine fresh number final after (by rw [List.length_map]; exact inside) ?_
  rw [List.getElem?_map, List.getElem?_map, entry, there]
  exact congrArg some (holds.symm.trans same)

/-- In every state of every run, with no rule on the runs, no ID is stale exactly if no slot was
given out again at a multiple of `2 ^ 16` acceptances later.  Not stale means that no two
sessions were ever given the same ID, and that a slot which stores an ID holds the session it
was given to. -/
theorem neverStale_iff_sparseReuse {c : (server settings workers contents).Config}
    (reach : (server settings workers contents).Reach (Machine.anyEvent _) c) :
    NeverStale c.state (acceptances c.history) ↔
      SparseReuse ((acceptances c.history).map Prod.fst) := by
  rcases Discipline.sound numbering_preserved (fun _ _ _ => jobs_numbering) reach with ⟨numbered, _⟩
  constructor
  · intro never
    exact numbered.nodup_iff.mp never.fresh
  · intro sparse
    have fresh := numbered.nodup_iff.mpr sparse
    exact ⟨fresh, fun number later slot id other entry holds before =>
      numbered.current_of_nodup fresh entry holds before⟩

/-- The connection of a first client breaks at once, and a second one gets the same slot. -/
theorem neverStale_iff_sparseReuse_reusedSlot :
    Exists fun c : (server oneSession 1 0).Config =>
      acceptances c.history = [(0, 0), (0, 0x0001000000000000)] ∧
        (NeverStale c.state (acceptances c.history) ↔
          SparseReuse ((acceptances c.history).map Prod.fst)) := by
  have run : Exists fun c => (server oneSession 1 0).Reach (Machine.anyEvent _) c ∧
      (acceptances c.history == [(0, 0), (0, 0x0001000000000000)]) = true :=
    Machine.exists_of_runSchedule ([.takeUp .accept Job.loop] ++
      acts .accept 40 { usual with result := .error 10054 } ++ [.takeUp .accept Job.loop] ++
      acts .accept 25 usual) _ (by decide +kernel)
  rcases run with ⟨c, reach, found⟩
  exact ⟨c, eq_of_beq found, neverStale_iff_sparseReuse reach⟩

end Runs

end Network
end LoginServer
