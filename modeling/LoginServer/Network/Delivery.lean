import LoginServer.Concurrency.Conveyor
import LoginServer.Network.Stranding

namespace LoginServer
namespace Network

open Memory Buffers Receiving Login Concurrency

/-!
# What becomes of a packet

While a session is in use, the packets queued for it are those handed to
`WSASend`, those that the winner of the flag has gathered, and those still
linked, in this order.  So the batches of a session, one after another, are a
beginning of what was queued for it: no packet is sent twice, none overtakes
another, and none is left out on the way.  The next session in the slot begins
with nothing.

The order is that in which `push` links.  `sendBuffer` takes off in the same
order while its nodes are linked and taken as `Queue.sendBuffer_refines` asks,
with one thread popping at a time, as is shown at the end.
-/

/-! ## What was queued and what was handed over -/

def linkedNext (slot : Slot) (packets : List Packet) : Event interface -> List Packet
  | ⟨.session target (.linkNode packet), _⟩ => if target = slot then packets ++ [packet] else packets
  | ⟨.session target (.storeId _), _⟩ => if target = slot then [] else packets
  | _ => packets

/-- The packets queued for the session in the slot since it was initialised, in the order in
which `push` has linked them. -/
def linked {Thread : Type} (slot : Slot) (history : List (Thread × Event interface)) : List Packet :=
  history.foldr (fun entry packets => linkedNext slot packets entry.2) []

def handedNext (slot : Slot) (packets : List Packet) : Event interface -> List Packet
  | ⟨.session target (.wsaSend batch), _⟩ => if target = slot then packets ++ batch else packets
  | ⟨.session target (.storeId _), _⟩ => if target = slot then [] else packets
  | _ => packets

/-- The batches handed to `WSASend` since then, one after another. -/
def handed {Thread : Type} (slot : Slot) (history : List (Thread × Event interface)) : List Packet :=
  history.foldr (fun entry packets => handedNext slot packets entry.2) []

@[simp] theorem linked_cons {Thread : Type} (slot : Slot) (thread : Thread) (event : Event interface)
    (history : List (Thread × Event interface)) :
    linked slot ((thread, event) :: history) = linkedNext slot (linked slot history) event := rfl

@[simp] theorem handed_cons {Thread : Type} (slot : Slot) (thread : Thread) (event : Event interface)
    (history : List (Thread × Event interface)) :
    handed slot ((thread, event) :: history) = handedNext slot (handed slot history) event := rfl

/-- What a thread has taken off the queue and not handed over yet. -/
def Sending.gathers : Sending -> Option (List Packet)
  | .gathering batch => some batch
  | .popping batch => some batch
  | .missing batch => some batch
  | .taken batch packet => some (batch ++ [packet])
  | _ => none

theorem Sending.token_of_gathers {stage : Sending} {batch : List Packet} (gathers : stage.gathers = some batch) :
    stage.token = 1 := by
  cases stage <;> first | rfl | cases gathers

theorem Sending.works_of_gathers {stage : Sending} {batch : List Packet} (gathers : stage.gathers = some batch) :
    stage.works = true := by
  cases stage <;> first | rfl | cases gathers

/-! ## One step -/

/-- An operation takes packets off the queue of the session, or hands them over. -/
def Op.takes (slot : Slot) : Op -> Bool
  | .session target .unlinkNode => target == slot
  | .session target (.wsaSend _) => target == slot
  | _ => false

/-- What an event does to the three parts: what was queued, what was handed over, and
the links. -/
inductive Conveys (slot : Slot) (nodes nodes' : List Packet) : Event interface -> Prop
  | link (packet : Packet) (appended : nodes' = nodes ++ [packet]) :
      Conveys slot nodes nodes' ⟨.session slot (.linkNode packet), ()⟩
  | unlink (packet : Packet) (removed : nodes = packet :: nodes') :
      Conveys slot nodes nodes' ⟨.session slot .unlinkNode, packet⟩
  | hand (batch : List Packet) (result : IoResult) (kept : nodes' = nodes) :
      Conveys slot nodes nodes' ⟨.session slot (.wsaSend batch), result⟩
  | reset (id : SessionID) (kept : nodes' = nodes) : Conveys slot nodes nodes' ⟨.session slot (.storeId id), ()⟩
  | pass {event : Event interface} (linked : forall packets, linkedNext slot packets event = packets)
      (handed : forall packets, handedNext slot packets event = packets) (kept : nodes' = nodes)
      (other : event.op.takes slot = false) : Conveys slot nodes nodes' event

theorem conveys_of_perform {choice : Choice} {state state' : State} {op : Op} {answer : op.Answer} {slot : Slot}
    (performed : perform choice state op = some (answer, state')) :
    Conveys slot (state.sessionArray slot).sendBuffer.nodes (state'.sessionArray slot).sendBuffer.nodes
      ⟨op, answer⟩ := by
  cases op with
  | session target op =>
      by_cases same : target = slot
      · subst same
        rcases perform_session performed with ⟨s', inner, rfl⟩
        rw [State.setSession_same]
        cases op with
        | linkNode packet =>
            cases inner
            exact .link packet rfl
        | unlinkNode =>
            rcases Option.map_eq_some_iff.mp inner with ⟨⟨packet, queue⟩, unlinked, same⟩
            cases same
            unfold LockFreeQueue.unlink at unlinked
            split at unlinked
            next => cases unlinked
            next first nodes linked =>
              cases unlinked
              exact .unlink _ linked
        | wsaSend batch => exact .hand batch answer (performSession_buffers rfl inner).1
        | storeId id => exact .reset id (performSession_buffers rfl inner).1
        | pushSended packet =>
            simp only [performSession] at inner
            split at inner <;> cases inner <;> exact .pass (fun _ => rfl) (fun _ => rfl) rfl rfl
        | popSended =>
            cases inner
            exact .pass (fun _ => rfl) (fun _ => rfl) rfl rfl
        | _ => exact .pass (fun _ => rfl) (fun _ => rfl) (performSession_buffers rfl inner).1 rfl
      · have unmoved : (Op.session target op).movesAt slot = false := by simp [Op.movesAt, same]
        refine .pass (fun packets => ?_) (fun packets => ?_) (perform_buffers unmoved performed).1 ?_
        · cases op <;> first | rfl | exact if_neg same
        · cases op <;> first | rfl | exact if_neg same
        · cases op <;> first | rfl | exact beq_eq_false_iff_ne.mpr same
  | _ => exact .pass (fun _ => rfl) (fun _ => rfl) (perform_buffers rfl performed).1 rfl

/-- Other operations leave what a thread has gathered as it is, and the winner of the flag
begins with nothing. -/
theorem gathers_pass {slot : Slot} {stage : Sending} {op : Op} (answer : op.Answer)
    (permitted : (sending slot).permits stage op) (other : op.takes slot = false) :
    (stage.track slot ⟨op, answer⟩).gathers = stage.gathers ∨
      stage = .won ∧ (stage.track slot ⟨op, answer⟩).gathers = some [] := by
  cases op with
  | session target op =>
      by_cases same : target = slot
      · subst same
        have moved : stage.track target ⟨.session target op, answer⟩ = stage.step op answer := if_pos rfl
        rw [moved]
        have known := permits_session permitted
        cases op with
        | unlinkNode => simp [Op.takes] at other
        | wsaSend batch => simp [Op.takes] at other
        | compareExchangeIo =>
            cases (known : stage = .away)
            left
            dsimp only [Sending.step]
            split <;> rfl
        | linkNode packet =>
            cases (known : stage = .away)
            exact Or.inl rfl
        | incrementSize => rcases known with rfl | ⟨batch, rfl⟩ | rfl <;> exact Or.inl rfl
        | decrementSize =>
            rcases known with ⟨batch, rfl⟩ | rfl
            · left
              dsimp only [Sending.step]
              split <;> rfl
            · left
              dsimp only [Sending.step]
              split <;> rfl
        | loadSize =>
            rcases known with rfl | rfl
            · dsimp only [Sending.step]
              split
              · exact Or.inl rfl
              · exact Or.inr ⟨rfl, rfl⟩
            · left
              dsimp only [Sending.step]
              split <;> rfl
        | exchangeSendFlag value =>
            cases value with
            | true =>
                cases (known : stage = .due)
                left
                dsimp only [Sending.step]
                split <;> rfl
            | false => rcases known with rfl | rfl <;> exact Or.inl rfl
        | storeSendFlag value => rcases known.2 with rfl | rfl | rfl <;> exact Or.inl rfl
        | pushSended packet =>
            rcases known with ⟨batch, rfl⟩
            left
            cases answer <;> rfl
        | popSended => rcases known with ⟨_ | left, rfl⟩ | rfl <;> exact Or.inl rfl
        | emptySended =>
            cases (known : stage = .cleared)
            left
            dsimp only [Sending.step]
            split <;> rfl
        | storeCancelIoFlag value =>
            cases value with
            | true => rcases known with rfl | rfl <;> exact Or.inl rfl
            | false =>
                cases (known : stage = .opened)
                exact Or.inl rfl
        | loadCancelIoFlag =>
            cases stage with
            | due =>
                left
                dsimp only [Sending.step]
                split <;> rfl
            | _ => exact Or.inl rfl
        | storeId id =>
            cases (known : stage = .away)
            exact Or.inl rfl
        | clearDeleted =>
            cases (known : stage = .opened)
            exact Or.inl rfl
        | _ => exact Or.inl rfl
      · exact Or.inl (congrArg Sending.gathers (if_neg same))
  | getQueuedCompletionStatus =>
      cases (permitted : stage = .away)
      left
      change (Completion.brings answer slot .away).gathers = none
      unfold Completion.brings
      split <;> rfl
  | pushIndex index => rcases (permitted : stage = .away ∨ stage = .emptied) with rfl | rfl <;> exact Or.inl rfl
  | mark mark =>
      cases mark with
      | sendedFailed target =>
          by_cases same : target = slot
          · have failed : stage.track slot ⟨.mark (.sendedFailed target), answer⟩ = .away := if_pos same
            have completing : stage.gathers = none := by
              rcases (permitted : target = slot -> _) same with rfl | rfl <;> rfl
            exact Or.inl ((congrArg Sending.gathers failed).trans completing.symm)
          · exact Or.inl (congrArg Sending.gathers (if_neg same))
      | _ => exact Or.inl rfl
  | _ => exact Or.inl rfl

/-- The session in the slot has its ID. -/
def Phase.occupied {Actor : Type} : Phase Actor -> Bool
  | .starting _ (some _) => true
  | .running _ _ => true
  | _ => false

theorem Phase.occupied_of_isRunning {Actor : Type} {phase : Phase Actor} (running : phase.isRunning = true) :
    phase.occupied = true := by
  cases phase with
  | running id introduced => rfl
  | _ => cases running

theorem next_occupied {Actor : Type} [DecidableEq Actor] {life life' : Life Actor} {slot : Slot} {actor : Actor}
    {event : Event interface} (next : life.next slot actor event = some life')
    (occupied : life'.phase.occupied = true) :
    life.phase.occupied = true ∨ Exists fun id => event.op = .session slot (.storeId id) := by
  rcases event with ⟨op, answer⟩
  rcases life with ⟨phase, leaving⟩
  unfold Life.next at next
  split at next
  all_goals
    repeat' split at next
    all_goals cases next
    all_goals first | exact Or.inl occupied | exact Bool.noConfusion occupied | simp_all [Phase.occupied]

/-! ## Runs -/

section Runs

variable {workers contents : Nat} {settings : Settings}

/-- What each thread has gathered. -/
def gathersOf (ghosts : Thread workers contents -> Sending) (thread : Thread workers contents) :
    Option (List Packet) := (ghosts thread).gathers

/-- The queue of the session as a conveyor, while the session has its ID. -/
structure Delivers (settings : Settings) (slot : Slot) (state : State)
    (ghosts : Thread workers contents -> Sending) (history : List (Thread workers contents × Event interface)) :
    Prop where
  ordered : handed slot history <+: linked slot history
  conveyed : forall life, lifeAfter settings.maxSession slot history = some life -> life.phase.occupied = true ->
    Conveyed (linked slot history) (handed slot history) (state.sessionArray slot).sendBuffer.nodes
      (gathersOf ghosts)

section Steps

variable {c : (server settings workers contents).Config}
  (reach : (server settings workers contents).Reach handedOut c) {slot : Slot}
  {thread : Thread workers contents}
include reach

theorem occupied_of_works (works : (senders slot c thread).works = true) :
    Exists fun life => lifeAfter settings.maxSession slot c.history = some life ∧ life.phase.occupied = true := by
  rcases (alive_of_reach (informed_of_reach reach).1).slots slot with ⟨life, current, _⟩
  have running := running_of_works reach works current
  refine ⟨life, current, ?_⟩
  cases phase : life.phase with
  | running id introduced => rfl
  | _ =>
      rw [phase] at running
      cases running

theorem unoccupied_of_clears (clears : (senders slot c thread).clears = true)
    {life : Life (Thread workers contents)} (current : lifeAfter settings.maxSession slot c.history = some life) :
    life.phase.occupied = false := by
  rcases deleting_of_clears reach clears current with ⟨_, phase⟩
  rw [phase]
  rfl

/-- The flag is taken by one thread at a time. -/
theorem single_token (token : 1 ≤ (senders slot c thread).token) (other : Thread workers contents)
    (different : other ≠ thread) : (senders slot c other).token = 0 := by
  have balance := (carried_of_reach reach slot).taken
  have both := add_le_tally Sending.token (senders slot c) different
  have bound := flag_le (c.state.sessionArray slot)
  omega

/-- So what it has gathered is all that is gathered. -/
theorem others_gather_nothing (token : 1 ≤ (senders slot c thread).token) (other : Thread workers contents)
    (different : other ≠ thread) : (senders slot c other).gathers = none := by
  have none := single_token reach token other different
  cases gathers : (senders slot c other).gathers with
  | none => rfl
  | some batch =>
      rw [Sending.token_of_gathers gathers] at none
      cases none

end Steps

section Step

variable {c : (server settings workers contents).Config} {slot : Slot} {thread : Thread workers contents}

theorem gathersOf_record (slot : Slot) (c : (server settings workers contents).Config)
    (thread : Thread workers contents) (event : Event interface) (state : State) (rest : NetProgram Unit) :
    gathersOf (senders slot (c.record thread event state rest)) =
      Function.update (gathersOf (senders slot c)) thread ((senders slot c thread).track slot event).gathers := by
  rw [senders_record slot c thread _ state rest]
  exact Function.comp_update Sending.gathers (senders slot c) thread _

theorem occupied_before {event : Event interface} {life : Life (Thread workers contents)}
    (current : lifeAfter settings.maxSession slot ((thread, event) :: c.history) = some life)
    (occupied : life.phase.occupied = true) (unset : forall id, event.op ≠ .session slot (.storeId id)) :
    Exists fun life => lifeAfter settings.maxSession slot c.history = some life ∧ life.phase.occupied = true := by
  rcases Option.bind_eq_some_iff.mp current with ⟨before, current', moved⟩
  rcases next_occupied moved occupied with occupied' | ⟨id, sets⟩
  · exact ⟨before, current', occupied'⟩
  · exact absurd sets (unset id)

variable {state : State} {rest : NetProgram Unit}
  (reach : (server settings workers contents).Reach handedOut c)
  (delivers : Delivers settings slot c.state (senders slot c) c.history)

/-- The conveyor before the event, of a session that has its ID. -/
theorem conveyed_before {event : Event interface} {life : Life (Thread workers contents)}
    (delivers : Delivers settings slot c.state (senders slot c) c.history)
    (current : lifeAfter settings.maxSession slot ((thread, event) :: c.history) = some life)
    (occupied : life.phase.occupied = true) (unset : forall id, event.op ≠ .session slot (.storeId id)) :
    Conveyed (linked slot c.history) (handed slot c.history) (c.state.sessionArray slot).sendBuffer.nodes
      (gathersOf (senders slot c)) := by
  rcases occupied_before current occupied unset with ⟨life', current', occupied'⟩
  exact delivers.conveyed life' current' occupied'

include delivers

theorem delivers_link {packet : Packet} (permitted : (senders slot c thread).permits (.linkNode packet))
    (appended : (state.sessionArray slot).sendBuffer.nodes = (c.state.sessionArray slot).sendBuffer.nodes ++ [packet]) :
    Delivers settings slot state (senders slot (c.record thread ⟨.session slot (.linkNode packet), ()⟩ state rest))
      ((thread, ⟨.session slot (.linkNode packet), ()⟩) :: c.history) := by
  have queued : linked slot ((thread, ⟨.session slot (.linkNode packet), ()⟩) :: c.history) =
      linked slot c.history ++ [packet] := if_pos rfl
  have stage : senders slot c thread = .away := permitted
  have counted : Sending.track slot .away ⟨.session slot (.linkNode packet), ()⟩ = .uncounted := if_pos rfl
  have none : none = gathersOf (senders slot c) thread := (congrArg Sending.gathers stage).symm
  have gathers := gathersOf_record slot c thread ⟨.session slot (.linkNode packet), ()⟩ state rest
  rw [stage, counted, show Sending.gathers .uncounted = gathersOf (senders slot c) thread from none,
    Function.update_eq_self] at gathers
  refine ⟨?_, fun life current occupied => ?_⟩
  · rw [queued]
    exact delivers.ordered.trans (List.prefix_append _ _)
  · rw [queued, appended, gathers]
    exact (conveyed_before delivers current occupied (by simp)).append packet

include reach

theorem delivers_unlink {packet : Packet} (permitted : (senders slot c thread).permits .unlinkNode)
    (removed : (c.state.sessionArray slot).sendBuffer.nodes =
      packet :: (state.sessionArray slot).sendBuffer.nodes) :
    Delivers settings slot state (senders slot (c.record thread ⟨.session slot .unlinkNode, packet⟩ state rest))
      ((thread, ⟨.session slot .unlinkNode, packet⟩) :: c.history) := by
  refine ⟨delivers.ordered, fun life current occupied => ?_⟩
  have conveyed := conveyed_before delivers current occupied (by simp)
  rcases permitted with ⟨batch, stage⟩ | dropping
  · have gathering : gathersOf (senders slot c) thread = some batch := congrArg Sending.gathers stage
    have taken : Sending.track slot (.popping batch) ⟨.session slot .unlinkNode, packet⟩ = .taken batch packet :=
      if_pos rfl
    have alone := others_gather_nothing reach (by rw [stage]; exact Nat.le_refl 1)
    have gathers := gathersOf_record slot c thread ⟨.session slot .unlinkNode, packet⟩ state rest
    rw [stage, taken] at gathers
    rw [removed] at conveyed
    rw [gathers]
    exact conveyed.take gathering alone
  · rcases occupied_before current occupied (by simp) with ⟨life', current', occupied'⟩
    have deletes : (senders slot c thread).clears = true := by rw [dropping]; rfl
    cases occupied'.symm.trans (unoccupied_of_clears reach deletes current')

theorem delivers_hand {batch : List Packet} {result : IoResult}
    (permitted : (senders slot c thread).permits (.wsaSend batch))
    (kept : (state.sessionArray slot).sendBuffer.nodes = (c.state.sessionArray slot).sendBuffer.nodes) :
    Delivers settings slot state (senders slot (c.record thread ⟨.session slot (.wsaSend batch), result⟩ state rest))
      ((thread, ⟨.session slot (.wsaSend batch), result⟩) :: c.history) := by
  have stage : senders slot c thread = .gathering batch := permitted
  have gathering : gathersOf (senders slot c) thread = some batch := congrArg Sending.gathers stage
  have moved : Sending.track slot (.gathering batch) ⟨.session slot (.wsaSend batch), result⟩ =
      Sending.step (.gathering batch) (.wsaSend batch) result := if_pos rfl
  have passed : (Sending.step (.gathering batch) (.wsaSend batch) result).gathers = none := by
    cases result with
    | error code =>
        dsimp only [Sending.step]
        split <;> rfl
    | _ => rfl
  have token : 1 ≤ (senders slot c thread).token := by rw [stage]; exact Nat.le_refl 1
  have alone := others_gather_nothing reach token
  have sent : handed slot ((thread, ⟨.session slot (.wsaSend batch), result⟩) :: c.history) =
      handed slot c.history ++ batch := if_pos rfl
  have gathers := gathersOf_record slot c thread ⟨.session slot (.wsaSend batch), result⟩ state rest
  rw [stage, moved, passed] at gathers
  refine ⟨?_, fun life current occupied => ?_⟩
  · rcases occupied_of_works reach (Sending.works_of_gathers gathering) with ⟨life, current, occupied⟩
    rw [sent]
    exact (delivers.conveyed life current occupied).prefix_of_gathering gathering
  · rw [sent, kept, gathers]
    exact (conveyed_before delivers current occupied (by simp)).hand gathering alone

theorem delivers_pass {op : Op} {answer : op.Answer} (permitted : (sending slot).permits (senders slot c thread) op)
    (put : forall packets, linkedNext slot packets ⟨op, answer⟩ = packets)
    (passed : forall packets, handedNext slot packets ⟨op, answer⟩ = packets)
    (kept : (state.sessionArray slot).sendBuffer.nodes = (c.state.sessionArray slot).sendBuffer.nodes)
    (other : op.takes slot = false) :
    Delivers settings slot state (senders slot (c.record thread ⟨op, answer⟩ state rest))
      ((thread, ⟨op, answer⟩) :: c.history) := by
  have queued : linked slot ((thread, ⟨op, answer⟩) :: c.history) = linked slot c.history := put _
  have sent : handed slot ((thread, ⟨op, answer⟩) :: c.history) = handed slot c.history := passed _
  have unset (id : SessionID) : op ≠ .session slot (.storeId id) := by
    rintro rfl
    have reset : handedNext slot [⟨0, []⟩] ⟨.session slot (.storeId id), answer⟩ = [] := if_pos rfl
    cases reset.symm.trans (passed [⟨0, []⟩])
  refine ⟨by rw [queued, sent]; exact delivers.ordered, fun life current occupied => ?_⟩
  have conveyed := conveyed_before delivers current occupied unset
  rw [queued, sent, kept, gathersOf_record slot c thread ⟨op, answer⟩ state rest]
  rcases gathers_pass answer permitted other with same | ⟨won, empty⟩
  · rw [same, show (senders slot c thread).gathers = gathersOf (senders slot c) thread from rfl,
      Function.update_eq_self]
    exact conveyed
  · rw [empty]
    refine conveyed.begin fun other => ?_
    by_cases same : other = thread
    · rw [same]
      exact congrArg Sending.gathers won
    · exact others_gather_nothing reach (by rw [won]; exact Nat.le_refl 1) other same

omit delivers reach

/-- A new session begins with nothing. -/
theorem delivers_reset {id : SessionID} (reach : (server settings workers contents).Reach handedOut
      (c.record thread ⟨.session slot (.storeId id), ()⟩ state rest)) :
    Delivers settings slot state (senders slot (c.record thread ⟨.session slot (.storeId id), ()⟩ state rest))
      ((thread, ⟨.session slot (.storeId id), ()⟩) :: c.history) := by
  have queued : linked slot ((thread, ⟨.session slot (.storeId id), ()⟩) :: c.history) = [] := if_pos rfl
  have sent : handed slot ((thread, ⟨.session slot (.storeId id), ()⟩) :: c.history) = [] := if_pos rfl
  have opening : (senders slot c thread).track slot ⟨.session slot (.storeId id), ()⟩ = .opening := if_pos rfl
  have own : senders slot (c.record thread ⟨.session slot (.storeId id), ()⟩ state rest) thread = .opening := by
    rw [senders_record slot c thread _ state rest, Function.update_self, opening]
  have opens : (senders slot (c.record thread ⟨.session slot (.storeId id), ()⟩ state rest) thread).opens = true := by
    rw [own]
    rfl
  refine ⟨by rw [queued, sent], fun life current occupied => ?_⟩
  rcases starting_of_opens reach opens current with ⟨_, used, id', phase⟩
  have empty : (state.sessionArray slot).sendBuffer.nodes = [] :=
    ((rested_of_reach reach slot).vacant life current (by rw [phase]; rfl)).1
  rw [queued, sent, empty]
  refine .start fun other => ?_
  by_cases same : other = thread
  · rw [same]
    exact congrArg Sending.gathers own
  · exact congrArg Sending.gathers (others_away reach (Or.inr opens) other same)

theorem delivers_step {op : Op} {choice : Choice} {answer : op.Answer}
    (reach : (server settings workers contents).Reach handedOut c)
    (reach' : (server settings workers contents).Reach handedOut (c.record thread ⟨op, answer⟩ state rest))
    (delivers : Delivers settings slot c.state (senders slot c) c.history)
    (permitted : (sending slot).permits (senders slot c thread) op)
    (performed : perform choice c.state op = some (answer, state)) :
    Delivers settings slot state (senders slot (c.record thread ⟨op, answer⟩ state rest))
      ((thread, ⟨op, answer⟩) :: c.history) := by
  have conveys : Conveys slot _ _ ⟨op, answer⟩ := conveys_of_perform performed
  cases conveys with
  | link packet appended => exact delivers_link delivers (permits_session permitted) appended
  | unlink packet removed => exact delivers_unlink reach delivers (permits_session permitted) removed
  | hand batch result kept => exact delivers_hand reach delivers (permits_session permitted) kept
  | reset id kept => exact delivers_reset reach'
  | pass put passed kept other => exact delivers_pass reach delivers permitted put passed kept other

end Step

theorem delivers_preserved (slot : Slot) :
    (sending slot).Preserved (server settings workers contents) handedOut
      fun state ghosts history => Delivers settings slot state ghosts history where
  initial := ⟨List.prefix_rfl, fun _ _ _ => .start fun _ => rfl⟩
  act := by
    intro c thread op next choice answer state reach turn delivers permitted performed lawful
    refine ⟨trivial, ?_⟩
    have reach' := reach.step (.act thread choice op next answer state turn performed lawful)
    change Delivers settings slot c.state (senders slot c) c.history at delivers
    change Delivers settings slot state (Function.update (senders slot c) thread
      ((senders slot c thread).track slot ⟨op, answer⟩)) ((thread, ⟨op, answer⟩) :: c.history)
    rw [← senders_record slot c thread ⟨op, answer⟩ state (next answer)]
    exact delivers_step reach reach' delivers permitted performed
  takeUp := by
    intro state (ghosts : Thread workers contents -> Sending) history thread delivers (away : ghosts thread = .away)
    have same : Function.update ghosts thread .away = ghosts := by rw [← away, Function.update_eq_self]
    change Delivers settings slot state (Function.update ghosts thread .away) history
    rw [same]
    exact delivers
  surround := by
    intro state ghosts history change state' delivers changed
    refine ⟨delivers.ordered, fun life current occupied => ?_⟩
    rw [((surround_sameFields changed).1 slot).sendBuffer]
    exact delivers.conveyed life current occupied

theorem delivers_of_reach {c : (server settings workers contents).Config}
    (reach : (server settings workers contents).Reach handedOut c) (slot : Slot) :
    Delivers settings slot c.state (senders slot c) c.history :=
  (Discipline.sound (delivers_preserved slot) (fun _ _ _ => jobs_sending) reach).1

/-- In every run in which content code uses IDs that have been handed out (`handedOut`), the
batches of a session are, one after another, a beginning of what was linked into its queue; and
while it is in use, the rest is what the winner of the flag has gathered and what is still
linked.  The nodes and pointers of `sendBuffer` keep this order under the condition of
`Queue.sendBuffer_refines`. -/
theorem sends_inOrder {c : (server settings workers contents).Config}
    (reach : (server settings workers contents).Reach handedOut c) (slot : Slot) :
    handed slot c.history <+: linked slot c.history ∧
      forall life, lifeAfter settings.maxSession slot c.history = some life -> life.phase.isRunning = true ->
        Conveyed (linked slot c.history) (handed slot c.history) (c.state.sessionArray slot).sendBuffer.nodes
          (gathersOf (senders slot c)) := by
  have delivers := delivers_of_reach reach slot
  exact ⟨delivers.ordered, fun life current running =>
    delivers.conveyed life current (Phase.occupied_of_isRunning running)⟩

theorem sends_inOrder_sentAlong : Exists fun c : (server oneSession 2 1).Config =>
    linked 0 c.history = [⟨1, [7]⟩, ⟨2, [8]⟩] ∧ handed 0 c.history <+: [⟨1, [7]⟩, ⟨2, [8]⟩] := by
  have run : Exists fun c : (server oneSession 2 1).Config => (server oneSession 2 1).Reach handedOut c ∧
      (linked 0 c.history == [⟨1, [7]⟩, ⟨2, [8]⟩]) = true :=
    Machine.exists_of_runSchedule sentAlong _ (by decide +kernel)
  rcases run with ⟨c, reach, checked⟩
  have queued := beq_iff_eq.mp checked
  have ordered := (sends_inOrder reach 0).1
  rw [queued] at ordered
  exact ⟨c, queued, ordered⟩

/-- When nobody works any more on a session in use that is neither cancelled nor waits for a
send, and no send of which has failed, all that was linked into its queue has been sent, once
and in order.  This holds in every `attentive` run, as for `nobody_strands`, and for the queue
over its nodes under the condition of `Queue.sendBuffer_refines`. -/
theorem everything_sent {c : (server settings workers contents).Config} {slot : Slot}
    (reach : (server settings workers contents).Reach (attentive slot) c) (calm : Calm slot c)
    (open_ : (c.state.sessionArray slot).cancelIoFlag = false) (succeeded : sendFailed slot c.history = false)
    (none : c.state.outstanding slot = 0) {life : Life (Thread workers contents)}
    (current : lifeAfter settings.maxSession slot c.history = some life) (running : life.phase.isRunning = true) :
    handed slot c.history = linked slot c.history := by
  have known : (server settings workers contents).Reach handedOut c := reach.mono fun _ _ _ both => both.1
  have conveyed := (delivers_of_reach known slot).conveyed life current (Phase.occupied_of_isRunning running)
  have nobody (thread : Thread workers contents) : gathersOf (senders slot c) thread = .none := by
    cases gathers : gathersOf (senders slot c) thread with
    | none => rfl
    | some batch => cases (calm thread).symm.trans (Sending.works_of_gathers gathers)
  have empty : (c.state.sessionArray slot).sendBuffer.nodes = [] := by
    by_contra queued
    rcases (attended_of_reach reach).queued queued with cancelled | failed | outstanding | ⟨thread, responsible⟩
    · cases open_.symm.trans cancelled
    · cases succeeded.symm.trans failed
    · exact absurd none outstanding.ne'
    · rw [Sending.responsible, calm thread] at responsible
      cases responsible
  have all := conveyed.resting nobody
  rw [empty, List.append_nil] at all
  exact all.symm

theorem everything_sent_sentAlong : Exists fun c : (server oneSession 2 1).Config =>
    linked 0 c.history = [⟨1, [7]⟩, ⟨2, [8]⟩] ∧ handed 0 c.history = [⟨1, [7]⟩, ⟨2, [8]⟩] := by
  have run : Exists fun c : (server oneSession 2 1).Config => (server oneSession 2 1).Reach (attentive 0) c ∧
      (linked 0 c.history == [⟨1, [7]⟩, ⟨2, [8]⟩] && decide (Calm 0 c) &&
        !(State.sessionArray c.state 0).cancelIoFlag && !sendFailed 0 c.history &&
          State.outstanding c.state 0 == 0 &&
            ((lifeAfter 1 0 c.history).any fun life => life.phase.isRunning)) = true :=
    Machine.exists_of_runSchedule (sentAlong ++ acts (.worker ⟨0, Nat.zero_lt_two⟩) 5 usual) _
      (by decide +kernel)
  rcases run with ⟨c, reach, checked⟩
  simp only [Bool.and_eq_true, beq_iff_eq, decide_eq_true_eq, Bool.not_eq_true', Option.any_eq_true] at checked
  rcases checked with ⟨⟨⟨⟨⟨queued, calm⟩, open_⟩, succeeded⟩, none⟩, life, current, running⟩
  exact ⟨c, queued, (everything_sent reach calm open_ succeeded none current running).trans queued⟩

/-! ## One sender at a time -/

/-- A client connects, and a worker takes a number of steps to send it a packet. -/
def beingSent (steps : Nat) : List (Machine.Move (server oneSession 2 1)) :=
  [.takeUp .accept Job.loop] ++ acts .accept 25 usual ++ requested ⟨1, [7]⟩ ++
    [.takeUp (.worker ⟨0, Nat.zero_lt_two⟩) Job.loop] ++ acts (.worker ⟨0, Nat.zero_lt_two⟩) steps usual

/-- Steps of `pop` that take from the queue of the session. -/
def Op.popsAt (slot : Slot) : Op -> Bool
  | .session target .decrementSize => target == slot
  | .session target .unlinkNode => target == slot
  | _ => false

/-- The next step of the program takes from the queue of the session. -/
def takesOff (slot : Slot) : NetProgram Unit -> Bool
  | .step op _ => Op.popsAt slot op
  | .done _ => false

theorem stage_of_popsAt {slot : Slot} {stage : Sending} {op : Op} (permitted : (sending slot).permits stage op)
    (pops : op.popsAt slot = true) : stage.token = 1 ∨ stage.clears = true := by
  cases op with
  | session target op =>
      cases op with
      | decrementSize =>
          cases (beq_iff_eq.mp pops : target = slot)
          rcases permits_session permitted with ⟨batch, rfl⟩ | rfl
          · exact Or.inl rfl
          · exact Or.inr rfl
      | unlinkNode =>
          cases (beq_iff_eq.mp pops : target = slot)
          rcases permits_session permitted with ⟨batch, rfl⟩ | rfl
          · exact Or.inl rfl
          · exact Or.inr rfl
      | _ => cases pops
  | _ => cases pops

section Exclusion

variable {c : (server settings workers contents).Config}
  (reach : (server settings workers contents).Reach handedOut c) {slot : Slot}
include reach

/-- In every run in which content code uses IDs that have been handed out (`handedOut`), at most
one `WSASend` of a session is outstanding, waiting as a completion, or being prepared or handled
by the thread that has the flag. -/
theorem sends_oneAtATime (slot : Slot) :
    c.state.outstanding slot + tally Sending.token (senders slot c) ≤ 1 := by
  have balance := (carried_of_reach reach slot).taken
  have bound := flag_le (c.state.sessionArray slot)
  omega

omit reach in
theorem sends_oneAtATime_beingSent : Exists fun c : (server oneSession 2 1).Config =>
    c.state.outstanding 0 = 1 ∧ tally Sending.token (senders 0 c) = 0 := by
  have run : Exists fun c : (server oneSession 2 1).Config => (server oneSession 2 1).Reach handedOut c ∧
      (State.outstanding c.state 0 == 1) = true :=
    Machine.exists_of_runSchedule (beingSent 12) _ (by decide +kernel)
  rcases run with ⟨c, reach, checked⟩
  have outstanding : c.state.outstanding 0 = 1 := beq_iff_eq.mp checked
  have most := sends_oneAtATime reach 0
  exact ⟨c, outstanding, by omega⟩

theorem single_sender {thread other : Thread workers contents}
    (first : (senders slot c thread).token = 1 ∨ (senders slot c thread).clears = true)
    (second : (senders slot c other).token = 1 ∨ (senders slot c other).clears = true) : other = thread := by
  by_contra different
  have away_of_clears {thread other : Thread workers contents} (clears : (senders slot c thread).clears = true)
      (different : other ≠ thread) :
      ¬ ((senders slot c other).token = 1 ∨ (senders slot c other).clears = true) := by
    rw [others_away reach (Or.inl clears) other different]
    exact not_or.mpr ⟨Nat.zero_ne_one, Bool.false_ne_true⟩
  rcases first with token | clears
  · rcases second with token' | clears'
    · cases token'.symm.trans (single_token reach token.ge other different)
    · exact away_of_clears clears' (Ne.symm different) (Or.inl token)
  · exact away_of_clears clears different second

/-- In every run in which content code uses IDs that have been handed out (`handedOut`), while a
thread takes packets off the queue of a session, in `sendIO` or in `bufferClear`, no other
thread does.  So the queue has the single consumer that its own refinement asks for. -/
theorem single_popper {thread : Thread workers contents} (pops : takesOff slot (c.running thread) = true)
    (other : Thread workers contents) (different : other ≠ thread) :
    takesOff slot (c.running other) = false := by
  have obeys := (Discipline.sound (carried_preserved slot) (fun _ _ _ => jobs_sending) reach).2
  have stage (thread : Thread workers contents) (pops : takesOff slot (c.running thread) = true) :
      (senders slot c thread).token = 1 ∨ (senders slot c thread).clears = true := by
    have own := obeys thread
    cases running : c.running thread with
    | done value =>
        rw [running] at pops
        cases pops
    | step op next =>
        rw [running] at pops own
        exact stage_of_popsAt own.1 pops
  rw [← Bool.not_eq_true]
  exact fun pops' => different (single_sender reach (stage thread pops) (stage other pops'))

omit reach in
theorem single_popper_beingSent : Exists fun c : (server oneSession 2 1).Config =>
    takesOff 0 (c.running (.worker ⟨0, Nat.zero_lt_two⟩)) = true ∧
      takesOff 0 (c.running (.worker ⟨1, Nat.one_lt_two⟩)) = false := by
  have run : Exists fun c : (server oneSession 2 1).Config => (server oneSession 2 1).Reach handedOut c ∧
      takesOff 0 (c.running (.worker ⟨0, Nat.zero_lt_two⟩)) = true :=
    Machine.exists_of_runSchedule (beingSent 8) _ (by decide +kernel)
  rcases run with ⟨c, reach, pops⟩
  exact ⟨c, pops, single_popper reach pops (.worker ⟨1, Nat.one_lt_two⟩) (by decide)⟩

/-- In every run in which content code uses IDs that have been handed out (`handedOut`), a slot
has nothing queued and nothing waiting to be let go of before its first session and between two
sessions. -/
theorem nothing_leftOver (slot : Slot) {life : Life (Thread workers contents)}
    (current : lifeAfter settings.maxSession slot c.history = some life) (rests : life.phase.rests = true) :
    (c.state.sessionArray slot).sendBuffer.nodes = [] ∧ (c.state.sessionArray slot).sendedBuffer = [] :=
  (rested_of_reach reach slot).vacant life current rests

/-- The send fails, and then the receive. -/
def lostOnTheWay : List (Machine.Move (server oneSession 2 1)) :=
  beingSent 14 ++ [.surround (Surroundings.completeSend 0 0 false 0),
      .takeUp (.worker ⟨0, Nat.zero_lt_two⟩) Job.loop] ++ acts (.worker ⟨0, Nat.zero_lt_two⟩) 2 usual ++
    [.surround (Surroundings.completeRecv 0 0 false []), .takeUp (.worker ⟨0, Nat.zero_lt_two⟩) Job.loop] ++
      acts (.worker ⟨0, Nat.zero_lt_two⟩) 19 usual

omit reach in
theorem nothing_leftOver_lostOnTheWay : Exists fun c : (server oneSession 2 1).Config =>
    linked 0 c.history = [⟨1, [7]⟩] ∧ (c.state.sessionArray 0).sendedBuffer = [] := by
  have run : Exists fun c : (server oneSession 2 1).Config => (server oneSession 2 1).Reach handedOut c ∧
      (linked 0 c.history == [⟨1, [7]⟩] &&
        ((lifeAfter 1 0 c.history).any fun life => life.phase.rests)) = true :=
    Machine.exists_of_runSchedule lostOnTheWay _ (by decide +kernel)
  rcases run with ⟨c, reach, checked⟩
  simp only [Bool.and_eq_true, beq_iff_eq, Option.any_eq_true] at checked
  rcases checked with ⟨queued, life, current, rests⟩
  exact ⟨c, queued, (nothing_leftOver reach 0 current rests).2⟩

end Exclusion

end Runs

end Network
end LoginServer
