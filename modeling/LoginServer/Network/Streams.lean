import LoginServer.Concurrency.Course
import LoginServer.Network.RecvPath

namespace LoginServer
namespace Network

open Memory Buffers Receiving Login Concurrency

/-!
# Streams

A client sends frames one after the other.  TCP cuts them anywhere, each cut
may be handled by another worker, and between two sessions the slot changes its
client.  What `OnRecv` is given for a session are the client's frames all the
same: in order, each once, and byte for byte.  A thread asks for more only when
it has handed over all that have arrived.

What has arrived is not part of the state, so these theorems are about courses.
The bytes of a session are those that have been handed over, those that can be
read from the ring, and those of a receive that has not been counted yet.
-/

/-! ## Frames in front of the ring -/

theorem completeFrames_stream (taken rest : List Frame) (count : Nat) :
    completeFrames (taken ++ rest) ((stream taken).length + count) = taken ++ completeFrames rest count := by
  induction taken with
  | nil => simp
  | cons frame taken inductionHypothesis =>
      have complete : frame.bytes.length ≤ (stream (frame :: taken)).length + count := by
        rw [stream_cons, List.length_append]
        omega
      have left : (stream (frame :: taken)).length + count - frame.bytes.length = (stream taken).length + count := by
        rw [stream_cons, List.length_append]
        omega
      simp only [List.cons_append, completeFrames, if_pos complete]
      rw [left, inductionHypothesis]

/-- The frame in front is as long as its header says. -/
theorem frame_inFront {ring : RecvBuffer} {frame : Frame} {rest : List Frame}
    (piece : ring.content <+: stream (frame :: rest)) (enough : headerSize ≤ ring.size) :
    frameSize ring = frame.bytes.length ∧
      (frame.bytes.length ≤ ring.size -> ring.content.take frame.bytes.length = frame.bytes) := by
  have agrees (count : Nat) (inRing : count ≤ ring.size) (inFrame : count ≤ frame.bytes.length) :
      ring.content.take count = frame.bytes.take count := by
    have same := congrArg (List.take count) (List.prefix_iff_eq_take.mp piece)
    rw [List.take_take, ring.content_length, Nat.min_eq_left inRing, stream_cons,
      List.take_append_of_le_length inFrame] at same
    exact same
  refine ⟨frameSize_eq ring frame (agrees headerSize enough frame.header_le), fun complete => ?_⟩
  rw [agrees _ complete (Nat.le_refl _), List.take_length]

/-- A ring that holds a piece of the stream gives away its first frame. -/
theorem recvedPacket_stream {ring : RecvBuffer} (p : PooledSerializer) {rest : List Frame}
    (piece : ring.content <+: stream rest) (accepted : (recvedPacket ring (prepare p)).1 = true) :
    Exists fun frame => Exists fun later => rest = frame :: later ∧
      Carries (recvedPacket ring (prepare p)).2.2 frame ∧
      ring.content = frame.bytes ++ (recvedPacket ring (prepare p)).2.1.content := by
  rcases (recvedPacket_fst ring (prepare p)).mp accepted with ⟨enough, there⟩
  cases rest with
  | nil =>
      have none := ring.content_length
      rw [List.prefix_nil.mp piece] at none
      rw [← none] at enough
      exact absurd enough (by decide)
  | cons frame later =>
      rcases frame_inFront piece enough with ⟨size, front⟩
      have complete : frame.bytes.length ≤ ring.size := size ▸ there
      have whole := front complete
      refine ⟨frame, later, rfl, ?_, ?_⟩
      · rw [recvedPacket_accepts ring _ enough there]
        exact takenPacket_carries ring p frame complete whole
      · rw [recvedPacket_accepts ring _ enough there]
        change _ = _ ++ (ring.pop (frameSize ring)).2.content
        rw [size, ring.pop_content _ complete, ← whole, List.length_take, ring.content_length, Nat.min_eq_left complete,
          List.take_append_drop]

theorem incomplete_of_starved {ring : RecvBuffer} {rest : List Frame} (piece : ring.content <+: stream rest)
    (starved : Starved ring) : completeFrames rest ring.size = [] := by
  cases rest with
  | nil => rfl
  | cons frame later =>
      refine if_neg fun complete => ?_
      have enough := Nat.le_trans frame.header_le complete
      rcases starved with short | short
      · omega
      · rw [(frame_inFront piece enough).1] at short
        omega

/-! ## What arrives and what is handed over -/

section Runs

variable {workers contents : Nat} {settings : Settings}

/-- The bytes that a completion brings for a slot. -/
def arriving (slot : Slot) : Surroundings -> List Byte
  | .completeRecv target _ _ data => if target = slot then data else []
  | _ => []

/-- The packet that `recvedPacket` takes, for a call of `OnRecv`. -/
def taking (slot : Slot) : Event interface -> List Serializer
  | ⟨.session target (.recvedPacket _), result⟩ =>
      if target = slot ∧ Prod.fst result = true then [Prod.snd result] else []
  | _ => []

/-- The slot is given to another session. -/
def renews (slot : Slot) : Event interface -> Bool
  | ⟨.session target (.storeId _), _⟩ => target == slot
  | _ => false

/-- The bytes that have arrived for the session in a slot, in the order in which the kernel
completed its receives, beginning anew with each session. -/
def delivered (slot : Slot) : List (Machine.Occurrence (server settings workers contents)) -> List Byte
  | [] => []
  | .change change :: earlier => delivered slot earlier ++ arriving slot change
  | .event _ event :: earlier => if renews slot event then [] else delivered slot earlier

/-- The packets that have been handed over to `OnRecv` for the session in a slot, in the order
of the calls. -/
def handedOver (slot : Slot) : List (Machine.Occurrence (server settings workers contents)) -> List Serializer
  | [] => []
  | .change _ :: earlier => handedOver slot earlier
  | .event _ event :: earlier => if renews slot event then [] else handedOver slot earlier ++ taking slot event

/-- The ring after bytes have been stored behind its readable ones. -/
def Stored (ring : RecvBuffer) (data : List Byte) : Prop :=
  Exists fun before => ring = receiveInto before data ∧ data.length ≤ before.freeSize

/-- The bytes of a receive, from the kernel to the thread that counts them. -/
structure Aloft (slot : Slot) (state : State) (ghosts : Thread workers contents -> ringing.Ghost) (data : List Byte) :
    Prop where
  posted : (state.sessionArray slot).pendingRecvs ≠ [] -> data = []
  queued : forall completion, completion ∈ state.port -> completion.slot = slot -> completion.overlapped = .recv ->
    Stored (state.sessionArray slot).recvBuffer data ∧ completion.transfer = BitVec.ofNat 32 data.length
  uncounted : forall thread transfer, (ghosts thread).1.2.slot = some slot ->
    (ghosts thread).1.2.uncounted = some transfer ->
      Stored (state.sessionArray slot).recvBuffer data ∧ transfer = BitVec.ofNat 32 data.length
  ready : forall thread, (ghosts thread).1.2.ready slot -> data = []

/-- The bytes of a session are handed over, readable, or aloft. -/
structure Streamed (slot : Slot) (frames : List Frame)
    (occurrences : List (Machine.Occurrence (server settings workers contents))) (state : State)
    (ghosts : Thread workers contents -> ringing.Ghost) (taken rest : List Frame) (data : List Byte) : Prop where
  split : frames = taken ++ rest
  carried : List.Forall₂ Carries (handedOver slot occurrences) taken
  bytes : delivered slot occurrences = stream taken ++ (state.sessionArray slot).recvBuffer.content ++ data
  aloft : Aloft slot state ghosts data

/-- Nothing has arrived for a session before it is announced. -/
def Phase.opens {Actor : Type} : Phase Actor -> Bool
  | .starting _ (some _) => true
  | .running _ introduced => !introduced
  | _ => false

theorem Phase.awaits_of_opens {Actor : Type} {phase : Phase Actor} (opens : phase.opens = true) :
    phase.awaits = true := by
  cases phase <;> first | rfl | exact opens

/-- A session is opened when its ID is stored. -/
theorem next_opens {Actor : Type} [DecidableEq Actor] {life life' : Life Actor} {slot : Slot} {actor : Actor}
    {event : Event interface} (next : life.next slot actor event = some life') (opens : life'.phase.opens = true) :
    life.phase.opens = true ∨ Exists fun id => event.op = .session slot (.storeId id) := by
  rcases event with ⟨op, answer⟩
  rcases life with ⟨phase, leaving⟩
  unfold Life.next at next
  split at next
  all_goals
    repeat' split at next
    all_goals cases next
    all_goals first | exact Or.inl opens | exact Bool.noConfusion opens | simp_all [Phase.opens]

/-! ## Steps -/

theorem recvHolds_of_pending {state : State} {slot : Slot} (posted : (state.sessionArray slot).pendingRecvs ≠ []) :
    1 ≤ state.recvHolds slot := by
  have some := List.length_pos_of_ne_nil posted
  unfold State.recvHolds
  omega

theorem recvHolds_of_queued {state : State} {slot : Slot} {completion : Completion} (queued : completion ∈ state.port)
    (here : completion.slot = slot) (receives : completion.overlapped = .recv) :
    (state.sessionArray slot).pendingRecvs.length + 1 ≤ state.recvHolds slot := by
  unfold State.recvHolds
  refine Nat.add_le_add_left (List.countP_pos_iff.mpr ⟨completion, queued, ?_⟩) _
  rw [here, receives]
  simp

section Steps

variable {slot : Slot} {frames taken rest : List Frame} {data : List Byte} {state state' : State}
  {ghosts : Thread workers contents -> ringing.Ghost}
  {history : List (Thread workers contents × Event interface)} {thread : Thread workers contents}
  {op : Op} {answer : op.Answer} {choice : Choice}
  {occurrences : List (Machine.Occurrence (server settings workers contents))}

/-- A thread that is alone with the session. -/
theorem Aloft.alone {event : Event interface} (nothing : state.recvHolds slot = 0)
    (others : forall other, other ≠ thread -> (ghosts other).1.2.slot ≠ some slot)
    (own : (ringing.track (ghosts thread) event).1.2.slot = some slot ->
      (ringing.track (ghosts thread) event).1.2.uncounted = none ∧ data = []) :
    Aloft slot state (advanced ghosts thread event) data where
  posted := fun posted => absurd (recvHolds_of_pending posted) (by omega)
  queued := fun completion queued here receives => absurd (recvHolds_of_queued queued here receives) (by omega)
  uncounted := by
    intro other transfer right uncounted
    unfold advanced at right uncounted
    rw [Function.update_apply] at right uncounted
    split at right
    next same =>
      rw [if_pos same, (own right).1] at uncounted
      cases uncounted
    next different => exact absurd right (others other different)
  ready := by
    rintro other ⟨right, _⟩
    unfold advanced at right
    rw [Function.update_apply] at right
    split at right
    next => exact (own right).2
    next different => exact absurd right (others other different)

theorem perform_port {completion : Completion} (performed : perform choice state op = some (answer, state'))
    (queued : completion ∈ state'.port) (receives : completion.overlapped = .recv) : completion ∈ state.port := by
  cases op with
  | session target op =>
      rcases perform_session performed with ⟨s', _, rfl⟩
      exact queued
  | getQueuedCompletionStatus =>
      simp only [perform] at performed
      split at performed
      next => cases performed
      next first rest port =>
        cases performed
        rw [port]
        exact List.mem_cons_of_mem _ queued
  | postQueuedCompletionStatus target packet =>
      cases performed
      rcases List.mem_append.mp queued with before | now
      · exact before
      · cases List.mem_singleton.mp now
        cases receives
  | _ =>
      rw [(perform_sameBut performed).port (by simp [Op.component])] at queued
      exact queued

theorem dequeue_port {completion : Completion}
    (performed : perform choice state .getQueuedCompletionStatus = some (completion, state')) :
    completion ∈ state.port := by
  simp only [perform] at performed
  split at performed
  next => cases performed
  next first rest port =>
    cases performed
    rw [port]
    exact List.mem_cons_self

/-- What is aloft stays aloft while nobody moves the pointers of the ring. -/
theorem Aloft.step (aloft : Aloft slot state ghosts data) (permitted : ringing.permits (ghosts thread) op)
    (performed : perform choice state op = some (answer, state')) (unstirred : op.stirsAt slot = false)
    (opening : forall id, op = .mark (.onNewConnect id) -> getIndex id = slot -> data = []) :
    Aloft slot state' (advanced ghosts thread ⟨op, answer⟩) data where
  posted := by
    intro posted
    rcases List.exists_mem_of_ne_nil _ posted with ⟨pending, there⟩
    rcases perform_pending performed there with rfl | ⟨before, member, _⟩
    · exact aloft.ready thread permitted.1.2.1
    · exact aloft.posted (List.ne_nil_of_mem member)
  queued := by
    intro completion queued here receives
    rw [perform_recvBuffer unstirred performed]
    exact aloft.queued completion (perform_port performed queued receives) here receives
  uncounted := by
    intro other transfer right uncounted
    rw [perform_recvBuffer unstirred performed]
    unfold advanced at right uncounted
    rw [Function.update_apply] at right uncounted
    split at right
    next same =>
      rw [if_pos same] at uncounted
      rcases (right_cases right).2 with granted | ⟨keeps, before⟩
      · cases op with
        | getQueuedCompletionStatus =>
            rcases of_received granted with ⟨_, here, receives⟩
            cases uncounted
            exact aloft.queued answer (dequeue_port performed) here receives
        | mark note =>
            cases note with
            | onNewConnect id => cases uncounted
            | _ => cases granted
        | _ => cases granted
      · refine aloft.uncounted thread transfer before ?_
        cases op with
        | session target op => cases op <;> first | exact uncounted | cases uncounted
        | mark note => cases note <;> first | exact uncounted | cases uncounted
        | getQueuedCompletionStatus => cases keeps
        | _ => exact uncounted
    next different =>
      rw [if_neg different] at uncounted
      exact aloft.uncounted other transfer right uncounted
  ready := by
    rintro other ⟨right, counted⟩
    unfold advanced at right counted
    rw [Function.update_apply] at right counted
    split at right
    next same =>
      rw [if_pos same] at counted
      rcases (right_cases right).2 with granted | ⟨keeps, before⟩
      · cases op with
        | getQueuedCompletionStatus => cases counted
        | mark note =>
            cases note with
            | onNewConnect id => exact opening id rfl (Option.some.inj granted)
            | _ => cases granted
        | _ => cases granted
      · cases op with
        | session target op =>
            cases op with
            | recved transfer =>
                cases permitted.1.2.1.symm.trans before
                simp [Op.stirsAt, SessionOp.stirs, SessionOp.rings] at unstirred
            | _ => exact aloft.ready thread ⟨before, counted⟩
        | mark note => cases note <;> first | exact aloft.ready thread ⟨before, counted⟩ | cases keeps
        | getQueuedCompletionStatus => cases keeps
        | _ => exact aloft.ready thread ⟨before, counted⟩
    next different =>
      rw [if_neg different] at counted
      exact aloft.ready other ⟨right, counted⟩

theorem stirs_of_taking {event : Event interface} {packet : Serializer} (taken : packet ∈ taking slot event) :
    event.op.stirsAt slot = true := by
  rcases event with ⟨op, answer⟩
  cases op with
  | session target op =>
      cases op with
      | recvedPacket p =>
          simp only [taking] at taken
          split at taken
          next here => simp [Op.stirsAt, SessionOp.stirs, SessionOp.rings, here.1]
          next => cases taken
      | _ => cases taken
  | _ => cases taken

/-- An event that leaves the ring alone. -/
theorem Streamed.kept (streamed : Streamed slot frames occurrences state ghosts taken rest data)
    (permitted : ringing.permits (ghosts thread) op) (performed : perform choice state op = some (answer, state'))
    (unstirred : op.stirsAt slot = false) (same : renews slot ⟨op, answer⟩ = false)
    (opening : forall id, op = .mark (.onNewConnect id) -> getIndex id = slot -> data = []) :
    Streamed slot frames (.event thread ⟨op, answer⟩ :: occurrences) state' (advanced ghosts thread ⟨op, answer⟩)
      taken rest data where
  split := streamed.split
  carried := by
    have nothing : taking slot ⟨op, answer⟩ = [] := by
      refine List.eq_nil_iff_forall_not_mem.mpr fun packet taken => ?_
      exact Bool.noConfusion (unstirred.symm.trans (stirs_of_taking taken))
    simpa [handedOver, same, nothing] using streamed.carried
  bytes := by
    rw [perform_recvBuffer unstirred performed]
    simpa [delivered, same] using streamed.bytes
  aloft := streamed.aloft.step permitted performed unstirred opening

/-- Stored bytes are appended to the readable ones, or refused. -/
theorem recved_stored {ring : RecvBuffer} (stored : Stored ring data) :
    recved ring (BitVec.ofNat 32 data.length) = (false, ring) ∨
      (recved ring (BitVec.ofNat 32 data.length)).1 = true ∧
        (recved ring (BitVec.ofNat 32 data.length)).2.content = ring.content ++ data := by
  rcases stored with ⟨before, rfl, fits⟩
  have free := before.freeSize_eq
  have value : (BitVec.ofNat 32 data.length).toNat = data.length := by
    rw [BitVec.toNat_ofNat]
    omega
  by_cases refused : (receiveInto before data).freeSize ≤ (BitVec.ofNat 32 data.length).toNat ∨
      BitVec.ofNat 32 data.length = 0
  · left
    exact if_pos refused
  · right
    rcases not_or.mp refused with ⟨room, something⟩
    rw [value, receiveInto_freeSize] at room
    have nonempty : 0 < data.length := by
      by_contra none
      exact something (by rw [Nat.le_zero.mp (Nat.not_lt.mp none)]; rfl)
    rcases recved_appends before data nonempty (Nat.not_le.mp room) with ⟨accepted, done, content⟩
    rw [done, receiveInto_content before data fits]
    exact ⟨rfl, content⟩

/-- `recved` counts what is aloft. -/
theorem Streamed.recved {transfer : BitVec 32} {done : Bool}
    (streamed : Streamed slot frames occurrences state ghosts taken rest data)
    (permitted : ringing.permits (ghosts thread) (.session slot (.recved transfer)))
    (performed : perform choice state (.session slot (.recved transfer)) = some (done, state'))
    (nothing : state'.recvHolds slot = 0)
    (others : forall other, other ≠ thread -> (ghosts other).1.2.slot ≠ some slot) :
    Exists fun data => Streamed slot frames (.event thread ⟨.session slot (.recved transfer), done⟩ :: occurrences)
      state' (advanced ghosts thread ⟨.session slot (.recved transfer), done⟩) taken rest data := by
  rcases streamed.aloft.uncounted thread transfer permitted.1.2.1 permitted.1.2.2 with ⟨stored, rfl⟩
  have carried : List.Forall₂ Carries (handedOver slot (.event thread
      ⟨.session slot (.recved (BitVec.ofNat 32 data.length)), done⟩ :: occurrences)) taken := by
    simpa [handedOver, renews, taking] using streamed.carried
  have arrived : delivered slot (.event thread
      ⟨.session slot (.recved (BitVec.ofNat 32 data.length)), done⟩ :: occurrences) = delivered slot occurrences := rfl
  rcases perform_session performed with ⟨s', inner, rfl⟩
  rcases recved_stored stored with refused | ⟨accepted, content⟩
  · cases inner
    refine ⟨data, streamed.split, carried, ?_, .alone nothing others ?_⟩
    · rw [arrived, State.setSession_same, refused]
      exact streamed.bytes
    · intro right
      have lost : (ringing.track (ghosts thread) ⟨.session slot (.recved (BitVec.ofNat 32 data.length)),
          (Receiving.recved (state.sessionArray slot).recvBuffer (BitVec.ofNat 32 data.length)).1⟩).1.2.slot = none := by
        rw [refused]
        rfl
      cases lost.symm.trans right
  · cases inner
    refine ⟨[], streamed.split, carried, ?_, .alone nothing others fun _ => ⟨rfl, rfl⟩⟩
    rw [arrived, State.setSession_same, content, List.append_nil, ← List.append_assoc]
    exact streamed.bytes

/-- `recvedPacket` takes the frame in front. -/
theorem Streamed.recvedPacket {p : Serializer} {result : Bool × Serializer}
    (streamed : Streamed slot frames occurrences state ghosts taken rest data)
    (permitted : ringing.permits (ghosts thread) (.session slot (.recvedPacket p)))
    (performed : perform choice state (.session slot (.recvedPacket p)) = some (result, state'))
    (nothing : state'.recvHolds slot = 0)
    (others : forall other, other ≠ thread -> (ghosts other).1.2.slot ≠ some slot)
    (piece : delivered slot occurrences <+: stream frames) :
    Exists fun taken => Exists fun rest =>
      Streamed slot frames (.event thread ⟨.session slot (.recvedPacket p), result⟩ :: occurrences)
        state' (advanced ghosts thread ⟨.session slot (.recvedPacket p), result⟩) taken rest data := by
  rcases permitted.1.2 with ⟨ready, pooled, rfl⟩
  have none : data = [] := streamed.aloft.ready thread ready
  have alone : Aloft slot state' (advanced ghosts thread ⟨.session slot (.recvedPacket (prepare pooled)), result⟩) data :=
    .alone nothing others fun _ => ⟨ready.2, none⟩
  have arrived : delivered slot (.event thread
      ⟨.session slot (.recvedPacket (prepare pooled)), result⟩ :: occurrences) = delivered slot occurrences := rfl
  have bytes := streamed.bytes
  rw [none, List.append_nil] at bytes
  have front : (state.sessionArray slot).recvBuffer.content <+: stream rest := by
    rw [bytes, streamed.split, stream_append] at piece
    exact (List.prefix_append_right_inj _).mp piece
  rcases perform_session performed with ⟨s', inner, rfl⟩
  cases inner
  by_cases accepted : (Receiving.recvedPacket (state.sessionArray slot).recvBuffer (prepare pooled)).1 = true
  · rcases recvedPacket_stream pooled front accepted with ⟨frame, later, rfl, carries, content⟩
    refine ⟨taken ++ [frame], later, ?_, ?_, ?_, alone⟩
    · rw [streamed.split]
      simp
    · simpa [handedOver, renews, taking, accepted] using List.rel_append streamed.carried (.cons carries .nil)
    · rw [arrived, State.setSession_same, bytes, content, none, List.append_nil, stream_append]
      simp
  · have refused := recvedPacket_refuses (state.sessionArray slot).recvBuffer (prepare pooled)
      (starved_of_refused (Bool.eq_false_iff.mpr accepted))
    refine ⟨taken, rest, streamed.split, ?_, ?_, alone⟩
    · simpa [handedOver, renews, taking, accepted] using streamed.carried
    · rw [arrived, State.setSession_same, refused]
      exact streamed.bytes

/-- A received frame is counted, taken, or cleared away, by a thread that is alone with it. -/
theorem Streamed.stirred (streamed : Streamed slot frames occurrences state ghosts taken rest data)
    (ringed : Ringed settings state ghosts history) (alive : Alive settings state (standings ghosts) history)
    (permitted : ringing.permits (ghosts thread) op) (performed : perform choice state op = some (answer, state'))
    (stirred : op.stirsAt slot = true) (piece : delivered slot occurrences <+: stream frames) :
    Exists fun taken => Exists fun rest => Exists fun data =>
      Streamed slot frames (.event thread ⟨op, answer⟩ :: occurrences) state' (advanced ghosts thread ⟨op, answer⟩)
        taken rest data := by
  rcases ringed.apart alive permitted stirred with ⟨nothing, others⟩
  cases op with
  | session target op =>
      rcases Bool.and_eq_true_iff.mp stirred with ⟨same, moves⟩
      cases beq_iff_eq.mp same
      have nothing' : state'.recvHolds slot = 0 := by
        cases op with
        | wsaRecv buffers => cases moves
        | _ => exact (perform_recvHolds performed (by simp) (by simp) slot).trans nothing
      cases op with
      | recved transfer => exact ⟨taken, rest, streamed.recved permitted performed nothing' others⟩
      | recvedPacket p =>
          rcases streamed.recvedPacket permitted performed nothing' others piece with ⟨taken, rest, streamed⟩
          exact ⟨taken, rest, data, streamed⟩
      | clearRecvBuffer =>
          rcases perform_session performed with ⟨s', inner, rfl⟩
          cases inner
          refine ⟨taken, rest, (state.sessionArray slot).recvBuffer.content ++ data, streamed.split, ?_, ?_, ?_⟩
          · simpa [handedOver, renews, taking] using streamed.carried
          · rw [State.setSession_same, RingBuffer.content_clear, List.append_nil, ← List.append_assoc]
            exact streamed.bytes
          · refine .alone nothing' others fun right => ?_
            have own : (ghosts thread).1.2.slot = some slot :=
              ((right_cases right).2.resolve_left fun granted => (by cases granted)).2
            have deleting : (ghosts thread).2 = .deleting slot := permitted.2
            exact (ringed.untidying alive own thread (by rw [deleting]; rfl)).elim
      | _ => cases moves
  | _ => cases stirred

theorem arriving_elsewhere {change : Surroundings}
    (elsewhere : forall position success data, change ≠ .completeRecv slot position success data) :
    arriving slot change = [] := by
  cases change with
  | completeRecv target position success data =>
      refine if_neg fun same => ?_
      subst same
      exact elsewhere position success data rfl
  | _ => rfl

theorem surround_port {change : Surroundings} {completion : Completion}
    (changed : Network.surround state change = some state')
    (elsewhere : forall position success data, change ≠ .completeRecv slot position success data)
    (queued : completion ∈ state'.port) (here : completion.slot = slot) (receives : completion.overlapped = .recv) :
    completion ∈ state.port := by
  cases change with
  | completeSend target position success transfer =>
      simp only [Network.surround] at changed
      split at changed
      next => cases changed
      next pending found =>
        split at changed <;> cases changed
        rcases List.mem_append.mp queued with before | now
        · exact before
        · cases List.mem_singleton.mp now
          cases receives
  | completeRecv target position success data =>
      simp only [Network.surround] at changed
      split at changed
      next => cases changed
      next pending found =>
        split at changed <;> cases changed
        rcases List.mem_append.mp queued with before | now
        · exact before
        · cases List.mem_singleton.mp now
          subst here
          exact absurd rfl (elsewhere position success data)
  | tick count =>
      simp only [Network.surround] at changed
      split at changed <;> cases changed
      exact queued

/-- A completion brings bytes, when nothing else is aloft. -/
theorem Streamed.surround {change : Surroundings}
    (streamed : Streamed slot frames occurrences state ghosts taken rest data)
    (ringed : Ringed settings state ghosts history) (changed : Network.surround state change = some state') :
    Exists fun data => Streamed slot frames (.change change :: occurrences) state' ghosts taken rest data := by
  have single := ringed.single slot
  rcases surround_ring changed slot with ⟨elsewhere, same, kept⟩ |
    ⟨position, success, stored, pending, rfl, found, legal, filled, erased, port⟩
  · refine ⟨data, streamed.split, streamed.carried, ?_, ?_⟩
    · rw [same]
      change delivered slot occurrences ++ arriving slot change = _
      rw [arriving_elsewhere elsewhere, List.append_nil]
      exact streamed.bytes
    · exact {
        posted := fun posted => streamed.aloft.posted (kept ▸ posted)
        queued := by
          intro completion queued here receives
          rw [same]
          exact streamed.aloft.queued completion (surround_port changed elsewhere queued here receives) here receives
        uncounted := by
          rw [same]
          exact streamed.aloft.uncounted
        ready := streamed.aloft.ready }
  · have posted := ringed.posted slot pending (List.mem_of_getElem? found)
    have inside := (List.getElem?_eq_some_iff.mp found).1
    have outstanding : 1 ≤ state.recvHolds slot :=
      recvHolds_of_pending (List.ne_nil_of_length_pos (Nat.zero_lt_of_lt inside))
    have none : data = [] := streamed.aloft.posted (List.ne_nil_of_length_pos (Nat.zero_lt_of_lt inside))
    rw [posted, totalLength_recvBuffers] at legal
    rw [posted] at filled
    have nobody (thread : Thread workers contents) : (ghosts thread).1.2.slot ≠ some slot := by
      intro own
      have one := rightTo_eq_one own
      have least := le_tally (rightTo slot) ghosts thread
      omega
    refine ⟨stored, streamed.split, streamed.carried, ?_, ?_⟩
    · have content := receiveInto_content (state.sessionArray slot).recvBuffer stored legal
      change delivered slot occurrences ++ (if slot = slot then stored else []) = _
      rw [if_pos rfl, filled, streamed.bytes, none, List.append_nil]
      exact congrArg (fun content => stream taken ++ content ++ stored) content.symm
    · exact {
        posted := by
          intro posted
          have some := List.length_pos_of_ne_nil posted
          rw [erased, List.length_eraseIdx_of_lt inside] at some
          unfold State.recvHolds at single
          omega
        queued := by
          intro completion queued here receives
          rw [port] at queued
          rcases List.mem_append.mp queued with before | now
          · have both := recvHolds_of_queued before here receives
            omega
          · cases List.mem_singleton.mp now
            exact ⟨⟨(state.sessionArray slot).recvBuffer, filled, legal⟩, rfl⟩
        uncounted := fun thread _ own => absurd own (nobody thread)
        ready := fun thread ready => absurd ready.1 (nobody thread) }

/-- A new session starts with an empty ring, and with nothing aloft. -/
theorem renewed {id : SessionID} {answer : Unit} (ringed : Ringed settings state ghosts history)
    (alive : Alive settings state (standings ghosts) history)
    (permitted : ringing.permits (ghosts thread) (.session slot (.storeId id)))
    (performed : perform choice state (.session slot (.storeId id)) = some (answer, state')) :
    Streamed slot frames (.event thread ⟨.session slot (.storeId id), answer⟩ :: occurrences) state'
      (advanced ghosts thread ⟨.session slot (.storeId id), answer⟩) [] frames [] := by
  rcases alive.slots slot with ⟨life, current, fits⟩
  have staged := fits.stage thread
  unfold StageFits at staged
  rw [show (standings ghosts thread).stage = .popped slot from permitted.1.1.1] at staged
  rcases (staged rfl).2 with ⟨used, phase⟩
  have awaits : life.phase.awaits = true := by rw [phase]; rfl
  rcases ringed.nobody fits (Phase.unintroduced_of_awaits awaits) with ⟨nothing, nobody⟩
  have unrightful (other : Thread workers contents) : (ghosts other).1.2.slot ≠ some slot := by
    intro own
    have none := (tally_eq_zero_iff _ _).mp nobody other
    rw [rightTo_eq_one own] at none
    cases none
  have here : renews slot ⟨.session slot (.storeId id), answer⟩ = true := beq_self_eq_true slot
  refine ⟨rfl, ?_, ?_, .alone ?_ (fun other _ => unrightful other) fun right => ?_⟩
  · change List.Forall₂ Carries (if renews slot ⟨.session slot (.storeId id), answer⟩ = true then _ else _) _
    rw [if_pos here]
    exact .nil
  · rw [perform_recvBuffer (by simp [Op.stirsAt, SessionOp.stirs, SessionOp.rings]) performed,
      ringed.vacant slot life current awaits]
    exact if_pos here
  · exact (perform_recvHolds performed (by simp) (by simp) slot).trans nothing
  · exact absurd ((right_cases right).2.resolve_left fun granted => (by cases granted)).2 (unrightful thread)

end Steps

/-! ## Courses -/

/-- What is known of the bytes of a session after a course. -/
structure Heard (slot : Slot) (occurrences : List (Machine.Occurrence (server settings workers contents)))
    (c : (server settings workers contents).Config) : Prop where
  unheard : forall life, lifeAfter settings.maxSession slot c.history = some life -> life.phase.opens = true ->
    delivered slot occurrences = []
  streamed : forall frames, delivered slot occurrences <+: stream frames ->
    Exists fun taken => Exists fun rest => Exists fun data =>
      Streamed slot frames occurrences c.state (ringing.ghosts c) taken rest data

theorem alive_standings {c : (server settings workers contents).Config}
    (reach : (server settings workers contents).Reach handedOut c) :
    Alive settings c.state (standings (ringing.ghosts c)) c.history := by
  rw [standings_ghosts]
  exact alive_of_reach (informed_of_reach reach).1

theorem Heard.act {slot : Slot} {occurrences : List (Machine.Occurrence (server settings workers contents))}
    {c : (server settings workers contents).Config} (heard : Heard slot occurrences c)
    (reach : (server settings workers contents).Reach handedOut c) {thread : Thread workers contents}
    {choice : Choice} {op : Op} {next : op.Answer -> NetProgram Unit} {answer : op.Answer} {state : State}
    (turn : c.running thread = .step (I := interface) op next)
    (performed : perform choice c.state op = some (answer, state)) :
    Heard slot (.event thread ⟨op, answer⟩ :: occurrences) (c.record thread ⟨op, answer⟩ state (next answer)) := by
  have ringed := ringed_of_reach reach
  have alive := alive_standings reach
  have permitted := ringing_permits reach turn
  have moved : ringing.ghosts (c.record thread ⟨op, answer⟩ state (next answer)) =
      advanced (ringing.ghosts c) thread ⟨op, answer⟩ := Discipline.ghosts_record c thread _ state _
  constructor
  · intro life' current' opens
    rcases Option.bind_eq_some_iff.mp current' with ⟨life, current, followed⟩
    rcases next_opens followed opens with before | ⟨id, stored⟩
    · change (if renews slot ⟨op, answer⟩ = true then [] else delivered slot occurrences) = []
      rw [heard.unheard life current before, ite_self]
    · cases (stored : op = _)
      exact if_pos (beq_self_eq_true slot)
  · intro frames piece
    rw [moved]
    by_cases renewal : Exists fun id => op = .session slot (.storeId id)
    · rcases renewal with ⟨id, rfl⟩
      exact ⟨[], frames, [], renewed ringed alive permitted performed⟩
    have same : renews slot ⟨op, answer⟩ = false := by
      refine Bool.eq_false_iff.mpr fun renewing => renewal ?_
      cases op with
      | session target op =>
          cases op with
          | storeId id =>
              cases beq_iff_eq.mp (renewing : (target == slot) = true)
              exact ⟨id, rfl⟩
          | _ => cases renewing
      | _ => cases renewing
    have before : delivered slot occurrences <+: stream frames := by
      change (if renews slot ⟨op, answer⟩ = true then [] else delivered slot occurrences) <+: _ at piece
      rw [same] at piece
      exact piece
    rcases heard.streamed frames before with ⟨taken, rest, data, streamed⟩
    by_cases stirred : op.stirsAt slot = true
    · exact streamed.stirred ringed alive permitted performed stirred before
    · refine ⟨taken, rest, data, streamed.kept permitted performed (Bool.eq_false_iff.mpr stirred) same ?_⟩
      rintro id rfl here
      subst here
      rcases introducing_of_onNewConnect alive permitted.1.1 with ⟨life, current, _, phase⟩
      have nothing := heard.unheard life current (by rw [phase]; rfl)
      rw [streamed.bytes] at nothing
      exact (List.append_eq_nil_iff.mp nothing).2

theorem Heard.takeUp {slot : Slot} {occurrences : List (Machine.Occurrence (server settings workers contents))}
    {c : (server settings workers contents).Config} (heard : Heard slot occurrences c) (thread : Thread workers contents)
    (program : NetProgram Unit) : Heard slot occurrences (c.takeUp thread program) := by
  refine ⟨heard.unheard, fun frames piece => ?_⟩
  rcases heard.streamed frames piece with ⟨taken, rest, data, streamed⟩
  have begun : ringing.ghosts (c.takeUp thread program) = Function.update (ringing.ghosts c) thread ringing.start :=
    Discipline.ghosts_takeUp c thread program
  rw [begun]
  exact ⟨taken, rest, data, streamed.split, streamed.carried, streamed.bytes, {
    posted := streamed.aloft.posted
    queued := streamed.aloft.queued
    uncounted := by
      intro other transfer own uncounted
      rw [Function.update_apply] at own uncounted
      split at own
      next => cases own
      next different =>
        rw [if_neg different] at uncounted
        exact streamed.aloft.uncounted other transfer own uncounted
    ready := by
      rintro other ⟨own, counted⟩
      rw [Function.update_apply] at own counted
      split at own
      next => cases own
      next different =>
        rw [if_neg different] at counted
        exact streamed.aloft.ready other ⟨own, counted⟩ }⟩

theorem Heard.surround {slot : Slot} {occurrences : List (Machine.Occurrence (server settings workers contents))}
    {c : (server settings workers contents).Config} (heard : Heard slot occurrences c)
    (reach : (server settings workers contents).Reach handedOut c) {change : Surroundings} {state : State}
    (changed : Network.surround c.state change = some state) :
    Heard slot (.change change :: occurrences) { c with state := state } := by
  constructor
  · intro life current opens
    rcases (alive_standings reach).slots slot with ⟨_, again, fits⟩
    cases current.symm.trans again
    have nothing := fits.received (Phase.unintroduced_of_awaits (Phase.awaits_of_opens opens))
    have silent : arriving slot change = [] := by
      rcases surround_ring changed slot with ⟨elsewhere, _⟩ | ⟨position, _, _, _, _, found, _⟩
      · exact arriving_elsewhere elsewhere
      · have outstanding := recvHolds_of_pending (List.ne_nil_of_mem (List.mem_of_getElem? found))
        omega
    change delivered slot occurrences ++ arriving slot change = []
    rw [heard.unheard life current opens, silent]
    rfl
  · intro frames piece
    rcases heard.streamed frames ((List.prefix_append _ _).trans piece) with ⟨taken, rest, data, streamed⟩
    rcases streamed.surround (ringed_of_reach reach) changed with ⟨data, streamed⟩
    exact ⟨taken, rest, data, streamed⟩

theorem heard {slot : Slot} {occurrences : List (Machine.Occurrence (server settings workers contents))}
    {c : (server settings workers contents).Config}
    (course : (server settings workers contents).Course handedOut occurrences c) : Heard slot occurrences c := by
  induction course with
  | start =>
      refine ⟨fun _ _ _ => rfl, fun frames _ => ⟨[], frames, [], rfl, .nil, ?_, ?_⟩⟩
      · have empty : emptyRecvBuffer.content = [] := RingBuffer.content_clear emptyRecvBuffer
        change [] = [] ++ emptyRecvBuffer.content ++ []
        rw [empty]
        rfl
      · exact ⟨fun _ => rfl, nofun, nofun, fun _ => nofun⟩
  | takeUp course thread job program idle chosen inductionHypothesis => exact inductionHypothesis.takeUp thread program
  | act course thread choice op next answer state turn performed lawful inductionHypothesis =>
      exact inductionHypothesis.act course.reach turn performed
  | surround course change state changed inductionHypothesis =>
      exact inductionHypothesis.surround course.reach changed

/-- A login as a client sends it. -/
def loginFrame : Frame where
  bytes := typedFrame
  header_le := by decide
  fits := by decide
  size_eq := by decide

/-- A client connects, and sends a login and the first byte of another frame.  The worker
handles the login and goes on. -/
def loginAndMore (steps : Nat) : List (Machine.Move (server oneSession 1 0)) :=
  firstBytes (typedFrame ++ [0x77]) 9 ++
    acts (.worker ⟨0, Nat.one_pos⟩) 1 { usual with buffer := ⟨2, freshSerializer, id⟩ } ++
    acts (.worker ⟨0, Nat.one_pos⟩) steps usual

/-- The next operation of the program reads the buffers for another receive. -/
def asksForMore (slot : Slot) : NetProgram Unit -> Bool
  | .step (.session target .recvBuffers) _ => target == slot
  | _ => false

section Frames

variable {slot : Slot} {occurrences : List (Machine.Occurrence (server settings workers contents))}
  {c : (server settings workers contents).Config}
  (course : (server settings workers contents).Course handedOut occurrences c) (frames : List Frame)
  (piece : delivered slot occurrences <+: stream frames)
include course piece

/-- However the bytes of a client's frames are cut and whichever threads handle them, the
packets handed over are the first of the frames that have arrived completely, in order, each
once and byte for byte.  The course is any in which content code uses IDs that have been handed
out (`handedOut`), and what was delivered is a beginning of a stream of frames (`piece`). -/
theorem frames_inOrder :
    List.Forall₂ Carries (handedOver slot occurrences)
      ((completeFrames frames (delivered slot occurrences).length).take (handedOver slot occurrences).length) := by
  rcases (heard course).streamed frames piece with ⟨taken, rest, data, streamed⟩
  have complete : completeFrames frames (delivered slot occurrences).length =
      taken ++ completeFrames rest ((c.state.sessionArray slot).recvBuffer.content.length + data.length) := by
    rw [streamed.split, streamed.bytes, List.length_append, List.length_append, Nat.add_assoc, completeFrames_stream]
  rw [complete, List.take_left' streamed.carried.length_eq.symm]
  exact streamed.carried

omit course piece in
theorem frames_inOrder_login : Exists fun occurrences => Exists fun c =>
    (server oneSession 1 0).Course handedOut occurrences c ∧ (handedOver 0 occurrences).length = 1 ∧
      List.Forall₂ Carries (handedOver 0 occurrences) [loginFrame] := by
  have run : Exists fun occurrences => Exists fun c => (server oneSession 1 0).Course handedOut occurrences c ∧
      (delivered 0 occurrences == typedFrame ++ [0x77] && (handedOver 0 occurrences).length == 1) = true :=
    Machine.exists_of_recordSchedule (loginAndMore 0) _ (by decide +kernel)
  rcases run with ⟨occurrences, c, course, checked⟩
  rcases Bool.and_eq_true_iff.mp checked with ⟨arrived, once⟩
  have bytes : delivered 0 occurrences = typedFrame ++ [0x77] := beq_iff_eq.mp arrived
  have length : (handedOver 0 occurrences).length = 1 := beq_iff_eq.mp once
  have inOrder := frames_inOrder course [loginFrame, loginFrame] (by rw [bytes]; decide)
  rw [bytes, length] at inOrder
  exact ⟨occurrences, c, course, length, inOrder⟩

/-- Before a thread asks for more, it has handed over every frame that has arrived completely,
and the ring holds the beginning of the next one.  As for `frames_inOrder`, the course keeps to
`handedOut`, and what was delivered is a beginning of a stream of frames (`piece`). -/
theorem frames_all {thread : Thread workers contents} (asks : asksForMore slot (c.running thread) = true) :
    List.Forall₂ Carries (handedOver slot occurrences) (completeFrames frames (delivered slot occurrences).length) ∧
      (c.state.sessionArray slot).recvBuffer.content =
        (delivered slot occurrences).drop (stream (completeFrames frames (delivered slot occurrences).length)).length := by
  have reach := course.reach
  have permitted : (ringing.ghosts c thread).1.2.ready slot ∧ (ringing.ghosts c thread).1.2.exhausted = true := by
    unfold asksForMore at asks
    split at asks
    next target next turn =>
      cases beq_iff_eq.mp asks
      exact (ringing_permits reach turn).1.2
    next => cases asks
  have starved := (ringed_of_reach reach).starved thread slot permitted.1.1 permitted.2
  rcases (heard course).streamed frames piece with ⟨taken, rest, data, streamed⟩
  have none : data = [] := streamed.aloft.ready thread permitted.1
  have bytes := streamed.bytes
  rw [none, List.append_nil] at bytes
  have front : (c.state.sessionArray slot).recvBuffer.content <+: stream rest := by
    rw [bytes, streamed.split, stream_append] at piece
    exact (List.prefix_append_right_inj _).mp piece
  have complete : completeFrames frames (delivered slot occurrences).length = taken := by
    rw [streamed.split, bytes, List.length_append, completeFrames_stream, RingBuffer.content_length,
      incomplete_of_starved front starved, List.append_nil]
  rw [complete, bytes, List.drop_left]
  exact ⟨streamed.carried, rfl⟩

omit course piece in
theorem frames_all_login : Exists fun occurrences => Exists fun c : (server oneSession 1 0).Config =>
    (server oneSession 1 0).Course handedOut occurrences c ∧
      List.Forall₂ Carries (handedOver 0 occurrences) [loginFrame] ∧
      (c.state.sessionArray 0).recvBuffer.content = [0x77] := by
  have run : Exists fun occurrences => Exists fun c => (server oneSession 1 0).Course handedOut occurrences c ∧
      (delivered 0 occurrences == typedFrame ++ [0x77] &&
        asksForMore 0 (Machine.Config.running c (.worker ⟨0, Nat.one_pos⟩))) = true :=
    Machine.exists_of_recordSchedule (loginAndMore 21) _ (by decide +kernel)
  rcases run with ⟨occurrences, c, course, checked⟩
  rcases Bool.and_eq_true_iff.mp checked with ⟨arrived, asks⟩
  have bytes : delivered 0 occurrences = typedFrame ++ [0x77] := beq_iff_eq.mp arrived
  have all := frames_all course [loginFrame, loginFrame] (by rw [bytes]; decide) asks
  rw [bytes] at all
  exact ⟨occurrences, c, course, all⟩

end Frames

end Runs

end Network
end LoginServer
