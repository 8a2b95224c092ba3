import LoginServer.Network.Delivery
import LoginServer.Network.SendCompletion

namespace LoginServer
namespace Network

open Memory Buffers Receiving Login Concurrency

/-!
# What was sent and what is let go of

`sendedBuffer` is filled while a batch is gathered and emptied by its
completion.  So it holds the batch of the outstanding `WSASend`, packet by
packet, and is empty when the flag is free.  This rests on two conditions: a
completion reports all the bytes of its batch, and no `WSASend` has failed in
such a way that `sendIO` gave the flag back but left the batch behind.
-/

/-! ## Batches left behind -/

/-- The error codes after which `sendIO` gives the flag back. -/
def IoResult.givesBack : IoResult -> Bool
  | .error code => !connectionLost code
  | _ => false

def lingersNext (slot : Slot) (lingers : Bool) : Event interface -> Bool
  | ⟨.session target (.storeId _), _⟩ => if target = slot then false else lingers
  | ⟨.session target (.wsaSend _), result⟩ =>
      if target = slot ∧ IoResult.givesBack result = true then true else lingers
  | _ => lingers

/-- A batch of the session was left behind in `sendedBuffer`. -/
def batchLingers {Thread : Type} (slot : Slot) (history : List (Thread × Event interface)) : Bool :=
  history.foldr (fun entry lingers => lingersNext slot lingers entry.2) false

@[simp] theorem batchLingers_cons {Thread : Type} (slot : Slot) (thread : Thread) (event : Event interface)
    (history : List (Thread × Event interface)) :
    batchLingers slot ((thread, event) :: history) = lingersNext slot (batchLingers slot history) event := rfl

/-- A completion that reports more or fewer bytes than its batch has. -/
def Completion.partial_ (completion : Completion) (slot : Slot) : Bool :=
  completion.sent slot && completion.success && match completion.overlapped with
    | .send batch => completion.transfer.toNat != totalSize batch
    | _ => false

def breaksUp (slot : Slot) : Event interface -> Bool
  | ⟨.getQueuedCompletionStatus, completion⟩ => Completion.partial_ completion slot
  | ⟨.session target (.linkNode packet), _⟩ => target == slot && packet.size == 0
  | _ => false

section Rules

variable {workers contents : Nat} {settings : Settings}

/-- Content code asks about IDs that have been handed out, packets are not empty, and
successfully completed sends report all bytes of their batch. -/
def wholly (slot : Slot) : (server settings workers contents).Rule := fun c thread event =>
  handedOut c thread event ∧ breaksUp slot event = false

instance (slot : Slot) (c : (server settings workers contents).Config) (thread : Thread workers contents)
    (event : Event interface) : Decidable (wholly slot c thread event) :=
  inferInstanceAs (Decidable (_ ∧ _ = false))

end Rules

/-! ## The match -/

/-- The thread has begun a batch, or lets go of one. -/
def Sending.keeps : Sending -> Bool
  | .gathering _ => true
  | .popping _ => true
  | .missing _ => true
  | .taken _ _ => true
  | .completing _ => true
  | _ => false

/-- What a stage says about `sendedBuffer`. -/
def Sending.Fits (sended : List Packet) : Sending -> Prop
  | .gathering batch => sended = batch
  | .popping batch => sended = batch
  | .missing batch => sended = batch
  | .taken batch packet => sended = batch ∧ packet.size ≠ 0
  | .completing (some left) => totalSize sended = left.toNat
  | .completing none => sended = []
  | .failing => False
  | _ => True

theorem Sending.fits_of_token {stage : Sending} (token : stage.token = 0) (sended : List Packet) :
    stage.Fits sended := by
  cases stage <;> trivial

theorem Sending.keeps_of_token {stage : Sending} (token : stage.token = 0) : stage.keeps = false := by
  cases stage <;> first | rfl | cases token

/-- Without empty packets, no bytes are no packets. -/
theorem eq_nil_of_totalSize {packets : List Packet} (sizes : forall packet, packet ∈ packets -> packet.size ≠ 0)
    (nothing : totalSize packets = 0) : packets = [] := by
  cases packets with
  | nil => rfl
  | cons packet rest =>
      have positive := sizes packet List.mem_cons_self
      rw [totalSize_cons] at nothing
      omega

section Runs

variable {workers contents : Nat} {settings : Settings}

/-- `sendedBuffer` and all that refers to it. -/
structure Matches {Thread : Type} (slot : Slot) (state : State) (ghosts : Thread -> Sending)
    (history : List (Thread × Event interface)) : Prop where
  pending : forall pending, pending ∈ (state.sessionArray slot).pendingSends ->
    pending.batch = (state.sessionArray slot).sendedBuffer
  queued : forall completion, completion ∈ state.port -> completion.slot = slot -> forall batch,
    completion.overlapped = .send batch -> batch = (state.sessionArray slot).sendedBuffer
  stages : forall thread, (ghosts thread).Fits (state.sessionArray slot).sendedBuffer
  free : stuck slot history = 0 -> state.outstanding slot = 0 -> (forall thread, (ghosts thread).keeps = false) ->
    (state.sessionArray slot).sendedBuffer = []
  sizes : forall packet, packet ∈ (state.sessionArray slot).sendedBuffer -> packet.size ≠ 0
  waiting : forall packet, packet ∈ (state.sessionArray slot).sendBuffer.nodes -> packet.size ≠ 0

section Steps

variable {Thread : Type} [DecidableEq Thread] {slot : Slot} {state state' : State} {ghosts : Thread -> Sending}
  {history history' : List (Thread × Event interface)} {thread : Thread} {stage : Sending}

/-- A step that leaves the buffers alone, and the batches that the kernel has. -/
theorem Matches.kept (known : Matches slot state ghosts history)
    (sended : (state'.sessionArray slot).sendedBuffer = (state.sessionArray slot).sendedBuffer)
    (pending : (state'.sessionArray slot).pendingSends.map PendingSend.batch =
      (state.sessionArray slot).pendingSends.map PendingSend.batch)
    (port : state'.port = state.port) (fits : stage.Fits (state.sessionArray slot).sendedBuffer)
    (free : stage.keeps = true ∨ (state.sessionArray slot).sendedBuffer = [] ∨
      (ghosts thread).keeps = false ∧ stuck slot history' = stuck slot history)
    (waiting : forall packet, packet ∈ (state'.sessionArray slot).sendBuffer.nodes -> packet.size ≠ 0) :
    Matches slot state' (Function.update ghosts thread stage) history' where
  pending := by
    intro operation member
    have image := List.mem_map_of_mem (f := PendingSend.batch) member
    rw [pending] at image
    rcases List.mem_map.mp image with ⟨before, member', same⟩
    rw [sended, ← same]
    exact known.pending before member'
  queued := by
    rw [sended, port]
    exact known.queued
  stages := by
    intro other
    rw [sended, Function.update_apply]
    split
    · exact fits
    · exact known.stages other
  free := by
    intro loose none nobody
    have none' : state.outstanding slot = 0 := by
      have lengths := congrArg List.length pending
      rw [List.length_map, List.length_map] at lengths
      unfold State.outstanding at none ⊢
      rw [← lengths, ← port]
      exact none
    rw [sended]
    rcases free with keeps | empty | ⟨idle, still⟩
    · have own := nobody thread
      rw [Function.update_self, keeps] at own
      cases own
    · exact empty
    · rw [still] at loose
      refine known.free loose none' fun other => ?_
      by_cases same : other = thread
      · rw [same]
        exact idle
      · have away := nobody other
        rw [Function.update_of_ne same] at away
        exact away
  sizes := by
    rw [sended]
    exact known.sizes
  waiting := waiting

/-- What is known of a thread whose turn it is. -/
structure Turn (slot : Slot) (state : State) (ghosts : Thread -> Sending)
    (history : List (Thread × Event interface)) (thread : Thread) : Prop where
  unclear : (ghosts thread).clears = false
  opening : (ghosts thread).opens = true -> (state.sessionArray slot).sendedBuffer = []
  alone : (ghosts thread).token = 1 -> stuck slot history = 0 ∧ state.outstanding slot = 0 ∧
    forall other, other ≠ thread -> (ghosts other).token = 0

theorem performSession_batches {choice : Choice} {s s' : Session} {op : SessionOp} {answer : op.Answer}
    (other : forall batch, op ≠ .wsaSend batch) (performed : performSession choice s op = some (answer, s')) :
    s'.pendingSends.map PendingSend.batch = s.pendingSends.map PendingSend.batch := by
  cases op with
  | wsaSend batch => exact absurd rfl (other batch)
  | cancelIoEx direction =>
      cases performed
      cases direction with
      | send =>
          simp only [Session.cancel, List.map_map]
          apply List.map_congr_left
          intro pending _
          simp only [Function.comp_apply]
          split <;> rfl
      | recv => rfl
  | unlinkNode =>
      rcases Option.map_eq_some_iff.mp performed with ⟨result, _, same⟩
      cases same
      rfl
  | compareExchangeIo =>
      cases performed
      split <;> rfl
  | allocNode =>
      simp only [performSession] at performed
      split at performed <;> cases performed <;> rfl
  | pushSended packet =>
      simp only [performSession] at performed
      split at performed <;> cases performed <;> rfl
  | wsaRecv buffers =>
      simp only [performSession] at performed
      split at performed <;> cases performed <;> rfl
  | _ =>
      cases performed
      rfl

theorem State.outstanding_eq_zero {state : State} {slot : Slot} (none : state.outstanding slot = 0) :
    (state.sessionArray slot).pendingSends = [] ∧
      forall completion, completion ∈ state.port -> completion.sent slot = false := by
  rcases Nat.add_eq_zero_iff.mp none with ⟨sends, queued⟩
  refine ⟨List.eq_nil_of_length_eq_zero sends, fun completion member => ?_⟩
  rw [← Bool.not_eq_true]
  exact List.countP_eq_zero.mp queued completion member

theorem sent_of_send {completion : Completion} {slot : Slot} {batch : List Packet} (same : completion.slot = slot)
    (sends : completion.overlapped = .send batch) : completion.sent slot = true := by
  simp [Completion.sent, same, sends]

/-- A step of the winner of the flag, or of the thread that handles a completion. -/
theorem Matches.change (known : Matches slot state ghosts history) (turn : Turn slot state ghosts history thread)
    (token : (ghosts thread).token = 1)
    (pending : forall pending, pending ∈ (state'.sessionArray slot).pendingSends ->
      pending.batch = (state'.sessionArray slot).sendedBuffer)
    (port : state'.port = state.port) (fits : stage.Fits (state'.sessionArray slot).sendedBuffer)
    (taken : stage.keeps = true ∨ (stuck slot history' = 0 -> state'.outstanding slot ≠ 0))
    (sizes : forall packet, packet ∈ (state'.sessionArray slot).sendedBuffer -> packet.size ≠ 0)
    (nodes : (state'.sessionArray slot).sendBuffer.nodes = (state.sessionArray slot).sendBuffer.nodes) :
    Matches slot state' (Function.update ghosts thread stage) history' where
  pending := pending
  queued := by
    rw [port]
    intro completion member same batch batched
    have unsent := (State.outstanding_eq_zero (turn.alone token).2.1).2 completion member
    cases unsent.symm.trans (sent_of_send same batched)
  stages := by
    intro other
    rw [Function.update_apply]
    split
    · exact fits
    next different => exact Sending.fits_of_token ((turn.alone token).2.2 other different) _
  free := by
    intro loose none nobody
    rcases taken with keeps | taken
    · have own := nobody thread
      rw [Function.update_self, keeps] at own
      cases own
    · exact absurd none (taken loose)
  sizes := sizes
  waiting := by
    rw [nodes]
    exact known.waiting

/-- Operations with nothing to prove about `sendedBuffer`. -/
def SessionOp.steady : SessionOp -> Bool
  | .linkNode _ => false
  | .unlinkNode => false
  | .pushSended _ => false
  | .popSended => false
  | .wsaSend _ => false
  | .storeSendFlag _ => false
  | .loadSize => false
  | _ => true

theorem fits_step {stage : Sending} {op : SessionOp} (answer : op.Answer) {sended : List Packet}
    (permitted : stage.permits op) (steady : op.steady = true) (fits : stage.Fits sended) :
    (stage.step op answer).Fits sended ∧ ((stage.step op answer).keeps = true ∨ stage.keeps = false) := by
  cases op with
  | compareExchangeIo =>
      cases (permitted : stage = .away)
      refine ⟨?_, Or.inr rfl⟩
      dsimp only [Sending.step]
      split <;> trivial
  | incrementSize =>
      rcases permitted with rfl | ⟨batch, rfl⟩ | rfl
      · exact ⟨trivial, Or.inr rfl⟩
      · exact ⟨fits, Or.inl rfl⟩
      · exact ⟨trivial, Or.inr rfl⟩
  | decrementSize =>
      rcases permitted with ⟨batch, rfl⟩ | rfl
      · dsimp only [Sending.step]
        split
        · exact ⟨fits, Or.inl rfl⟩
        · exact ⟨fits, Or.inl rfl⟩
      · dsimp only [Sending.step]
        split <;> exact ⟨trivial, Or.inr rfl⟩
  | exchangeSendFlag value =>
      cases value with
      | true =>
          cases (permitted : stage = .due)
          refine ⟨?_, Or.inr rfl⟩
          dsimp only [Sending.step]
          split <;> trivial
      | false =>
          rcases permitted with rfl | rfl
          · exact ⟨trivial, Or.inr rfl⟩
          · cases fits
  | emptySended =>
      cases (permitted : stage = .cleared)
      refine ⟨?_, Or.inr rfl⟩
      dsimp only [Sending.step]
      split <;> trivial
  | storeCancelIoFlag value =>
      cases value with
      | true => rcases permitted with rfl | rfl <;> exact ⟨trivial, Or.inr rfl⟩
      | false =>
          cases (permitted : stage = .opened)
          exact ⟨trivial, Or.inr rfl⟩
  | loadCancelIoFlag =>
      cases stage with
      | due =>
          refine ⟨?_, Or.inr rfl⟩
          dsimp only [Sending.step]
          split <;> trivial
      | _ => first | exact ⟨fits, Or.inl rfl⟩ | exact ⟨fits, Or.inr rfl⟩
  | storeId id => exact ⟨trivial, Or.inr (by cases (permitted : stage = .away); rfl)⟩
  | clearDeleted => exact ⟨trivial, Or.inr (by cases (permitted : stage = .opened); rfl)⟩
  | linkNode packet => cases steady
  | unlinkNode => cases steady
  | pushSended packet => cases steady
  | popSended => cases steady
  | wsaSend batch => cases steady
  | storeSendFlag value => cases steady
  | loadSize => cases steady
  | _ =>
      refine ⟨fits, ?_⟩
      cases known : stage.keeps with
      | true => exact Or.inl known
      | false => exact Or.inr rfl

/-- Letting go of one packet of the transfer. -/
theorem totalSize_popped {packet : Packet} {rest : List Packet} {left : BitVec 32}
    (all : totalSize (packet :: rest) = left.toNat) :
    totalSize rest = (left - BitVec.ofNat 32 packet.size).toNat :=
  (toNat_sub_size (by rw [← all, totalSize_cons])).symm

theorem fits_popped {left : Option (BitVec 32)} {sended : List Packet} (fits : (Sending.completing left).Fits sended) :
    ((Sending.completing left).step .popSended sended.head?).Fits sended.tail ∧
      ((Sending.completing left).step .popSended sended.head?).keeps = true := by
  cases left with
  | none => exact ⟨congrArg List.tail fits, rfl⟩
  | some left =>
      cases sended with
      | nil => exact ⟨rfl, rfl⟩
      | cons packet rest => exact ⟨totalSize_popped fits, rfl⟩

theorem Matches.session {choice : Choice} {op : SessionOp} {answer : op.Answer}
    (known : Matches slot state ghosts history) (turn : Turn slot state ghosts history thread)
    (permitted : (ghosts thread).permits op)
    (performed : perform choice state (.session slot op) = some (answer, state'))
    (whole : breaksUp slot ⟨.session slot op, answer⟩ = false)
    (lingers : lingersNext slot false ⟨.session slot op, answer⟩ = false) :
    Matches slot state' (Function.update ghosts thread ((ghosts thread).step op answer))
      ((thread, ⟨.session slot op, answer⟩) :: history) := by
  rcases perform_session performed with ⟨s, inner, rfl⟩
  have own := known.stages thread
  have unsent (token : (ghosts thread).token = 1) : (state.sessionArray slot).pendingSends = [] :=
    (State.outstanding_eq_zero (turn.alone token).2.1).1
  have steadily (steady : op.steady = true)
      (still : stuckNext slot (stuck slot history) ⟨.session slot op, answer⟩ = stuck slot history) :
      Matches slot (state.setSession slot s) (Function.update ghosts thread ((ghosts thread).step op answer))
        ((thread, ⟨.session slot op, answer⟩) :: history) := by
    have unmoved : op.moves = false := by cases op <;> first | rfl | cases steady
    have buffers := performSession_buffers unmoved inner
    rcases fits_step answer permitted steady own with ⟨fits, keeps⟩
    refine known.kept ?_ ?_ rfl fits ?_ ?_
    · rw [State.setSession_same, buffers.2]
    · rw [State.setSession_same]
      exact performSession_batches (by rintro batch rfl; cases steady) inner
    · rcases keeps with keeps | idle
      · exact Or.inl keeps
      · exact Or.inr (Or.inr ⟨idle, still⟩)
    · rw [State.setSession_same, buffers.1]
      exact known.waiting
  cases op with
  | linkNode packet =>
      cases inner
      have away : ghosts thread = .away := permitted
      refine known.kept (by rw [State.setSession_same]) (by rw [State.setSession_same]) rfl trivial
        (Or.inr (Or.inr ⟨by rw [away]; rfl, rfl⟩)) ?_
      rw [State.setSession_same]
      intro other member
      rcases List.mem_append.mp member with queued | new
      · exact known.waiting other queued
      · cases List.mem_singleton.mp new
        simpa [breaksUp] using whole
  | unlinkNode =>
      rcases Option.map_eq_some_iff.mp inner with ⟨⟨packet, queue⟩, unlinked, same⟩
      cases same
      unfold LockFreeQueue.unlink at unlinked
      split at unlinked
      next => cases unlinked
      next first nodes linked =>
        cases unlinked
        have members := known.waiting
        rw [linked] at members
        rcases permitted with ⟨batch, popping⟩ | dropping
        · rw [popping] at own ⊢
          refine known.kept (by rw [State.setSession_same]) (by rw [State.setSession_same]) rfl
            ⟨own, members _ List.mem_cons_self⟩ (Or.inl rfl) ?_
          rw [State.setSession_same]
          exact fun other member => members other (List.mem_cons_of_mem _ member)
        · have clears := turn.unclear
          rw [dropping] at clears
          cases clears
  | pushSended packet =>
      rcases permitted with ⟨batch, taken⟩
      have token : (ghosts thread).token = 1 := by rw [taken]; rfl
      rw [taken] at own ⊢
      simp only [performSession] at inner
      split at inner <;> cases inner
      next room =>
        rcases own with ⟨same, size⟩
        refine known.change turn token ?_ rfl ?_ (Or.inl rfl) ?_ ?_
        · rw [State.setSession_same, show Session.pendingSends _ = [] from unsent token]
          exact fun _ member => absurd member List.not_mem_nil
        · rw [State.setSession_same]
          exact congrArg (· ++ [packet]) same
        · rw [State.setSession_same]
          intro other member
          rcases List.mem_append.mp member with sent | new
          · exact known.sizes other sent
          · cases List.mem_singleton.mp new
            exact size
        · rw [State.setSession_same]
      next full =>
        have same := State.setSession_same state slot (state.sessionArray slot)
        refine known.kept (by rw [same]) (by rw [same]) rfl own (Or.inl rfl) ?_
        rw [same]
        exact known.waiting
  | popSended =>
      cases inner
      have sizes := known.sizes
      rcases permitted with ⟨left, completing⟩ | cleared
      · have token : (ghosts thread).token = 1 := by rw [completing]; rfl
        rw [completing] at own ⊢
        rcases fits_popped own with ⟨fits, keeps⟩
        refine known.change turn token ?_ rfl ?_ (Or.inl keeps) ?_ ?_
        · rw [State.setSession_same, show Session.pendingSends _ = [] from unsent token]
          exact fun _ member => absurd member List.not_mem_nil
        · rw [State.setSession_same]
          exact fits
        · rw [State.setSession_same]
          exact fun other member => sizes other (List.mem_of_mem_tail member)
        · rw [State.setSession_same]
      · have clears := turn.unclear
        rw [cleared] at clears
        cases clears
  | wsaSend batch =>
      have gathering : ghosts thread = .gathering batch := permitted
      have token : (ghosts thread).token = 1 := by rw [gathering]; rfl
      rw [gathering] at own ⊢
      have posted (finished : Bool) (result : IoResult) :
          Matches slot (state.setSession slot { state.sessionArray slot with
            pendingSends := (state.sessionArray slot).pendingSends ++ [⟨batch, finished, false⟩] })
            (Function.update ghosts thread .away) ((thread, ⟨.session slot (.wsaSend batch), result⟩) :: history) := by
        refine known.change turn token ?_ rfl trivial (Or.inr fun _ => ?_) ?_ ?_
        · rw [State.setSession_same, unsent token]
          rintro pending member
          cases List.mem_singleton.mp member
          exact Eq.symm own
        · unfold State.outstanding
          rw [State.setSession_same, unsent token]
          exact Nat.ne_of_gt (Nat.lt_of_lt_of_le Nat.one_pos (Nat.le_add_right 1 _))
        · rw [State.setSession_same]
          exact known.sizes
        · rw [State.setSession_same]
      simp only [performSession] at inner
      split at inner <;> cases inner
      next code _ =>
        have lost : connectionLost code = true := by
          simpa [lingersNext, IoResult.givesBack] using lingers
        have stage : (Sending.gathering batch).step (.wsaSend batch) (.error code) = .failed := if_pos lost
        have failed : stuckNext slot (stuck slot history) ⟨.session slot (.wsaSend batch), .error code⟩ =
            stuck slot history + 1 := if_pos ⟨rfl, lost⟩
        rw [stage]
        refine known.change turn token ?_ rfl trivial (Or.inr fun loose => ?_) ?_ ?_
        · rw [State.setSession_same]
          exact known.pending
        · rw [stuck_cons, failed] at loose
          cases loose
        · rw [State.setSession_same]
          exact known.sizes
        · rw [State.setSession_same]
      · exact posted false .pending
      · exact posted true .success
  | storeSendFlag value =>
      cases inner
      have empty : (state.sessionArray slot).sendedBuffer = [] := by
        rcases permitted.2 with completing | completing | opening
        · rw [completing] at own
          exact eq_nil_of_totalSize known.sizes own
        · rw [completing] at own
          exact own
        · exact turn.opening (by rw [opening]; rfl)
      refine known.kept (by rw [State.setSession_same]) (by rw [State.setSession_same]) rfl ?_
        (Or.inr (Or.inl empty)) ?_
      · rcases permitted.2 with stage | stage | stage <;> rw [stage] <;> trivial
      · rw [State.setSession_same]
        exact known.waiting
  | loadSize =>
      cases inner
      have same := State.setSession_same state slot (state.sessionArray slot)
      rcases permitted with won | checking
      · rcases turn.alone (by rw [won]; rfl) with ⟨loose, none, others⟩
        have empty : (state.sessionArray slot).sendedBuffer = [] := by
          refine known.free loose none fun other => ?_
          by_cases self : other = thread
          · rw [self, won]
            rfl
          · exact Sending.keeps_of_token (others other self)
        refine known.kept (by rw [same]) (by rw [same]) rfl ?_ (Or.inr (Or.inl empty)) ?_
        · rw [won]
          dsimp only [Sending.step]
          split
          · trivial
          · exact empty
        · rw [same]
          exact known.waiting
      · refine known.kept (by rw [same]) (by rw [same]) rfl ?_ (Or.inr (Or.inr ⟨by rw [checking]; rfl, rfl⟩)) ?_
        · rw [checking]
          dsimp only [Sending.step]
          split <;> trivial
        · rw [same]
          exact known.waiting
  | _ => exact steadily rfl rfl

theorem lingersNext_of_lingers (slot : Slot) (lingers : Bool) (event : Event interface)
    (unset : forall id, event.op ≠ .session slot (.storeId id)) (none : lingersNext slot lingers event = false) :
    lingers = false ∧ lingersNext slot false event = false := by
  rcases event with ⟨op, answer⟩
  cases op with
  | session target op =>
      cases op with
      | storeId id =>
          have other : target ≠ slot := fun same => unset id (by rw [same])
          exact ⟨(if_neg other).symm.trans none, if_neg other⟩
      | wsaSend batch =>
          simp only [lingersNext] at none ⊢
          split at none
          · cases none
          next ordinary => exact ⟨none, if_neg ordinary⟩
      | _ => exact ⟨none, rfl⟩
  | _ => exact ⟨none, rfl⟩

omit [DecidableEq Thread] in
/-- What does not concern the sending of the session. -/
theorem Matches.apart (known : Matches slot state ghosts history)
    (session : state'.sessionArray slot = state.sessionArray slot)
    (port : forall completion, completion ∈ state'.port -> completion.sent slot = true -> completion ∈ state.port)
    (outstanding : state'.outstanding slot = state.outstanding slot) (still : stuck slot history' = stuck slot history) :
    Matches slot state' ghosts history' where
  pending := by
    rw [session]
    exact known.pending
  queued := by
    rw [session]
    intro completion member same batch batched
    exact known.queued completion (port completion member (sent_of_send same batched)) same batch batched
  stages := by
    rw [session]
    exact known.stages
  free := by
    rw [session, outstanding, still]
    exact known.free
  sizes := by
    rw [session]
    exact known.sizes
  waiting := by
    rw [session]
    exact known.waiting

/-- A completion comes off the port. -/
theorem Matches.dequeue {completion : Completion} {rest : List Completion} (known : Matches slot state ghosts history)
    (away : ghosts thread = .away) (queued : state.port = completion :: rest)
    (whole : breaksUp slot ⟨.getQueuedCompletionStatus, completion⟩ = false) :
    Matches slot { state with port := rest } (Function.update ghosts thread (completion.brings slot .away))
      ((thread, ⟨.getQueuedCompletionStatus, completion⟩) :: history) where
  pending := known.pending
  queued := by
    intro other member
    refine known.queued other ?_
    rw [queued]
    exact List.mem_cons_of_mem _ member
  stages := by
    intro other
    rw [Function.update_apply]
    split
    · unfold Completion.brings
      split
      next handled =>
        simp only [Completion.handled, Bool.and_eq_true] at handled
        rcases handled with ⟨⟨sent, success⟩, _⟩
        have here : completion.slot = slot := by
          simp only [Completion.sent, Bool.and_eq_true, beq_iff_eq] at sent
          exact sent.1
        cases overlapped : completion.overlapped with
        | send batch =>
            have same := known.queued completion (by rw [queued]; exact List.mem_cons_self) here batch overlapped
            have all : completion.transfer.toNat = totalSize batch := by
              simpa [breaksUp, Completion.partial_, sent, success, overlapped] using whole
            rw [same] at all
            exact all.symm
        | _ => simp [Completion.sent, overlapped] at sent
      next => trivial
    · exact known.stages other
  free := by
    intro loose none nobody
    rw [stuck_cons] at loose
    simp only [stuckNext] at loose
    by_cases sent : completion.sent slot = true
    · by_cases handled : completion.handled slot = true
      · have own := nobody thread
        rw [Function.update_self, Completion.brings, if_pos handled] at own
        cases own
      · rw [Bool.not_eq_true] at handled
        simp [sent, handled] at loose
    · have unhandled : ¬ completion.handled slot = true := by
        intro handled
        simp only [Completion.handled, Bool.and_eq_true] at handled
        exact sent handled.1.1
      have unsent : ¬ (completion.sent slot && !completion.handled slot) = true := fun both =>
        sent (Bool.and_eq_true_iff.mp both).1
      rw [if_neg unsent] at loose
      have before : state.outstanding slot = 0 := by
        unfold State.outstanding at none ⊢
        rw [queued, List.countP_cons, if_neg sent]
        exact none
      refine known.free loose before fun other => ?_
      have own := nobody other
      rw [Completion.brings, if_neg unhandled, ← away, Function.update_eq_self] at own
      exact own
  sizes := known.sizes
  waiting := known.waiting

theorem Matches.track {choice : Choice} {op : Op} {answer : op.Answer}
    (known : Matches slot state ghosts history) (turn : Turn slot state ghosts history thread)
    (permitted : (sending slot).permits (ghosts thread) op)
    (performed : perform choice state op = some (answer, state'))
    (whole : breaksUp slot ⟨op, answer⟩ = false) (lingers : lingersNext slot false ⟨op, answer⟩ = false) :
    Matches slot state' (Function.update ghosts thread ((ghosts thread).track slot ⟨op, answer⟩))
      ((thread, ⟨op, answer⟩) :: history) := by
  have kept := perform_sameBut performed
  have apart (sessions : op.component ≠ .sessionArray) (ports : op.component ≠ .port)
      (still : stuckNext slot (stuck slot history) ⟨op, answer⟩ = stuck slot history) :
      Matches slot state' ghosts ((thread, ⟨op, answer⟩) :: history) := by
    refine known.apart (by rw [kept.sessionArray sessions]) ?_ ?_ still
    · rw [kept.port ports]
      exact fun _ member _ => member
    · unfold State.outstanding
      rw [kept.sessionArray sessions, kept.port ports]
  cases op with
  | session target op =>
      by_cases same : target = slot
      · subst same
        have moved : (ghosts thread).track target ⟨.session target op, answer⟩ = (ghosts thread).step op answer :=
          if_pos rfl
        rw [moved]
        exact known.session turn (permits_session permitted) performed whole lingers
      · have moved : (ghosts thread).track slot ⟨.session target op, answer⟩ = ghosts thread := if_neg same
        rcases perform_session performed with ⟨s', _, rfl⟩
        have other := State.setSession_other state s' (Ne.symm same)
        rw [moved, Function.update_eq_self]
        refine known.apart other (fun _ member _ => member) ?_ ?_
        · unfold State.outstanding
          rw [other]
          rfl
        · cases op with
          | storeSendFlag value => exact if_neg same
          | wsaSend batch => exact if_neg fun both => same both.1
          | _ => rfl
  | getQueuedCompletionStatus =>
      have away : ghosts thread = .away := permitted
      simp only [perform] at performed
      split at performed
      next => cases performed
      next completion rest queued =>
        cases performed
        rw [away]
        exact known.dequeue away queued whole
  | postQueuedCompletionStatus target packet =>
      cases performed
      change Matches slot _ (Function.update ghosts thread (ghosts thread)) _
      rw [Function.update_eq_self]
      refine known.apart rfl ?_ ?_ rfl
      · intro completion member sent
        rcases List.mem_append.mp member with queued | new
        · exact queued
        · cases List.mem_singleton.mp new
          simp [Completion.sent] at sent
      · simp [State.outstanding, Completion.sent]
  | pushIndex index =>
      have away : ghosts thread = .away := by
        rcases (permitted : ghosts thread = .away ∨ ghosts thread = .emptied) with away | emptied
        · exact away
        · have clears := turn.unclear
          rw [emptied] at clears
          cases clears
      have still : (ghosts thread).track slot ⟨.pushIndex index, answer⟩ = ghosts thread := by rw [away]; rfl
      rw [still, Function.update_eq_self]
      exact apart (by simp [Op.component]) (by simp [Op.component]) rfl
  | mark mark =>
      cases mark with
      | sendedFailed target =>
          cases performed
          by_cases same : target = slot
          · have own := known.stages thread
            have failed : (ghosts thread).track slot ⟨.mark (.sendedFailed target), ()⟩ = .away := if_pos same
            have empty : (state.sessionArray slot).sendedBuffer = [] := by
              rcases (permitted : target = slot -> _) same with completing | completing
              · rw [completing] at own
                exact eq_nil_of_totalSize known.sizes own
              · rw [completing] at own
                exact own
            rw [failed]
            exact known.kept rfl rfl rfl trivial (Or.inr (Or.inl empty)) known.waiting
          · have elsewhere : (ghosts thread).track slot ⟨.mark (.sendedFailed target), ()⟩ = ghosts thread :=
              if_neg same
            rw [elsewhere, Function.update_eq_self]
            exact apart (by simp [Op.component]) (by simp [Op.component]) (if_neg same)
      | _ =>
          change Matches slot state' (Function.update ghosts thread (ghosts thread)) _
          rw [Function.update_eq_self]
          exact apart (by simp [Op.component]) (by simp [Op.component]) rfl
  | _ =>
      change Matches slot state' (Function.update ghosts thread (ghosts thread)) _
      rw [Function.update_eq_self]
      exact apart (by simp [Op.component]) (by simp [Op.component]) rfl

/-- The kernel queues the batches it was given. -/
theorem surround_batches {change : Surroundings} (changed : surround state change = some state') :
    (forall pending, pending ∈ (state'.sessionArray slot).pendingSends ->
      pending ∈ (state.sessionArray slot).pendingSends) ∧
    forall completion, completion ∈ state'.port -> completion.slot = slot -> forall batch,
      completion.overlapped = .send batch -> completion ∈ state.port ∨
        Exists fun pending => pending ∈ (state.sessionArray slot).pendingSends ∧ batch = pending.batch := by
  cases change with
  | completeSend target position success transfer =>
      simp only [Network.surround] at changed
      split at changed
      next => cases changed
      next pending found =>
        split at changed <;> cases changed
        have there : pending ∈ (state.sessionArray target).pendingSends := List.mem_of_getElem? found
        refine ⟨fun other member => ?_, fun completion member same batch batched => ?_⟩
        · by_cases here : slot = target
          · subst here
            rw [State.setSession_same state slot _] at member
            exact List.mem_of_mem_eraseIdx member
          · rw [State.setSession_other state _ here] at member
            exact member
        · rcases List.mem_append.mp member with queued | new
          · exact Or.inl queued
          · cases List.mem_singleton.mp new
            cases (same : target = slot)
            cases batched
            exact Or.inr ⟨pending, there, rfl⟩
  | completeRecv target position success data =>
      simp only [Network.surround] at changed
      split at changed
      next => cases changed
      next pending found =>
        split at changed <;> cases changed
        refine ⟨fun other member => ?_, fun completion member same batch batched => ?_⟩
        · by_cases here : slot = target
          · subst here
            rw [State.setSession_same state slot _] at member
            exact member
          · rw [State.setSession_other state _ here] at member
            exact member
        · rcases List.mem_append.mp member with queued | new
          · exact Or.inl queued
          · cases List.mem_singleton.mp new
            cases batched
  | tick count =>
      simp only [Network.surround] at changed
      split at changed <;> cases changed
      exact ⟨fun _ member => member, fun _ member _ _ _ => Or.inl member⟩

omit [DecidableEq Thread] in
theorem Matches.surround {change : Surroundings} (known : Matches slot state ghosts history)
    (changed : surround state change = some state') : Matches slot state' ghosts history := by
  have same := (surround_sameFields changed).1 slot
  have batches := @surround_batches slot state state' change changed
  constructor
  · rw [same.sendedBuffer]
    exact fun pending member => known.pending pending (batches.1 pending member)
  · rw [same.sendedBuffer]
    intro completion member here batch batched
    rcases batches.2 completion member here batch batched with queued | ⟨pending, there, rfl⟩
    · exact known.queued completion queued here batch batched
    · exact known.pending pending there
  · rw [same.sendedBuffer]
    exact known.stages
  · rw [same.sendedBuffer, surround_outstanding changed]
    exact known.free
  · rw [same.sendedBuffer]
    exact known.sizes
  · rw [same.sendBuffer]
    exact known.waiting

omit [DecidableEq Thread] in
/-- A new session. -/
theorem Matches.fresh (sended : (state.sessionArray slot).sendedBuffer = [])
    (nodes : (state.sessionArray slot).sendBuffer.nodes = []) (none : state.outstanding slot = 0)
    (idle : forall thread, (ghosts thread).token = 0) : Matches slot state ghosts history := by
  rcases State.outstanding_eq_zero none with ⟨sends, unsent⟩
  constructor
  · rw [sends]
    exact fun _ member => absurd member List.not_mem_nil
  · intro completion member same batch batched
    cases (unsent completion member).symm.trans (sent_of_send same batched)
  · exact fun thread => Sending.fits_of_token (idle thread) _
  · exact fun _ _ _ => sended
  · rw [sended]
    exact fun _ member => absurd member List.not_mem_nil
  · rw [nodes]
    exact fun _ member => absurd member List.not_mem_nil

end Steps

/-! ## Runs -/

section Run

variable {c : (server settings workers contents).Config}
  (reach : (server settings workers contents).Reach handedOut c) {slot : Slot}
  {thread : Thread workers contents}
include reach

theorem turn_of_occupied {life : Life (Thread workers contents)}
    (current : lifeAfter settings.maxSession slot c.history = some life) (occupied : life.phase.occupied = true) :
    Turn slot c.state (senders slot c) c.history thread where
  unclear := by
    rw [← Bool.not_eq_true]
    intro clears
    cases occupied.symm.trans (unoccupied_of_clears reach clears current)
  opening := by
    intro opens
    rcases starting_of_opens reach opens current with ⟨_, used, id, phase⟩
    exact ((rested_of_reach reach slot).vacant life current (by rw [phase]; rfl)).2
  alone := by
    intro token
    have balance := (carried_of_reach reach slot).taken
    have own := le_tally Sending.token (senders slot c) thread
    have bound := flag_le (c.state.sessionArray slot)
    exact ⟨by omega, by omega, single_token reach token.ge⟩

theorem matches_of_opening (opening : senders slot c thread = .opening) :
    Matches slot c.state (senders slot c) c.history := by
  have opens : (senders slot c thread).opens = true := by rw [opening]; rfl
  rcases (alive_of_reach (informed_of_reach reach).1).slots slot with ⟨life, current, _⟩
  rcases starting_of_opens reach opens current with ⟨_, used, id, phase⟩
  rcases (rested_of_reach reach slot).vacant life current (by rw [phase]; rfl) with ⟨nodes, sended⟩
  refine .fresh sended nodes (outstanding_of_opens reach opens) fun other => ?_
  by_cases same : other = thread
  · rw [same, opening]
    rfl
  · rw [others_away reach (Or.inr opens) other same]
    rfl

end Run

theorem matches_preserved (slot : Slot) :
    (sending slot).Preserved (server settings workers contents) (wholly slot) fun state ghosts history =>
      forall life, lifeAfter settings.maxSession slot history = some life -> life.phase.occupied = true ->
        batchLingers slot history = false -> Matches slot state ghosts history where
  initial := fun _ _ _ _ => .fresh rfl rfl rfl fun _ => rfl
  act := by
    intro c thread op next choice answer state reach turn known permitted performed lawful
    refine ⟨trivial, fun life' current' occupied' none => ?_⟩
    have lawful' : handedOut c thread ⟨op, answer⟩ := lawful.1
    have reach₀ : (server settings workers contents).Reach handedOut c := reach.mono fun _ _ _ both => both.1
    have reach' := reach₀.step (.act thread choice op next answer state turn performed lawful')
    change Matches slot state (Function.update (senders slot c) thread
      ((senders slot c thread).track slot ⟨op, answer⟩)) ((thread, ⟨op, answer⟩) :: c.history)
    by_cases sets : Exists fun id => op = .session slot (.storeId id)
    · rcases sets with ⟨id, rfl⟩
      rw [← senders_record slot c thread ⟨.session slot (.storeId id), answer⟩ state (next answer)]
      have opening : senders slot (c.record thread ⟨.session slot (.storeId id), answer⟩ state (next answer)) thread =
          .opening := by
        rw [senders_record, Function.update_self]
        exact if_pos rfl
      exact matches_of_opening reach' opening
    · have unset (id : SessionID) : op ≠ .session slot (.storeId id) := fun same => sets ⟨id, same⟩
      rcases Option.bind_eq_some_iff.mp current' with ⟨life, current, moved⟩
      have occupied : life.phase.occupied = true := by
        rcases next_occupied moved occupied' with before | ⟨id, same⟩
        · exact before
        · exact absurd same (unset id)
      rcases lingersNext_of_lingers slot _ _ unset none with ⟨before, ordinary⟩
      have matches_ : Matches slot c.state (senders slot c) c.history := known life current occupied before
      exact matches_.track (turn_of_occupied reach₀ current occupied) permitted performed lawful.2 ordinary
  takeUp := by
    intro state (ghosts : Thread workers contents -> Sending) history thread known (away : ghosts thread = .away)
      life current occupied none
    have same : Function.update ghosts thread .away = ghosts := by rw [← away, Function.update_eq_self]
    change Matches slot state (Function.update ghosts thread .away) history
    rw [same]
    exact known life current occupied none
  surround := fun _ _ _ _ _ known changed life current occupied none =>
    (known life current occupied none).surround changed

theorem matches_of_reach {c : (server settings workers contents).Config} {slot : Slot}
    (reach : (server settings workers contents).Reach (wholly slot) c) {life : Life (Thread workers contents)}
    (current : lifeAfter settings.maxSession slot c.history = some life) (occupied : life.phase.occupied = true)
    (none : batchLingers slot c.history = false) : Matches slot c.state (senders slot c) c.history :=
  (Discipline.sound (matches_preserved slot) (fun _ _ _ => jobs_sending) reach).1 life current occupied none

end Runs

end Network
end LoginServer
