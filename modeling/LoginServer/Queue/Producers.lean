import Mathlib.Data.List.Nodup
import Mathlib.Data.Fintype.Basic
import LoginServer.Queue.Ledger
import LoginServer.Queue.Sequential

namespace LoginServer
namespace Queue

open Concurrency Memory

/-!
# Many producers and one consumer

Any number of threads push, and one at a time pops.  The values come out in the
order in which their nodes were linked, as long as two things do not happen to
nodes that come back from the pool.

A thread that read `_tail` may exchange the key of that node long afterwards.
The exchange expects a null key and nothing else.  By then the node may have left
the queue, and belong to another thread that has already cleared its key.  A
thread in `Alloc` may install what it read as the next free node long ago, if the
number in the key has come round.
-/

variable {Thread : Type}

/-- The first operation of `pop`. -/
def startsPop : Op -> Bool
  | .decrementSize => true
  | _ => false

/-- Whether a thread is in a call of `pop`, from its events since it took up its job. -/
def inPop : List (Event operations) -> Bool
  | [] => false
  | ⟨.decrementSize, _⟩ :: _ => true
  | ⟨.incrementPushs, _⟩ :: _ => false
  | ⟨.incrementSize, _⟩ :: _ => false
  | ⟨.loadValue _, _⟩ :: _ => false
  | _ :: earlier => inPop earlier

/-- Whether a node is in the queue, the dummy included. -/
def InQueue (s : State) (node : Address) : Prop :=
  Exists fun nodes => Chain (fun node => (s.node node).key) makeNodePtr s.head nodes 0 ∧
    (0 : Address) ∉ nodes ∧ node ∈ nodes

section Rules

variable {initial : State} {fuel : Nat}

/-- One thread at a time pops. -/
def onePopper : (queue Thread initial fuel).Rule
  | c, thread, event => startsPop event.op = true -> forall other, other ≠ thread ->
      inPop (c.past other) = false

/-- One thread at a time pops.  Whoever links its node links it to one that is in the queue, not
to a recycled one, and whoever takes a node from the pool leaves the node behind it as the next
free one. -/
def current : (queue Thread initial fuel).Rule
  | c, _, ⟨.compareExchangeKey node _ comparand, previous⟩ =>
      previous = comparand -> InQueue c.state node
  | c, thread, ⟨.compareExchangeTopKey exchange comparand, previous⟩ =>
      previous = comparand -> inPop (c.past thread) = false ->
        exchange = (c.state.node (makeNodePtr comparand)).poolNext
  | c, thread, event => onePopper c thread event

end Rules

/-! ## What the threads count on -/

/-- What a thread knows about its node, or about the head. -/
def Stands (s : State) : Stage -> Prop
  | .filled _ node value => (s.node node).value = value
  | .ready _ node value => (s.node node).value = value ∧ (s.node node).key = 0
  | .popping (some head) key =>
      s.head = head ∧ (key ≠ 0 -> (s.node (makeNodePtr head)).key = key)
  | .freeing node next stored =>
      makeNodePtr s.head = next ∧ forall key, stored = some key -> (s.node node).poolNext = key
  | .loading next => makeNodePtr s.head = next
  | _ => True

/-- Both lists, the nodes that threads have for themselves, and the values: those in the
queue, and those popped before them, are the ones linked. -/
structure Shape (s : State) (stages : Thread -> Stage) (ledger : Ledger Thread)
    (nodes free : List Address) : Prop where
  linked : Chain (fun node => (s.node node).key) makeNodePtr s.head nodes 0
  nonempty : nodes ≠ []
  pooled : Chain (fun node => (s.node node).poolNext) makeNodePtr s.topKey free 0
  blocks : Blocks (nodes ++ free)
  held : forall thread node, (stages thread).holds = some node -> Blocks (node :: (nodes ++ free))
  apart : forall thread other node, (stages thread).holds = some node ->
    (stages other).holds = some node -> thread = other
  alone : forall thread other, (stages thread).pops = true -> (stages other).pops = true -> thread = other
  stands : forall thread, Stands s (stages thread)
  removing : forall thread, (stages thread).removing = true ->
    ledger.linked.map Push.value = ledger.popped ++ nodes.map fun node => (s.node node).value
  resting : (forall thread, (stages thread).removing = false) ->
    ledger.linked.map Push.value = ledger.popped ++ nodes.tail.map fun node => (s.node node).value

theorem Stands.congr {s s' : State} {stage : Stage} (stands : Stands s stage) (node : s'.node = s.node)
    (head : s'.head = s.head) : Stands s' stage := by
  unfold Stands at stands ⊢
  simpa only [node, head] using stands

/-- A write to a node that the thread does not look at. -/
theorem Stands.setNode {s : State} {stage : Stage} {node : Address} (stands : Stands s stage)
    (content : Node) (notHeld : stage.holds ≠ some node)
    (notHead : forall head key, stage = .popping (some head) key -> key ≠ 0 ->
      makeNodePtr head ≠ node) : Stands (s.setNode node content) stage := by
  have elsewhere : forall other, other ≠ node -> (s.setNode node content).node other = s.node other :=
    fun other different => Function.update_of_ne different _ _
  cases stage with
  | filled pushCount own value =>
      have different : own ≠ node := fun same => notHeld (by rw [Stage.holds, same])
      simpa only [Stands, elsewhere own different] using stands
  | ready pushCount own value =>
      have different : own ≠ node := fun same => notHeld (by rw [Stage.holds, same])
      simpa only [Stands, elsewhere own different] using stands
  | popping head key =>
      cases head with
      | none => trivial
      | some head =>
          refine ⟨stands.1, fun known => ?_⟩
          rw [elsewhere _ (notHead head key rfl known)]
          exact stands.2 known
  | freeing own next stored =>
      have different : own ≠ node := fun same => notHeld (by rw [Stage.holds, same])
      refine ⟨stands.1, ?_⟩
      rw [elsewhere own different]
      exact stands.2
  | loading next => exact stands
  | idle => trivial
  | counted pushCount => trivial
  | holding pushCount own => trivial
  | linked => trivial
  | refused => trivial

namespace Shape

variable {s s' : State} {stages : Thread -> Stage} {ledger ledger' : Ledger Thread}
  {nodes free nodes' free' : List Address}

theorem head_member (shape : Shape s stages ledger nodes free) : makeNodePtr s.head ∈ nodes := by
  have chain := shape.linked
  cases nodes with
  | nil => exact absurd rfl shape.nonempty
  | cons dummy rest => exact List.mem_cons.mpr (.inl chain.1)

theorem null_outside (shape : Shape s stages ledger nodes free) : makeNodePtr 0 ∉ nodes :=
  fun member => shape.blocks.usable 0 (List.mem_append_left _ member) rfl

/-- The nodes that the rules speak of are the nodes of the queue. -/
theorem member_of_inQueue (shape : Shape s stages ledger nodes free) {node : Address}
    (inside : InQueue s node) : node ∈ nodes := by
  rcases inside with ⟨others, chain, outside, member⟩
  rwa [shape.linked.unique chain shape.null_outside outside]

theorem held_outside (shape : Shape s stages ledger nodes free) {thread : Thread} {node : Address}
    (own : (stages thread).holds = some node) : node ∉ nodes ++ free :=
  (List.nodup_cons.mp (shape.held thread node own).distinct).1

/-- Nobody else looks at the node that a thread has for itself. -/
theorem stands_write (shape : Shape s stages ledger nodes free) {thread : Thread} {node : Address}
    (own : (stages thread).holds = some node) (content : Node) (other : Thread)
    (different : other ≠ thread) : Stands (s.setNode node content) (stages other) := by
  refine (shape.stands other).setNode content ?_ ?_
  · intro same
    exact different (shape.apart other thread node same own)
  · rintro head key seen _ rfl
    have here := shape.stands other
    rw [seen] at here
    have inside := shape.head_member
    rw [here.1] at inside
    exact shape.held_outside own (List.mem_append_left _ inside)

variable [DecidableEq Thread]

/-- One thread takes a step: what is left to show is about this thread, the lists, and
what the others count on. -/
theorem step (shape : Shape s stages ledger nodes free) (thread : Thread) (stage : Stage)
    (linked : Chain (fun node => (s'.node node).key) makeNodePtr s'.head nodes' 0)
    (nonempty : nodes' ≠ [])
    (pooled : Chain (fun node => (s'.node node).poolNext) makeNodePtr s'.topKey free' 0)
    (blocks : Blocks (nodes' ++ free'))
    (held : forall other node, other ≠ thread -> (stages other).holds = some node ->
      Blocks (node :: (nodes' ++ free')))
    (ownHeld : forall node, stage.holds = some node -> Blocks (node :: (nodes' ++ free')) ∧
      forall other, other ≠ thread -> (stages other).holds ≠ some node)
    (pops : stage.pops = true -> forall other, other ≠ thread -> (stages other).pops = false)
    (others : forall other, other ≠ thread -> Stands s' (stages other)) (own : Stands s' stage)
    (removing : (stage.removing = true ∨
        Exists fun other => other ≠ thread ∧ (stages other).removing = true) ->
      ledger'.linked.map Push.value = ledger'.popped ++ nodes'.map fun node => (s'.node node).value)
    (resting : stage.removing = false ->
      (forall other, other ≠ thread -> (stages other).removing = false) ->
      ledger'.linked.map Push.value = ledger'.popped ++ nodes'.tail.map fun node => (s'.node node).value) :
    Shape s' (Function.update stages thread stage) ledger' nodes' free' where
  linked := linked
  nonempty := nonempty
  pooled := pooled
  blocks := blocks
  held := by
    intro other node holds
    by_cases same : other = thread
    · rw [same, Function.update_self] at holds
      exact (ownHeld node holds).1
    · rw [Function.update_of_ne same] at holds
      exact held other node same holds
  apart := by
    intro one other node first second
    by_cases left : one = thread
    · by_cases right : other = thread
      · rw [left, right]
      · rw [left, Function.update_self] at first
        rw [Function.update_of_ne right] at second
        exact absurd second ((ownHeld node first).2 other right)
    · rw [Function.update_of_ne left] at first
      by_cases right : other = thread
      · rw [right, Function.update_self] at second
        exact absurd first ((ownHeld node second).2 one left)
      · rw [Function.update_of_ne right] at second
        exact shape.apart one other node first second
  alone := by
    intro one other first second
    by_cases left : one = thread
    · by_cases right : other = thread
      · rw [left, right]
      · rw [left, Function.update_self] at first
        rw [Function.update_of_ne right, pops first other right] at second
        cases second
    · rw [Function.update_of_ne left] at first
      by_cases right : other = thread
      · rw [right, Function.update_self] at second
        rw [pops second one left] at first
        cases first
      · rw [Function.update_of_ne right] at second
        exact shape.alone one other first second
  stands := by
    intro other
    by_cases same : other = thread
    · rw [same, Function.update_self]
      exact own
    · rw [Function.update_of_ne same]
      exact others other same
  removing := by
    intro other removes
    by_cases same : other = thread
    · rw [same, Function.update_self] at removes
      exact removing (.inl removes)
    · rw [Function.update_of_ne same] at removes
      exact removing (.inr ⟨other, same, removes⟩)
  resting := by
    intro none
    refine resting ?_ ?_
    · simpa using none thread
    · intro other different
      simpa [different] using none other

/-- A thread moves on without a node of its own that it did not have before. -/
theorem move (shape : Shape s stages ledger nodes free) (thread : Thread) (stage : Stage)
    (holds : forall node, stage.holds = some node -> (stages thread).holds = some node)
    (pops : stage.pops = true -> (stages thread).pops = true)
    (removing : stage.removing = (stages thread).removing)
    (head : s'.head = s.head) (topKey : s'.topKey = s.topKey)
    (keys : forall node, node ∈ nodes -> (s'.node node).key = (s.node node).key)
    (nexts : forall node, node ∈ free -> (s'.node node).poolNext = (s.node node).poolNext)
    (values : forall node, node ∈ nodes -> (s'.node node).value = (s.node node).value)
    (others : forall other, other ≠ thread -> Stands s' (stages other)) (own : Stands s' stage)
    (linked : ledger'.linked = ledger.linked) (popped : ledger'.popped = ledger.popped) :
    Shape s' (Function.update stages thread stage) ledger' nodes free := by
  refine shape.step thread stage ?_ shape.nonempty ?_ shape.blocks ?_ ?_ ?_ others own ?_ ?_
  · rw [head]
    exact shape.linked.congr keys
  · rw [topKey]
    exact shape.pooled.congr nexts
  · exact fun other node _ => shape.held other node
  · intro node own
    refine ⟨shape.held thread node (holds node own), ?_⟩
    exact fun other different same => different (shape.apart other thread node same (holds node own))
  · intro own other different
    by_contra popping
    exact different (shape.alone other thread (by simpa using popping) (pops own))
  · intro removes
    rw [linked, popped, List.map_congr_left values]
    rcases removes with own | ⟨other, _, removes⟩
    · exact shape.removing thread (removing ▸ own)
    · exact shape.removing other removes
  · intro own none
    rw [linked, popped, List.map_congr_left fun node member => values node (List.mem_of_mem_tail member)]
    refine shape.resting fun other => ?_
    by_cases same : other = thread
    · rw [same, ← removing, own]
    · exact none other same

/-- A thread moves on, and the nodes stay as they are. -/
theorem calm (shape : Shape s stages ledger nodes free) (thread : Thread) (stage : Stage)
    (holds : forall node, stage.holds = some node -> (stages thread).holds = some node)
    (pops : stage.pops = true -> (stages thread).pops = true)
    (removing : stage.removing = (stages thread).removing)
    (head : s'.head = s.head) (topKey : s'.topKey = s.topKey) (node : s'.node = s.node)
    (own : Stands s' stage)
    (linked : ledger'.linked = ledger.linked) (popped : ledger'.popped = ledger.popped) :
    Shape s' (Function.update stages thread stage) ledger' nodes free :=
  shape.move thread stage holds pops removing head topKey (fun _ _ => by rw [node])
    (fun _ _ => by rw [node]) (fun _ _ => by rw [node])
    (fun other _ => (shape.stands other).congr node head) own linked popped

/-- A thread that is done with its call begins anew. -/
theorem rest (shape : Shape s stages ledger nodes free) {thread : Thread} (finished : (stages thread).finished) :
    Shape s (Function.update stages thread .idle) ledger nodes free := by
  have quiet : (stages thread).removing = false := by
    rcases finished with stage | ⟨pushCount, stage⟩
    · rw [stage]
      rfl
    · rw [stage]
      rfl
  exact shape.calm thread .idle (by simp [Stage.holds]) (by simp [Stage.pops]) quiet.symm rfl rfl rfl trivial
    rfl rfl

/-- A thread stays where it is. -/
theorem stay (shape : Shape s stages ledger nodes free) (thread : Thread) {stage : Stage}
    (same : stage = stages thread) (head : s'.head = s.head) (topKey : s'.topKey = s.topKey)
    (node : s'.node = s.node) (linked : ledger'.linked = ledger.linked)
    (popped : ledger'.popped = ledger.popped) :
    Shape s' (Function.update stages thread stage) ledger' nodes free := by
  subst same
  exact shape.calm thread _ (fun _ => id) id rfl head topKey node ((shape.stands thread).congr node head)
    linked popped

/-- A thread writes to its own node. -/
theorem write (shape : Shape s stages ledger nodes free) {thread : Thread} {node : Address}
    (own : (stages thread).holds = some node) (stage : Stage) (content : Node)
    (holds : stage.holds = some node) (pops : stage.pops = true -> (stages thread).pops = true)
    (removing : stage.removing = (stages thread).removing)
    (stands : Stands (s.setNode node content) stage)
    (linked : ledger'.linked = ledger.linked) (popped : ledger'.popped = ledger.popped) :
    Shape (s.setNode node content) (Function.update stages thread stage) ledger' nodes free := by
  have elsewhere : forall other, other ∈ nodes ++ free -> (s.setNode node content).node other = s.node other := by
    intro other member
    apply Function.update_of_ne
    rintro rfl
    exact shape.held_outside own member
  refine shape.move thread stage ?_ pops removing rfl rfl ?_ ?_ ?_ (shape.stands_write own content) stands
    linked popped
  · intro other same
    rw [own, ← holds, same]
  · intro other member
    rw [elsewhere other (List.mem_append_left _ member)]
  · intro other member
    rw [elsewhere other (List.mem_append_right _ member)]
  · intro other member
    rw [elsewhere other (List.mem_append_left _ member)]

/-- A node leaves the pool. -/
theorem takeFree (shape : Shape s stages ledger nodes free) {thread : Thread} {pushCount : BitVec 64}
    (stage : stages thread = .counted pushCount) (usable : makeNodePtr s.topKey ≠ 0)
    (linked : ledger'.linked = ledger.linked) (popped : ledger'.popped = ledger.popped) :
    Exists fun free' => free = makeNodePtr s.topKey :: free' ∧
      Shape { s with topKey := (s.node (makeNodePtr s.topKey)).poolNext }
        (Function.update stages thread (.holding pushCount (makeNodePtr s.topKey))) ledger' nodes free' := by
  have pooled := shape.pooled
  have blocks := shape.blocks
  have held := shape.held
  cases free with
  | nil =>
      have null : s.topKey = 0 := pooled
      exact absurd (by rw [null, makeNodePtr_zero]) usable
  | cons node rest =>
      have first : makeNodePtr s.topKey = node := pooled.1
      have fewer : rest.Sublist (node :: rest) := List.sublist_cons_self node rest
      have moved : (node :: (nodes ++ rest)).Perm (nodes ++ node :: rest) := List.perm_middle.symm
      refine ⟨rest, by rw [first],
        shape.step thread _ shape.linked shape.nonempty ?_ ?_ ?_ ?_ ?_ ?_ trivial ?_ ?_⟩
      · rw [first]
        exact pooled.2
      · exact blocks.sublist (fewer.append_left nodes)
      · exact fun other own _ holds => (held other own holds).sublist ((fewer.append_left nodes).cons_cons own)
      · intro own holds
        cases holds
        rw [first]
        refine ⟨blocks.perm moved, ?_⟩
        intro other _ same
        exact shape.held_outside same (by simp)
      · intro pops
        cases pops
      · exact fun other _ => (shape.stands other).congr rfl rfl
      · rintro (own | ⟨other, _, removes⟩)
        · cases own
        · rw [linked, popped]
          exact shape.removing other removes
      · intro _ none
        rw [linked, popped]
        refine shape.resting fun other => ?_
        by_cases same : other = thread
        · rw [same, stage]
          rfl
        · exact none other same

/-- A node comes back to the pool. -/
theorem giveBack (shape : Shape s stages ledger nodes free) {thread : Thread} {node next : Address}
    (stage : stages thread = .freeing node next (some s.topKey)) (count : BitVec 64)
    (linked : ledger'.linked = ledger.linked) (popped : ledger'.popped = ledger.popped) :
    Shape { s with topKey := makeKey node count }
      (Function.update stages thread (.loading next)) ledger' nodes (node :: free) := by
  have own : (stages thread).holds = some node := by rw [stage]; rfl
  have blocks := shape.held thread node own
  have stands := shape.stands thread
  rw [stage] at stands
  have moved : (nodes ++ node :: free).Perm (node :: (nodes ++ free)) := List.perm_middle
  refine shape.step thread _ shape.linked shape.nonempty ⟨?_, ?_⟩ (blocks.perm moved) ?_ ?_ ?_ ?_ stands.1
    ?_ ?_
  · exact makeNodePtr_makeKey node count (blocks.below node (List.mem_cons_self ..))
  · change Chain _ _ (s.node node).poolNext free 0
    rw [stands.2 s.topKey rfl]
    exact shape.pooled
  · intro other held different holds
    have others := shape.held other held holds
    have apart : held ≠ node := fun same => different (shape.apart other thread held holds (same ▸ own))
    have outside : held ∉ node :: (nodes ++ free) := by
      rw [List.mem_cons, not_or]
      exact ⟨apart, shape.held_outside holds⟩
    exact (blocks.cons others outside).perm (moved.cons held)
  · intro held holds
    cases holds
  · intro _ other different
    by_contra popping
    exact different (shape.alone other thread (by simpa using popping) (by rw [stage]; rfl))
  · exact fun other _ => (shape.stands other).congr rfl rfl
  · intro _
    rw [linked, popped]
    exact shape.removing thread (by rw [stage]; rfl)
  · intro own
    cases own

/-- A node is linked to the last one. -/
theorem link (shape : Shape s stages ledger nodes free) {thread : Thread} {pushCount : BitVec 64}
    {own : Address} {value : Value} (stage : stages thread = .ready pushCount own value)
    {node : Address} (inside : node ∈ nodes) (null : (s.node node).key = 0) {push : Push}
    (same : push.value = value) (linked : ledger'.linked = ledger.linked ++ [push])
    (popped : ledger'.popped = ledger.popped) :
    Shape (s.setNode node { s.node node with key := makeKey own pushCount })
      (Function.update stages thread .linked) ledger' (nodes ++ [own]) free := by
  have holds : (stages thread).holds = some own := by rw [stage]; rfl
  have blocks := shape.held thread own holds
  have stands := shape.stands thread
  rw [stage] at stands
  have below := blocks.below own (List.mem_cons_self ..)
  have outside := shape.held_outside holds
  rcases shape.linked.ends shape.null_outside inside null with ⟨front, rfl⟩
  rcases Chain.append_iff.mp shape.linked with ⟨middle, before, reaches, _⟩
  have last : node ∉ front := by
    have distinct := shape.blocks.distinct
    grind
  have different : own ≠ node := by
    rintro rfl
    exact outside (List.mem_append_left _ inside)
  have value : forall other, ((s.setNode node { s.node node with key := makeKey own pushCount }).node
      other).value = (s.node other).value := by
    intro other
    by_cases here : other = node
    · simp [State.setNode, here]
    · simp [State.setNode, here]
  have moved : (((front ++ [node]) ++ [own]) ++ free).Perm (own :: ((front ++ [node]) ++ free)) := by
    rw [List.append_assoc _ [own]]
    exact List.perm_middle
  refine shape.step thread .linked ?_ (by simp) (shape.pooled.congr ?_) (blocks.perm moved) ?_ ?_ ?_ ?_
    trivial ?_ ?_
  · refine Chain.append_iff.mpr ⟨makeKey own pushCount, Chain.append_iff.mpr ⟨middle, ?_, reaches, ?_⟩, ?_, ?_⟩
    · refine before.congr ?_
      intro other member
      have here : other ≠ node := fun here => last (here ▸ member)
      simp [State.setNode, here]
    · simp [State.setNode]
    · exact makeNodePtr_makeKey own pushCount below
    · simpa [State.setNode, different] using stands.2
  · intro other member
    by_cases here : other = node
    · simp [State.setNode, here]
    · simp [State.setNode, here]
  · intro other held apart holds'
    have others := shape.held other held holds'
    have outside : held ∉ own :: ((front ++ [node]) ++ free) := by
      rw [List.mem_cons, not_or]
      refine ⟨?_, shape.held_outside holds'⟩
      rintro rfl
      exact apart (shape.apart other thread held holds' holds)
    exact (blocks.cons others outside).perm (moved.cons held)
  · intro held holds
    cases holds
  · intro pops
    cases pops
  · intro other _
    refine (shape.stands other).setNode _ ?_ ?_
    · intro held
      exact shape.held_outside held (List.mem_append_left _ inside)
    · rintro head key seen known rfl
      have here := shape.stands other
      rw [seen] at here
      exact known ((here.2 known).symm.trans null)
  · rintro (own | ⟨other, _, removes⟩)
    · cases own
    · rw [linked, popped, List.map_append, shape.removing other removes]
      simp [value, same, stands.1]
  · intro _ none
    have before := shape.resting (fun other => by
      by_cases here : other = thread
      · rw [here, stage]
        rfl
      · exact none other here)
    have behind : ((front ++ [node]) ++ [own]).tail = (front ++ [node]).tail ++ [own] :=
      List.tail_append_of_ne_nil (by simp)
    rw [linked, popped, List.map_append, before, behind]
    simp [value, same, stands.1]

/-- A thread begins to pop when no other one does. -/
theorem claim (shape : Shape s stages ledger nodes free) {thread : Thread} (stage : Stage)
    (idle : stages thread = .idle) (started : stage = .refused ∨ stage = .popping none 0)
    (others : forall other, other ≠ thread -> (stages other).pops = false)
    (head : s'.head = s.head) (topKey : s'.topKey = s.topKey) (node : s'.node = s.node)
    (linked : ledger'.linked = ledger.linked) (popped : ledger'.popped = ledger.popped) :
    Shape s' (Function.update stages thread stage) ledger' nodes free := by
  have shape' : Shape s' (Function.update stages thread .idle) ledger' nodes free :=
    shape.calm thread .idle (by simp [Stage.holds]) (by simp [Stage.pops]) (by rw [idle]) head topKey node
      trivial linked popped
  have none : stage.holds = none ∧ stage.removing = false ∧ Stands s' stage := by
    rcases started with rfl | rfl
    · exact ⟨rfl, rfl, trivial⟩
    · exact ⟨rfl, rfl, trivial⟩
  have update : Function.update stages thread stage =
      Function.update (Function.update stages thread .idle) thread stage := by
    rw [Function.update_idem]
  rw [update]
  refine shape'.step thread stage shape'.linked shape'.nonempty shape'.pooled shape'.blocks
    (fun other own _ => shape'.held other own) ?_ ?_ (fun other _ => shape'.stands other) none.2.2 ?_ ?_
  · intro own holds
    rw [none.1] at holds
    cases holds
  · intro _ other different
    rw [Function.update_of_ne different]
    exact others other different
  · rintro (own | ⟨other, _, removes⟩)
    · rw [none.2.1] at own
      cases own
    · exact shape'.removing other removes
  · intro _ resting
    refine shape'.resting fun other => ?_
    by_cases same : other = thread
    · rw [same, Function.update_self]
      rfl
    · exact resting other same

/-- The dummy leaves the queue. -/
theorem unlink (shape : Shape s stages ledger nodes free) {thread : Thread} {head key : Key}
    (stage : stages thread = .popping (some head) key) (known : key ≠ 0)
    (linked : ledger'.linked = ledger.linked) (popped : ledger'.popped = ledger.popped) :
    Exists fun nodes' => Shape { s with head := key }
      (Function.update stages thread (.freeing (makeNodePtr head) (makeNodePtr key) none)) ledger'
      nodes' free := by
  have chain := shape.linked
  have nonempty := shape.nonempty
  have blocks := shape.blocks
  have outside : forall other held, (stages other).holds = some held -> held ∉ nodes ++ free :=
    fun other held => shape.held_outside
  have held := shape.held
  have resting := shape.resting
  have stands := shape.stands thread
  rw [stage] at stands
  have pops : (stages thread).pops = true := by rw [stage]; rfl
  have quiet : forall other, other ≠ thread -> (stages other).pops = false := by
    intro other different
    by_contra popping
    exact different (shape.alone other thread (by simpa using popping) pops)
  have still : forall other, (stages other).removing = false := by
    intro other
    by_cases same : other = thread
    · rw [same, stage]
      rfl
    · have notPopping := quiet other same
      cases here : stages other <;> simp [here, Stage.pops, Stage.removing] at notPopping ⊢
  cases nodes with
  | nil => exact absurd rfl nonempty
  | cons dummy rest =>
      have first : makeNodePtr head = dummy := stands.1 ▸ chain.1
      have behind : Chain (fun node => (s.node node).key) makeNodePtr key rest 0 := by
        rw [← stands.2 known, first]
        exact chain.2
      have more : rest ≠ [] := by
        rintro rfl
        exact known behind
      have fewer : (rest ++ free).Sublist (dummy :: rest ++ free) := List.sublist_cons_self _ _
      refine ⟨rest, shape.step thread _ behind more shape.pooled (blocks.sublist fewer) ?_ ?_
        (fun _ => quiet) ?_ ⟨rfl, by simp⟩ ?_ ?_⟩
      · exact fun other own _ holds => (held other own holds).sublist (fewer.cons_cons own)
      · intro own holds
        cases holds
        rw [first]
        refine ⟨blocks, ?_⟩
        intro other _ same
        exact outside other dummy same (by simp)
      · intro other different
        have here := shape.stands other
        have notPopping := quiet other different
        cases at_ : stages other <;> simp [at_, Stage.pops] at notPopping <;> rw [at_] at here <;> exact here
      · intro _
        rw [linked, popped]
        exact resting still
      · intro own
        cases own

/-- The value of the new dummy is popped. -/
theorem finishPop (shape : Shape s stages ledger nodes free) {thread : Thread} {next : Address}
    (stage : stages thread = .loading next) (linked : ledger'.linked = ledger.linked)
    (popped : ledger'.popped = ledger.popped ++ [(s.node next).value]) :
    Shape s (Function.update stages thread .idle) ledger' nodes free := by
  have chain := shape.linked
  have nonempty := shape.nonempty
  have pops : (stages thread).pops = true := by rw [stage]; rfl
  have removing := shape.removing thread (by rw [stage]; rfl)
  have stands := shape.stands thread
  rw [stage] at stands
  refine shape.step thread .idle shape.linked shape.nonempty shape.pooled shape.blocks
    (fun other own _ => shape.held other own) ?_ ?_ (fun other _ => shape.stands other) trivial ?_ ?_
  · intro own holds
    cases holds
  · intro pops
    cases pops
  · rintro (own | ⟨other, different, removes⟩)
    · cases own
    · have popping : (stages other).pops = true := by
        cases here : stages other <;> simp [here, Stage.pops, Stage.removing] at removes ⊢
      exact absurd (shape.alone other thread popping pops) different
  · intro _ _
    rw [linked, popped, removing]
    cases nodes with
    | nil => exact absurd rfl nonempty
    | cons dummy rest =>
        have first : next = dummy := stands ▸ chain.1
        simp [first]

end Shape

/-! ## Every run keeps the shape -/

/-- Operations that tell nothing about where a thread is. -/
def silent : Op -> Bool
  | .loadTopKey => true
  | .loadPoolNext _ => true
  | .incrementUseSize => true
  | .decrementUseSize => true
  | .incrementPushCount => true
  | .loadTail => true
  | .storeTail _ => true
  | .compareExchangeTail _ _ => true
  | _ => false

theorem Stage.track_silent (stage : Stage) (event : Event operations) (quiet : silent event.op = true) :
    stage.track event = stage := by
  unfold Stage.track
  split
  all_goals first
    | rfl
    | cases quiet

/-- A silent operation leaves the lists alone. -/
theorem perform_silent {s s' : State} {op : Op} {answer : op.Answer} (quiet : silent op = true)
    (performed : perform s op = some (answer, s')) :
    s'.head = s.head ∧ s'.topKey = s.topKey ∧ s'.node = s.node := by
  cases op
  case loadPoolNext node =>
    rcases Option.ite_none_left_eq_some.mp performed with ⟨_, performed⟩
    cases performed
    exact ⟨rfl, rfl, rfl⟩
  case compareExchangeTail exchange comparand =>
    cases performed
    split <;> exact ⟨rfl, rfl, rfl⟩
  all_goals first
    | (cases performed; exact ⟨rfl, rfl, rfl⟩)
    | cases quiet

/-- How many nodes an event takes from the pool. -/
def Stage.takes : Stage -> Event operations -> Nat
  | .counted _, ⟨.compareExchangeTopKey _ comparand, previous⟩ => if previous = comparand then 1 else 0
  | _, _ => 0

/-- How many nodes it gives back. -/
def Stage.gives : Stage -> Event operations -> Nat
  | .freeing _ _ _, ⟨.compareExchangeTopKey _ comparand, previous⟩ => if previous = comparand then 1 else 0
  | _, _ => 0

/-- The operation that takes nodes from the pool and gives them back. -/
def Op.exchangesTopKey : Op -> Bool
  | .compareExchangeTopKey _ _ => true
  | _ => false

theorem Stage.takes_eq_gives (stage : Stage) {op : Op} (answer : op.Answer) (other : op.exchangesTopKey = false) :
    stage.takes ⟨op, answer⟩ = stage.gives ⟨op, answer⟩ := by
  cases op with
  | compareExchangeTopKey exchange comparand => cases other
  | _ => cases stage <;> rfl

theorem Stage.pops_of_track (stage : Stage) (event : Event operations)
    (pops : (stage.track event).pops = true) : event.op = .decrementSize ∨ stage.pops = true := by
  unfold Stage.track at pops
  split at pops
  all_goals first
    | exact .inl rfl
    | exact .inr rfl
    | exact .inr pops
    | (simp [Stage.pops] at pops; done)
    | (split at pops <;> simp [Stage.pops] at pops)

theorem inPop_of_pops (past : List (Event operations)) (pops : (calling.ghost past).pops = true) :
    inPop past = true := by
  induction past with
  | nil => cases pops
  | cons event earlier inductionHypothesis =>
      rw [Discipline.ghost_cons] at pops
      rcases event with ⟨op, answer⟩
      have before := Stage.pops_of_track _ _ pops
      cases op with
      | decrementSize => rfl
      | incrementPushs => cases pops
      | incrementSize => cases pops
      | loadValue node => cases pops
      | _ =>
          apply inductionHypothesis
          exact before.resolve_left (by simp)

theorem Stage.counted_of_track (stage : Stage) (event : Event operations) {pushCount : BitVec 64}
    (counted : stage.track event = .counted pushCount) :
    event.op = .incrementPushs ∨ Exists fun pushCount => stage = .counted pushCount := by
  unfold Stage.track at counted
  split at counted
  all_goals first
    | exact .inl rfl
    | exact .inr ⟨_, rfl⟩
    | exact .inr ⟨_, counted⟩
    | (cases counted)
    | (split at counted <;> cases counted)

theorem not_inPop_of_counted (past : List (Event operations)) {pushCount : BitVec 64}
    (counted : calling.ghost past = .counted pushCount) : inPop past = false := by
  induction past generalizing pushCount with
  | nil => rfl
  | cons event earlier inductionHypothesis =>
      rw [Discipline.ghost_cons] at counted
      rcases event with ⟨op, answer⟩
      have before := Stage.counted_of_track _ _ counted
      cases op with
      | decrementSize =>
          change (if (answer : BitVec 32).toInt < 0 then Stage.refused else .popping none 0) = _ at counted
          split at counted <;> cases counted
      | incrementPushs => rfl
      | incrementSize => rfl
      | loadValue node => rfl
      | _ =>
          rcases before.resolve_left (by simp) with ⟨pushCount, counted⟩
          exact inductionHypothesis counted

section Runs

variable [DecidableEq Thread] {initial : State} {fuel : Nat} {nodes : List Address}

theorem shape_initial (blocks : Blocks nodes) (holds : Holds nodes initial []) :
    Exists fun queued => Exists fun free => free.length + 1 = nodes.length ∧
      Shape initial (fun _ : Thread => Stage.idle) (ledger []) queued free := by
  rcases holds.placed with ⟨queued, free, layout, empty⟩
  have none := congrArg List.length empty
  rw [contents_length, List.length_nil, List.length_eq_zero_iff] at none
  subst none
  have covered := layout.covered
  simp only [List.nil_append, List.append_nil] at covered
  have head : initial.head = initial.tail := layout.linked
  have length : free.length + 1 = nodes.length := by
    rw [← covered.length_eq, List.length_cons]
  refine ⟨[makeNodePtr initial.tail], free, length, ⟨⟨by rw [head], layout.ended⟩, by simp, layout.pooled,
    blocks.perm covered, ?_, ?_, ?_, fun _ => trivial, ?_, ?_⟩⟩
  · intro thread node held
    cases held
  · intro thread other node held
    cases held
  · intro thread other pops
    cases pops
  · intro thread removes
    cases removes
  · intro _
    rfl

theorem shape_act {s s' : State} {stages : Thread -> Stage} {history : List (Thread × Event operations)}
    {queued free : List Address} (shape : Shape s stages (ledger history) queued free)
    (kept : Kept (ledger history) stages) (thread : Thread) (op : Op) (answer : op.Answer)
    (permitted : (stages thread).permits op) (performed : perform s op = some (answer, s'))
    (exclusive : op = .decrementSize -> forall other, other ≠ thread -> (stages other).pops = false)
    (linked : forall node exchange comparand, op = .compareExchangeKey node exchange comparand ->
      (s.node node).key = comparand -> node ∈ queued)
    (allocated : forall exchange comparand, op = .compareExchangeTopKey exchange comparand ->
      s.topKey = comparand -> (Exists fun pushCount => stages thread = .counted pushCount) ->
      exchange = (s.node (makeNodePtr comparand)).poolNext) :
    Exists fun queued' => Exists fun free' =>
      free'.length + (stages thread).takes ⟨op, answer⟩ = free.length + (stages thread).gives ⟨op, answer⟩ ∧
        Shape s' (Function.update stages thread ((stages thread).track ⟨op, answer⟩))
          ((ledger history).next thread ⟨op, answer⟩) queued' free' := by
  have same (other : op.exchangesTopKey = false) :
      free.length + (stages thread).takes ⟨op, answer⟩ = free.length + (stages thread).gives ⟨op, answer⟩ :=
    congrArg _ ((stages thread).takes_eq_gives answer other)
  cases op with
  | compareExchangeTopKey exchange comparand =>
      cases performed
      by_cases given : s.topKey = comparand
      · subst given
        rw [if_pos rfl]
        rcases permitted with ⟨pushCount, stage, usable⟩ | ⟨node, next, count, stage, rfl⟩
        · have tracked : (stages thread).track ⟨.compareExchangeTopKey exchange s.topKey, s.topKey⟩ =
              .holding pushCount (makeNodePtr s.topKey) := by
            rw [stage]
            exact if_pos rfl
          have taken : (stages thread).takes ⟨.compareExchangeTopKey exchange s.topKey, s.topKey⟩ = 1 ∧
              (stages thread).gives ⟨.compareExchangeTopKey exchange s.topKey, s.topKey⟩ = 0 := by
            rw [stage]
            exact ⟨if_pos rfl, rfl⟩
          rw [tracked, taken.1, taken.2, allocated exchange s.topKey rfl rfl ⟨pushCount, stage⟩]
          have removed : Exists fun free' => free = makeNodePtr s.topKey :: free' ∧
              Shape { s with topKey := (s.node (makeNodePtr s.topKey)).poolNext }
                (Function.update stages thread (.holding pushCount (makeNodePtr s.topKey)))
                ((ledger history).next thread ⟨.compareExchangeTopKey (s.node (makeNodePtr s.topKey)).poolNext
                  s.topKey, s.topKey⟩) queued free' := shape.takeFree stage usable rfl rfl
          rcases removed with ⟨free', rfl, shape'⟩
          exact ⟨queued, free', rfl, shape'⟩
        · have tracked : (stages thread).track ⟨.compareExchangeTopKey (makeKey node count) s.topKey, s.topKey⟩ =
              .loading next := by
            rw [stage]
            exact if_pos rfl
          have given : (stages thread).takes ⟨.compareExchangeTopKey (makeKey node count) s.topKey, s.topKey⟩ = 0 ∧
              (stages thread).gives ⟨.compareExchangeTopKey (makeKey node count) s.topKey, s.topKey⟩ = 1 := by
            rw [stage]
            exact ⟨rfl, if_pos rfl⟩
          rw [tracked, given.1, given.2]
          exact ⟨queued, node :: free, rfl, shape.giveBack stage count rfl rfl⟩
      · rw [if_neg given]
        have tracked : (stages thread).track ⟨.compareExchangeTopKey exchange comparand, s.topKey⟩ =
            stages thread := by
          rcases permitted with ⟨pushCount, stage, usable⟩ | ⟨node, next, count, stage, rfl⟩
          · rw [stage]
            exact if_neg given
          · rw [stage]
            exact if_neg given
        have neither : (stages thread).takes ⟨.compareExchangeTopKey exchange comparand, s.topKey⟩ = 0 ∧
            (stages thread).gives ⟨.compareExchangeTopKey exchange comparand, s.topKey⟩ = 0 := by
          rcases permitted with ⟨pushCount, stage, usable⟩ | ⟨node, next, count, stage, rfl⟩
          · rw [stage]
            exact ⟨if_neg given, rfl⟩
          · rw [stage]
            exact ⟨rfl, if_neg given⟩
        rw [neither.1, neither.2]
        exact ⟨queued, free, rfl, shape.stay thread tracked rfl rfl rfl rfl rfl⟩
  | storePoolNext node key =>
      rcases Option.ite_none_left_eq_some.mp performed with ⟨_, performed⟩
      cases performed
      rcases permitted with ⟨next, stored, stage⟩
      have stands := shape.stands thread
      rw [stage] at stands
      have own : (stages thread).holds = some node := by rw [stage]; rfl
      have tracked : (stages thread).track ⟨.storePoolNext node key, ()⟩ = .freeing node next (some key) := by
        rw [stage]
        rfl
      rw [tracked]
      refine ⟨queued, free, same rfl, shape.write own _ _ rfl (fun _ => by rw [stage]; rfl) (by rw [stage]; rfl) ?_
        rfl rfl⟩
      exact ⟨stands.1, by simp [State.setNode]⟩
  | incrementPushs =>
      cases performed
      have idle : stages thread = .idle := permitted
      refine ⟨queued, free, same rfl, shape.calm thread (.counted _) ?_ ?_ (by rw [idle]; rfl) rfl rfl rfl trivial rfl rfl⟩
      · intro node held
        cases held
      · intro pops
        cases pops
  | loadHead =>
      cases performed
      refine ⟨queued, free, same rfl, ?_⟩
      cases stage : stages thread with
      | popping head key =>
          have tracked : Stage.track (.popping head key) ⟨.loadHead, s.head⟩ =
              if head = some s.head then .popping head key else .popping (some s.head) 0 := rfl
          rw [tracked]
          by_cases again : head = some s.head
          · rw [if_pos again]
            exact shape.stay thread stage.symm rfl rfl rfl rfl rfl
          · rw [if_neg again]
            exact shape.calm thread _ (fun _ => by simp [Stage.holds]) (fun _ => by rw [stage]; rfl)
              (by rw [stage]; rfl) rfl rfl rfl ⟨rfl, fun known => absurd rfl known⟩ rfl rfl
      | _ => exact shape.stay thread stage.symm rfl rfl rfl rfl rfl
  | storeHead key =>
      cases performed
      rcases permitted with ⟨known, head, stage⟩
      have tracked : (stages thread).track ⟨.storeHead key, ()⟩ =
          .freeing (makeNodePtr head) (makeNodePtr key) none := by
        rw [stage]
        rfl
      rw [tracked]
      have unlinked : Exists fun queued' => Shape { s with head := key }
          (Function.update stages thread (.freeing (makeNodePtr head) (makeNodePtr key) none))
          ((ledger history).next thread ⟨.storeHead key, ()⟩) queued' free :=
        shape.unlink stage known rfl rfl
      rcases unlinked with ⟨queued', shape'⟩
      exact ⟨queued', free, same rfl, shape'⟩
  | loadKey node =>
      rcases Option.ite_none_left_eq_some.mp performed with ⟨_, performed⟩
      cases performed
      refine ⟨queued, free, same rfl, ?_⟩
      have stands := shape.stands thread
      cases stage : stages thread with
      | popping head key =>
          cases head with
          | none => exact shape.stay thread stage.symm rfl rfl rfl rfl rfl
          | some head =>
              rw [stage] at stands
              have tracked : Stage.track (.popping (some head) key) ⟨.loadKey node, (s.node node).key⟩ =
                  if node = makeNodePtr head then .popping (some head) (s.node node).key
                  else .popping (some head) key := rfl
              rw [tracked]
              by_cases own : node = makeNodePtr head
              · rw [if_pos own]
                exact shape.calm thread _ (fun _ => by simp [Stage.holds]) (fun _ => by rw [stage]; rfl)
                  (by rw [stage]; rfl) rfl rfl rfl ⟨stands.1, fun _ => by rw [own]⟩ rfl rfl
              · rw [if_neg own]
                exact shape.stay thread stage.symm rfl rfl rfl rfl rfl
      | _ => exact shape.stay thread stage.symm rfl rfl rfl rfl rfl
  | storeKey node key =>
      rcases Option.ite_none_left_eq_some.mp performed with ⟨_, performed⟩
      cases performed
      rcases permitted with ⟨rfl, pushCount, value, stage⟩
      have stands := shape.stands thread
      rw [stage] at stands
      have own : (stages thread).holds = some node := by rw [stage]; rfl
      have tracked : (stages thread).track ⟨.storeKey node 0, ()⟩ = .ready pushCount node value := by
        rw [stage]
        rfl
      rw [tracked]
      refine ⟨queued, free, same rfl, shape.write own _ _ rfl (fun pops => by cases pops) (by rw [stage]; rfl) ?_ rfl rfl⟩
      exact ⟨by simpa [Stands, State.setNode] using stands, by simp [State.setNode]⟩
  | compareExchangeKey node exchange comparand =>
      rcases Option.ite_none_left_eq_some.mp performed with ⟨_, performed⟩
      cases performed
      rcases permitted with ⟨rfl, pushCount, own, value, stage, rfl⟩
      have tracked : (stages thread).track
          ⟨.compareExchangeKey node (makeKey own pushCount) 0, (s.node node).key⟩ =
            if (s.node node).key = 0 then .linked else stages thread := by
        rw [stage]
        rfl
      rw [tracked]
      by_cases null : (s.node node).key = 0
      · rw [if_pos null, if_pos null]
        have carried := (kept.carried thread value (by rw [stage]; rfl)).1
        have recorded : ((ledger history).next thread
            ⟨.compareExchangeKey node (makeKey own pushCount) 0, (s.node node).key⟩).linked =
              (ledger history).linked ++ [⟨(ledger history).began thread, value⟩] := by
          simp [Ledger.next, Ledger.record, null, carried]
        refine ⟨_, free, same rfl, shape.link stage (linked _ _ _ rfl null) null rfl recorded ?_⟩
        simp [Ledger.next, Ledger.record, null]
      · rw [if_neg null, if_neg null]
        have recorded : (ledger history).record thread
            ⟨.compareExchangeKey node (makeKey own pushCount) 0, (s.node node).key⟩ = ledger history :=
          if_neg null
        refine ⟨queued, free, same rfl, shape.stay thread rfl rfl rfl rfl ?_ ?_⟩
        · rw [Ledger.next, recorded]
        · rw [Ledger.next, recorded]
  | loadValue node =>
      rcases Option.ite_none_left_eq_some.mp performed with ⟨_, performed⟩
      cases performed
      refine ⟨queued, free, same rfl, ?_⟩
      change Shape s (Function.update stages thread .idle) _ _ _
      exact shape.finishPop permitted rfl rfl
  | storeValue node value =>
      rcases Option.ite_none_left_eq_some.mp performed with ⟨_, performed⟩
      cases performed
      rcases permitted with ⟨pushCount, stage⟩
      have own : (stages thread).holds = some node := by rw [stage]; rfl
      have tracked : (stages thread).track ⟨.storeValue node value, ()⟩ = .filled pushCount node value := by
        rw [stage]
        rfl
      rw [tracked]
      refine ⟨queued, free, same rfl, shape.write own _ _ rfl (fun pops => by cases pops) (by rw [stage]; rfl) ?_ rfl rfl⟩
      simp [Stands, State.setNode]
  | incrementSize =>
      cases performed
      have quiet : (stages thread).removing = false := by
        rcases permitted with stage | stage
        · rw [stage]
          rfl
        · rw [stage]
          rfl
      exact ⟨queued, free, same rfl, shape.calm thread .idle (by simp [Stage.holds]) (by simp [Stage.pops])
        quiet.symm rfl rfl rfl trivial rfl rfl⟩
  | decrementSize =>
      cases performed
      have idle : stages thread = .idle := permitted
      refine ⟨queued, free, same rfl, shape.claim _ idle ?_ (exclusive rfl) rfl rfl rfl rfl rfl⟩
      rw [idle]
      change (if (s.size - 1).toInt < 0 then Stage.refused else .popping none 0) = .refused ∨
        (if (s.size - 1).toInt < 0 then Stage.refused else .popping none 0) = .popping none 0
      split
      · exact .inl rfl
      · exact .inr rfl
  | halt => cases performed
  | _ =>
      rcases perform_silent rfl performed with ⟨head, topKey, node⟩
      exact ⟨queued, free, same rfl, shape.stay thread (Stage.track_silent _ _ rfl) head topKey node rfl rfl⟩

/-- The same, for a step of a run that keeps the rule. -/
theorem shape_lawful {c : (queue Thread initial fuel).Config} {s' : State} {thread : Thread} {op : Op}
    {answer : op.Answer} {queued free : List Address} (reach : (queue Thread initial fuel).Reach current c)
    (shape : Shape c.state (calling.ghosts c) (ledger c.history) queued free)
    (permitted : (calling.ghosts c thread).permits op) (performed : perform c.state op = some (answer, s'))
    (lawful : current c thread ⟨op, answer⟩) :
    Exists fun queued' => Exists fun free' =>
      free'.length + (calling.ghosts c thread).takes ⟨op, answer⟩ =
          free.length + (calling.ghosts c thread).gives ⟨op, answer⟩ ∧
        Shape s' (Function.update (calling.ghosts c) thread ((calling.ghosts c thread).track ⟨op, answer⟩))
          ((ledger c.history).next thread ⟨op, answer⟩) queued' free' := by
  have kept := (Discipline.sound kept_preserved calls_calling reach).1
  refine shape_act shape kept thread op answer permitted performed ?_ ?_ ?_
  · rintro rfl other different
    by_contra pops
    have popping := inPop_of_pops (c.past other) (by simpa [Discipline.ghosts] using pops)
    rw [lawful rfl other different] at popping
    cases popping
  · rintro node exchange comparand rfl null
    rcases Option.ite_none_left_eq_some.mp performed with ⟨_, performed⟩
    cases performed
    exact shape.member_of_inQueue (lawful null)
  · rintro exchange comparand rfl given ⟨pushCount, counted⟩
    cases performed
    exact lawful given (not_inPop_of_counted (c.past thread) counted)

theorem shape_preserved (blocks : Blocks nodes) (holds : Holds nodes initial []) :
    calling.Preserved (queue Thread initial fuel) current fun s stages history =>
      Exists fun queued => Exists fun free => Shape s stages (ledger history) queued free where
  initial := by
    have fresh : Exists fun queued => Exists fun free => free.length + 1 = nodes.length ∧
        Shape initial (fun _ : Thread => Stage.idle) (ledger []) queued free := shape_initial blocks holds
    rcases fresh with ⟨queued, free, _, shape⟩
    exact ⟨queued, free, shape⟩
  takeUp := by
    rintro s stages history thread ⟨queued, free, shape⟩ finished
    exact ⟨queued, free, shape.rest finished⟩
  surround := fun _ _ _ change => change.elim
  act := by
    rintro c thread op next choice answer s reach turn ⟨queued, free, shape⟩ permitted performed lawful
    rcases shape_lawful reach shape permitted performed lawful with ⟨queued', free', _, shape'⟩
    exact ⟨trivial, queued', free', shape'⟩

/-- In every run that keeps the rule the values come out in order. -/
theorem inOrder_of_reach (blocks : Blocks nodes) (holds : Holds nodes initial [])
    {c : (queue Thread initial fuel).Config} (reach : (queue Thread initial fuel).Reach current c) :
    Exists fun sources => InOrder (ledger c.history) sources := by
  have kept := (Discipline.sound kept_preserved calls_calling reach).1
  rcases (Discipline.sound (shape_preserved blocks holds) calls_calling reach).1 with ⟨queued, free, shape⟩
  have popped : Exists fun rest => (ledger c.history).linked.map Push.value =
      (ledger c.history).popped ++ rest := by
    by_cases removing : Exists fun thread => (calling.ghosts c thread).removing = true
    · rcases removing with ⟨thread, removing⟩
      exact ⟨_, shape.removing thread removing⟩
    · exact ⟨_, shape.resting fun thread => by simpa using fun removes => removing ⟨thread, removes⟩⟩
  rcases popped with ⟨rest, popped⟩
  have front := List.take_append_drop (ledger c.history).popped.length (ledger c.history).linked
  refine ⟨(ledger c.history).linked.take (ledger c.history).popped.length, ?_, ?_, ?_, ?_⟩
  · rw [List.map_take, popped, List.take_left]
  · exact (List.Nodup.of_map _ kept.linkedOnce).sublist (List.take_sublist _ _)
  · exact fun push member => kept.linkedPushed push (List.mem_of_mem_take member)
  · intro first finish before second after member later split
    refine kept.ordered first finish before second (after ++ (ledger c.history).linked.drop
      (ledger c.history).popped.length) member later ?_
    rw [← List.cons_append, ← List.append_assoc, ← split]
    exact front.symm

/-- In every run of any number of threads that push and pop, one popping at a time, the values
come out in order and at most once, if each node is linked to one in the queue and each node
taken from the pool leaves the one behind it (`current`). The compare-exchange on a node's key
ensures neither, as it carries no version. -/
theorem producers_inOrder (Thread : Type) [DecidableEq Thread] (malloc : Nat -> Address)
    (initailSize : BitVec 64) (memory : State) (fuel rounds : Nat)
    (positive : 0 < (initailSize.setWidth 32).toInt)
    (blocks : Blocks (poolNodes malloc (initailSize.setWidth 32))) :
    Alone memory (fuel + 1) (construct (fuel + 1)) (members malloc initailSize memory) fun _ s =>
      forall c : (queue Thread s rounds).Config, (queue Thread s rounds).Reach current c ->
        Exists fun sources => InOrder (ledger c.history) sources :=
  (constructed malloc initailSize memory blocks positive).mono fun _ _ _ holds _ reach =>
    inOrder_of_reach blocks holds reach

end Runs

/-! ## Runs of three threads -/

inductive Trio where
  | late
  | early
  | consumer
  deriving DecidableEq

instance : Fintype Trio where
  elems := {.late, .early, .consumer}
  complete := by
    intro thread
    cases thread <;> decide

section Schedules

variable {initial : State} {fuel : Nat}

instance (c : (queue Trio initial fuel).Config) (thread : Trio) (event : Event operations) :
    Decidable (onePopper c thread event) :=
  inferInstanceAs (Decidable (startsPop event.op = true -> forall other, other ≠ thread ->
    inPop (c.past other) = false))

/-- As `current`, for an empty queue: the node that is linked to is the dummy. -/
def behindDummy (s : State) (past : List (Event operations)) : Event operations -> Bool
  | ⟨.compareExchangeKey node _ comparand, previous⟩ =>
      previous = comparand -> node = makeNodePtr s.head ∧ node ≠ 0 ∧ (s.node node).key = 0
  | ⟨.compareExchangeTopKey exchange comparand, previous⟩ =>
      previous = comparand -> inPop past = false -> exchange = (s.node (makeNodePtr comparand)).poolNext
  | _ => true

/-- Values are pushed while the queue is empty. -/
def oneValue : (queue Trio initial fuel).Rule := fun c thread event =>
  onePopper c thread event ∧ behindDummy c.state (c.past thread) event = true

instance (c : (queue Trio initial fuel).Config) (thread : Trio) (event : Event operations) :
    Decidable (oneValue c thread event) :=
  inferInstanceAs (Decidable (onePopper c thread event ∧ behindDummy c.state (c.past thread) event = true))

theorem current_of_oneValue (c : (queue Trio initial fuel).Config) (thread : Trio)
    (event : Event operations) (lawful : oneValue c thread event) : current c thread event := by
  rcases lawful with ⟨alone, behind⟩
  rcases event with ⟨op, answer⟩
  cases op with
  | compareExchangeKey node exchange comparand =>
      intro given
      rcases of_decide_eq_true behind given with ⟨rfl, usable, null⟩
      exact ⟨[makeNodePtr c.state.head], ⟨rfl, null⟩, by simpa using Ne.symm usable, by simp⟩
  | compareExchangeTopKey exchange comparand =>
      have leaves : answer = comparand -> inPop (c.past thread) = false ->
        exchange = (c.state.node (makeNodePtr comparand)).poolNext := of_decide_eq_true behind
      exact leaves
  | _ => exact alone

def steps (thread : Trio) (count : Nat) : List (Machine.Move (queue Trio initial 1)) :=
  List.replicate count (.act thread ())

end Schedules

/-- Two values, one after the other. -/
def takingTurns {initial : State} : List (Machine.Move (queue Trio initial 1)) :=
  .takeUp .late (.push 1) :: steps .late 13 ++
  .takeUp .consumer .pop :: steps .consumer 12 ++
  .takeUp .early (.push 2) :: steps .early 13 ++
  .takeUp .consumer .pop :: steps .consumer 12

theorem producers_inOrder_takingTurns :
    Alone cleared 1 (construct 1) (members row 4 cleared) fun _ s =>
      Exists fun c : (queue Trio s 1).Config => (ledger c.history).popped = [1, 2] ∧
        Exists fun sources => InOrder (ledger c.history) sources := by
  have nodes : poolNodes row ((4 : BitVec 64).setWidth 32) = [0x10000, 0x10020, 0x10040, 0x10060] := by
    decide
  have inOrder := producers_inOrder Trio row 4 cleared 0 1 (by decide) (by
    rw [nodes]
    exact ⟨by decide, by simp, by simp⟩)
  have found : ((evaluate cleared 1 (construct 1) (members row 4 cleared)).any fun result =>
      (Machine.runSchedule oneValue takingTurns (queue Trio result.2 1).start).any
        fun c => (ledger c.history).popped = [1, 2]) = true := by
    decide +kernel
  rcases (Option.any_eq_true _ _).mp found with ⟨⟨value, s⟩, evaluated, run⟩
  rcases Machine.exists_of_runSchedule takingTurns _ run with ⟨c, reach, popped⟩
  rcases inOrder.evaluated value s evaluated with ⟨_, inOrder⟩
  refine alone_of_evaluate evaluated ⟨c, of_decide_eq_true popped, inOrder c ?_⟩
  exact reach.mono current_of_oneValue

/-! ## A producer that is late -/

/-- One thread has read the tail and its null key.  Meanwhile another value is pushed and
popped, and the node comes back to hold the next value.  Its key is null again when the
late thread exchanges it. -/
def latePush {initial : State} : List (Machine.Move (queue Trio initial 1)) :=
  .takeUp .late (.push 1) :: steps .late 10 ++
  .takeUp .early (.push 2) :: steps .early 13 ++
  .takeUp .consumer .pop :: steps .consumer 12 ++
  .takeUp .early (.push 3) :: steps .early 7 ++
  steps .late 3 ++
  .takeUp .late (.push 4) :: steps .late 13 ++
  .takeUp .consumer .pop :: steps .consumer 12

/-- The calls of that run: the one that pushed 1 returned before the one that pushed 4
began. -/
def overtakes (ledger : Ledger Trio) : Bool :=
  ledger.popped = [2, 4] ∧ ledger.pushed = [⟨0, 1⟩, ⟨10, 2⟩, ⟨35, 3⟩, ⟨45, 4⟩] ∧
    (⟨0, 1⟩, 45) ∈ ledger.returned

theorem not_inOrder_of_overtakes {ledger : Ledger Trio} (overtaken : overtakes ledger = true) :
    ¬ Exists fun sources => InOrder ledger sources := by
  rintro ⟨sources, inOrder⟩
  rcases of_decide_eq_true overtaken with ⟨popped, pushed, returned⟩
  have values := inOrder.values
  rw [popped] at values
  rcases List.map_eq_cons_iff.mp values with ⟨first, rest, rfl, two, values⟩
  rcases List.map_eq_cons_iff.mp values with ⟨second, rest, rfl, four, values⟩
  have origin := inOrder.pushed second (by simp)
  have latest : second = ⟨45, 4⟩ := by
    rw [pushed] at origin
    simp only [List.mem_cons, List.not_mem_nil, or_false] at origin
    rcases origin with rfl | rfl | rfl | rfl
    · simp at four
    · simp at four
    · simp at four
    · rfl
  have before := inOrder.ordered ⟨0, 1⟩ 45 [first] second rest returned (by rw [latest]) rfl
  rw [← List.mem_singleton.mp before] at two
  cases two

theorem latePush_overtakes :
    Alone cleared 1 (construct 1) (members row 4 cleared) fun _ s =>
      Exists fun c : (queue Trio s 1).Config => (queue Trio s 1).Reach onePopper c ∧
        ¬ Exists fun sources => InOrder (ledger c.history) sources := by
  have found : ((evaluate cleared 1 (construct 1) (members row 4 cleared)).any fun result =>
      (Machine.runSchedule onePopper latePush (queue Trio result.2 1).start).any
        fun c => overtakes (ledger c.history)) = true := by
    decide +kernel
  rcases (Option.any_eq_true _ _).mp found with ⟨⟨value, s⟩, evaluated, run⟩
  refine alone_of_evaluate evaluated ?_
  rcases Machine.exists_of_runSchedule latePush _ run with ⟨c, reach, overtaken⟩
  exact ⟨c, reach, not_inOrder_of_overtakes overtaken⟩

end Queue
end LoginServer
