import LoginServer.Queue.Layout

namespace LoginServer
namespace Queue

open Concurrency Memory

/-!
# The queue used by one call at a time

A queue of `n` nodes is a FIFO for `n - 1` values: one node is always the dummy.
Each call, run without interference, moves its node as `Layout` describes, and no
loop takes a second round.

The pool takes the number of nodes as an `int`, while the queue is given a
`size_t`.
-/

/-- What the queue is for: at most `capacity` values, first in, first out. -/
def fifo (capacity : Nat) (values : List Value) : Call -> Outcome × List Value
  | .push t =>
      if values.length < capacity then (.pushed true, values ++ [t]) else (.pushed false, values)
  | .pop =>
      match values with
      | [] => (.popped none, [])
      | value :: rest => (.popped (some value), rest)

def Outcome.refused : Outcome -> Bool
  | .pushed accepted => !accepted
  | .popped value => value.isNone

/-! ## Programs alone -/

section Programs

variable {initial : State} {limit fuel : Nat} {nodes queued free held : List Address} {s : State}
  {node : Address}

/-- A program run by the only thread. -/
abbrev Alone {α : Type} (initial : State) (limit : Nat) (program : QueueProgram α) (s : State)
    (post : α -> State -> Prop) : Prop :=
  Machine.Alone (queue Unit initial limit) () () program s fun value s' _ => post value s'

theorem alone_op {α : Type} {op : Op} {answer : op.Answer} {s' : State}
    {continuation : op.Answer -> QueueProgram α} {post : α -> State -> Prop}
    (performed : perform s op = some (answer, s')) :
    Alone initial limit (Queue.op op >>= continuation) s post ↔
      Alone initial limit (continuation answer) s' post :=
  Machine.alone_step (M := queue Unit initial limit) performed

theorem alone_perform {op : Op} {answer : op.Answer} {s' : State} {post : op.Answer -> State -> Prop}
    (performed : perform s op = some (answer, s')) :
    Alone initial limit (Queue.op op) s post ↔ post answer s' :=
  Machine.alone_step (M := queue Unit initial limit) performed

theorem alone_bind {α β : Type} {program : QueueProgram α} {continuation : α -> QueueProgram β}
    {first : α -> State -> Prop} {post : β -> State -> Prop}
    (alone : Alone initial limit program s first)
    (rest : forall value s', first value s' -> Alone initial limit (continuation value) s' post) :
    Alone initial limit (program >>= continuation) s post :=
  Machine.Alone.bind (alone.mono fun value s' _ holds => rest value s' holds)

/-- Run a program as the only thread. -/
def evaluate {α : Type} (initial : State) (limit : Nat) (program : QueueProgram α) (s : State) :
    Option (α × State) :=
  Machine.evaluate (queue Unit initial limit) () () program s

theorem alone_of_evaluate {α : Type} {program : QueueProgram α} {post : α -> State -> Prop} {value : α}
    {s' : State} (evaluated : evaluate initial limit program s = some (value, s')) (holds : post value s') :
    Alone initial limit program s post :=
  Machine.alone_of_evaluate (M := queue Unit initial limit) value s' evaluated holds

theorem alloc_empty (null : s.topKey = 0) :
    Alone initial limit (alloc (fuel + 1)) s fun node s' => node = 0 ∧ s' = s := by
  have nullNode : makeNodePtr s.topKey = 0 := by rw [null, makeNodePtr_zero]
  rw [alloc, alone_op rfl, if_pos nullNode]
  exact ⟨rfl, rfl⟩

theorem alloc_node (first : makeNodePtr s.topKey = node) (usable : node ≠ 0) :
    Alone initial limit (alloc (fuel + 1)) s fun answer s' =>
      answer = node ∧
        s' = { s with topKey := (s.node node).poolNext, useSize := s.useSize + 1 } := by
  subst first
  rw [alloc, alone_op rfl, if_neg usable, alone_op (perform_loadPoolNext usable), alone_op rfl]
  simp only [if_true]
  rw [alone_op rfl]
  exact ⟨rfl, rfl⟩

theorem free_alone (layout : Layout nodes s queued free (node :: held)) (blocks : Blocks nodes) :
    Alone initial limit (Queue.free node (fuel + 1)) s fun _ s' =>
      Layout nodes s' queued (node :: free) held ∧
        (forall other, (s'.node other).value = (s.node other).value) ∧ s'.tail = s.tail ∧
        s'.size = s.size := by
  have usable := blocks.usable node layout.held_member
  have below := blocks.below node layout.held_member
  rw [Queue.free, alone_op rfl, alone_op (perform_storePoolNext usable _), alone_op rfl, alone_op rfl]
  simp only [State.setNode, if_true]
  rw [alone_op rfl]
  refine ⟨layout.release blocks _ _ (makeNodePtr_makeKey node (s.pushCount + 1) below), ?_, rfl, rfl⟩
  intro other
  by_cases same : other = node
  · simp [same]
  · simp [same]

theorem link_alone {newKey : Key} (layout : Layout nodes s queued free (node :: held))
    (blocks : Blocks nodes) (leads : makeNodePtr newKey = node) (null : (s.node node).key = 0) :
    Alone initial limit (Queue.link newKey (fuel + 1)) s fun _ s' =>
      Layout nodes s' (queued ++ [makeNodePtr s.tail]) free held ∧
        contents s' (queued ++ [makeNodePtr s.tail]) = contents s queued ++ [(s.node node).value] ∧
        s'.size = s.size := by
  have usable := blocks.usable _ layout.tail_member
  rw [Queue.link, alone_op rfl, alone_op rfl, alone_op (perform_loadKey usable), if_pos layout.ended,
    alone_op (perform_compareExchangeKey usable _ _)]
  simp only [if_true]
  rw [alone_op rfl]
  simp only [State.setNode, if_true]
  refine ⟨layout.link blocks newKey leads null, ?_, rfl⟩
  rw [← leads]
  apply contents_snoc rfl
  intro other
  by_cases last : other = makeNodePtr s.tail
  · simp [last]
  · simp [last]

theorem take_alone (layout : Layout nodes s (node :: queued) free []) (blocks : Blocks nodes) :
    Alone initial limit (take (fuel + 1) (fuel + 1)) s fun value s' =>
      Layout nodes s' queued (node :: free) [] ∧
        contents s (node :: queued) = value :: contents s' queued ∧ s'.size = s.size := by
  have headNode := layout.head_node
  have usable : makeNodePtr s.head ≠ 0 := headNode.symm ▸ blocks.usable node layout.queued_member
  have distinct := layout.distinct blocks
  have different : s.head ≠ s.tail := by
    intro same
    rw [← headNode, same] at distinct
    simp at distinct
  -- The next node is on the list too.
  have nextMember : makeNodePtr (s.node node).key ∈ queued ++ [makeNodePtr s.tail] := by
    have next := layout.linked.2
    cases queued with
    | nil =>
        have last : (s.node node).key = s.tail := next
        simp [last]
    | cons second queued =>
        have leads : makeNodePtr (s.node node).key = second := next.1
        simp [leads]
  have nextUsable : makeNodePtr (s.node node).key ≠ 0 := by
    refine blocks.usable _ (layout.covered.mem_iff.mp ?_)
    simp only [List.mem_append, List.mem_singleton] at nextMember
    rcases nextMember with inside | last
    · simp [inside]
    · simp [last]
  have notNull : (s.node (makeNodePtr s.head)).key ≠ 0 := by
    rw [headNode]
    intro null
    exact nextUsable (by rw [null, makeNodePtr_zero])
  rw [take, alone_op rfl, alone_op rfl,
    alone_op (perform_loadKey usable), if_neg notNull,
    if_neg different, alone_op rfl, if_pos rfl, alone_op rfl, headNode]
  refine alone_bind (free_alone layout.leave blocks) ?_
  rintro _ s' ⟨after, values, tail, size⟩
  refine (alone_perform (perform_loadValue nextUsable)).mpr ⟨after, ?_, size⟩
  rw [contents_cons layout, values, contents_congr tail values]
  rfl

theorem push_full (layout : Layout nodes s queued [] held) (t : Value) :
    Alone initial limit (push (fuel + 1) t) s fun accepted s' =>
      accepted = false ∧ s' = { s with pushs := s.pushs + 1 } := by
  rw [push, alone_op rfl]
  refine alone_bind (alloc_empty layout.topKey_null) ?_
  rintro n s' ⟨rfl, rfl⟩
  exact ⟨rfl, rfl⟩

theorem push_room (layout : Layout nodes s queued (node :: free) []) (blocks : Blocks nodes)
    (few : nodes.length < 2 ^ 31) (t : Value) :
    Alone initial limit (push (fuel + 1) t) s fun accepted s' =>
      accepted = true ∧ Layout nodes s' (queued ++ [makeNodePtr s.tail]) free [] ∧
        contents s' (queued ++ [makeNodePtr s.tail]) = contents s queued ++ [t] ∧
        s'.size = s.size + 1 := by
  have usable := blocks.usable node layout.free_member
  have newNode := makeNodePtr_makeKey node (s.pushs + 1) (blocks.below node layout.free_member)
  have counted : Layout nodes { s with pushs := s.pushs + 1 } queued (node :: free) [] :=
    layout.congr rfl rfl rfl rfl (fun _ _ => rfl) fun _ _ => rfl
  rw [push, alone_op rfl]
  refine alone_bind (alloc_node counted.topKey_node usable) ?_
  rintro n taken ⟨rfl, sameTaken⟩
  have room : Layout nodes taken queued free [n] := by
    rw [sameTaken]
    exact counted.takeFree few
  have sameTail : taken.tail = s.tail := by rw [sameTaken]
  have before : contents taken queued = contents s queued := by rw [sameTaken]; rfl
  rw [if_neg usable, alone_op (perform_storeValue usable _), alone_op (perform_storeKey usable _)]
  refine alone_bind (link_alone ((room.storeHeld blocks _).storeHeld blocks _) blocks newNode ?_) ?_
  · simp [State.setNode]
  rintro _ linked ⟨after, values, size⟩
  rw [alone_op rfl]
  refine ⟨rfl, ?_, ?_, congrArg (· + 1) (size.trans (by rw [sameTaken]; rfl))⟩
  · rw [← sameTail]
    exact after.congr rfl rfl rfl rfl (fun _ _ => rfl) fun _ _ => rfl
  · rw [← sameTail, ← before]
    refine values.trans ?_
    rw [contents_storeHeld (room.storeHeld blocks _) blocks, contents_storeHeld room blocks]
    simp [State.setNode]

/-! ## Calls -/

/-- The queue holds the values: its nodes carry them, in order, and `_size` is their
number. -/
structure Holds (nodes : List Address) (s : State) (values : List Value) : Prop where
  placed : Exists fun queued => Exists fun free =>
    Layout nodes s queued free [] ∧ contents s queued = values
  counted : s.size.toInt = values.length

theorem Holds.length_lt {values : List Value} (holds : Holds nodes s values) :
    values.length < nodes.length := by
  rcases holds.placed with ⟨queued, free, layout, rfl⟩
  have total := layout.length
  rw [contents_length]
  omega

theorem decrement_toInt {size : BitVec 32} (positive : 0 ≤ size.toInt) :
    (size - 1).toInt = size.toInt - 1 := by
  have below : size.toInt < 2 ^ 31 := BitVec.toInt_lt
  rw [BitVec.toInt_sub, show (1 : BitVec 32).toInt = 1 from rfl]
  apply Int.bmod_eq_of_le <;> omega

theorem increment_toInt {size : BitVec 32} (room : size.toInt < 0x7FFFFFFF) :
    (size + 1).toInt = size.toInt + 1 := by
  have above : -2 ^ 31 ≤ size.toInt := BitVec.le_toInt size
  rw [BitVec.toInt_add, show (1 : BitVec 32).toInt = 1 from rfl]
  apply Int.bmod_eq_of_le <;> omega

theorem pop_empty (empty : s.size.toInt = 0) :
    Alone initial limit (pop (fuel + 1)) s fun value s' => value = none ∧ s' = s := by
  have negative : (s.size - 1).toInt < 0 := by
    rw [decrement_toInt] <;> omega
  have restored : s.size - 1 + 1 = s.size := BitVec.sub_add_cancel ..
  rw [pop, alone_op rfl, if_pos negative, alone_op rfl]
  simp only [restored]
  exact ⟨rfl, rfl⟩

theorem pop_first (layout : Layout nodes s (node :: queued) free []) (blocks : Blocks nodes)
    (positive : 0 < s.size.toInt) :
    Alone initial limit (pop (fuel + 1)) s fun answer s' =>
      Exists fun value => answer = some value ∧ Layout nodes s' queued (node :: free) [] ∧
        contents s (node :: queued) = value :: contents s' queued ∧ s'.size = s.size - 1 := by
  have notNegative : ¬ (s.size - 1).toInt < 0 := by
    rw [decrement_toInt] <;> omega
  have counted : Layout nodes { s with size := s.size - 1 } (node :: queued) free [] :=
    layout.congr rfl rfl rfl rfl (fun _ _ => rfl) fun _ _ => rfl
  rw [pop, alone_op rfl, if_neg notNegative]
  refine alone_bind (take_alone counted blocks) ?_
  rintro value s' ⟨after, values, size⟩
  exact ⟨value, rfl, after, values, size⟩

/-- A call answers like the FIFO, and leaves what the FIFO leaves.  A refused call
changes nothing but the number of attempts. -/
theorem call_alone (blocks : Blocks nodes) (few : nodes.length < 2 ^ 31) (capacity : Nat)
    (size : nodes.length = capacity + 1) (call : Call) (values : List Value)
    (holds : Holds nodes s values) :
    Alone initial limit (call.program (fuel + 1)) s fun outcome s' =>
      outcome = (fifo capacity values call).1 ∧
        (outcome.refused = true -> s' = { s with pushs := s'.pushs }) ∧
        Holds nodes s' (fifo capacity values call).2 := by
  rcases holds.placed with ⟨queued, free, layout, rfl⟩
  have counted := holds.counted
  have total := layout.length
  rw [contents_length] at counted
  simp only [List.length_nil] at total
  cases call with
  | push t =>
      cases free with
      | nil =>
          have full : ¬ (contents s queued).length < capacity := by
            rw [contents_length]
            simp only [List.length_nil] at total
            omega
          refine alone_bind (push_full layout t) ?_
          rintro accepted s' ⟨rfl, rfl⟩
          rw [fifo, if_neg full]
          refine ⟨rfl, fun _ => rfl, ⟨queued, [], ?_, rfl⟩, holds.counted⟩
          exact layout.congr rfl rfl rfl rfl (fun _ _ => rfl) fun _ _ => rfl
      | cons node free =>
          simp only [List.length_cons] at total
          have room : (contents s queued).length < capacity := by
            rw [contents_length]
            omega
          refine alone_bind (push_room layout blocks few t) ?_
          rintro accepted s' ⟨rfl, after, values, size⟩
          rw [fifo, if_pos room]
          refine ⟨rfl, by simp [Outcome.refused], ⟨_, _, after, values⟩, ?_⟩
          rw [size, increment_toInt (by omega)]
          simp
          omega
  | pop =>
      cases queued with
      | nil =>
          refine alone_bind (pop_empty (by simpa using counted)) ?_
          rintro value s' ⟨rfl, rfl⟩
          exact ⟨rfl, fun _ => rfl, holds⟩
      | cons node queued =>
          simp only [List.length_cons] at counted
          refine alone_bind (pop_first layout blocks (by omega)) ?_
          rintro answer s' ⟨value, rfl, after, values, size⟩
          rw [values]
          refine ⟨rfl, by simp [Outcome.refused], ⟨_, _, after, rfl⟩, ?_⟩
          rw [size, decrement_toInt (by omega)]
          simp [fifo]
          omega

end Programs

/-! ## Runs of calls -/

/-- From this state, whatever is called in turn, the queue answers like the FIFO, and
holds its values before and after each call. -/
def Serves (nodes : List Address) (capacity limit : Nat) :
    List Call -> State -> List Value -> Prop
  | [], s, values => Holds nodes s values
  | call :: rest, s, values =>
      Holds nodes s values ∧
        Alone s limit (call.program limit) s fun outcome s' =>
          outcome = (fifo capacity values call).1 ∧
            (outcome.refused = true -> s' = { s with pushs := s'.pushs }) ∧
            Serves nodes capacity limit rest s' (fifo capacity values call).2

section Runs

variable {nodes : List Address} {fuel limit capacity : Nat}

theorem serves_of_holds (blocks : Blocks nodes) (few : nodes.length < 2 ^ 31)
    (size : nodes.length = capacity + 1) (calls : List Call) (s : State) (values : List Value)
    (holds : Holds nodes s values) : Serves nodes capacity (fuel + 1) calls s values := by
  induction calls generalizing s values with
  | nil => exact holds
  | cons call rest inductionHypothesis =>
      refine ⟨holds, (call_alone blocks few capacity size call values holds).mono ?_⟩
      rintro outcome s' _ ⟨answer, refused, after⟩
      exact ⟨answer, refused, inductionHypothesis s' _ after⟩

/-- While the FIFO has room, every value is kept. -/
theorem Serves.pushes (t : Value) (count : Nat) (s : State) (values : List Value)
    (serves : Serves nodes capacity limit (List.replicate count (.push t)) s values)
    (room : values.length + count ≤ capacity) :
    Exists fun s' => Holds nodes s' (values ++ List.replicate count t) := by
  induction count generalizing s values with
  | zero => exact ⟨s, by simpa [Serves] using serves⟩
  | succ count inductionHypothesis =>
      rcases serves.2.returned (Program.returns_of_forall _ fun _ => trivial) with
        ⟨outcome, s', events, _, answer, refused, later⟩
      have accepted : values.length < capacity := by omega
      rw [fifo, if_pos accepted] at later
      rcases inductionHypothesis s' _ later (by simp; omega) with ⟨final, holds⟩
      exact ⟨final, by simpa [List.replicate_succ] using holds⟩

end Runs

/-! ## Construction -/

section Construction

variable {initial : State} {fuel limit : Nat} {free : List Address} {s : State} {node : Address}

/-- The new nodes stand before the free list, latest first. -/
theorem addNodes_pool (nodes free : List Address) (s : State) (blocks : Blocks (nodes ++ free))
    (pooled : Chain (fun node => (s.node node).poolNext) makeNodePtr s.topKey free 0) :
    Chain (fun node => ((addNodes nodes s).node node).poolNext) makeNodePtr (addNodes nodes s).topKey
      (nodes.reverse ++ free) 0 := by
  induction nodes generalizing free s with
  | nil => exact pooled
  | cons newNode rest inductionHypothesis =>
      have moved : (rest ++ newNode :: free).Perm (newNode :: rest ++ free) := List.perm_middle
      have outside : newNode ∉ free := by
        have distinct := blocks.distinct
        grind
      rw [List.reverse_cons, List.append_assoc]
      refine inductionHypothesis _ _ (blocks.perm moved) ⟨makeNodePtr_makeKey _ _ ?_, ?_⟩
      · exact blocks.below newNode (by simp)
      · simp only [State.setNode, Function.update_self]
        refine pooled.congr ?_
        intro other member
        have different : other ≠ newNode := by grind
        simp [different]

theorem addNodes_useSize (nodes : List Address) (s : State) :
    (addNodes nodes s).useSize = s.useSize := by
  induction nodes generalizing s with
  | nil => rfl
  | cons newNode rest inductionHypothesis => exact inductionHypothesis _

theorem Holds.pushs {nodes : List Address} {values : List Value} (holds : Holds nodes s values)
    (pushs : BitVec 64) : Holds nodes { s with pushs := pushs } values := by
  rcases holds.placed with ⟨queued, free, layout, values⟩
  refine ⟨⟨queued, free, ?_, values⟩, holds.counted⟩
  exact layout.congr rfl rfl rfl rfl (fun _ _ => rfl) fun _ _ => rfl

/-- Without a node the constructor dereferences null. -/
theorem construct_empty {post : Unit -> State -> Prop} (null : s.topKey = 0) :
    ¬ Alone initial limit (construct (fuel + 1)) s post := by
  intro alone
  have nullNode : makeNodePtr s.topKey = 0 := by rw [null, makeNodePtr_zero]
  rw [construct, alloc, Program.bind_assoc, alone_op rfl, if_pos nullNode, Program.pure_eq_done,
    Program.bind_done, alone_op rfl, alone_op rfl] at alone
  rcases alone with ⟨result, performed, _⟩
  cases performed

theorem construct_alone {nodes : List Address} (blocks : Blocks nodes)
    (covered : (node :: free).Perm nodes)
    (pooled : Chain (fun node => (s.node node).poolNext) makeNodePtr s.topKey (node :: free) 0)
    (used : s.useSize = 0) (size : s.size = 0) :
    Alone initial limit (construct (fuel + 1)) s fun _ s' => Holds nodes s' [] := by
  have usable := blocks.usable node (covered.mem_iff.mp (by simp))
  have ownKey := makeNodePtr_below node (blocks.below node (covered.mem_iff.mp (by simp)))
  have distinct := (blocks.perm covered).distinct
  rw [construct]
  refine alone_bind (alloc_node pooled.1 usable) ?_
  rintro head s' ⟨rfl, rfl⟩
  rw [alone_op rfl, alone_op rfl, alone_op (perform_storeKey usable _), alone_op rfl, alone_perform rfl]
  refine ⟨⟨[], free, ⟨rfl, ?_, ?_, ?_, ?_⟩, rfl⟩, by simp [State.setNode, size]⟩
  · simp [State.setNode, ownKey]
  · refine pooled.2.congr ?_
    intro other member
    have different : other ≠ head := by grind
    simp [State.setNode, different]
  · simpa [State.setNode, ownKey] using covered
  · simp [State.setNode, used]

theorem poolNodes_length (malloc : Nat -> Address) (size : BitVec 32) :
    (poolNodes malloc size).length = size.toInt.toNat := by
  simp [poolNodes]

theorem poolNodes_few (malloc : Nat -> Address) (size : BitVec 32) :
    (poolNodes malloc size).length < 2 ^ 31 := by
  have below : size.toInt < 2 ^ 31 := BitVec.toInt_lt
  rw [poolNodes_length]
  omega

theorem poolNodes_small (malloc : Nat -> Address) (initailSize : BitVec 64)
    (small : initailSize.toNat < 2 ^ 31) :
    (poolNodes malloc (initailSize.setWidth 32)).length = initailSize.toNat := by
  have same : (initailSize.setWidth 32).toNat = initailSize.toNat := by
    rw [BitVec.toNat_setWidth]
    omega
  rw [poolNodes_length, BitVec.toInt_eq_toNat_of_lt] <;> omega

/-- The constructor makes an empty queue when the `int` is positive. -/
theorem constructed (malloc : Nat -> Address) (initailSize : BitVec 64) (memory : State)
    (blocks : Blocks (poolNodes malloc (initailSize.setWidth 32)))
    (positive : 0 < (initailSize.setWidth 32).toInt) :
    Alone initial limit (construct (fuel + 1)) (members malloc initailSize memory) fun _ s =>
      Holds (poolNodes malloc (initailSize.setWidth 32)) s [] := by
  have size := poolNodes_length malloc (initailSize.setWidth 32)
  have pooled := addNodes_pool (poolNodes malloc (initailSize.setWidth 32)) []
    { memory with maxSize := (initailSize.setWidth 32).signExtend 64, useSize := 0, topKey := 0 }
    (by simpa using blocks) rfl
  rw [List.append_nil] at pooled
  cases free : (poolNodes malloc (initailSize.setWidth 32)).reverse with
  | nil =>
      have none := congrArg List.length free
      simp only [List.length_reverse, List.length_nil] at none
      omega
  | cons node rest =>
      rw [free] at pooled
      have covered : (node :: rest).Perm (poolNodes malloc (initailSize.setWidth 32)) := by
        rw [← free]
        exact List.reverse_perm _
      exact construct_alone (s := members malloc initailSize memory) blocks covered pooled
        (addNodes_useSize _ _) rfl

/-- The queue that the constructor makes serves as a FIFO with room for all its nodes
but one, also when its counters have other values. -/
def BoundedFifo (malloc : Nat -> Address) (initailSize : BitVec 64) (memory : State)
    (pushs : BitVec 64) (limit : Nat) : Prop :=
  Alone memory limit (construct limit) (members malloc initailSize memory) fun _ s =>
    forall calls, Serves (poolNodes malloc (initailSize.setWidth 32)) (initailSize.toNat - 1) limit
      calls { s with pushs := pushs } []

/-- A `LockFreeQueue`, called by one thread after another, is a FIFO for `initailSize - 1`
values exactly when `initailSize` is an `int`: over every list of calls, every memory and every
start of the version counter.  From there on the pool has fewer nodes, since the size is passed
on as an `int`. -/
theorem queue_boundedFifo_iff (malloc : Nat -> Address) (initailSize : BitVec 64) (memory : State)
    (pushs : BitVec 64) (fuel : Nat) (positive : 1 ≤ initailSize.toNat)
    (blocks : Blocks (poolNodes malloc (initailSize.setWidth 32))) :
    BoundedFifo malloc initailSize memory pushs (fuel + 1) ↔ initailSize.toNat < 2 ^ 31 := by
  have few := poolNodes_few malloc (initailSize.setWidth 32)
  unfold BoundedFifo
  constructor
  · intro serves
    by_contra large
    rcases serves.returned (Program.returns_of_forall _ fun _ => trivial) with
      ⟨_, s, _, _, serves⟩
    rcases (serves _).pushes 0 (poolNodes malloc (initailSize.setWidth 32)).length _ _ (by simp; omega) with
      ⟨final, holds⟩
    have kept := holds.length_lt
    simp at kept
  · intro small
    have size := poolNodes_small malloc initailSize small
    have positive : 0 < (initailSize.setWidth 32).toInt := by
      rw [poolNodes_length] at size
      omega
    refine (constructed malloc initailSize memory blocks positive).mono ?_
    intro _ s _ holds calls
    exact serves_of_holds blocks few (by omega) calls _ _ (holds.pushs pushs)

/-- Blocks of 32 bytes, one behind the other. -/
def row (i : Nat) : Address := 0x10000 + 0x20 * BitVec.ofNat 64 i

def cleared : State where
  node := fun _ => ⟨0, 0, 0⟩
  maxSize := 0
  useSize := 0
  topKey := 0
  pushCount := 0
  pushs := 0
  head := 0
  tail := 0
  size := 0

theorem queue_boundedFifo_threeNodes : BoundedFifo row 3 cleared 0xFFFF 1 := by
  have nodes : poolNodes row ((3 : BitVec 64).setWidth 32) = [0x10000, 0x10020, 0x10040] := by decide
  refine (queue_boundedFifo_iff row 3 cleared 0xFFFF 0 (by decide) ?_).mpr (by decide)
  rw [nodes]
  exact ⟨by decide, by simp, by simp⟩

/-- A queue for `2 ^ 31` nodes gets none. -/
theorem queue_tooLarge : Blocks (poolNodes row ((0x80000000 : BitVec 64).setWidth 32)) ∧
    forall fuel, ¬ BoundedFifo row 0x80000000 cleared 0 (fuel + 1) := by
  have empty : poolNodes row ((0x80000000 : BitVec 64).setWidth 32) = [] := by decide
  constructor
  · rw [empty]
    exact ⟨List.nodup_nil, by simp, by simp⟩
  · intro fuel
    apply construct_empty
    change (addNodes (poolNodes row _) _).topKey = 0
    rw [empty]
    rfl

end Construction
end Queue
end LoginServer
