import LoginServer.Memory.Chain
import LoginServer.Queue.Programs

namespace LoginServer
namespace Queue

open Memory

/-!
# The two lists

The nodes of the pool form two chains: the queue from `_head` to `_tail`, through
`key`, and the free nodes from `topKey`, through `poolNext`.  A node that a call
has taken from one list and not yet given to the other is held by that call.

Each write of the programs moves one node from one place to the next.  The order
numbers in the upper bits of the keys never matter for that.
-/

/-! ## Keys -/

/-- What `malloc` answers: different blocks that a key has room for. -/
structure Blocks (nodes : List Address) : Prop where
  distinct : nodes.Nodup
  usable : forall node, node ∈ nodes -> node ≠ 0
  below : forall node, node ∈ nodes -> node < 0x0001000000000000

theorem Blocks.perm {nodes others : List Address} (blocks : Blocks nodes) (perm : others.Perm nodes) :
    Blocks others where
  distinct := perm.nodup_iff.mpr blocks.distinct
  usable := fun node member => blocks.usable node (perm.mem_iff.mp member)
  below := fun node member => blocks.below node (perm.mem_iff.mp member)

theorem Blocks.sublist {nodes others : List Address} (blocks : Blocks nodes)
    (sublist : others.Sublist nodes) : Blocks others where
  distinct := blocks.distinct.sublist sublist
  usable := fun node member => blocks.usable node (sublist.subset member)
  below := fun node member => blocks.below node (sublist.subset member)

theorem Blocks.cons {nodes others : List Address} {node : Address} (blocks : Blocks nodes)
    (more : Blocks (node :: others)) (outside : node ∉ nodes) : Blocks (node :: nodes) where
  distinct := List.nodup_cons.mpr ⟨outside, blocks.distinct⟩
  usable := by
    intro other member
    rcases List.mem_cons.mp member with rfl | inside
    · exact more.usable _ (List.mem_cons_self ..)
    · exact blocks.usable other inside
  below := by
    intro other member
    rcases List.mem_cons.mp member with rfl | inside
    · exact more.below _ (List.mem_cons_self ..)
    · exact blocks.below other inside

theorem makeNodePtr_makeKey (nodePtr : Address) (pushNo : BitVec 64)
    (below : nodePtr < 0x0001000000000000) : makeNodePtr (makeKey nodePtr pushNo) = nodePtr := by
  have small : nodePtr.toNat < 2 ^ 48 := by simpa [BitVec.lt_def] using below
  apply BitVec.eq_of_getLsbD_eq
  intro position inside
  have mask : (0x0000FFFFFFFFFFFF : BitVec 64).getLsbD position = decide (position < 48) := by
    have word : (0x0000FFFFFFFFFFFF : BitVec 64) = BitVec.ofNat 64 (2 ^ 48 - 1) := rfl
    rw [word, BitVec.getLsbD_ofNat, Nat.testBit_two_pow_sub_one]
    simp [inside]
  simp only [makeNodePtr, makeKey, BitVec.getLsbD_and, BitVec.getLsbD_or, BitVec.getLsbD_shiftLeft,
    mask]
  by_cases low : position < 48
  · simp [low]
  · have clear : nodePtr.getLsbD position = false := by
      apply Nat.testBit_lt_two_pow
      exact Nat.lt_of_lt_of_le small (Nat.pow_le_pow_right Nat.two_pos (Nat.le_of_not_lt low))
    simp [low, clear]

@[simp] theorem makeNodePtr_zero : makeNodePtr 0 = 0 := rfl

theorem makeNodePtr_below (nodePtr : Address) (below : nodePtr < 0x0001000000000000) :
    makeNodePtr nodePtr = nodePtr := by
  simpa [makeKey] using makeNodePtr_makeKey nodePtr 0 below

/-! ## The layout -/

structure Layout (nodes : List Address) (s : State) (queued free held : List Address) : Prop where
  /-- From the dummy to the node before the last. -/
  linked : Chain (fun node => (s.node node).key) makeNodePtr s.head queued s.tail
  ended : (s.node (makeNodePtr s.tail)).key = 0
  pooled : Chain (fun node => (s.node node).poolNext) makeNodePtr s.topKey free 0
  covered : (queued ++ makeNodePtr s.tail :: (free ++ held)).Perm nodes
  used : s.useSize.toNat = queued.length + 1 + held.length

/-- The values behind the dummy, in order. -/
def contents (s : State) (queued : List Address) : List Value :=
  (queued ++ [makeNodePtr s.tail]).tail.map fun node => (s.node node).value

@[simp] theorem contents_length (s : State) (queued : List Address) :
    (contents s queued).length = queued.length := by
  simp [contents]

namespace Layout

variable {nodes queued free held : List Address} {s : State} {node : Address}

theorem length (layout : Layout nodes s queued free held) :
    queued.length + 1 + free.length + held.length = nodes.length := by
  have total := layout.covered.length_eq
  simp only [List.length_append, List.length_cons] at total
  omega

theorem distinct (layout : Layout nodes s queued free held) (blocks : Blocks nodes) :
    (queued ++ makeNodePtr s.tail :: (free ++ held)).Nodup :=
  layout.covered.nodup_iff.mpr blocks.distinct

theorem tail_member (layout : Layout nodes s queued free held) : makeNodePtr s.tail ∈ nodes :=
  layout.covered.mem_iff.mp (by simp)

theorem held_member (layout : Layout nodes s queued free (node :: held)) : node ∈ nodes :=
  layout.covered.mem_iff.mp (by simp)

theorem free_member (layout : Layout nodes s queued (node :: free) held) : node ∈ nodes :=
  layout.covered.mem_iff.mp (by simp)

theorem queued_member (layout : Layout nodes s (node :: queued) free held) : node ∈ nodes :=
  layout.covered.mem_iff.mp (by simp)

/-- The free list is empty when its key is null. -/
theorem topKey_null (layout : Layout nodes s queued [] held) : s.topKey = 0 := layout.pooled

theorem topKey_node (layout : Layout nodes s queued (node :: free) held) :
    makeNodePtr s.topKey = node := layout.pooled.1

theorem head_node (layout : Layout nodes s (node :: queued) free held) :
    makeNodePtr s.head = node := layout.linked.1

/-- What a layout depends on. -/
theorem congr {s' : State} (layout : Layout nodes s queued free held) (head : s'.head = s.head)
    (tail : s'.tail = s.tail) (topKey : s'.topKey = s.topKey) (useSize : s'.useSize = s.useSize)
    (keys : forall node, node ∈ queued ++ [makeNodePtr s.tail] -> (s'.node node).key = (s.node node).key)
    (nexts : forall node, node ∈ free -> (s'.node node).poolNext = (s.node node).poolNext) :
    Layout nodes s' queued free held where
  linked := by
    rw [head, tail]
    exact layout.linked.congr fun node member => keys node (List.mem_append_left _ member)
  ended := by
    rw [tail, keys _ (List.mem_append_right _ (List.mem_singleton_self _))]
    exact layout.ended
  pooled := by
    rw [topKey]
    exact layout.pooled.congr nexts
  covered := by
    rw [tail]
    exact layout.covered
  used := by
    rw [useSize]
    exact layout.used

/-- A call takes the first free node. -/
theorem takeFree (layout : Layout nodes s queued (node :: free) held) (few : nodes.length < 2 ^ 31) :
    Layout nodes { s with topKey := (s.node node).poolNext, useSize := s.useSize + 1 }
      queued free (node :: held) where
  linked := layout.linked
  ended := layout.ended
  pooled := layout.pooled.2
  covered := by
    refine List.Perm.trans ?_ layout.covered
    exact (List.perm_middle.cons _).append_left _
  used := by
    have total := layout.length
    have used := layout.used
    simp only [List.length_cons] at total ⊢
    rw [BitVec.toNat_add_of_lt] <;> simp <;> omega

/-- What happens to a held node concerns neither list. -/
theorem storeHeld (layout : Layout nodes s queued free (node :: held)) (blocks : Blocks nodes)
    (content : Node) : Layout nodes (s.setNode node content) queued free (node :: held) := by
  have distinct := layout.distinct blocks
  have elsewhere : forall other, other ≠ node -> (s.setNode node content).node other = s.node other :=
    fun other different => Function.update_of_ne different _ _
  refine layout.congr rfl rfl rfl rfl ?_ ?_
  · intro other member
    rw [elsewhere]
    rintro rfl
    simp only [List.mem_append, List.mem_singleton] at member
    grind
  · intro other member
    rw [elsewhere]
    rintro rfl
    grind

/-- A held node becomes the last of the queue. -/
theorem link (layout : Layout nodes s queued free (node :: held)) (blocks : Blocks nodes)
    (newKey : Key) (leads : makeNodePtr newKey = node) (null : (s.node node).key = 0) :
    Layout nodes
      { s.setNode (makeNodePtr s.tail) { s.node (makeNodePtr s.tail) with key := newKey } with
        tail := newKey } (queued ++ [makeNodePtr s.tail]) free held := by
  have distinct := layout.distinct blocks
  have newLast : node ≠ makeNodePtr s.tail := by grind
  refine ⟨Chain.snoc (layout.linked.congr ?_) ?_, ?_, layout.pooled.congr ?_, ?_, ?_⟩
  · intro other member
    have different : other ≠ makeNodePtr s.tail := by grind
    simp [State.setNode, different]
  · simp [State.setNode]
  · simpa [State.setNode, leads, newLast] using null
  · intro other member
    by_cases last : other = makeNodePtr s.tail
    · simp [State.setNode, last]
    · simp [State.setNode, last]
  · refine List.Perm.trans ?_ layout.covered
    rw [List.append_assoc, leads]
    exact (List.perm_middle.symm.cons _).append_left _
  · simpa [State.setNode, Nat.add_assoc, Nat.add_comm, Nat.add_left_comm] using layout.used

/-- The dummy leaves the queue, and the next node becomes the dummy. -/
theorem leave (layout : Layout nodes s (node :: queued) free held) :
    Layout nodes { s with head := (s.node node).key } queued free (node :: held) where
  linked := layout.linked.2
  ended := layout.ended
  pooled := layout.pooled
  covered := by
    refine List.Perm.trans ?_ layout.covered
    have moved : ((queued ++ makeNodePtr s.tail :: free) ++ node :: held).Perm
        (node :: ((queued ++ makeNodePtr s.tail :: free) ++ held)) := List.perm_middle
    simpa using moved
  used := by
    have used := layout.used
    simp only [List.length_cons] at used ⊢
    omega

/-- A held node becomes the first of the free list. -/
theorem release (layout : Layout nodes s queued free (node :: held)) (blocks : Blocks nodes)
    (newKey : Key) (count : BitVec 64) (leads : makeNodePtr newKey = node) :
    Layout nodes
      { s.setNode node { s.node node with poolNext := s.topKey } with
        topKey := newKey, pushCount := count, useSize := s.useSize - 1 }
      queued (node :: free) held := by
  have distinct := layout.distinct blocks
  refine ⟨layout.linked.congr ?_, ?_, ⟨leads, ?_⟩, ?_, ?_⟩
  · intro other member
    have different : other ≠ node := by grind
    simp [State.setNode, different]
  · have different : makeNodePtr s.tail ≠ node := by grind
    simpa [State.setNode, different] using layout.ended
  · have same : Chain (fun node => (s.node node).poolNext) makeNodePtr s.topKey free 0 := layout.pooled
    simp only [State.setNode, Function.update_self]
    refine same.congr ?_
    intro other member
    have different : other ≠ node := by grind
    simp [different]
  · refine List.Perm.trans ?_ layout.covered
    exact (List.perm_middle.symm.cons _).append_left _
  · have used := layout.used
    simp only [List.length_cons] at used
    have positive : (1 : BitVec 64) ≤ s.useSize := by
      rw [BitVec.le_def]
      simp
      omega
    simp only [BitVec.toNat_sub_of_le positive]
    simp
    omega

end Layout

/-! ## The values -/

section Values

variable {nodes queued free held : List Address} {s : State} {node : Address}

/-- The value that the key of the dummy leads to is the first. -/
theorem contents_cons (layout : Layout nodes s (node :: queued) free held) :
    contents s (node :: queued) =
      (s.node (makeNodePtr (s.node node).key)).value :: contents s queued := by
  have next := layout.linked.2
  cases queued with
  | nil =>
      have last : (s.node node).key = s.tail := next
      simp [contents, last]
  | cons second queued =>
      have leads : makeNodePtr (s.node node).key = second := next.1
      simp [contents, leads]

theorem contents_storeHeld (layout : Layout nodes s queued free (node :: held)) (blocks : Blocks nodes)
    (content : Node) : contents (s.setNode node content) queued = contents s queued := by
  have distinct := layout.distinct blocks
  apply List.map_congr_left
  intro other member
  have inside : other ∈ queued ++ [makeNodePtr s.tail] := List.mem_of_mem_tail member
  have different : other ≠ node := by grind
  simp [State.setNode, different]

theorem contents_congr {s' : State} (tail : s'.tail = s.tail)
    (values : forall node, (s'.node node).value = (s.node node).value) :
    contents s' queued = contents s queued := by
  simp only [contents, tail, values]

theorem contents_snoc {s' : State} {newKey : Key} (tail : s'.tail = newKey)
    (values : forall node, (s'.node node).value = (s.node node).value) :
    contents s' (queued ++ [makeNodePtr s.tail]) =
      contents s queued ++ [(s.node (makeNodePtr newKey)).value] := by
  have behind : ((queued ++ [makeNodePtr s.tail]) ++ [makeNodePtr newKey]).tail =
      (queued ++ [makeNodePtr s.tail]).tail ++ [makeNodePtr newKey] :=
    List.tail_append_of_ne_nil (by simp)
  simp only [contents, tail, values, behind, List.map_append, List.map_cons, List.map_nil]

end Values

end Queue
end LoginServer
