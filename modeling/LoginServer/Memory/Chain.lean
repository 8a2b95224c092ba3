import Mathlib.Data.List.Basic

namespace LoginServer
namespace Memory

/-!
# Chains

A chain leads from a word through a list of nodes to a last word.  Each word
has a target, and each node holds the word to go on with.  Words may carry more
than their target, so two words with one target need not be equal.

Chains are how linked lists over a memory of nodes are described: the words of
one field of the nodes, read in one state.  A write to that field keeps every
chain that does not go through the node.
-/

variable {Word Node : Type}

def Chain (next : Node -> Word) (target : Word -> Node) : Word -> List Node -> Word -> Prop
  | first, [], last => first = last
  | first, node :: rest, last => target first = node ∧ Chain next target (next node) rest last

namespace Chain

variable {next next' : Node -> Word} {target : Word -> Node} {first middle last : Word}
  {node : Node} {nodes front rest : List Node}

@[simp] theorem nil_iff : Chain next target first [] last ↔ first = last := Iff.rfl

@[simp] theorem cons_iff : Chain next target first (node :: rest) last ↔
    target first = node ∧ Chain next target (next node) rest last := Iff.rfl

theorem append_iff : Chain next target first (front ++ rest) last ↔
    Exists fun middle => Chain next target first front middle ∧ Chain next target middle rest last := by
  induction front generalizing first with
  | nil => simp
  | cons node front inductionHypothesis => simp [inductionHypothesis, and_assoc]

/-- One more node at the end. -/
theorem snoc (chain : Chain next target first nodes middle) (reaches : next (target middle) = last) :
    Chain next target first (nodes ++ [target middle]) last :=
  append_iff.mpr ⟨middle, chain, rfl, reaches⟩

/-- A chain depends on its own nodes only. -/
theorem congr (chain : Chain next target first nodes last)
    (same : forall node, node ∈ nodes -> next' node = next node) :
    Chain next' target first nodes last := by
  induction nodes generalizing first with
  | nil => exact chain
  | cons node rest inductionHypothesis =>
      refine ⟨chain.1, ?_⟩
      rw [same node (List.mem_cons_self ..)]
      exact inductionHypothesis chain.2 fun other member => same other (.tail _ member)

/-- There is one chain at most to a word whose target is not on it. -/
theorem unique (chain : Chain next target first nodes last) (other : Chain next target first rest last)
    (outside : target last ∉ nodes) (outsideOther : target last ∉ rest) : nodes = rest := by
  induction nodes generalizing first rest with
  | nil =>
      cases rest with
      | nil => rfl
      | cons node rest =>
          have same : first = last := chain
          have head : target first = node := other.1
          exact absurd (List.mem_cons.mpr (.inl (same ▸ head))) outsideOther
  | cons node nodes inductionHypothesis =>
      cases rest with
      | nil =>
          have same : first = last := other
          have head : target first = node := chain.1
          exact absurd (List.mem_cons.mpr (.inl (same ▸ head))) outside
      | cons node' rest =>
          have same : node = node' := chain.1.symm.trans other.1
          subst same
          rw [inductionHypothesis chain.2 other.2 (fun member => outside (.tail _ member))
            (fun member => outsideOther (.tail _ member))]

/-- A node whose word is the last one is the last node. -/
theorem ends (chain : Chain next target first nodes last) (outside : target last ∉ nodes)
    (member : node ∈ nodes) (reaches : next node = last) :
    Exists fun front => nodes = front ++ [node] := by
  rcases List.append_of_mem member with ⟨front, rest, rfl⟩
  rcases append_iff.mp chain with ⟨middle, _, _, behind⟩
  rw [reaches] at behind
  cases rest with
  | nil => exact ⟨front, rfl⟩
  | cons second rest => exact absurd (by simp [behind.1.symm]) outside

end Chain
end Memory
end LoginServer
