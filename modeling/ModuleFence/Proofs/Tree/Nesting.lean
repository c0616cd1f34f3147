import ModuleFence.Proofs.Tree.Order

/-!
Ranges that nest. Where each child lies inside its parent and siblings follow one another, a node of
a tree lies behind every node before it in the order of the tree, unless it lies below that node.
-/

set_option autoImplicit false

namespace ModuleFence.Node

def startByte (node : Node) : Nat :=
  node.label.start.byte

def stopByte (node : Node) : Nat :=
  node.label.stop.byte

/-- The children of a node lie inside it, one behind the other. -/
structure EnclosesChildren (node : Node) : Prop where
  forward : node.startByte ≤ node.stopByte
  inside : ∀ child ∈ node.children,
    node.startByte ≤ child.startByte ∧ child.stopByte ≤ node.stopByte
  ordered : node.children.Pairwise fun child next => child.stopByte ≤ next.startByte

instance (node : Node) : Decidable node.EnclosesChildren :=
  decidable_of_iff (node.startByte ≤ node.stopByte ∧
      (∀ child ∈ node.children,
        node.startByte ≤ child.startByte ∧ child.stopByte ≤ node.stopByte) ∧
      node.children.Pairwise fun child next => child.stopByte ≤ next.startByte)
    ⟨fun parts => ⟨parts.1, parts.2.1, parts.2.2⟩,
      fun encloses => ⟨encloses.forward, encloses.inside, encloses.ordered⟩⟩

/-- Trees whose ranges are properly nested and ordered. -/
def IsNested (root : Node) : Prop :=
  ∀ node ∈ root.preorder, node.EnclosesChildren

instance (root : Node) : Decidable root.IsNested :=
  inferInstanceAs (Decidable (∀ node ∈ root.preorder, node.EnclosesChildren))

def descendants (node : Node) : List Node :=
  node.children.flatMap preorder

variable {root : Node}

theorem preorder_eq_cons (node : Node) : node.preorder = node :: node.descendants :=
  preorder_eq node

theorem mem_preorder_of_mem_descendants {inner node : Node} (below : inner ∈ node.descendants) :
    inner ∈ node.preorder := by
  rw [preorder_eq_cons]
  exact List.mem_cons_of_mem _ below

theorem IsNested.of_mem (nested : root.IsNested) {inner : Node} (member : inner ∈ root.preorder) :
    inner.IsNested :=
  fun node below => nested node (mem_preorder_trans below member)

theorem IsNested.of_mem_children (nested : root.IsNested) {child : Node}
    (member : child ∈ root.children) : child.IsNested :=
  nested.of_mem (mem_preorder_of_mem_children member (self_mem_preorder child))

/-- Every node of a nested tree lies inside it. -/
theorem IsNested.within (nested : root.IsNested) {inner : Node} (member : inner ∈ root.preorder) :
    root.startByte ≤ inner.startByte ∧ inner.startByte ≤ inner.stopByte ∧
      inner.stopByte ≤ root.stopByte := by
  induction root using induction_children with
  | step node ih =>
    have here := nested node (self_mem_preorder node)
    rw [preorder_eq] at member
    rcases List.mem_cons.mp member with rfl | deeper
    · exact ⟨Nat.le_refl _, here.forward, Nat.le_refl _⟩
    · obtain ⟨child, isChild, inChild⟩ := List.mem_flatMap.mp deeper
      have inside := here.inside child isChild
      have deep := ih child isChild (nested.of_mem_children isChild) inChild
      omega

/-- The nodes of a subtree stand together in the order of the whole tree. -/
theorem sublist_preorder {node : Node} (member : node ∈ root.preorder) :
    node.preorder.Sublist root.preorder := by
  induction root using induction_children with
  | step parent ih =>
    rw [preorder_eq parent] at member ⊢
    rcases List.mem_cons.mp member with rfl | deeper
    · exact (preorder_eq node).symm ▸ List.Sublist.refl _
    · obtain ⟨child, isChild, inChild⟩ := List.mem_flatMap.mp deeper
      have part : child.preorder.Sublist (parent.children.flatMap preorder) :=
        List.sublist_flatten_of_mem (List.mem_map_of_mem isChild)
      exact ((ih child isChild inChild).trans part).cons _

/-- Of two nodes of a nested tree, the later one lies below the earlier one or behind it. -/
theorem IsNested.pairwise_preorder (nested : root.IsNested) :
    root.preorder.Pairwise fun node later =>
      later ∈ node.descendants ∨ node.stopByte ≤ later.startByte := by
  induction root using induction_children with
  | step parent ih =>
    have here := nested parent (self_mem_preorder parent)
    rw [preorder_eq_cons, List.pairwise_cons]
    refine ⟨fun later below => Or.inl below, ?_⟩
    rw [descendants, List.pairwise_flatMap]
    refine ⟨fun child isChild => ih child isChild (nested.of_mem_children isChild), ?_⟩
    refine here.ordered.imp_of_mem ?_
    intro child next isChild isNext apart node inChild later inNext
    have first := (nested.of_mem_children isChild).within inChild
    have second := (nested.of_mem_children isNext).within inNext
    right
    omega

/-- Parts that the nodes of a nested tree have inside themselves, each node in order, are in order
altogether exactly when no node has a part behind one of a node below it. -/
theorem IsNested.pairwise_flatMap_iff (nested : root.IsNested) {α : Type} {parts : Node → List α}
    {place : α → Int}
    (inside : ∀ node ∈ root.preorder, ∀ part ∈ parts node,
      (node.startByte : Int) ≤ place part ∧ place part ≤ (node.stopByte : Int))
    (each : ∀ node ∈ root.preorder,
      (parts node).Pairwise fun part later => place part ≤ place later) :
    ((root.preorder.flatMap parts).Pairwise fun part later => place part ≤ place later) ↔
      ∀ node ∈ root.preorder, ∀ inner ∈ node.descendants,
        ∀ part ∈ parts node, ∀ later ∈ parts inner, place part ≤ place later := by
  rw [List.pairwise_flatMap]
  constructor
  · rintro ⟨-, across⟩ node member inner below
    have subtree := across.sublist (sublist_preorder member)
    rw [preorder_eq_cons, List.pairwise_cons] at subtree
    exact subtree.1 inner below
  · intro nestedParts
    refine ⟨each, ?_⟩
    refine nested.pairwise_preorder.imp_of_mem ?_
    intro node later here there apart part has other owns
    rcases apart with below | behind
    · exact nestedParts node here later below part has other owns
    · have first := inside node here part has
      have second := inside later there other owns
      omega

end ModuleFence.Node
