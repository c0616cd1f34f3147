import ModuleFence.Proofs.Tree.Order

/-!
Addresses of nodes. An address leads from the root of a tree down to one of its nodes, by the number
of the child on each level. The order of a tree goes through all its addresses, each once, in
lexicographic order.
-/

set_option autoImplicit false

namespace ModuleFence.Node

def at? : List Nat → Node → Option Node
  | [], node => some node
  | index :: rest, node => node.children[index]?.bind (at? rest)

mutual

/-- The addresses of a tree, each before those of its descendants. -/
def addresses : Node → List (List Nat)
  | mk _ children => [] :: addressesFrom 0 children

/-- The addresses below some children of a node, which are counted from a number on. -/
def addressesFrom (index : Nat) : List Node → List (List Nat)
  | [] => []
  | child :: rest => (addresses child).map (index :: ·) ++ addressesFrom (index + 1) rest

end

theorem addresses_eq (node : Node) : node.addresses = [] :: addressesFrom 0 node.children := by
  cases node with
  | mk label children => rw [addresses, children_mk]

theorem mem_addressesFrom_iff {index : Nat} {children : List Node} {address : List Nat} :
    address ∈ addressesFrom index children ↔ ∃ position child rest,
      children[position]? = some child ∧ rest ∈ child.addresses ∧
        address = (index + position) :: rest := by
  induction children generalizing index with
  | nil => simp [addressesFrom]
  | cons first others ih =>
    rw [addressesFrom, List.mem_append, List.mem_map, ih]
    constructor
    · rintro (⟨rest, member, rfl⟩ | ⟨position, child, rest, found, member, rfl⟩)
      · exact ⟨0, first, rest, rfl, member, rfl⟩
      · exact ⟨position + 1, child, rest, found, member, by rw [Nat.add_right_comm, Nat.add_assoc]⟩
    · rintro ⟨position, child, rest, found, member, rfl⟩
      cases position with
      | zero =>
        cases found
        exact .inl ⟨rest, member, rfl⟩
      | succ position =>
        refine .inr ⟨position, child, rest, found, member, ?_⟩
        rw [Nat.add_right_comm, Nat.add_assoc]

/-- The addresses of a tree are those that lead to a node. -/
theorem mem_addresses_iff (root : Node) (address : List Nat) :
    address ∈ root.addresses ↔ (at? address root).isSome := by
  induction address generalizing root with
  | nil =>
    rw [addresses_eq, at?]
    exact iff_of_true List.mem_cons_self rfl
  | cons index rest ih =>
    rw [addresses_eq, at?, List.mem_cons, mem_addressesFrom_iff]
    simp only [reduceCtorEq, false_or, Nat.zero_add, List.cons.injEq]
    constructor
    · rintro ⟨position, child, below, found, member, rfl, rfl⟩
      rw [found]
      exact (ih child).mp member
    · intro leads
      cases found : root.children[index]? with
      | none =>
        rw [found] at leads
        cases leads
      | some child =>
        rw [found] at leads
        exact ⟨index, child, rest, found, (ih child).mpr leads, rfl, rfl⟩

/-- The addresses of a tree stand in lexicographic order. -/
theorem addresses_pairwise (root : Node) : root.addresses.Pairwise (· < ·) := by
  induction root using induction_children with
  | step node ih =>
    have children_sorted (index : Nat) (children : List Node)
        (sorted : ∀ child ∈ children, child.addresses.Pairwise (· < ·)) :
        (addressesFrom index children).Pairwise (· < ·) := by
      induction children generalizing index with
      | nil => exact .nil
      | cons child rest later =>
        rw [List.forall_mem_cons] at sorted
        rw [addressesFrom, List.pairwise_append, List.pairwise_map]
        refine ⟨?_, later (index + 1) sorted.2, ?_⟩
        · exact sorted.1.imp fun before => List.cons_lt_cons_self.mpr before
        · intro first here second there
          obtain ⟨address, -, rfl⟩ := List.mem_map.mp here
          obtain ⟨position, _, other, -, -, rfl⟩ := mem_addressesFrom_iff.mp there
          exact List.Lex.rel (by omega)
    rw [addresses_eq, List.pairwise_cons]
    refine ⟨?_, children_sorted 0 node.children ih⟩
    intro address member
    obtain ⟨position, _, rest, -, -, rfl⟩ := mem_addressesFrom_iff.mp member
    exact List.Lex.nil

/-- The order of a tree goes through its addresses. -/
theorem map_at?_addresses (root : Node) :
    root.addresses.map (at? · root) = root.preorder.map some := by
  induction root using induction_children with
  | step node ih =>
    have below (before children : List Node) (split : node.children = before ++ children) :
        (addressesFrom before.length children).map (at? · node) =
          (children.flatMap preorder).map some := by
      induction children generalizing before with
      | nil => rfl
      | cons child rest later =>
        have here : node.children[before.length]? = some child := by
          rw [split, List.getElem?_append_right (Nat.le_refl _), Nat.sub_self]
          rfl
        have behind := later (before ++ [child]) (by rw [split, List.append_assoc]; rfl)
        rw [List.length_append, List.length_singleton] at behind
        rw [addressesFrom, List.map_append, behind, List.flatMap_cons, List.map_append,
          ← ih child (List.mem_of_getElem? here), List.map_map]
        congr 1
        refine List.map_congr_left fun address _ => ?_
        rw [Function.comp_apply, at?, here, Option.bind_some]
    rw [addresses_eq, List.map_cons, preorder_eq, List.map_cons, at?]
    exact congrArg _ (below [] node.children rfl)

end ModuleFence.Node
