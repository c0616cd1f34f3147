import ModuleFence.Proofs.Tree.Address
import ModuleFence.Tree.Damage

set_option autoImplicit false

namespace ModuleFence.Node

/-- Searches that agree on each element of a list find the same. -/
theorem findSome?_congr {α β : Type} {first second : α → Option β} {elements : List α}
    (same : ∀ element ∈ elements, first element = second element) :
    elements.findSome? first = elements.findSome? second := by
  induction elements with
  | nil => rfl
  | cons element rest ih =>
    rw [List.forall_mem_cons] at same
    rw [List.findSome?_cons, List.findSome?_cons, same.1, ih same.2]

theorem firstDamageFrom?_append (first second : List Node) :
    firstDamageFrom? (first ++ second) = (firstDamageFrom? first).or (firstDamageFrom? second) := by
  induction first using firstDamageFrom?.induct with
  | case1 => rw [List.nil_append, firstDamageFrom?, Option.none_or]
  | case2 node rest damaged =>
    rw [List.cons_append, firstDamageFrom?, firstDamageFrom?, if_pos damaged, if_pos damaged,
      Option.some_or]
  | case3 node rest whole flagged ih =>
    rw [List.cons_append, firstDamageFrom?, firstDamageFrom?, if_neg whole, if_neg whole,
      if_pos flagged, if_pos flagged, ← List.append_assoc, ih]
  | case4 node rest whole unflagged ih =>
    rw [List.cons_append, firstDamageFrom?, firstDamageFrom?, if_neg whole, if_neg whole,
      if_neg unflagged, if_neg unflagged, ih]

/-- The trees that wait are searched one after the other. -/
theorem firstDamageFrom?_eq_findSome? (waiting : List Node) :
    firstDamageFrom? waiting = waiting.findSome? firstDamage? := by
  induction waiting with
  | nil => rw [firstDamageFrom?, List.findSome?_nil]
  | cons node rest ih =>
    have split := firstDamageFrom?_append [node] rest
    rw [List.singleton_append, ih] at split
    rw [split, List.findSome?_cons, firstDamage?]
    cases firstDamageFrom? [node] <;> rfl

/-- A tree is searched from its root down, and below the root from left to right. -/
theorem firstDamage?_eq (node : Node) :
    node.firstDamage? =
      if node.isDamage then some node
      else if node.label.hasError then node.children.findSome? firstDamage?
      else none := by
  rw [firstDamage?, firstDamageFrom?, List.append_nil, firstDamageFrom?_eq_findSome?,
    firstDamageFrom?]

/-- There is damage at an address of a tree, and all nodes on the way down to it are flagged. -/
structure Exposed (root : Node) (address : List Nat) : Prop where
  damaged : ∃ node ∈ at? address root, node.isDamage = true
  flagged : ∀ depth < address.length,
    ∃ ancestor ∈ at? (address.take depth) root, ancestor.label.hasError = true

instance (root : Node) (address : List Nat) : Decidable (Exposed root address) :=
  decidable_of_iff
    ((∃ node ∈ at? address root, node.isDamage = true) ∧
      ∀ depth < address.length,
        ∃ ancestor ∈ at? (address.take depth) root, ancestor.label.hasError = true)
    ⟨fun ⟨damaged, flagged⟩ => ⟨damaged, flagged⟩, fun ⟨damaged, flagged⟩ => ⟨damaged, flagged⟩⟩

theorem exposed_nil_iff (root : Node) : Exposed root [] ↔ root.isDamage = true := by
  constructor
  · rintro ⟨⟨node, ⟨rfl⟩, damaged⟩, -⟩
    exact damaged
  · intro damaged
    exact ⟨⟨root, rfl, damaged⟩, fun _ impossible => absurd impossible (Nat.not_lt_zero _)⟩

/-- Damage below a node shows if the node is flagged and the damage shows in its child. -/
theorem exposed_cons_iff {root child : Node} {index : Nat}
    (found : root.children[index]? = some child) (rest : List Nat) :
    Exposed root (index :: rest) ↔ root.label.hasError = true ∧ Exposed child rest := by
  have below (address : List Nat) : at? (index :: address) root = at? address child := by
    rw [at?, found, Option.bind_some]
  constructor
  · rintro ⟨damaged, flagged⟩
    obtain ⟨_, ⟨rfl⟩, here⟩ := flagged 0 (Nat.succ_pos _)
    refine ⟨here, below rest ▸ damaged, fun depth above => ?_⟩
    rw [← below, ← List.take_succ_cons]
    exact flagged (depth + 1) (Nat.succ_lt_succ above)
  · rintro ⟨here, damaged, flagged⟩
    refine ⟨(below rest).symm ▸ damaged, fun depth above => ?_⟩
    cases depth with
    | zero => exact ⟨root, rfl, here⟩
    | succ depth =>
      rw [List.take_succ_cons, below]
      exact flagged depth (Nat.lt_of_succ_lt_succ above)

/-- The search finds the damage at the first of the addresses at which damage shows. -/
theorem firstDamage?_eq_find?_addresses (root : Node) :
    root.firstDamage? =
      (root.addresses.find? fun address => Exposed root address).bind (at? · root) := by
  induction root using induction_children with
  | step node ih =>
    -- The children are counted from the number of those that were searched before.
    have below (flagged : node.label.hasError = true) (before children : List Node)
        (split : node.children = before ++ children) :
        ((addressesFrom before.length children).find? fun address => Exposed node address).bind
          (at? · node) = children.findSome? firstDamage? := by
      induction children generalizing before with
      | nil => rfl
      | cons child rest later =>
        have here : node.children[before.length]? = some child := by
          rw [split, List.getElem?_append_right (Nat.le_refl _), Nat.sub_self]
          rfl
        have behind := later (before ++ [child]) (by rw [split, List.append_assoc]; rfl)
        rw [List.length_append, List.length_singleton] at behind
        have inner : (fun address => decide (Exposed node address)) ∘ (before.length :: ·) =
            fun address => decide (Exposed child address) := by
          funext address
          exact decide_eq_decide.mpr
            ((exposed_cons_iff here address).trans (and_iff_right flagged))
        have first := ih child (List.mem_of_getElem? here)
        rw [addressesFrom, List.find?_append, List.find?_map, inner, List.findSome?_cons, first]
        cases found : child.addresses.find? fun address => decide (Exposed child address) with
        | none => exact behind
        | some address =>
          have exposed : Exposed child address := by simpa using List.find?_some found
          obtain ⟨damage, leads, -⟩ := exposed.damaged
          rw [Option.mem_def] at leads
          rw [Option.map_some, Option.some_or, Option.bind_some, Option.bind_some, at?, here,
            Option.bind_some, leads]
    rw [firstDamage?_eq, addresses_eq, List.find?_cons]
    by_cases damaged : node.isDamage = true
    · rw [if_pos damaged, decide_eq_true ((exposed_nil_iff node).mpr damaged)]
      rfl
    · rw [if_neg damaged, decide_eq_false (mt (exposed_nil_iff node).mp damaged)]
      by_cases flagged : node.label.hasError = true
      · rw [if_pos flagged]
        exact (below flagged [] node.children rfl).symm
      · have hidden :
            ((addressesFrom 0 node.children).find? fun address => Exposed node address) = none := by
          rw [List.find?_eq_none]
          intro address member exposed
          obtain ⟨position, child, rest, found, -, rfl⟩ := mem_addressesFrom_iff.mp member
          rw [Nat.zero_add] at exposed
          exact flagged ((exposed_cons_iff found rest).mp (of_decide_eq_true exposed)).1
        rw [if_neg flagged, hidden]
        rfl

/-- Exactly the nodes that hold damage, in themselves or below, are flagged. -/
def FlagsDamage (root : Node) : Prop :=
  ∀ node ∈ root.preorder, node.label.hasError = true ↔ ∃ inner ∈ node.preorder, inner.isDamage = true

instance (root : Node) : Decidable root.FlagsDamage :=
  inferInstanceAs (Decidable (∀ node ∈ root.preorder, _ ↔ _))

theorem FlagsDamage.child {node child : Node} (faithful : node.FlagsDamage)
    (member : child ∈ node.children) : child.FlagsDamage :=
  fun inner below => faithful inner (mem_preorder_of_mem_children member below)

/-- Where the flags are faithful, the search finds the first damage of all. -/
theorem FlagsDamage.firstDamage?_eq {root : Node} (faithful : root.FlagsDamage) :
    root.firstDamage? = root.preorder.find? isDamage := by
  induction root using induction_children with
  | step node ih =>
    rw [Node.firstDamage?_eq, preorder_eq, List.find?_cons]
    by_cases damaged : node.isDamage = true
    · rw [if_pos damaged, damaged]
    · rw [if_neg damaged, Bool.eq_false_iff.mpr damaged, List.find?_flatMap]
      by_cases flagged : node.label.hasError = true
      · rw [if_pos flagged]
        exact findSome?_congr fun child member => ih child member (faithful.child member)
      · rw [if_neg flagged, eq_comm, List.findSome?_eq_none_iff]
        intro child member
        rw [List.find?_eq_none]
        intro inner below broken
        have inside := mem_preorder_of_mem_children member below
        exact flagged ((faithful node (self_mem_preorder node)).mpr ⟨inner, inside, broken⟩)

end ModuleFence.Node
