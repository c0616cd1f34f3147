import ModuleFence.Proofs.Tree.Order

/-!
Deletion of all nodes of a kind below the root of a tree. Where such nodes are leaves without a role,
the other nodes keep their order, their roles and what they say of themselves.
-/

set_option autoImplicit false

namespace ModuleFence.Node

mutual

/-- A tree without the nodes of a kind below its root. -/
def without (kind : String) : Node → Node
  | mk label children => mk label (withoutAll kind children)

/-- Some trees without the nodes of a kind. -/
def withoutAll (kind : String) : List Node → List Node
  | [] => []
  | node :: rest =>
    if node.kind = kind then withoutAll kind rest else without kind node :: withoutAll kind rest

end

theorem withoutAll_eq (kind : String) (nodes : List Node) :
    withoutAll kind nodes = (nodes.filter fun node => node.kind ≠ kind).map (without kind) := by
  induction nodes with
  | nil => rw [withoutAll]; rfl
  | cons node rest ih =>
    rw [withoutAll, ih, List.filter_cons]
    by_cases same : node.kind = kind
    · simp only [same, if_true, ne_eq, not_true_eq_false, decide_false, Bool.false_eq_true, if_false]
    · simp only [same, if_false, ne_eq, not_false_eq_true, decide_true, if_true, List.map_cons]

theorem children_without (kind : String) (node : Node) :
    (without kind node).children =
      (node.children.filter fun child => child.kind ≠ kind).map (without kind) := by
  cases node
  rw [without, children_mk, withoutAll_eq, children_mk]

@[simp] theorem label_without (kind : String) (node : Node) :
    (without kind node).label = node.label := by
  cases node
  rw [without, label_mk, label_mk]

@[simp] theorem kind_without (kind : String) (node : Node) :
    (without kind node).kind = node.kind :=
  congrArg Label.kind (label_without kind node)

@[simp] theorem text_without (kind : String) (node : Node) :
    (without kind node).text = node.text :=
  congrArg Label.text (label_without kind node)

@[simp] theorem isMeaningful_without (kind : String) (node : Node) :
    (without kind node).isMeaningful = node.isMeaningful := by
  rw [isMeaningful, isMeaningful, label_without, kind_without]

@[simp] theorem hasField_without (name kind : String) (node : Node) :
    (without kind node).hasField name = node.hasField name := by
  rw [hasField, hasField, label_without]

/-- The nodes of a kind are leaves, have no role, and stand in no string literal. -/
structure Incidental (kind : String) (root : Node) : Prop where
  leaf : ∀ node ∈ root.preorder, node.kind = kind → node.children = []
  fieldless : ∀ node ∈ root.preorder, node.kind = kind → node.label.field = none
  unquoted : ∀ literal ∈ root.preorder, literal.kind = "string" →
    ∀ node ∈ literal.preorder, node.kind ≠ kind

instance (kind : String) (root : Node) : Decidable (Incidental kind root) :=
  decidable_of_iff
    ((∀ node ∈ root.preorder, node.kind = kind → node.children.isEmpty = true) ∧
      (∀ node ∈ root.preorder, node.kind = kind → node.label.field = none) ∧
      ∀ literal ∈ root.preorder, literal.kind = "string" →
        ∀ node ∈ literal.preorder, node.kind ≠ kind)
    ⟨fun ⟨leaf, fieldless, unquoted⟩ =>
      ⟨fun node inside same => List.isEmpty_iff.mp (leaf node inside same), fieldless, unquoted⟩,
      fun ⟨leaf, fieldless, unquoted⟩ =>
        ⟨fun node inside same => List.isEmpty_iff.mpr (leaf node inside same), fieldless, unquoted⟩⟩

namespace Incidental

variable {kind : String} {root : Node} (incidental : root.Incidental kind)

include incidental

theorem below {node : Node} (inside : node ∈ root.preorder) : node.Incidental kind where
  leaf inner deeper := incidental.leaf inner (mem_preorder_trans deeper inside)
  fieldless inner deeper := incidental.fieldless inner (mem_preorder_trans deeper inside)
  unquoted inner deeper := incidental.unquoted inner (mem_preorder_trans deeper inside)

theorem child {child : Node} (member : child ∈ root.children) : child.Incidental kind :=
  incidental.below (mem_preorder_of_mem_children member (self_mem_preorder child))

/-- The first child with a role is not deleted. -/
theorem child?_without (name : String) :
    (root.without kind).child? name = (root.child? name).map (without kind) := by
  have kept : ∀ child ∈ root.children, child.hasField name = true → child.kind ≠ kind := by
    intro child member role same
    have inside := mem_preorder_of_mem_children member (self_mem_preorder child)
    rw [hasField, incidental.fieldless child inside same] at role
    cases role
  rw [child?, child?, children_without, withField?, withField?]
  generalize root.children = nodes at kept
  induction nodes with
  | nil => rfl
  | cons child rest ih =>
    rw [List.forall_mem_cons] at kept
    have later := ih kept.2
    by_cases role : child.hasField name = true
    · rw [List.filter_cons_of_pos (by simpa using kept.1 role), List.map_cons,
        List.find?_cons_of_pos (by simpa using role), List.find?_cons_of_pos role, Option.map_some]
    · rw [List.find?_cons_of_neg role, ← later, List.filter_cons]
      split
      · rw [List.map_cons, List.find?_cons_of_neg (by simpa using role)]
      · rfl

end Incidental

/-- A tree without nodes of a kind is left as it is. -/
theorem without_of_absent {kind : String} {root : Node}
    (absent : ∀ node ∈ root.preorder, node.kind ≠ kind) : root.without kind = root := by
  induction root using induction_children with
  | step node ih =>
    have same (child : Node) (member : child ∈ node.children) : child.without kind = child :=
      ih child member fun inner deeper => absent inner (mem_preorder_of_mem_children member deeper)
    have all : node.children.filter (fun child => child.kind ≠ kind) = node.children := by
      rw [List.filter_eq_self]
      intro child member
      have inside := mem_preorder_of_mem_children member (self_mem_preorder child)
      exact decide_eq_true (absent child inside)
    obtain ⟨label, children⟩ := node
    rw [children_mk] at same all
    rw [without, withoutAll_eq, all, List.map_congr_left same, List.map_id'']
    exact fun child => rfl

/-- What is read off the nodes below the root of a tree can be read off those that are kept, when
nothing is read off the others. -/
theorem filterMap_below_without {β : Type} {kind : String} {read before : Node → Option β}
    (skipped : ∀ node, node.kind = kind → before node = none) {root : Node}
    (incidental : root.Incidental kind)
    (same : ∀ node ∈ root.preorder, node.kind ≠ kind → read (node.without kind) = before node) :
    ((root.without kind).children.flatMap preorder).filterMap read =
      (root.children.flatMap preorder).filterMap before := by
  induction root using induction_children with
  | step node ih =>
    have deleted (child : Node) (member : child ∈ node.children) (dropped : child.kind = kind) :
        child.preorder.filterMap before = [] := by
      rw [preorder_eq, incidental.leaf child
        (mem_preorder_of_mem_children member (self_mem_preorder child)) dropped, List.flatMap_nil,
        List.filterMap_cons_none (skipped child dropped), List.filterMap_nil]
    have kept (child : Node) (member : child ∈ node.children) (other : child.kind ≠ kind) :
        (child.without kind).preorder.filterMap read = child.preorder.filterMap before := by
      have below := ih child member (incidental.child member) fun inner deeper =>
        same inner (mem_preorder_of_mem_children member deeper)
      have here :=
        same child (mem_preorder_of_mem_children member (self_mem_preorder child)) other
      rw [preorder_eq, preorder_eq, List.filterMap_cons, List.filterMap_cons, below, here]
    rw [children_without]
    clear incidental same ih
    generalize node.children = nodes at deleted kept
    induction nodes with
    | nil => rfl
    | cons child rest later =>
      rw [List.forall_mem_cons] at deleted kept
      rw [List.flatMap_cons, List.filterMap_append, ← later deleted.2 kept.2, List.filter_cons]
      by_cases dropped : child.kind = kind
      · rw [if_neg (by simpa using dropped), deleted.1 dropped, List.nil_append]
      · rw [if_pos (decide_eq_true dropped), List.map_cons, List.flatMap_cons,
          List.filterMap_append, kept.1 dropped]

/-- Below its root, a tree keeps the nodes of other kinds, in their order, and no others. -/
theorem labels_without {kind : String} {root : Node} (incidental : root.Incidental kind) :
    ((root.without kind).children.flatMap preorder).map label =
      ((root.children.flatMap preorder).filter fun node => node.kind ≠ kind).map label := by
  rw [← List.filterMap_eq_map, List.filterMap_filter]
  refine filterMap_below_without (fun node dropped => ?_) incidental fun node _ other => ?_
  · rw [if_neg (by simpa using dropped)]
  · rw [if_pos (decide_eq_true other), Function.comp_apply, Function.comp_apply, label_without]

/-- Below its root, a tree without the nodes of a kind consists of what is left of the others. -/
theorem flatMap_preorder_children_without {kind : String} {root : Node}
    (incidental : root.Incidental kind) :
    (root.without kind).children.flatMap preorder =
      ((root.children.flatMap preorder).filter fun node => node.kind ≠ kind).map (without kind) := by
  induction root using induction_children with
  | step node ih =>
    have each (child : Node) (member : child ∈ node.children) :
        (if child.kind ≠ kind then (child.without kind).preorder else []) =
          (child.preorder.filter fun node => node.kind ≠ kind).map (without kind) := by
      have below := ih child member (incidental.child member)
      by_cases dropped : child.kind = kind
      · have inside := mem_preorder_of_mem_children member (self_mem_preorder child)
        rw [if_neg fun other => other dropped, preorder_eq child, incidental.leaf child inside dropped,
          List.flatMap_nil, List.filter_cons_of_neg (by simpa using dropped)]
        rfl
      · rw [if_pos dropped, preorder_eq, below, preorder_eq child,
          List.filter_cons_of_pos (by simpa using dropped), List.map_cons]
    rw [children_without]
    clear incidental ih
    generalize node.children = nodes at each
    induction nodes with
    | nil => rfl
    | cons child rest later =>
      rw [List.forall_mem_cons] at each
      rw [List.flatMap_cons, List.filter_append, List.map_append, ← each.1, ← later each.2,
        List.filter_cons]
      by_cases dropped : child.kind = kind
      · rw [if_neg (by simpa using dropped), if_neg fun other => other dropped, List.nil_append]
      · rw [if_pos (decide_eq_true dropped), if_pos dropped, List.map_cons, List.flatMap_cons]

/-- A node lies below the root of a tree without the nodes of a kind exactly when it is what is left
of a node of another kind. -/
theorem mem_below_without_iff {kind : String} {root inner : Node}
    (incidental : root.Incidental kind) :
    inner ∈ (root.without kind).children.flatMap preorder ↔
      ∃ node ∈ root.children.flatMap preorder, node.kind ≠ kind ∧ node.without kind = inner := by
  simp only [flatMap_preorder_children_without incidental, List.mem_map, List.mem_filter,
    decide_eq_true_eq, and_assoc]

/-- What is collected from the nodes of a tree without those of a kind is what is collected from what
is left of each node, when nothing is collected from the others. -/
theorem flatMap_preorder_without {β : Type} {kind : String} {collect : Node → List β}
    (silent : ∀ node, node.kind = kind → collect node = []) {root : Node}
    (incidental : root.Incidental kind) :
    (root.without kind).preorder.flatMap collect =
      root.preorder.flatMap fun node => collect (node.without kind) := by
  rw [preorder_eq, preorder_eq, List.flatMap_cons, List.flatMap_cons,
    flatMap_preorder_children_without incidental, List.flatMap_map]
  congr 1
  induction root.children.flatMap preorder with
  | nil => rfl
  | cons node rest ih =>
    rw [List.filter_cons, List.flatMap_cons, ← ih]
    by_cases dropped : node.kind = kind
    · rw [if_neg (by simpa using dropped), silent _ ((kind_without kind node).trans dropped),
        List.nil_append]
    · rw [if_pos (decide_eq_true dropped), List.flatMap_cons]

/-- The meaningful children of a node without those of a kind are what is left of the others. -/
theorem meaningfulChildren_without_kind (kind : String) (node : Node) :
    (node.without kind).meaningfulChildren =
      (node.meaningfulChildren.filter fun child => child.kind ≠ kind).map (without kind) := by
  have same : isMeaningful ∘ without kind = isMeaningful := funext (isMeaningful_without kind)
  rw [meaningfulChildren, meaningfulChildren, children_without, List.filter_map, same,
    List.filter_filter, List.filter_filter]
  simp only [Bool.and_comm]

end ModuleFence.Node
