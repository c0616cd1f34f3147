import ModuleFence.Tree.Walk

/-!
The order of a tree: every node stands before its descendants, and these stand from left to right.
The walk through a tree visits each of its nodes once, in this order.
-/

set_option autoImplicit false

namespace ModuleFence.Node

theorem size_le_sizeAll_of_mem {child : Node} {nodes : List Node} (member : child ∈ nodes) :
    child.size ≤ sizeAll nodes := by
  induction nodes with
  | nil => cases member
  | cons node rest ih =>
    rw [sizeAll_cons]
    rcases List.mem_cons.mp member with rfl | later
    · exact Nat.le_add_right _ _
    · have := ih later
      omega

theorem size_lt_of_mem_children {child node : Node} (member : child ∈ node.children) :
    child.size < node.size := by
  have := size_le_sizeAll_of_mem member
  rw [size_eq node]
  omega

/-- What holds of a node once it holds of its children holds of every node. -/
@[elab_as_elim]
theorem induction_children {motive : Node → Prop}
    (step : ∀ node : Node, (∀ child ∈ node.children, motive child) → motive node)
    (node : Node) : motive node :=
  step node fun child _ => induction_children step child
termination_by node.size
decreasing_by exact size_lt_of_mem_children (by assumption)

mutual

/-- The nodes of a tree, each before its descendants. -/
def preorder : Node → List Node
  | mk label children => mk label children :: preorderAll children

/-- The nodes of some trees, one tree after the other. -/
def preorderAll : List Node → List Node
  | [] => []
  | node :: rest => preorder node ++ preorderAll rest

end

theorem preorderAll_eq_flatMap (nodes : List Node) :
    preorderAll nodes = nodes.flatMap preorder := by
  induction nodes with
  | nil => rw [preorderAll, List.flatMap_nil]
  | cons node rest ih => rw [preorderAll, List.flatMap_cons, ih]

theorem preorder_eq (node : Node) :
    node.preorder = node :: node.children.flatMap preorder := by
  cases node with
  | mk label children => rw [preorder, preorderAll_eq_flatMap, children_mk]

theorem walkFrom_eq_flatMap (waiting : List Node) :
    walkFrom waiting = waiting.flatMap preorder := by
  induction waiting using walkFrom.induct with
  | case1 => rw [walkFrom, List.flatMap_nil]
  | case2 node rest ih =>
    rw [walkFrom, ih, List.flatMap_append, List.flatMap_cons, preorder_eq node, List.cons_append]

/-- The walk with a list of waiting nodes visits a tree in its order. -/
theorem walk_eq_preorder (root : Node) : root.walk = root.preorder := by
  rw [walk, walkFrom_eq_flatMap, List.flatMap_singleton]

theorem self_mem_preorder (node : Node) : node ∈ node.preorder := by
  rw [preorder_eq]
  exact List.mem_cons_self

theorem mem_preorder_of_mem_children {inner child node : Node} (member : child ∈ node.children)
    (below : inner ∈ child.preorder) : inner ∈ node.preorder := by
  rw [preorder_eq]
  exact List.mem_cons_of_mem _ (List.mem_flatMap.mpr ⟨child, member, below⟩)

/-- What lies below a node of a tree lies in the tree. -/
theorem mem_preorder_trans {inner middle root : Node} (below : inner ∈ middle.preorder)
    (inside : middle ∈ root.preorder) : inner ∈ root.preorder := by
  induction root using induction_children with
  | step node ih =>
    rw [preorder_eq] at inside
    rcases List.mem_cons.mp inside with rfl | deeper
    · exact below
    · obtain ⟨child, member, inChild⟩ := List.mem_flatMap.mp deeper
      exact mem_preorder_of_mem_children member (ih child member inChild)

/-- What holds of a node once it holds of all nodes below it holds of every node. -/
@[elab_as_elim]
theorem induction_below {motive : Node → Prop}
    (step : ∀ node : Node,
      (∀ child ∈ node.children, ∀ inner ∈ child.preorder, motive inner) → motive node)
    (node : Node) : motive node := by
  have below : ∀ inner ∈ node.preorder, motive inner := by
    induction node using induction_children with
    | step node ih =>
      intro inner inside
      rw [preorder_eq] at inside
      rcases List.mem_cons.mp inside with rfl | deeper
      · exact step inner ih
      · obtain ⟨child, member, inChild⟩ := List.mem_flatMap.mp deeper
        exact ih child member inner inChild
  exact below node (self_mem_preorder node)

theorem mem_children_of_child? {name : String} {child node : Node}
    (found : node.child? name = some child) : child ∈ node.children :=
  List.mem_of_find?_eq_some found

theorem mem_children_of_meaningful {child node : Node} (member : child ∈ node.meaningfulChildren) :
    child ∈ node.children :=
  (List.mem_filter.mp member).1

def calls (root : Node) : List Node :=
  root.preorder.filter fun node => node.kind = "call_expression"

theorem mem_calls_iff {call root : Node} :
    call ∈ root.calls ↔ call ∈ root.preorder ∧ call.kind = "call_expression" := by
  simp only [calls, List.mem_filter, decide_eq_true_eq]

end ModuleFence.Node
