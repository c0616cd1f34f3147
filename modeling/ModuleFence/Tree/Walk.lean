import ModuleFence.Tree.Size

/-!
The walk through a tree. Nodes that wait to be visited stand in a list; a visited node puts its
children in front of the others, so that a tree is visited from its root down and from left to right.
-/

set_option autoImplicit false

namespace ModuleFence.Node

/-- The nodes of the waiting trees in the order of their visits. -/
def walkFrom : (waiting : List Node) → List Node
  | [] => []
  | node :: rest => node :: walkFrom (node.children ++ rest)
termination_by waiting => sizeAll waiting
decreasing_by
  simp only [sizeAll_append, sizeAll_cons, size_eq]
  omega

/-- The nodes of a tree in the order of their visits. -/
def walk (root : Node) : List Node :=
  walkFrom [root]

end ModuleFence.Node
