import ModuleFence.Tree.Size

set_option autoImplicit false

namespace ModuleFence.Node

/-- The first damage of the waiting trees. -/
def firstDamageFrom? : (waiting : List Node) → Option Node
  | [] => none
  | node :: rest =>
    if node.isDamage then some node
    else if node.label.hasError then firstDamageFrom? (node.children ++ rest)
    else firstDamageFrom? rest
termination_by waiting => sizeAll waiting
decreasing_by
  · simp only [sizeAll_append, sizeAll_cons, size_eq]
    omega
  · have := size_pos node
    simp only [sizeAll_cons]
    omega

def firstDamage? (root : Node) : Option Node :=
  firstDamageFrom? [root]

end ModuleFence.Node
