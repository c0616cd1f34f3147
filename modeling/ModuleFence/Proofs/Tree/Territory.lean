import Mathlib.Data.List.Flatten
import Mathlib.Data.List.Perm.Basic
import ModuleFence.Proofs.Tree.Order

/-!
Territories. The nodes of a kind share out a tree: below each of them lies its territory, down to the
next nodes of the kind, and what lies below no node of the kind is nobody's.
-/

set_option autoImplicit false

namespace ModuleFence.Node

variable {kind : String}

mutual

/-- The nodes of a tree down to the first nodes of a kind, without these. -/
def crown (kind : String) : Node → List Node
  | mk label children => if label.kind = kind then [] else mk label children :: crownAll kind children

/-- The nodes of some trees down to the first nodes of a kind. -/
def crownAll (kind : String) : List Node → List Node
  | [] => []
  | node :: rest => crown kind node ++ crownAll kind rest

end

/-- What lies below a node, down to the next nodes of a kind. -/
def territory (kind : String) (node : Node) : List Node :=
  node.children.flatMap (crown kind)

theorem crownAll_eq_flatMap (kind : String) (nodes : List Node) :
    crownAll kind nodes = nodes.flatMap (crown kind) := by
  induction nodes with
  | nil => rw [crownAll, List.flatMap_nil]
  | cons node rest ih => rw [crownAll, List.flatMap_cons, ih]

theorem crown_of_kind {node : Node} (same : node.kind = kind) : node.crown kind = [] := by
  cases node with
  | mk label children =>
    rw [crown]
    exact if_pos same

theorem crown_of_other {node : Node} (other : node.kind ≠ kind) :
    node.crown kind = node :: node.territory kind := by
  cases node with
  | mk label children =>
    rw [crown, crownAll_eq_flatMap]
    exact if_neg other

theorem self_mem_crown {node : Node} (other : node.kind ≠ kind) : node ∈ node.crown kind := by
  rw [crown_of_other other]
  exact List.mem_cons_self

/-- The crown of a child is part of the territory of its parent. -/
theorem crown_sublist_territory {child node : Node} (member : child ∈ node.children) :
    (child.crown kind).Sublist (node.territory kind) :=
  List.sublist_flatten_of_mem (List.mem_map_of_mem member)

/-- The crown of a node in a crown is part of it. -/
theorem crown_sublist {inner node : Node} (inside : inner ∈ node.crown kind) :
    (inner.crown kind).Sublist (node.crown kind) := by
  induction node using induction_children with
  | step node ih =>
    have other : node.kind ≠ kind := by
      intro same
      rw [crown_of_kind same] at inside
      exact absurd inside List.not_mem_nil
    rw [crown_of_other other] at inside ⊢
    rcases List.mem_cons.mp inside with rfl | deeper
    · rw [crown_of_other other]
    · obtain ⟨child, member, inChild⟩ := List.mem_flatMap.mp deeper
      exact ((ih child member inChild).trans (crown_sublist_territory member)).cons _

/-- A tree consists of its crown, its nodes of the kind, and the territories of these. -/
theorem preorder_perm_territories (kind : String) (root : Node) :
    root.preorder.Perm (root.crown kind ++
      (root.preorder.filter fun node => node.kind = kind).flatMap
        fun node => node :: node.territory kind) := by
  let lands (node : Node) : List Node :=
    (node.preorder.filter fun inner => inner.kind = kind).flatMap
      fun inner => inner :: inner.territory kind
  show root.preorder.Perm (root.crown kind ++ lands root)
  induction root using induction_children with
  | step node ih =>
    have below : (node.children.flatMap preorder).Perm
        (node.territory kind ++ node.children.flatMap lands) :=
      (List.Perm.flatMap_left _ ih).trans (List.flatMap_append_perm _ _ _).symm
    have deeper : ((node.children.flatMap preorder).filter fun inner => inner.kind = kind).flatMap
        (fun inner => inner :: inner.territory kind) = node.children.flatMap lands := by
      rw [List.filter_flatMap, List.flatMap_assoc]
    by_cases same : node.kind = kind
    · have own : lands node = (node :: node.territory kind) ++ node.children.flatMap lands := by
        show ((node.preorder).filter _).flatMap _ = _
        rw [preorder_eq, List.filter_cons_of_pos (by simpa using same), List.flatMap_cons, deeper]
      rw [crown_of_kind same, own, preorder_eq]
      exact below.cons node
    · have own : lands node = node.children.flatMap lands := by
        show ((node.preorder).filter _).flatMap _ = _
        rw [preorder_eq, List.filter_cons_of_neg (by simpa using same), deeper]
      rw [crown_of_other same, own, preorder_eq]
      exact below.cons node

/-- The territories of the nodes of a kind are parts of a tree that do not overlap. -/
theorem territories_subperm (kind : String) (root : Node) :
    ((root.preorder.filter fun node => node.kind = kind).flatMap
      (territory kind)).Subperm root.preorder := by
  have inner : ((root.preorder.filter fun node => node.kind = kind).flatMap
      (territory kind)).Sublist ((root.preorder.filter fun node => node.kind = kind).flatMap
        fun node => node :: node.territory kind) :=
    List.Sublist.flatMap_right _ fun node _ => List.sublist_cons_self _ _
  have outer := inner.trans (List.sublist_append_right (root.crown kind) _)
  exact outer.subperm.trans (preorder_perm_territories kind root).symm.subperm

end ModuleFence.Node
