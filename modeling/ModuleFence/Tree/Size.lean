import ModuleFence.Tree.Basic

set_option autoImplicit false

namespace ModuleFence.Node

mutual

def size : Node → Nat
  | mk _ children => sizeAll children + 1

def sizeAll : List Node → Nat
  | [] => 0
  | node :: rest => size node + sizeAll rest

end

@[simp] theorem sizeAll_nil : sizeAll [] = 0 := by simp only [sizeAll]

@[simp] theorem sizeAll_cons (node : Node) (rest : List Node) :
    sizeAll (node :: rest) = size node + sizeAll rest := by simp only [sizeAll]

@[simp] theorem sizeAll_append (first second : List Node) :
    sizeAll (first ++ second) = sizeAll first + sizeAll second := by
  induction first with
  | nil => simp only [List.nil_append, sizeAll_nil, Nat.zero_add]
  | cons node rest ih => simp only [List.cons_append, sizeAll_cons, ih, Nat.add_assoc]

theorem size_eq (node : Node) : node.size = sizeAll node.children + 1 := by
  cases node
  simp only [size, children]

theorem size_pos (node : Node) : 0 < node.size := by
  rw [size_eq]
  exact Nat.succ_pos _

end ModuleFence.Node
