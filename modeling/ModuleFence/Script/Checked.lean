import ModuleFence.Failure
import ModuleFence.Span
import ModuleFence.Tree.Damage

set_option autoImplicit false

namespace ModuleFence

/-- A parser gives a syntax tree to every source. -/
abbrev SourceParser := List Char → Node

/-- A tree that is free of errors, or the error of its source. -/
def Node.checked (path : Option Text) (root : Node) : Except SyntaxError Node :=
  if root.label.hasError then
    match root.firstDamage? with
    | none => .error ⟨path, none, none⟩
    | some damage =>
      .error ⟨path, some damage.span.startLine, some damage.span.startColumn⟩
  else .ok root

end ModuleFence
