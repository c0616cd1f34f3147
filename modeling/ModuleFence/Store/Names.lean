import ModuleFence.Expression.Lowering

set_option autoImplicit false

namespace ModuleFence.Store

/-- A list with an element at its end, unless it is there already. -/
def appendNew (names : List Text) (name : Text) : List Text :=
  if name ∈ names then names else names ++ [name]

/-- The kinds of declarations whose initial values are looked at. -/
def isVariableDeclaration (node : Node) : Bool :=
  node.kind == "lexical_declaration" || node.kind == "variable_declaration"

/-- The initial value of an exported declaration that declares one plain name. -/
def initialValue? (declaration : Node) : Option Node :=
  if isVariableDeclaration declaration then
    match declaration.namedChildren.filter fun child => child.kind = "variable_declarator" with
    | [declarator] =>
      match declarator.child? "name" with
      | some name => if name.kind = "identifier" then declarator.child? "value" else none
      | none => none
    | _ => none
  else none

/-- The value that an export statement exports, as far as it can be an object. -/
def exportedValue? (statement : Node) : Option Node :=
  match statement.child? "value" with
  | some value => some value
  | none => (statement.child? "declaration").bind initialValue?

def keysOf : Expression → List Text
  | .object members _ => Expression.memberKeys members
  | _ => []

def statementKeys (statement : Node) : Except EscapeError (List Text) :=
  match exportedValue? statement with
  | none => .ok []
  | some value => do return keysOf (← value.lower)

/-- The keys that some statements export, behind those that are known. -/
def namesFrom (names : List Text) : List Node → Except EscapeError (List Text)
  | [] => .ok names
  | statement :: rest =>
    if statement.kind = "export_statement" then do
      namesFrom ((← statementKeys statement).foldl appendNew names) rest
    else namesFrom names rest

/-- The module names that a program exports, each once. -/
def moduleNames (root : Node) : Except EscapeError (List Text) :=
  namesFrom [] root.namedChildren

end ModuleFence.Store
