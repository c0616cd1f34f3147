import ModuleFence.Expression.Basic
import ModuleFence.Expression.Escape

/-!
Lowering of syntax trees to expressions. Callees, arguments and the values of members lie one level
below their parent; what lies too deep is lowered to its kind, so that the cost of lowering stays
bounded. Parentheses around a single expression vanish before its depth is looked at.
-/

set_option autoImplicit false

namespace ModuleFence

/-- The deepest level at which expressions are still told apart. -/
def maxLoweringDepth : Nat := 2

namespace Node

def pieceValue (piece : Node) : Except EscapeError Text :=
  if piece.kind = "escape_sequence" then Escape.decode piece.text.toList
  else .ok (Text.ofString piece.text)

/-- The values of the pieces of a string literal, joined. -/
def piecesValue : List Node → Except EscapeError Text
  | [] => .ok []
  | piece :: rest =>
    if piece.label.isNamed then do
      let value ← pieceValue piece
      return value ++ (← piecesValue rest)
    else piecesValue rest

def stringValue (node : Node) : Except EscapeError Text :=
  piecesValue node.children

/-- The key that a property name stands for; none when it is computed, private or a number. -/
def propertyKey : Option Node → Except EscapeError (Option Text)
  | none => .ok none
  | some name =>
    if name.kind = "property_identifier" then .ok (some (Text.ofString name.text))
    else if name.kind = "string" then do return some (← name.stringValue)
    else .ok none

/-- A node of which only the kind is kept. -/
def asOther (node : Node) : Expression :=
  .other node.kind node.span

mutual

/-- Lowers an expression that stands at a depth. -/
def lowerAt (depth : Nat) : Node → Except EscapeError Expression
  | mk label children =>
    let span := Span.between label.start label.stop
    if label.kind = "parenthesized_expression" then do
      return (← lowerSole depth children).getD (.other label.kind span)
    else if maxLoweringDepth < depth then .ok (.other label.kind span)
    else if label.kind = "identifier" then .ok (.identifier label.text span)
    else if label.kind = "string" then do return .string (← piecesValue children) span
    else if label.kind = "object" then do return .object (← lowerMembers (depth + 1) children) span
    else if label.kind = "call_expression" then do
      let callee ← lowerCallee (depth + 1) children
      let arguments ← lowerArgumentList (depth + 1) children
      return .call (callee.getD (.other "missing" span)) (arguments.getD []) span
    else .ok (.other label.kind span)

/-- Lowers the only meaningful node among some, if there is exactly one. -/
def lowerSole (depth : Nat) : List Node → Except EscapeError (Option Expression)
  | [] => .ok none
  | node :: rest =>
    if node.isMeaningful then
      if rest.any isMeaningful then .ok none else do return some (← lowerAt depth node)
    else lowerSole depth rest

def lowerCallee (depth : Nat) : List Node → Except EscapeError (Option Expression)
  | [] => .ok none
  | node :: rest =>
    if node.hasField "function" then do return some (← lowerAt depth node)
    else lowerCallee depth rest

/-- Lowers the arguments in the first node that holds arguments; a template is one argument. -/
def lowerArgumentList (depth : Nat) : List Node → Except EscapeError (Option (List Expression))
  | [] => .ok none
  | mk label children :: rest =>
    if hasField "arguments" (mk label children) then
      if label.kind = "arguments" then do return some (← lowerAll depth children)
      else .ok (some [asOther (mk label children)])
    else lowerArgumentList depth rest

/-- Lowers the meaningful nodes among some. -/
def lowerAll (depth : Nat) : List Node → Except EscapeError (List Expression)
  | [] => .ok []
  | node :: rest =>
    if node.isMeaningful then do
      let expression ← lowerAt depth node
      return expression :: (← lowerAll depth rest)
    else lowerAll depth rest

def lowerMembers (depth : Nat) : List Node → Except EscapeError (List Member)
  | [] => .ok []
  | node :: rest =>
    if node.isMeaningful then do
      let member ← lowerMember depth node
      return member :: (← lowerMembers depth rest)
    else lowerMembers depth rest

/-- Lowers a member of an object, whose value stands at a depth. -/
def lowerMember (depth : Nat) : Node → Except EscapeError Member
  | mk label children =>
    let span := Span.between label.start label.stop
    if label.kind = "pair" then do
      match ← lowerValue depth children with
      | none => return .other label.kind span
      | some value => return .pair (← propertyKey (withField? "key" children)) value span
    else if label.kind = "shorthand_property_identifier" then .ok (.shorthand label.text span)
    else if label.kind = "method_definition" then do
      return .method (← propertyKey (withField? "name" children)) span
    else .ok (.other label.kind span)

def lowerValue (depth : Nat) : List Node → Except EscapeError (Option Expression)
  | [] => .ok none
  | node :: rest =>
    if node.hasField "value" then do return some (← lowerAt depth node)
    else lowerValue depth rest

end

def lower (node : Node) : Except EscapeError Expression :=
  lowerAt 0 node

/-- Lowers a call that stands at a depth; the call itself is kept at any depth. -/
def lowerCallAt (depth : Nat) (node : Node) : Except EscapeError Call := do
  let callee ← lowerCallee (depth + 1) node.children
  let arguments ← lowerArgumentList (depth + 1) node.children
  return ⟨callee.getD (.other "missing" node.span), arguments.getD [], node.span⟩

/-- Lowers a catch clause; a clause without a body has no statements. -/
def lowerCatch (node : Node) : CatchClause :=
  match node.child? "body" with
  | none => ⟨0, node.span, node.span⟩
  | some body => ⟨body.meaningfulChildren.length, body.span, node.span⟩

end Node

end ModuleFence
