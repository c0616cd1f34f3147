import ModuleFence.Script.Token

/-!
Operations on two operands. The operands of a row of operators are joined by the strength of the
operators; equal ones join from the left, powers from the right.
-/

set_option autoImplicit false

namespace ModuleFence.Script

/-- The operators of each strength, from the weakest on. -/
def operatorsByStrength : List (List String) :=
  [["??"], ["||"], ["&&"], ["|"], ["^"], ["&"], ["==", "!=", "===", "!=="],
    ["<", "<=", ">", ">=", "instanceof", "in"], ["<<", ">>", ">>>"], ["+", "-"],
    ["*", "/", "%"], ["**"]]

def strength (operator : String) : Nat :=
  operatorsByStrength.findIdx (·.contains operator)

/-- Whether an operator stands between two operands. -/
def isBinaryOperator (operator : String) : Bool :=
  operatorsByStrength.any (·.contains operator)

/-- An operator with the operand behind it. -/
structure Link where
  operator : String
  marks : List Node
  operand : Node

/-- The operation of two operands. -/
def operation (left : Node) (marks : List Node) (right : Node) : Node :=
  branch "binary_expression" (left.inField "left" :: marks ++ [right.inField "right"])

/-- Joins an operand with what follows as long as the operators are strong enough. -/
def joinFrom : (fuel : Nat) → (least : Nat) → Node → List Link → Node × List Link
  | fuel + 1, least, left, link :: links =>
    let own := strength link.operator
    if own < least then (left, link :: links)
    else
      let (right, behind) :=
        joinFrom fuel (if link.operator = "**" then own else own + 1) link.operand links
      joinFrom fuel least (operation left link.marks right) behind
  | _, _, left, links => (left, links)

/-- The operation of a row of operands. -/
def operationOf (first : Node) (links : List Link) : Node :=
  (joinFrom links.length.succ 0 first links).1

namespace Reader

/-- The operator at the front that may stand between two operands. -/
def binaryOperator? (characters : List Char) : Option String :=
  match nameAhead characters with
  | "in" => some "in"
  | "instanceof" => some "instanceof"
  | _ => (Lexeme.operator? characters).filter isBinaryOperator

def link (lineEnds : Bool) (operand : Reader Node) : Reader (List Link) := do
  let before ← continuation lineEnds
  let spelling ← ofOption (binaryOperator? (← rest))
  let operator ← inField "operator" (leaf spelling false (Lexeme.exact spelling))
  let between ← gap
  let right ← operand
  return [⟨spelling, before ++ operator ++ between, right⟩]

def operations (lineEnds : Bool) (operand : Reader Node) : Reader Node := do
  let first ← operand
  let links ← many (link lineEnds operand)
  return operationOf first links

end Reader

end ModuleFence.Script
