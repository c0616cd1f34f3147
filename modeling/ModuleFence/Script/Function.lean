import ModuleFence.Script.Literal
import ModuleFence.Script.Pattern

set_option autoImplicit false

namespace ModuleFence

/-- The parameters that the arguments of a call turn out to be, if they can be parameters. -/
def Node.asParameters? : Node → Option Node
  | mk label children => (asPatterns? children).map (remade label "formal_parameters")

namespace Script

/-- An operand, and whether more may follow it. -/
structure Operand where
  node : Node
  isOpen : Bool

namespace Reader

def parameters (self : Self) : Reader Node :=
  andThen (arguments self) fun found => ofOption found.asParameters?

def signature (self : Self) (body : Reader Node) : Reader (List Node) :=
  inSequence [inField "parameters" (parameters self), inField "body" body]

/-- Takes what introduces a function, and tells whether it is a generator. -/
def functionOpening (lineEnds : Bool) : Reader (List Node × Bool) := do
  let early ← optional (joined [word "async", continuation lineEnds])
  let opening ← word "function"
  let star ← optional (follow (mark "*"))
  return (early ++ opening ++ star, !star.isEmpty)

def functionDeclaration (self : Self) : Reader Node := do
  let (opening, isGenerator) ← functionOpening true
  node (if isGenerator then "generator_function_declaration" else "function_declaration")
    (joined [
      give opening,
      follow (inField "name" binding),
      follow (signature self (block self))])

def functionValue (self : Self) (lineEnds : Bool) : Reader Node := do
  let (opening, isGenerator) ← functionOpening lineEnds
  node (if isGenerator then "generator_function" else "function_expression")
    (joined [
      give opening,
      optional (follow (inField "name" binding)),
      follow (signature self (valueBlock self))])

/-- Whether braces open with a label, and so more likely hold an object than statements. -/
def opensWithLabel (characters : List Char) : Bool :=
  match characters with
  | '\u007b' :: behind =>
    let inside := behind.dropWhile isBlank
    let name := Lexeme.name inside
    0 < name && ((inside.drop name).dropWhile isBlank).head? = some ':'
  | _ => false

def arrowMark (lineEnds : Bool) : Reader (List Node) :=
  joined [continuation lineEnds, operator "=>"]

/-- Takes the body of an arrow function. Nothing may follow it unless it is a block. -/
def arrowBody (self : Self) (lineEnds : Bool) : Reader Operand := do
  let characters ← rest
  let statements := andThen (valueBlock self) fun body => give ⟨body, true⟩
  let value := andThen (self (.expression lineEnds)) fun body => give ⟨body, false⟩
  if opensWithLabel characters then orElse value fun _ => statements
  else orElse statements fun _ => value

/-- Takes the rest of an arrow function behind its arrow. -/
def arrowRest (self : Self) (lineEnds : Bool) (opening : List Node) : Reader Operand := do
  let between ← gap
  let body ← arrowBody self lineEnds
  return ⟨branch "arrow_function" (opening ++ between ++ [body.node.inField "body"]), body.isOpen⟩

end Reader

end Script

end ModuleFence
