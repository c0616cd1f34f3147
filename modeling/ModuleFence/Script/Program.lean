import ModuleFence.Script.Statement

set_option autoImplicit false

namespace ModuleFence.Script

/-- The readers of the parts of scripts, as deep as the fuel reaches. -/
def readers : (fuel : Nat) → Self
  | 0, _ => Reader.miss
  | fuel + 1, goal =>
    let self := readers fuel
    match goal with
    | .statement => Reader.statement self
    | .expression lineEnds => Reader.expression self lineEnds
    | .operand lineEnds => Reader.operand self lineEnds
    | .construction lineEnds => Reader.construction self lineEnds
    | .element => Reader.element self

namespace Reader

/-- Fails unless nothing is left. -/
def endOfSource : Reader (List Node) := do
  let characters ← rest
  require characters.isEmpty
  return []

def program (self : Self) : Reader (List Node) :=
  joined [
    optional (lexeme "hash_bang_line" Lexeme.interpreterLine),
    optional (follow (series (one (self .statement)))),
    follow endOfSource]

end Reader

/-- The most parts that may hold each other in a source. -/
def maxDepth (source : List Char) : Nat :=
  4 * source.length + 16

def readSource (source : List Char) : Reading (List Node) :=
  Reader.program (readers (maxDepth source)) (Cursor.start source) Point.origin

mutual

/-- The place of the first default of a member in an object that did not turn out to be a pattern. -/
def misplacedDefault? : Node → Option Point
  | .mk label children =>
    (if label.kind = "object" then ownDefault? children else none).orElse fun _ =>
      misplacedDefaultAmong? children

/-- The place of the first such default among some nodes. -/
def misplacedDefaultAmong? : List Node → Option Point
  | [] => none
  | node :: rest => (misplacedDefault? node).orElse fun _ => misplacedDefaultAmong? rest

/-- The place of the first default among the members of an object. -/
def ownDefault? : List Node → Option Point
  | [] => none
  | node :: rest =>
    if node.kind = "object_assignment_pattern" then
      (node.children.find? fun child => child.kind = "=").map fun child => child.label.start
    else ownDefault? rest

end

/-- Reads a whole source, or tells the place where it is damaged. -/
def readWhole (source : List Char) : Except Point (List Node) :=
  let reading := readSource source
  match reading.found with
  | none => .error reading.reach
  | some (children, _) =>
    match misplacedDefaultAmong? children with
    | none => .ok children
    | some place => .error place

end ModuleFence.Script
