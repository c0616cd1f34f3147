import ModuleFence.Script.Token

/-!
The parts of a script that hold other parts of these same kinds. Readers of other parts are given a
reader of these, so that recursion happens in a single place.
-/

set_option autoImplicit false

namespace ModuleFence.Script

/-- A part of a script; `lineEnds` tells whether a statement may end behind it at the end of a line. -/
inductive Goal where
  | statement
  | expression (lineEnds : Bool)
  | operand (lineEnds : Bool)
  | construction (lineEnds : Bool)
  | element

/-- Readers of the parts of scripts. -/
abbrev Self : Type :=
  Goal → Reader Node

def sequenceOf : List Node → Node
  | [node] => node
  | nodes => branch "sequence_expression" nodes

namespace Reader

def expressions (self : Self) (lineEnds : Bool) : Reader Node :=
  andThen (commaSeparated lineEnds (one (self (.expression lineEnds)))) fun found =>
    give (sequenceOf found)

def parenthesized (self : Self) : Reader Node :=
  node "parenthesized_expression" (inSequence [mark "(", one (expressions self false), mark ")"])

def block (self : Self) : Reader Node :=
  node "statement_block"
    (inSequence [mark "\x7b", series (one (self .statement)), mark "\x7d"])

/-- Takes statements between braces that are the body of a value. Comments in front of an end of line
behind them belong to them. -/
def valueBlock (self : Self) : Reader Node :=
  andThen (block self) fun found =>
    andThen (optional (lineEnd false)) fun comments =>
      give (branch found.kind (found.children ++ comments))

/-- Takes an expression, or one whose elements are spread out. -/
def item (self : Self) : Reader Node :=
  orElse (node "spread_element" (inSequence [mark "...", one (self (.expression false))])) fun _ =>
    self (.expression false)

def arguments (self : Self) : Reader Node :=
  node "arguments" (bracketed "(" ")" (one (item self)))

def array (self : Self) : Reader Node :=
  node "array" (bracketed "[" "]" (one (item self)))

end Reader

end ModuleFence.Script
