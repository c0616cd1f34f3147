import ModuleFence.Tree.Basic

/-!
Patterns. What reads as an array, an object or a list of arguments may turn out to be a pattern when
an assignment or an arrow follows; its nodes then change their kinds.
-/

set_option autoImplicit false

namespace ModuleFence.Node

/-- The same node with another kind and other children. -/
def remade (label : Label) (kind : String) (children : List Node) : Node :=
  mk { label with kind } children

def plainPatternKinds : List String :=
  ["identifier", "undefined", "member_expression", "subscript_expression", "object_pattern",
    "array_pattern", "rest_pattern", "object_assignment_pattern", "computed_property_name"]

/-- The kinds of keys, marks and comments, which patterns keep. -/
def keptKinds : List String :=
  ["comment", "html_comment"]

mutual

/-- The pattern that an expression turns out to be, if it can be one. -/
def asPattern? : Node → Option Node
  | mk label children =>
    if plainPatternKinds.contains label.kind || keptKinds.contains label.kind || !label.isNamed then
      some (mk label children)
    else if label.kind = "array" then
      (asPatterns? children).map (remade label "array_pattern")
    else if label.kind = "object" then
      (asPatterns? children).map (remade label "object_pattern")
    else if label.kind = "pair" then
      (asPairPatterns? children).map (remade label "pair_pattern")
    else if label.kind = "spread_element" then
      (asPatterns? children).map (remade label "rest_pattern")
    else if label.kind = "shorthand_property_identifier" then
      some (remade label "shorthand_property_identifier_pattern" children)
    else if label.kind = "assignment_expression" then
      some (remade label "assignment_pattern" children)
    else none

/-- The patterns that some expressions turn out to be. -/
def asPatterns? : List Node → Option (List Node)
  | [] => some []
  | node :: rest =>
    match asPattern? node, asPatterns? rest with
    | some pattern, some patterns => some (pattern :: patterns)
    | _, _ => none

/-- The children of a pair whose value turns out to be a pattern. -/
def asPairPatterns? : List Node → Option (List Node)
  | [] => some []
  | node :: rest =>
    match if node.hasField "key" then some node else asPattern? node, asPairPatterns? rest with
    | some pattern, some patterns => some (pattern :: patterns)
    | _, _ => none

end

/-- The kinds that may stand on the left of an assignment as they are. -/
def assignableKinds : List String :=
  ["identifier", "undefined", "member_expression", "subscript_expression",
    "parenthesized_expression", "object_pattern", "array_pattern"]

/-- What stands on the left of an assignment, if an expression may stand there. -/
def asTarget? (node : Node) : Option Node :=
  if assignableKinds.contains node.kind then some node
  else if node.kind = "array" || node.kind = "object" then node.asPattern?
  else none

end ModuleFence.Node
