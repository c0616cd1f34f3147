import ModuleFence.Report.Basic
import ModuleFence.Rule.Basic
import ModuleFence.Tree.Walk

/-!
Linting of trees. Calls and catch clauses are shown to all rules, in the order of the walk; a tree
with damage is reported as such and shown to no rule.
-/

set_option autoImplicit false

namespace ModuleFence

/-- Rules with the state that they share. -/
structure Linter where
  rules : List Rule
  shared : Shared

/-- What a node has for rules to look at. -/
def Node.visit? (node : Node) : Option (Except EscapeError Visit) :=
  if node.kind = "call_expression" then some ((node.lowerCallAt 0).map .call)
  else if node.kind = "catch_clause" then some (.ok (.catchClause node.lowerCatch))
  else none

namespace Linter

structure Answer (α : Type) where
  result : Except Failure α
  linter : Linter

def log (linter : Linter) (records : List LogRecord) : Linter :=
  { linter with shared := linter.shared.log records }

/-- Shows some nodes to the rules, in order. -/
def visitNodes (files : FileSystem) (path : Option Path) :
    List Node → Linter → Answer (List Diagnostic)
  | [], linter => ⟨.ok [], linter⟩
  | node :: rest, linter =>
    match node.visit? with
    | none => visitNodes files path rest linter
    | some (.error error) => ⟨.error (.escape error), linter⟩
    | some (.ok visit) =>
      let answer := Rule.visitAll files path visit linter.rules linter.shared
      let after : Linter := ⟨answer.rules, answer.shared⟩
      match answer.result with
      | .error failure => ⟨.error failure, after⟩
      | .ok here =>
        let others := visitNodes files path rest after
        ⟨others.result.map (here ++ ·), others.linter⟩

/-- Shows a tree to the rules. -/
def walk (files : FileSystem) (path : Option Path) (root : Node) (linter : Linter) :
    Answer (List Diagnostic) :=
  visitNodes files path root.walk linter

/-- The rule under which sources are reported that do not parse or cannot be read. -/
def parseErrorRule : Text := "parse-error"

/-- A number, or one when it is absent or zero. -/
def orOne (number : Option Int) : Int :=
  match number with
  | none => 1
  | some value => if value = 0 then 1 else value

/-- The finding on a source that does not parse. -/
def unparsable (path : Option Path) (error : SyntaxError) : Diagnostic where
  ruleId := parseErrorRule
  message := Text.concat ["Parsing error: ", error.message]
  span := Span.atPlace (orOne error.line) (orOne error.column)
  nodeKind := "ERROR"
  filePath := path

/-- The record about a source that does not parse. -/
def skippedRecord (path : Option Path) (error : SyntaxError) : LogRecord where
  level := .debug
  source := .linting
  message := Text.concat ["Skipping ", SyntaxError.sourceName (path.map Path.toText), ": ",
    error.message]

/-- Lints a tree that may be damaged. -/
def lintTree (files : FileSystem) (path : Option Path) (root : Node) (linter : Linter) :
    Answer (List Diagnostic) :=
  match root.checked (path.map Path.toText) with
  | .error error => ⟨.ok [unparsable path error], linter.log [skippedRecord path error]⟩
  | .ok root => walk files path root linter

def lintSource (files : FileSystem) (path : Option Path) (source : List Char) (linter : Linter) :
    Answer (List Diagnostic) :=
  lintTree files path (Script.parse source) linter

end Linter

end ModuleFence
