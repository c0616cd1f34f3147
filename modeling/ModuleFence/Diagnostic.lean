import ModuleFence.Span
import ModuleFence.Validation

set_option autoImplicit false

namespace ModuleFence

inductive Severity where
  | error
  | warning
deriving DecidableEq, Repr

namespace Severity

def name : Severity → String
  | error => "error"
  | warning => "warning"

def ofName? (name : Text) : Option Severity :=
  [error, warning].find? fun severity => Text.ofString severity.name = name

end Severity

structure Diagnostic where
  ruleId : Text
  message : Text
  span : Span
  nodeKind : Text
  filePath : Option Path := none
  severity : Severity := .error
deriving DecidableEq

namespace Diagnostic

def line (diagnostic : Diagnostic) : Int :=
  diagnostic.span.startLine

def column (diagnostic : Diagnostic) : Int :=
  diagnostic.span.startColumn

/-- The name under which issues with diagnostics are reported. -/
def modelName : String := "Diagnostic"

def severityOf : Option Json → Validated Severity
  | none => .ok .error
  | some value =>
    match value.text?.bind Severity.ofName? with
    | some severity => .ok severity
    | none => Field.refuse "severity" .unknownSeverity

/-- The diagnostic that an object of values stands for, at a range. -/
def ofJson (span : Span) (values : Json) : Except ValidationError Diagnostic :=
  let build (ruleId message nodeKind : Text) (filePath : Option Path) (severity : Severity) :=
    (⟨ruleId, message, span, nodeKind, filePath, severity⟩ : Diagnostic)
  let ruleId := Field.string "rule_id" (values.member? "rule_id")
  let start : Validated (Text → Text → Option Path → Severity → Diagnostic) := ruleId.map build
  Validated.forModel modelName
    (((start.apply (Field.string "message" (values.member? "message"))).apply
      (Field.string "node_kind" (values.member? "node_kind"))).apply
      (Field.optionalPath "file_path" (values.member? "file_path"))
      |>.apply (severityOf (values.member? "severity")))

end Diagnostic

end ModuleFence
