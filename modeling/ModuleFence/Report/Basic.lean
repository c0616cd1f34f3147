import ModuleFence.Diagnostic

set_option autoImplicit false

namespace ModuleFence

/-- The diagnostics of a run. -/
structure Report where
  diagnostics : List Diagnostic := []
  filesChecked : Int := 0
deriving DecidableEq

namespace Report

def extend (report : Report) (diagnostics : List Diagnostic) : Report :=
  { report with diagnostics := report.diagnostics ++ diagnostics }

def addFile (report : Report) (diagnostics : List Diagnostic) : Report :=
  { report.extend diagnostics with filesChecked := report.filesChecked + 1 }

def ofSeverity (report : Report) (severity : Severity) : List Diagnostic :=
  report.diagnostics.filter fun diagnostic => diagnostic.severity = severity

/-- Whether nothing was found. -/
def isClean (report : Report) : Bool :=
  report.diagnostics.isEmpty

def filesField : Text := "files_checked"

/-- The empty report that an object of values stands for. -/
def ofJson (values : Json) : Except ValidationError Report :=
  let count : Validated Int :=
    match values.member? filesField with
    | none => .ok 0
    | some value => Field.integer filesField value
  Validated.forModel "LintReport" (count.map fun filesChecked => (⟨[], filesChecked⟩ : Report))

end Report

end ModuleFence
