import ModuleFence.Failure
import ModuleFence.Json.Printer
import ModuleFence.Report.Basic

set_option autoImplicit false

namespace ModuleFence

def toolName : String := "storelint"

def toolVersion : String := "0.1.0"

namespace Diagnostic

/-- How the file of a finding is named. -/
def place (diagnostic : Diagnostic) : Text :=
  match diagnostic.filePath with
  | some path => path.toText
  | none => "<source>"

def render (diagnostic : Diagnostic) : Text :=
  Text.concat [diagnostic.place, ":", Text.ofInt diagnostic.line, ":",
    Text.ofInt diagnostic.column, "  ", diagnostic.severity.name, "  ", diagnostic.message, "  ",
    diagnostic.ruleId]

def toJson (diagnostic : Diagnostic) : Json :=
  .object [
    ("file_path", match diagnostic.filePath with
      | some path => .string path.toText
      | none => .null),
    ("rule_id", .string diagnostic.ruleId),
    ("severity", .string diagnostic.severity.name),
    ("message", .string diagnostic.message),
    ("node_kind", .string diagnostic.nodeKind),
    ("line", .integer diagnostic.span.startLine),
    ("column", .integer diagnostic.span.startColumn),
    ("end_line", .integer diagnostic.span.endLine),
    ("end_column", .integer diagnostic.span.endColumn)]

end Diagnostic

namespace Report

/-- The line that counts the findings. -/
def summary (report : Report) : Text :=
  let total := report.diagnostics.length
  Text.concat [Text.ofInt total, if total = 1 then " problem in " else " problems in ",
    Text.ofInt report.filesChecked, " file(s) checked"]

/-- A report as text; without findings it is empty. -/
def renderText (report : Report) : Text :=
  if report.diagnostics = [] then []
  else Text.joinWith "\n" (report.diagnostics.map Diagnostic.render ++ [[], report.summary])

def toJson (report : Report) : Json :=
  .object [
    ("tool", .string toolName),
    ("version", .string toolVersion),
    ("files_checked", .integer report.filesChecked),
    ("diagnostic_count", .integer report.diagnostics.length),
    ("diagnostics", .array (report.diagnostics.map Diagnostic.toJson))]

def renderJson (report : Report) : Text :=
  report.toJson.layOut

/-- The integers that are written in a report as text. -/
def textNumbers (report : Report) : List Int :=
  report.diagnostics.flatMap (fun diagnostic => [diagnostic.line, diagnostic.column]) ++
    [(report.diagnostics.length : Int), report.filesChecked]

/-- Formats a report as text, which fails if an integer in it is too long to be written. -/
def formatText (report : Report) : Except Failure Text :=
  if report.diagnostics = [] ∨ report.textNumbers.all Text.isShort then .ok report.renderText
  else .error .integerTooLong

/-- Formats a report as JSON text, which fails if an integer in it is too long to be written. -/
def formatJson (report : Report) : Except Failure Text :=
  match report.toJson.print? with
  | some text => .ok text
  | none => .error .integerTooLong

end Report

end ModuleFence
