import ModuleFence.Lint.Basic
import ModuleFence.Source.Loading

/-!
Linting of files. A file that cannot be read is reported and passed over; a report grows by whole
files, so that a failure leaves nothing of the file that it happened in.
-/

set_option autoImplicit false

namespace ModuleFence.Linter

/-- The finding on a file that cannot be read. -/
def unreadable (path : Path) (error : ReadError) : Diagnostic where
  ruleId := parseErrorRule
  message := Text.concat ["Cannot read file: ", error.message]
  span := Span.atPlace 1 1
  nodeKind := "file"
  filePath := path

/-- The record about a file that cannot be read. -/
def unreadableRecord (path : Path) (error : ReadError) : LogRecord :=
  ⟨.error, .linting, Text.concat ["Cannot read ", path.toText, ": ", error.message]⟩

/-- A report with a linter, and the failure that ended its growth, if one did. -/
structure Progress where
  failure : Option Failure
  report : Report
  linter : Linter

def lintFile (files : FileSystem) (path : Path) (report : Report) (linter : Linter) : Progress :=
  match SourceFile.load files path with
  | .error error =>
    if error.isExpected then
      ⟨none, report.extend [unreadable path error], linter.log [unreadableRecord path error]⟩
    else ⟨some (.read error), report, linter⟩
  | .ok source =>
    let answer := lintSource files (some path) source.characters linter
    match answer.result with
    | .error failure => ⟨some failure, report, answer.linter⟩
    | .ok diagnostics => ⟨none, report.addFile diagnostics, answer.linter⟩

/-- Lints files into a report, in order; a failure keeps it from the files behind. -/
def lintFiles (files : FileSystem) : List Path → Report → Linter → Progress
  | [], report, linter => ⟨none, report, linter⟩
  | path :: rest, report, linter =>
    let progress := lintFile files path report linter
    match progress.failure with
    | some _ => progress
    | none => lintFiles files rest progress.report progress.linter

end ModuleFence.Linter
