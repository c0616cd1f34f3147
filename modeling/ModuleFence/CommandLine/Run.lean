import ModuleFence.CommandLine.Help
import ModuleFence.CommandLine.Invocation
import ModuleFence.Lint.Files
import ModuleFence.Log.Setup
import ModuleFence.Report.Render
import ModuleFence.Settings.Sources

/-!
Runs of the command line. A run ends with an exit code, or without one when it only prints what it
knows; diagnostics end it with one, and all that keeps it from linting with two.
-/

set_option autoImplicit false

namespace ModuleFence.CommandLine

/-- How a run ends. -/
inductive Ending where
  | done
  | exit (code : Nat)
  | failed (failure : Failure)
deriving DecidableEq

/-- What a run comes to: its end, what it prints, and its log. -/
structure Outcome where
  ending : Ending
  output : Text := []
  errors : Text := []
  records : List LogRecord := []
deriving DecidableEq

namespace Outcome

/-- A run that ends without an exit code. -/
def printed (output : Text) : Outcome where
  ending := .done
  output := output

/-- The exit code of a run without diagnostics. -/
def cleanCode : Nat := 0

/-- The exit code of a run with diagnostics. -/
def diagnosticsCode : Nat := 1

/-- The exit code of a run that could not lint. -/
def failureCode : Nat := 2

/-- A run that ends with an error message. -/
def refused (message : Text) (records : List LogRecord) : Outcome where
  ending := .exit failureCode
  errors := Text.concat ["Error: ", message, "\n"]
  records := records

/-- A run that a failure ends which nothing handles. -/
def broken (failure : Failure) (records : List LogRecord) : Outcome where
  ending := .failed failure
  records := records

/-- A run that a stop ends while the command line is read. -/
def stopped : Stop → Outcome
  | .help screen => { ending := .exit cleanCode, output := screen.help }
  | .misuse screen message =>
    { ending := .exit failureCode
      errors := Text.concat [screen.usage, screen.program, ": error: ", message, "\n"] }

end Outcome

namespace LintArguments

/-- The values that options give to settings. -/
def settingsMembers (arguments : LintArguments) : List (Text × Json) :=
  let store : List (Text × Json) :=
    match arguments.store with
    | some path => [(Settings.Key.storeFilePath.name, .string path)]
    | none => []
  let forbidden : List (Text × Json) :=
    if arguments.forbidden = [] then []
    else [(Settings.Key.forbiddenModules.name, .string (",".intercalate arguments.forbidden))]
  let rules : List (Text × Json) :=
    if arguments.rules = [] then []
    else [(Settings.Key.enabledRules.name,
      .array (arguments.rules.eraseDups.map fun (rule : String) => .string rule))]
  let policy : List (Text × Json) :=
    if arguments.failClosed then
      [(Settings.Key.failurePolicy.name, .string FailurePolicy.closed.name)]
    else []
  store ++ forbidden ++ rules ++ policy

def settings (arguments : LintArguments) (files : FileSystem) (environment : Environment) :
    Except Failure Settings :=
  Settings.load files environment (.object arguments.settingsMembers)

/-- The paths among some that lead nowhere. -/
def missingPaths (files : FileSystem) : List String → Except Failure (List String)
  | [] => .ok []
  | spelling :: rest => do
    let found ← Discovery.lookUp files (Path.ofString spelling)
    let others ← missingPaths files rest
    return if found.isNone then spelling :: others else others

/-- A report in the form that was asked for; a clean one prints nothing as text. The integers of a run
are counts and places in sources, none of which is too long to be written. -/
def render (arguments : LintArguments) (report : Report) : Text :=
  if arguments.inJson then report.renderJson ++ Text.ofString "\n"
  else if report.renderText = [] then []
  else report.renderText ++ Text.ofString "\n"

/-- A run at the end of its linting. -/
def finish (arguments : LintArguments) (records : List LogRecord) (progress : Linter.Progress) :
    Outcome :=
  let records := records ++ progress.linter.shared.records
  match progress.failure with
  | some (.store error) => .refused error.message records
  | some failure => .broken failure records
  | none =>
    { ending := .exit
        (if progress.report.isClean then Outcome.cleanCode else Outcome.diagnosticsCode)
      output := arguments.render progress.report
      records := records }

/-- The record about the number of files. -/
def countRecord (count : Nat) : LogRecord :=
  ⟨.debug, .commandLine, Text.concat ["Linting ", Text.ofInt count, " file(s)"]⟩

def lintWith (arguments : LintArguments) (files : FileSystem) (settings : Settings)
    (rules : List Rule) (records : List LogRecord) : Outcome :=
  let (found, discovered) := Discovery.discover files settings.skipDirectories
    (arguments.paths.map Path.ofString)
  match found with
  | .error failure => .broken failure (records ++ discovered)
  | .ok targets =>
    arguments.finish (records ++ discovered ++ [countRecord targets.length])
      (Linter.lintFiles files targets {} ⟨rules, { resolver := { policy := settings.failurePolicy } }⟩)

def runWith (arguments : LintArguments) (files : FileSystem) (settings : Settings) : Outcome :=
  match missingPaths files arguments.paths with
  | .error failure => .broken failure []
  | .ok [] =>
    match Rule.create settings none with
    | (.error error, records) => .refused error.message records
    | (.ok rules, records) => arguments.lintWith files settings rules records
  | .ok missing =>
    .refused (Text.concat ["no such file or directory: ", ", ".intercalate missing]) []

def logLevel (arguments : LintArguments) (settings : Settings) : LogLevel :=
  if arguments.isVerbose then .debug else settings.logLevel

def run (arguments : LintArguments) (files : FileSystem) (environment : Environment) : Outcome :=
  match arguments.settings files environment with
  | .error (.invalid error) =>
    .refused (Text.concat ["invalid configuration: ", error.message]) []
  | .error failure => .broken failure []
  | .ok settings =>
    let outcome := arguments.runWith files settings
    { outcome with records := LogRecord.atLeast (arguments.logLevel settings) outcome.records }

end LintArguments

def run (files : FileSystem) (environment : Environment) (words : List String) : Outcome :=
  match Invocation.ofWords words with
  | .overview => .printed Screen.general.help
  | .version => .printed (Text.concat [toolName, " ", toolVersion, "\n"])
  | .listRules => .printed (linesOf (RuleId.all.map RuleId.name))
  | .lint arguments => arguments.run files environment
  | .stop stop => .stopped stop

end ModuleFence.CommandLine
