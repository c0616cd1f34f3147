import ModuleFence.Log
import ModuleFence.Text.Uppercase
import ModuleFence.Validation

set_option autoImplicit false

namespace ModuleFence

/-- What happens when the store file cannot be used: go on without modules, or fail. -/
inductive FailurePolicy where
  | open
  | closed
deriving DecidableEq, Repr

namespace FailurePolicy

def name : FailurePolicy → String
  | .open => "open"
  | .closed => "closed"

def ofName? (name : Text) : Option FailurePolicy :=
  [.open, .closed].find? fun policy => Text.ofString policy.name = name

end FailurePolicy

inductive RuleId where
  | emptyCatch
  | someModule
deriving DecidableEq, Repr

namespace RuleId

def name : RuleId → String
  | emptyCatch => "disallow-empty-catch"
  | someModule => "disallow-some-module"

/-- All rules, in the order of their registration. -/
def all : List RuleId :=
  [emptyCatch, someModule]

def ofName? (name : Text) : Option RuleId :=
  all.find? fun rule => Text.ofString rule.name = name

end RuleId

structure Settings where
  storeFilePath : Option Path := none
  forbiddenModules : List Text := []
  failurePolicy : FailurePolicy := .open
  enabledRules : List RuleId := RuleId.all
  logLevel : LogLevel := .warning
  skipDirectories : List Text :=
    ["node_modules", "dist", "build", "coverage", ".git", ".nuxt", ".next"].map Text.ofString
deriving DecidableEq

namespace Settings

inductive Key where
  | storeFilePath
  | forbiddenModules
  | failurePolicy
  | enabledRules
  | logLevel
  | skipDirectories
deriving DecidableEq, Repr

def Key.name : Key → String
  | storeFilePath => "store_file_path"
  | forbiddenModules => "forbidden_modules"
  | failurePolicy => "failure_policy"
  | enabledRules => "enabled_rules"
  | logLevel => "log_level"
  | skipDirectories => "skip_directories"

def Key.all : List Key :=
  [storeFilePath, forbiddenModules, failurePolicy, enabledRules, logLevel, skipDirectories]

/-- The value given for each field. -/
abbrev Given := Key → Option Json

/-- Strings from a list, or from a comma-separated list in one string. -/
def commaStrings (key : Key) (value : Json) : Validated (List Text) :=
  Field.strings key.name .notAList (Field.splitCommas value)

def policyOf (value : Json) : Validated FailurePolicy :=
  match value.text?.bind FailurePolicy.ofName? with
  | some policy => .ok policy
  | none => Field.refuse Key.failurePolicy.name .unknownPolicy

/-- A log level by its name, in any case and with blanks around it. -/
def levelOf (value : Json) : Validated LogLevel :=
  match value.text?.bind fun name => LogLevel.ofName? name.strip.upper with
  | some level => .ok level
  | none => Field.refuse Key.logLevel.name .unknownLevel

def unknownRules (names : List Text) : Complaint :=
  .rejected (Text.concat ["Unknown rule id(s): ", Text.commaList names])

/-- The rules with some names; every unknown name is reported. -/
def rulesOf (names : List Text) : Validated (List RuleId) :=
  let unknown := names.filter fun name => (RuleId.ofName? name).isNone
  if unknown = [] then .ok (names.filterMap RuleId.ofName?)
  else Field.refuse Key.enabledRules.name (unknownRules unknown)

/-- The value of a field: its default when nothing is given. -/
def valueOr {α : Type} (default : α) (read : Json → Validated α) : Option Json → Validated α
  | none => .ok default
  | some value => read value

/-- The name under which issues with settings are reported. -/
def modelName : String := "Settings"

/-- The settings that the given values stand for. -/
def ofGiven (given : Given) : Except ValidationError Settings :=
  let defaults : Settings := {}
  let path := Field.optionalPath Key.storeFilePath.name (given .storeFilePath)
  let modules := valueOr defaults.forbiddenModules (commaStrings .forbiddenModules)
    (given .forbiddenModules)
  let policy := valueOr defaults.failurePolicy policyOf (given .failurePolicy)
  let rules := valueOr defaults.enabledRules
    (fun value => (commaStrings .enabledRules value).bind rulesOf) (given .enabledRules)
  let level := valueOr defaults.logLevel levelOf (given .logLevel)
  let skipped := valueOr defaults.skipDirectories
    (Field.strings Key.skipDirectories.name .notAList) (given .skipDirectories)
  let build : Validated (List Text → FailurePolicy → List RuleId → LogLevel → List Text → Settings) :=
    path.map Settings.mk
  Validated.forModel modelName
    ((((build.apply modules).apply policy).apply rules).apply level |>.apply skipped)

end Settings

end ModuleFence
