import ModuleFence.Settings.Basic

set_option autoImplicit false

namespace ModuleFence.CommandLine

/-- The commands with a form of their own; the general form names one of the others. -/
inductive Screen where
  | general
  | lint
  | rules
deriving DecidableEq, Repr

/-- The name under which a form speaks. -/
def Screen.program : Screen → String
  | general => "storelint"
  | lint => "storelint lint"
  | rules => "storelint rules"

/-- What an option is about. -/
inductive Topic where
  | help
  | version
  | store
  | forbid
  | rule
  | format
  | failClosed
  | verbose
deriving DecidableEq, Repr

/-- An option: its spellings, whether it takes a value, and the values that it may have. -/
structure OptionForm where
  topic : Topic
  spellings : List String
  takesValue : Bool := false
  choices : Option (List String) := none
deriving DecidableEq, Repr

/-- How an option is named in messages. -/
def OptionForm.title (option : OptionForm) : String :=
  "/".intercalate option.spellings

/-- The operands of a form: none, some paths, or a command with all that stands behind it. -/
inductive Operands where
  | none
  | paths
  | command
deriving DecidableEq, Repr

structure Form where
  screen : Screen
  options : List OptionForm
  operands : Operands
deriving DecidableEq, Repr

def helpOption : OptionForm where
  topic := .help
  spellings := ["-h", "--help"]

def generalForm : Form where
  screen := .general
  options := [helpOption, { topic := .version, spellings := ["--version"] }]
  operands := .command

def formatNames : List String := ["text", "json"]

def lintForm : Form where
  screen := .lint
  options := [
    helpOption,
    { topic := .store, spellings := ["--store"], takesValue := true },
    { topic := .forbid, spellings := ["--forbid"], takesValue := true },
    { topic := .rule, spellings := ["--rule", "-r"], takesValue := true,
      choices := some (RuleId.all.map RuleId.name) },
    { topic := .format, spellings := ["--format", "-f"], takesValue := true,
      choices := some formatNames },
    { topic := .failClosed, spellings := ["--fail-closed"] },
    { topic := .verbose, spellings := ["--verbose", "-v"] }]
  operands := .paths

def rulesForm : Form where
  screen := .rules
  options := [helpOption]
  operands := .none

def commandForms : List (String × Form) :=
  [("lint", lintForm), ("rules", rulesForm)]

def Form.spellings (form : Form) : List (String × OptionForm) :=
  form.options.flatMap fun option => option.spellings.map fun spelling => (spelling, option)

def Form.option? (form : Form) (spelling : String) : Option OptionForm :=
  form.spellings.lookup spelling

end ModuleFence.CommandLine
