import ModuleFence.Expression.Escape
import ModuleFence.FileSystem.Basic
import ModuleFence.Settings.Basic

set_option autoImplicit false

namespace ModuleFence

/-- A source that does not parse; the place may be unknown. -/
structure SyntaxError where
  path : Option Text
  line : Option Int := none
  column : Option Int := none
deriving DecidableEq

namespace SyntaxError

def sourceName (path : Option Text) : Text :=
  path.getD "<source>"

def place (error : SyntaxError) : Text :=
  match error.line with
  | none => sourceName error.path
  | some line =>
    Text.concat [sourceName error.path, ":", Text.ofInt line, ":", Text.ofInt (error.column.getD 0)]

def message (error : SyntaxError) : Text :=
  Text.concat ["Syntax error in ", error.place]

end SyntaxError

/-- A store file that cannot be used. -/
structure StoreError where
  path : Text
  reason : Text
deriving DecidableEq

def StoreError.message (error : StoreError) : Text :=
  Text.concat ["Cannot resolve store modules from ", error.path, ": ", error.reason]

/-- The places that settings are read from. -/
inductive SettingsSource where
  | environment
  | environmentFile
deriving DecidableEq, Repr

def SettingsSource.name : SettingsSource → String
  | environment => "EnvSettingsSource"
  | environmentFile => "DotEnvSettingsSource"

/-- Why no rules can be made. -/
inductive RuleConfigError where
  | unknownRule (name : Text)
  | invalidOptions (error : ValidationError)
deriving DecidableEq

def RuleConfigError.message : RuleConfigError → Text
  | unknownRule name => Text.concat ["Unknown rule id: ", name]
  | invalidOptions error =>
    Text.concat ["Invalid options for ", RuleId.someModule.name, ": ", error.message]

/-- Why there is no parser for a language. -/
inductive GrammarError where
  | unregistered (language : Text)
  | notInstalled (package : Text)
deriving DecidableEq

def GrammarError.message : GrammarError → Text
  | unregistered language => Text.concat ["No tree-sitter grammar registered for ", language]
  | notInstalled package =>
    Text.concat ["tree-sitter grammar package ", package.quoted, " is not installed"]

/-- All that can end an operation. -/
inductive Failure where
  | escape (error : EscapeError)
  | read (error : ReadError)
  | syntaxError (error : SyntaxError)
  | store (error : StoreError)
  | invalid (error : ValidationError)
  | unreadableSetting (key : Settings.Key) (source : SettingsSource)
  | ruleConfig (error : RuleConfigError)
  | ignorePattern (line : Text)
  | grammar (error : GrammarError)
  | unknownPolicy (name : Text)
  | unknownLogLevel (name : Text)
  | integerTooLong
  | recursion (reason : String)
deriving DecidableEq

def Failure.message : Failure → Text
  | escape .numberTooLarge => "Python int too large to convert to C int"
  | read error => error.message
  | syntaxError error => error.message
  | store error => error.message
  | invalid error => error.message
  | unreadableSetting key source =>
    Text.concat ["error parsing value for field \"", key.name, "\" from source \"", source.name, "\""]
  | ruleConfig error => error.message
  | ignorePattern line => Text.concat ["Invalid git pattern: ", line.quoted]
  | grammar error => error.message
  | unknownPolicy name => Text.concat [name.quoted, " is not a valid FailurePolicy"]
  | unknownLogLevel name => Text.concat ["module 'logging' has no attribute '", name, "'"]
  | integerTooLong => Text.concat ["Exceeds the limit (", Text.ofInt Text.maxIntegerDigits,
      " digits) for integer string conversion; use sys.set_int_max_str_digits() to increase the limit"]
  | recursion reason => Text.concat ["maximum recursion depth exceeded", reason]

end ModuleFence
