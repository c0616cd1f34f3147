import ModuleFence.CommandLine.Reading

set_option autoImplicit false

namespace ModuleFence.CommandLine

/-- What linting was asked for. -/
structure LintArguments where
  paths : List String
  store : Option String := none
  forbidden : List String := []
  rules : List String := []
  inJson : Bool := false
  failClosed : Bool := false
  isVerbose : Bool := false
deriving DecidableEq, Repr

inductive Invocation where
  | overview
  | version
  | listRules
  | lint (arguments : LintArguments)
  | stop (stop : Stop)
deriving DecidableEq

namespace LintArguments

/-- What is known of linting with a further option. -/
def take (arguments : LintArguments) (given : Given) : LintArguments :=
  match given.topic with
  | .store => { arguments with store := some given.value }
  | .forbid => { arguments with forbidden := arguments.forbidden ++ [given.value] }
  | .rule => { arguments with rules := arguments.rules ++ [given.value] }
  | .format => { arguments with inJson := given.value = "json" }
  | .failClosed => { arguments with failClosed := true }
  | .verbose => { arguments with isVerbose := true }
  | .help | .version => arguments

/-- What linting of some paths with options was asked for. -/
def ofTaken (paths : List String) (given : List Given) : LintArguments :=
  given.foldl take { paths }

end LintArguments

namespace Invocation

def asksVersion (taken : Taken) : Bool :=
  taken.given.any (·.topic = .version)

def checkLeftOver (words : List String) : Except Stop Unit :=
  if words = [] then .ok ()
  else .error (.misuse .general
    (Text.concat ["unrecognized arguments: ", " ".intercalate words]))

/-- The name of the operand that chooses a command. -/
def commandTitle : Text := "command"

def formOf (command : String) : Except Stop Form :=
  match commandForms.lookup command with
  | some form => .ok form
  | none => .error (.misuse .general
      (Text.concat ["argument ", commandTitle, ": ",
        choiceMessage command (commandForms.map (·.1))]))

/-- What the rest of a command line asks for, which a form reads. -/
def ofForm (form : Form) (taken : Taken) : Except Stop Invocation :=
  match form.screen, taken.operands with
  | .lint, none => .error (.misuse .lint "the following arguments are required: paths")
  | .lint, some paths => .ok (lint (LintArguments.ofTaken (paths.erase "--") taken.given))
  | .rules, _ => .ok listRules
  | .general, _ => .ok overview

/-- What a command asks for, with the words that stand behind it; the first value holds the words
that are left over. -/
def ofCommand : List String → Except Stop (List String × Invocation)
  | [] => .ok ([], overview)
  | command :: words => do
    let form ← formOf command
    let taken ← form.read words
    return (taken.leftOver, ← ofForm form taken)

def read (words : List String) : Except Stop Invocation := do
  let taken ← generalForm.read words
  let (leftOver, invocation) ← ofCommand (taken.operands.getD [])
  checkLeftOver (taken.leftOver ++ leftOver)
  return if asksVersion taken then version else invocation

def ofWords (words : List String) : Invocation :=
  match read words with
  | .ok invocation => invocation
  | .error ended => stop ended

end Invocation

end ModuleFence.CommandLine
