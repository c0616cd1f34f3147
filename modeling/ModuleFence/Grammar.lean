import ModuleFence.Failure

set_option autoImplicit false

namespace ModuleFence

/-- The grammars that are known, with their packages, and the languages whose parsers were made. -/
structure Grammars where
  packages : List (Text × Text)
  made : List Text := []
deriving DecidableEq

namespace Grammars

def scriptPackage : Text := "tree_sitter_javascript"

def scriptLanguage : Text := "javascript"

/-- The grammars that are known from the start. -/
def initial : Grammars where
  packages := [(scriptLanguage, scriptPackage)]

/-- Makes a grammar known; what was known for its language is replaced. -/
def register (language package : Text) (grammars : Grammars) : Grammars :=
  { grammars with packages := (language, package) :: grammars.packages }

def isInstalled (package : Text) : Bool :=
  package = scriptPackage

/-- Whether there is a parser for a language, or why not. -/
def available (language : Text) (grammars : Grammars) : Except GrammarError Unit :=
  match grammars.packages.lookup language with
  | none => .error (.unregistered language)
  | some package => if isInstalled package then .ok () else .error (.notInstalled package)

def parser (language : Text) (grammars : Grammars) : Except GrammarError Nat × Grammars :=
  match grammars.made.idxOf? language with
  | some number => (.ok number, grammars)
  | none =>
    match grammars.available language with
    | .error error => (.error error, grammars)
    | .ok () => (.ok grammars.made.length, { grammars with made := grammars.made ++ [language] })

end Grammars

end ModuleFence
