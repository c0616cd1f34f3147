import ModuleFence.Log
import ModuleFence.Script.Checked
import ModuleFence.Script.Parse
import ModuleFence.Store.Names

/-!
Resolution of the module names of a store. The first attempt that ends with names or with an error
of the store decides for good: later requests get the same answer, for whatever path they ask.
-/

set_option autoImplicit false

namespace ModuleFence

/-- How an attempt to resolve the names ended. -/
inductive Outcome where
  | resolved
  | empty
  | parseError
  | readError
deriving DecidableEq, Repr

def Outcome.name : Outcome → String
  | resolved => "resolved"
  | empty => "empty"
  | parseError => "parse_error"
  | readError => "read_error"

/-- A resolver with what it remembers of its attempts, and the parser for the stores that it reads. -/
structure Resolver where
  policy : FailurePolicy := .open
  storePath : Option Path := none
  cached : Option (Except StoreError (List Text)) := none
  outcome : Option Outcome := none
  parser : SourceParser := Script.parse

namespace Resolver

/-- The names that are known, once an attempt has ended with names. -/
def resolved? (resolver : Resolver) : Option (List Text) :=
  match resolver.cached with
  | some (.ok names) => some names
  | _ => none

/-- How an attempt ends, and what it writes to the log. -/
structure Attempt where
  result : Except Failure (List Text)
  outcome : Option Outcome
  records : List LogRecord

/-- The warning about a store without modules. -/
def emptyMessage : Text := "No store module found. Please check your store file."

def unusable (policy : FailurePolicy) (path : Path) (outcome : Outcome) (reason : Text) : Attempt where
  result :=
    match policy with
    | .open => .ok []
    | .closed => .error (.store ⟨path.toText, reason⟩)
  outcome := some outcome
  records := [⟨.error, .store,
    Text.concat ["Store file ", path.toText, " could not be used (", outcome.name, "): ", reason]⟩]

def found (path : Path) (names : List Text) : Attempt where
  result := .ok names
  outcome := some (if names = [] then .empty else .resolved)
  records :=
    if names = [] then [⟨.warning, .store, Text.concat [emptyMessage, " (", path.toText, ")"]⟩]
    else [⟨.debug, .store,
      Text.concat ["Resolved ", Text.ofInt names.length, " store module(s) from ", path.toText, ": ",
        Text.commaList names]⟩]

/-- An attempt that ends in a failure of another kind. -/
def broken (failure : Failure) : Attempt :=
  ⟨.error failure, none, []⟩

/-- Reads a store file and collects the names in the tree that a parser gives to it. -/
def attempt (parser : SourceParser) (files : FileSystem) (policy : FailurePolicy) (path : Path) :
    Attempt :=
  match files.readText path with
  | .error error =>
    if error.isExpected then unusable policy path .readError error.message
    else broken (.read error)
  | .ok source =>
    match (parser source).checked (some path.toText) with
    | .error error => unusable policy path .parseError error.message
    | .ok root =>
      match Store.moduleNames root with
      | .error error => broken (.escape error)
      | .ok names => found path names

/-- What of the end of an attempt is remembered. -/
def remember : Except Failure (List Text) → Option (Except StoreError (List Text))
  | .ok names => some (.ok names)
  | .error (.store error) => some (.error error)
  | .error _ => none

/-- The answer that is remembered. -/
def afterwards : Except StoreError (List Text) → Except Failure (List Text)
  | .ok names => .ok names
  | .error error => .error (.store error)

/-- The record about a request for another path than the first. -/
def ignoredRecords (known : Option Path) (path : Path) : List LogRecord :=
  match known with
  | none => []
  | some first =>
    if path = first then []
    else [⟨.debug, .store,
      Text.concat ["Store modules already resolved from ", first.toText, "; ignoring ",
        path.toText]⟩]

/-- The end of a request: its answer, the resolver after it, and its log records. -/
structure Reply where
  result : Except Failure (List Text)
  resolver : Resolver
  records : List LogRecord

/-- Answers a request for the names of a store. -/
def resolve (files : FileSystem) (path : Path) (resolver : Resolver) : Reply :=
  match resolver.cached with
  | some answer => ⟨afterwards answer, resolver, ignoredRecords resolver.storePath path⟩
  | none =>
    let attempt := attempt resolver.parser files resolver.policy path
    ⟨attempt.result,
      { resolver with
        storePath := some path
        cached := remember attempt.result
        outcome := attempt.outcome <|> resolver.outcome },
      attempt.records⟩

end Resolver

end ModuleFence
