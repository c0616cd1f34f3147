import ModuleFence.Log
import ModuleFence.Text.Quoted
import ModuleFence.Validation

/-!
Options of the rule against forbidden modules. Names are stripped, must not be empty or hold a slash,
and are kept in their order; a name that came before is dropped and reported.
-/

set_option autoImplicit false

namespace ModuleFence

def moduleSeparator : CodePoint := CodePoint.ofChar '/'

/-- Where the forbidden modules come from. -/
structure ModuleOptions where
  storeFilePath : Option Path := none
  forbiddenModules : List Text := []
deriving DecidableEq

/-- Why a name cannot be forbidden. -/
inductive NameFault where
  | empty
  | separator (name : Text)
deriving DecidableEq

def NameFault.wording : NameFault → Text
  | empty => "forbidden module names must be non-empty"
  | separator name =>
    Text.concat ["forbidden module name ", name.quoted, " must not contain ",
      Text.quoted [moduleSeparator]]

namespace ModuleOptions

/-- The names kept, and the names dropped because they came before. -/
structure Cleaning where
  kept : List Text
  dropped : List Text
deriving DecidableEq

/-- Cleans further names behind those that were cleaned before. -/
def cleanFrom (before : Cleaning) : List Text → Except NameFault Cleaning
  | [] => .ok before
  | entry :: rest =>
    let name := entry.strip
    if name = [] then .error .empty
    else if moduleSeparator ∈ name then .error (.separator name)
    else if name ∈ before.kept then
      cleanFrom { before with dropped := before.dropped ++ [name] } rest
    else cleanFrom { before with kept := before.kept ++ [name] } rest

def clean (names : List Text) : Except NameFault Cleaning :=
  cleanFrom ⟨[], []⟩ names

/-- The warning about dropped names. -/
def droppedRecords (dropped : List Text) : List LogRecord :=
  if dropped = [] then []
  else [⟨.warning, .configuration,
    Text.concat ["Duplicate forbidden modules ignored: ", Text.commaList dropped]⟩]

def storeField : Text := "store_file_path"

def modulesField : Text := "forbidden_modules"

/-- The name under which issues with options are reported. -/
def modelName : String := "DisallowModuleOptions"

def cleanField (names : List Text) : Validated Cleaning :=
  match clean names with
  | .ok cleaning => .ok cleaning
  | .error fault => Field.refuse modulesField (.rejected fault.wording)

def withNames (storeFilePath : Option Path) (cleaning : Cleaning) : ModuleOptions :=
  ⟨storeFilePath, cleaning.kept⟩

/-- The records about the names of a field. -/
def cleaningRecords : Validated Cleaning → List LogRecord
  | .ok cleaning => droppedRecords cleaning.dropped
  | .error _ => []

/-- The options with a store file and names, and the records about them. -/
def ofNames (storeFilePath : Option Path) (names : List Text) :
    Except ValidationError ModuleOptions × List LogRecord :=
  let cleaning := cleanField names
  (Validated.forModel modelName (cleaning.map (withNames storeFilePath)), cleaningRecords cleaning)

/-- The names given for a field, whose absence means no names. -/
def givenNames : Option Json → Validated (List Text)
  | none => .ok []
  | some value => Field.strings modulesField .notATuple (Field.splitCommas value)

/-- The options that an object of values stands for, and the records about them. -/
def ofJson (values : Json) : Except ValidationError ModuleOptions × List LogRecord :=
  let path := Field.optionalPath storeField (values.member? storeField)
  let cleaning : Validated Cleaning := (givenNames (values.member? modulesField)).bind cleanField
  (Validated.forModel modelName (Validated.apply (path.map withNames) cleaning),
    cleaningRecords cleaning)

/-- Options never change after they were made. -/
def assign (_options : ModuleOptions) (field : Text) : ValidationError :=
  ⟨modelName, [⟨field, none, .frozen⟩]⟩

/-- Whether the names come from the store file. -/
def derivesFromStore (options : ModuleOptions) : Bool :=
  options.forbiddenModules = [] && options.storeFilePath.isSome

end ModuleOptions

end ModuleFence
