import ModuleFence.FileSystem.Path
import ModuleFence.Json.Basic
import ModuleFence.Text.Blank

/-!
Validation of the values that options and settings are made of. Every field is looked at, and the
issues of all fields are reported together, in the order of the fields.
-/

set_option autoImplicit false

namespace ModuleFence

inductive Complaint where
  | notAList
  | notATuple
  | notAString
  | notAPath
  | notAnInteger
  | unparsableInteger
  | oversizedInteger
  | fractionalInteger
  | missing
  | frozen
  | unknownPolicy
  | unknownSeverity
  | unknownLevel
  | rejected (reason : Text)
deriving DecidableEq

namespace Complaint

def code : Complaint → String
  | notAList => "list_type"
  | notATuple => "tuple_type"
  | notAString => "string_type"
  | notAPath => "path_type"
  | notAnInteger => "int_type"
  | unparsableInteger => "int_parsing"
  | oversizedInteger => "int_parsing_size"
  | fractionalInteger => "int_from_float"
  | missing => "missing"
  | frozen => "frozen_instance"
  | unknownPolicy => "enum"
  | unknownSeverity => "enum"
  | unknownLevel => "literal_error"
  | rejected _ => "value_error"

def wording : Complaint → Text
  | notAList => "Input should be a valid list"
  | notATuple => "Input should be a valid tuple"
  | notAString => "Input should be a valid string"
  | notAPath => "Input is not a valid path for <class 'pathlib.Path'>"
  | notAnInteger => "Input should be a valid integer"
  | unparsableInteger => "Input should be a valid integer, unable to parse string as an integer"
  | oversizedInteger => "Unable to parse input string as an integer, exceeded maximum size"
  | fractionalInteger => "Input should be a valid integer, got a number with a fractional part"
  | missing => "Field required"
  | frozen => "Instance is frozen"
  | unknownPolicy => "Input should be 'open' or 'closed'"
  | unknownSeverity => "Input should be 'error' or 'warning'"
  | unknownLevel => "Input should be 'DEBUG', 'INFO', 'WARNING', 'ERROR' or 'CRITICAL'"
  | rejected reason => Text.concat ["Value error, ", reason]

end Complaint

/-- A complaint about a field, or about an item of it. -/
structure Issue where
  field : Text
  index : Option Nat := none
  complaint : Complaint
deriving DecidableEq

namespace Issue

def place (issue : Issue) : Text :=
  match issue.index with
  | none => issue.field
  | some index => Text.concat [issue.field, ".", Text.ofInt index]

/-- An issue over two lines. -/
def message (issue : Issue) : Text :=
  Text.concat [issue.place, "\n  ", issue.complaint.wording, " [type=", issue.complaint.code, "]"]

end Issue

/-- All issues of the values for a record. -/
structure ValidationError where
  model : String
  issues : List Issue
deriving DecidableEq

/-- The issues one after another. The values that were refused and the links to the documentation of
complaints are left out. -/
def ValidationError.message (error : ValidationError) : Text :=
  let count := error.issues.length
  let head := Text.concat [Text.ofInt count,
    if count = 1 then " validation error for " else " validation errors for ", error.model]
  Text.joinWith "\n" (head :: error.issues.map Issue.message)

/-- A value, or the issues that stand against it. -/
abbrev Validated (α : Type) := Except (List Issue) α

namespace Validated

/-- Applies a function to an argument and keeps the issues of both. -/
def apply {α β : Type} : Validated (α → β) → Validated α → Validated β
  | .ok function, .ok argument => .ok (function argument)
  | .ok _, .error issues => .error issues
  | .error issues, .ok _ => .error issues
  | .error first, .error second => .error (first ++ second)

/-- Names the record that the issues belong to. -/
def forModel {α : Type} (model : String) : Validated α → Except ValidationError α
  | .ok value => .ok value
  | .error issues => .error ⟨model, issues⟩

end Validated

namespace Field

def refuse {α : Type} (field : Text) (complaint : Complaint) : Validated α :=
  .error [⟨field, none, complaint⟩]

def string (field : Text) : Option Json → Validated Text
  | none => refuse field .missing
  | some (.string value) => .ok value
  | some _ => refuse field .notAString

def optionalPath (field : Text) : Option Json → Validated (Option Path)
  | none => .ok none
  | some .null => .ok none
  | some (.string value) =>
    match value.toString? with
    | some spelling => .ok (some (Path.ofString spelling))
    | none => refuse field .notAPath
  | some _ => refuse field .notAPath

def stringsFrom (field : Text) (index : Nat) : List Json → Validated (List Text)
  | [] => .ok []
  | item :: rest =>
    let first : Validated Text :=
      match item with
      | .string value => .ok value
      | _ => .error [⟨field, some index, .notAString⟩]
    Validated.apply (first.map List.cons) (stringsFrom field (index + 1) rest)

/-- A list of strings; `otherwise` is the complaint about a value that is no list. -/
def strings (field : Text) (otherwise : Complaint) : Json → Validated (List Text)
  | .array items => stringsFrom field 0 items
  | _ => refuse field otherwise

/-- A comma-separated list in one string becomes a list of its entries. -/
def splitCommas : Json → Json
  | .string value => .array (value.commaEntries.map .string)
  | value => value

/-- Digits with single underscores between them, after a digit that has been read. -/
def decimalFrom (value : Nat) : Text → Option Nat
  | [] => some value
  | mark :: rest =>
    if mark = '_' then
      match rest with
      | digit :: behind =>
        if 48 ≤ digit.value ∧ digit.value ≤ 57 then decimalFrom (value * 10 + (digit.value - 48)) behind
        else none
      | [] => none
    else if 48 ≤ mark.value ∧ mark.value ≤ 57 then decimalFrom (value * 10 + (mark.value - 48)) rest
    else none

/-- A nonempty sequence of digits with single underscores between them. -/
def decimal? : Text → Option Nat
  | [] => none
  | digit :: rest =>
    if 48 ≤ digit.value ∧ digit.value ≤ 57 then decimalFrom (digit.value - 48) rest else none

/-- The integer that a string spells, with blanks around it, a sign, and a fraction of zeros. -/
def integer? (text : Text) : Option Int :=
  let stripped := text.strip
  let negative := stripped.head? = some (CodePoint.ofChar '-')
  let unsigned :=
    if negative ∨ stripped.head? = some (CodePoint.ofChar '+') then stripped.drop 1 else stripped
  let whole := unsigned.takeWhile (· ≠ CodePoint.ofChar '.')
  let fraction := (unsigned.drop whole.length).drop 1
  if fraction.all (· = CodePoint.ofChar '0') then
    (decimal? whole).map fun value => if negative then -(value : Int) else value
  else none

/-- An integer, which may be given as a boolean, a string or a decimal without a fraction. -/
def integer (field : Text) : Json → Validated Int
  | .integer value => .ok value
  | .bool value => .ok (if value then 1 else 0)
  | .string value =>
    match integer? value with
    | some number => if Text.isShort number then .ok number else refuse field .oversizedInteger
    | none => refuse field .unparsableInteger
  | .decimal mantissa exponent =>
    if mantissa % Nat.pow 10 exponent = 0 then .ok (mantissa / Nat.pow 10 exponent)
    else refuse field .fractionalInteger
  | _ => refuse field .notAnInteger

end Field

end ModuleFence
