import ModuleFence.CommandLine.Form
import ModuleFence.Text.DecimalDigit
import ModuleFence.Text.Quoted

/-!
Words of a command line. A word that begins with a dash is an option, which may be abbreviated as long
as it stays unique, and which may carry its value behind an equals sign; behind two dashes all words
are operands.
-/

set_option autoImplicit false

namespace ModuleFence.CommandLine

/-- An option that a word stands for, by the spelling it was found under, with the value that the
word carries. -/
structure FoundOption where
  option : OptionForm
  spelling : String
  value : Option (List Char)

inductive WordKind where
  | operand
  | separator
  | option (found : FoundOption)
  | unknownOption

structure Word where
  spelling : String
  kind : WordKind

/-- Why a command line ends before it is read. -/
inductive Stop where
  | help (screen : Screen)
  | misuse (screen : Screen) (message : Text)
deriving DecidableEq

/-- The part before the first equals sign, and the part behind it. -/
def splitEquals (characters : List Char) : List Char × Option (List Char) :=
  match characters.dropWhile (· ≠ '=') with
  | [] => (characters, none)
  | _ :: value => (characters.takeWhile (· ≠ '='), some value)

/-- The options that a word with two dashes may abbreviate. -/
def Form.longMatches (form : Form) (characters : List Char) : List FoundOption :=
  let (name, value) := splitEquals characters
  form.spellings.filterMap fun (spelling, option) =>
    if name.isPrefixOf spelling.toList then some ⟨option, spelling, value⟩ else none

/-- The options that a word with one dash may stand for: a letter with its value behind it, or an
abbreviation. -/
def Form.shortMatches (form : Form) (characters : List Char) : List FoundOption :=
  form.spellings.filterMap fun (spelling, option) =>
    if spelling.toList = characters.take 2 then some ⟨option, spelling, some (characters.drop 2)⟩
    else if characters.isPrefixOf spelling.toList then some ⟨option, spelling, none⟩
    else none

def Form.candidates (form : Form) (characters : List Char) : List FoundOption :=
  if ['-', '-'].isPrefixOf characters then form.longMatches characters
  else form.shortMatches characters

/-- The option whose whole spelling a word holds, alone or before an equals sign. -/
def Form.exact? (form : Form) (characters : List Char) : Option FoundOption :=
  let whole := String.ofList characters
  match form.option? whole with
  | some option => some ⟨option, whole, none⟩
  | none =>
    match splitEquals characters with
    | (_, none) => none
    | (name, some value) =>
      (form.option? (String.ofList name)).map fun option => ⟨option, String.ofList name, some value⟩

def isDigit (character : Char) : Bool :=
  (decimalDigit? character.toNat).isSome

/-- A list without a newline at its end. -/
def dropFinalNewline (characters : List Char) : List Char :=
  if characters.getLast? = some '\n' then characters.dropLast else characters

/-- Whether the characters behind a dash make a number. -/
def isNumber (characters : List Char) : Bool :=
  match characters.dropWhile isDigit with
  | [] => !characters.isEmpty
  | '.' :: fraction => !fraction.isEmpty && fraction.all isDigit
  | _ => false

/-- Whether a word that is no option of the form is an operand all the same. -/
def looksLikeOperand (characters : List Char) : Bool :=
  isNumber (dropFinalNewline (characters.drop 1)) || characters.contains ' '

/-- The message about a word that may stand for several options. -/
def ambiguousMessage (characters : List Char) (candidates : List FoundOption) : Text :=
  Text.concat ["ambiguous option: ", String.ofList characters, " could match ",
    Text.commaList (candidates.map fun found => Text.ofString found.spelling)]

/-- The kind of a word that begins with a dash and has more than one character. -/
def Form.classifyDashed (form : Form) (characters : List Char) : Except Stop WordKind :=
  match form.exact? characters with
  | some found => .ok (.option found)
  | none =>
    match form.candidates characters with
    | [] => .ok (if looksLikeOperand characters then .operand else .unknownOption)
    | [found] => .ok (.option found)
    | candidates => .error (.misuse form.screen (ambiguousMessage characters candidates))

/-- The kind of a word other than two dashes alone. -/
def Form.classify (form : Form) (spelling : String) : Except Stop WordKind :=
  match spelling.toList with
  | '-' :: second :: rest => form.classifyDashed ('-' :: second :: rest)
  | _ => .ok .operand

def Form.words (form : Form) : List String → Except Stop (List Word)
  | [] => .ok []
  | spelling :: rest =>
    if spelling = "--" then .ok (⟨spelling, .separator⟩ :: rest.map (⟨·, .operand⟩))
    else do
      let kind ← form.classify spelling
      return ⟨spelling, kind⟩ :: (← form.words rest)

end ModuleFence.CommandLine
