import ModuleFence.Text.Blank

set_option autoImplicit false

namespace ModuleFence.EnvironmentFile

/-- A key with its value; a key alone has none. -/
abbrev Binding := String × Option String

def isBlank (character : Char) : Bool :=
  isBlankPoint character.toNat

def endsLine (character : Char) : Bool :=
  character == '\n' || character == '\r'

def isInlineBlank (character : Char) : Bool :=
  isBlank character && !endsLine character

/-- The part of a line that stands before the next line end, and the rest behind that end. -/
def restOfLine (characters : List Char) : List Char :=
  (characters.dropWhile (!endsLine ·)).drop 1

/-- The word `export` with the blanks behind it is dropped. -/
def skipExport (characters : List Char) : List Char :=
  let behind := characters.drop 6
  if "export".toList <+: characters ∧ (behind.head?.map isInlineBlank) = some true then
    behind.dropWhile isInlineBlank
  else characters

/-- A key at the front; the outer option is absent when there is no key where one should be. -/
def readKey? : List Char → Option (Option (List Char) × List Char)
  | '#' :: rest => some (none, '#' :: rest)
  | '\'' :: rest =>
    let key := rest.takeWhile (· ≠ '\'')
    match rest.drop key.length with
    | '\'' :: behind => if key = [] then none else some (some key, behind)
    | _ => none
  | characters =>
    let key := characters.takeWhile fun character =>
      character != '=' && character != '#' && !isBlank character
    if key = [] then none else some (some key, characters.drop key.length)

/-- The text up to the closing quote, which a backslash hides, and the rest behind it. -/
def closeQuote? (quote : Char) : List Char → Option (List Char × List Char)
  | [] => none
  | character :: rest =>
    if character = quote then some ([], rest)
    else
      match rest with
      | next :: behind =>
        if character = '\\' ∧ next = quote then
          match closeQuote? quote behind with
          | some (inside, out) => some (character :: next :: inside, out)
          | none => some ([character], behind)
        else
          (closeQuote? quote (next :: behind)).map fun (inside, out) => (character :: inside, out)
      | [] => none

/-- The character of an escape between single quotes. -/
def singleEscape? : Char → Option Char
  | '\\' => some '\\'
  | '\'' => some '\''
  | _ => none

/-- The character of an escape between double quotes. -/
def doubleEscape? : Char → Option Char
  | '\\' => some '\\'
  | '\'' => some '\''
  | '"' => some '"'
  | 'a' => some '\x07'
  | 'b' => some '\x08'
  | 'f' => some '\x0c'
  | 'n' => some '\n'
  | 'r' => some '\r'
  | 't' => some '\t'
  | 'v' => some '\x0b'
  | _ => none

def unescape (escape? : Char → Option Char) : List Char → List Char
  | [] => []
  | [character] => [character]
  | character :: next :: rest =>
    if character = '\\' then
      match escape? next with
      | some value => value :: unescape escape? rest
      | none => character :: unescape escape? (next :: rest)
    else character :: unescape escape? (next :: rest)

/-- A line without the comment that blanks set off. -/
def dropComment : List Char → List Char
  | [] => []
  | character :: rest =>
    if isBlank character ∧ ((rest.dropWhile isBlank).head? = some '#') then []
    else character :: dropComment rest

def readValue? : List Char → Option (List Char × List Char)
  | '\'' :: rest =>
    (closeQuote? '\'' rest).map fun (inside, out) => (unescape singleEscape? inside, out)
  | '"' :: rest =>
    (closeQuote? '"' rest).map fun (inside, out) => (unescape doubleEscape? inside, out)
  | characters =>
    let line := characters.takeWhile (!endsLine ·)
    some (dropWhileEnd isBlank (dropComment line), characters.drop line.length)

/-- The rest behind a comment and the end of the line; none when something else follows. -/
def finishLine? (characters : List Char) : Option (List Char) :=
  let behindBlanks := characters.dropWhile isInlineBlank
  let behindComment :=
    if behindBlanks.head? = some '#' then behindBlanks.dropWhile (!endsLine ·) else behindBlanks
  match behindComment with
  | [] => some []
  | '\r' :: '\n' :: rest => some rest
  | character :: rest => if endsLine character then some rest else none

/-- A line at the front, after its leading blanks: what it binds, and the rest behind it. -/
def readLine (characters : List Char) : Option Binding × List Char :=
  let start := skipExport characters
  match readKey? start with
  | none => (none, restOfLine start)
  | some (key, behindKey) =>
    let bind (value : Option (List Char)) : Option Binding :=
      key.map fun name => (String.ofList name, value.map String.ofList)
    match behindKey.dropWhile isInlineBlank with
    | '=' :: behindSign =>
      let valueStart := behindSign.dropWhile isInlineBlank
      match readValue? valueStart with
      | none => (none, restOfLine valueStart)
      | some (value, out) =>
        match finishLine? out with
        | some rest => (bind (some value), rest)
        | none => (none, restOfLine out)
    | out =>
      match finishLine? out with
      | some rest => (bind none, rest)
      | none => (none, restOfLine out)

/-- The bindings of a number of lines at most. -/
def readLines : (lines : Nat) → List Char → List Binding
  | 0, _ => []
  | lines + 1, characters =>
    match characters.dropWhile isBlank with
    | [] => []
    | start =>
      let (binding, rest) := readLine start
      binding.toList ++ readLines lines rest

def bindings (characters : List Char) : List Binding :=
  readLines (characters.length + 1) characters

/-- The name and the default of a reference behind `$` and the opening brace, and the rest. -/
def readReference? (characters : List Char) :
    Option (List Char × Option (List Char) × List Char) :=
  let name := characters.takeWhile fun character => character != '\x7d' && character != ':'
  match characters.drop name.length with
  | '\x7d' :: rest => some (name, none, rest)
  | ':' :: '-' :: behind =>
    let fallback := behind.takeWhile (· ≠ '\x7d')
    match behind.drop fallback.length with
    | '\x7d' :: rest => some (name, some fallback, rest)
    | _ => none
  | _ => none

/-- A value with its references replaced by what `look` finds for their names. -/
def expand (look : String → Option (Option String)) : (fuel : Nat) → List Char → List Char
  | 0, characters => characters
  | _, [] => []
  | fuel + 1, character :: rest =>
    match character, rest with
    | '$', '\x7b' :: behind =>
      match readReference? behind with
      | some (name, fallback, out) =>
        let value :=
          match look (String.ofList name) with
          | some found => (found.getD "").toList
          | none => fallback.getD []
        value ++ expand look fuel out
      | none => character :: expand look fuel rest
    | _, _ => character :: expand look fuel rest

/-- Sets a key, in its old place if it had one. -/
def assign (binding : Binding) (known : List Binding) : List Binding :=
  if known.any (·.1 = binding.1) then
    known.map fun old => if old.1 = binding.1 then binding else old
  else known ++ [binding]

/-- Expands the values in order; a reference sees earlier keys first, then the environment. -/
def resolveFrom (environment : List (String × String)) (known : List Binding) :
    List Binding → List Binding
  | [] => known
  | (key, value) :: rest =>
    let look (name : String) : Option (Option String) :=
      (known.lookup name) <|> ((environment.reverse.lookup name).map some)
    let expanded := value.map fun string =>
      String.ofList (expand look (string.length + 1) string.toList)
    resolveFrom environment (assign (key, expanded) known) rest

/-- The keys of a file with their expanded values. -/
def assignments (environment : List (String × String)) (characters : List Char) : List Binding :=
  resolveFrom environment [] (bindings characters)

end ModuleFence.EnvironmentFile
