import ModuleFence.Script.Character

set_option autoImplicit false

namespace ModuleFence.Script.Lexeme

/-- The number of characters at the front that satisfy a test. -/
def run (test : Char → Bool) (characters : List Char) : Nat :=
  (characters.takeWhile test).length

def exact (spelling : String) (characters : List Char) : Nat :=
  if spelling.toList.isPrefixOf characters then spelling.length else 0

/-- The length of the braces and digits of an escape by number. -/
def bracedDigits : List Char → Nat
  | '\u007b' :: rest =>
    let digits := run isHexDigit rest
    if 0 < digits ∧ (rest.drop digits).head? = some '\u007d' then digits + 2 else 0
  | _ => 0

/-- Whether exactly some hexadecimal digits stand at the front, and maybe more. -/
def hasHexDigits (count : Nat) (characters : List Char) : Bool :=
  (characters.take count).length == count && (characters.take count).all isHexDigit

/-- The length of an escape of a character by its number, behind the backslash. -/
def unicodeEscape : List Char → Nat
  | 'u' :: rest =>
    if hasHexDigits 4 rest then 5
    else
      let braced := bracedDigits rest
      if 0 < braced then braced + 1 else 0
  | _ => 0

def nameRest : (escaped : Nat) → List Char → Nat
  | _, [] => 0
  | escaped + 1, _ :: rest => 1 + nameRest escaped rest
  | 0, character :: rest =>
    if character == '\\' then
      let escape := unicodeEscape rest
      if 0 < escape then 1 + nameRest escape rest else 0
    else if isNameCharacter character then 1 + nameRest 0 rest
    else 0

def name (characters : List Char) : Nat :=
  match characters with
  | [] => 0
  | character :: _ =>
    if character == '\\' || isNameStart character then nameRest 0 characters else 0

def privateName : List Char → Nat
  | '#' :: rest =>
    let length := name rest
    if 0 < length then length + 1 else 0
  | _ => 0

def digits (test : Char → Bool) : List Char → Nat
  | [] => 0
  | character :: '_' :: behind =>
    if test character then
      let further := digits test behind
      if 0 < further then further + 2 else 1
    else 0
  | character :: rest => if test character then 1 + digits test rest else 0

def exponent : List Char → Nat
  | mark :: rest =>
    if mark == 'e' || mark == 'E' then
      let sign :=
        match rest with
        | '+' :: _ | '-' :: _ => 1
        | _ => 0
      let length := digits Char.isDigit (rest.drop sign)
      if 0 < length then 1 + sign + length else 0
    else 0
  | [] => 0

/-- Whether digits may stand before a point: zero alone, or a number without further zeros at its
front. -/
def isPlainInteger : List Char → Bool
  | ['0'] => true
  | '0' :: character :: _ => character.isDigit && character != '0'
  | _ => true

def based (test : Char → Bool) (characters : List Char) : Nat :=
  let length := digits test characters
  if length = 0 then 0
  else if (characters.drop length).head? = some 'n' then length + 3 else length + 2

def decimal (characters : List Char) : Nat :=
  let whole := digits Char.isDigit characters
  let behind := characters.drop whole
  match behind with
  | 'n' :: _ => whole + 1
  | '.' :: rest =>
    if isPlainInteger (characters.take whole) then
      let fraction := digits Char.isDigit rest
      whole + 1 + fraction + exponent (rest.drop fraction)
    else whole
  | _ =>
    if isPlainInteger (characters.take whole) then whole + exponent behind else whole

def number (characters : List Char) : Nat :=
  match characters with
  | '.' :: rest =>
    let fraction := digits Char.isDigit rest
    if 0 < fraction then 1 + fraction + exponent (rest.drop fraction) else 0
  | '0' :: mark :: rest =>
    let length :=
      if mark == 'x' || mark == 'X' then based isHexDigit rest
      else if mark == 'o' || mark == 'O' then based isOctalDigit rest
      else if mark == 'b' || mark == 'B' then based isBinaryDigit rest
      else 0
    if 0 < length then length else decimal characters
  | character :: _ => if character.isDigit then decimal characters else 0
  | [] => 0

def escape : List Char → Nat
  | '\\' :: 'x' :: rest => if hasHexDigits 2 rest then 4 else 0
  | '\\' :: 'u' :: rest =>
    let length := unicodeEscape ('u' :: rest)
    if 0 < length then length + 1 else 0
  | '\\' :: first :: rest =>
    if isOctalDigit first then 1 + min 3 (run isOctalDigit (first :: rest))
    else if isNull first then 0
    else if (first == '\r' || first == '?') && (rest.head?.map endsLine).getD false then 3
    else 2
  | _ => 0

def stringPiece (quote : Char) (characters : List Char) : Nat :=
  run (fun character => character != quote && character != '\\' && character != '\r'
    && character != '\n' && !isNull character) characters

def templatePiece : List Char → Nat
  | [] => 0
  | '$' :: '\u007b' :: _ => 0
  | character :: rest =>
    if character == '\u0060' || character == '\\' || isNull character then 0
    else 1 + templatePiece rest

def regexClass : List Char → Option Nat
  | [] => none
  | ']' :: _ => some 1
  | '\\' :: character :: rest =>
    if character == '\n' || isNull character then none else (regexClass rest).map (· + 2)
  | character :: rest =>
    if character == '\n' || character == '\\' || isNull character then none
    else (regexClass rest).map (· + 1)

def regexPattern : (fuel : Nat) → List Char → Nat
  | 0, _ => 0
  | fuel + 1, characters =>
    match characters with
    | [] => 0
    | '[' :: rest =>
      match regexClass rest with
      | none => 0
      | some length => length + 1 + regexPattern fuel (rest.drop length)
    | '\\' :: character :: rest =>
      if character == '\n' || isNull character then 0 else 2 + regexPattern fuel rest
    | character :: rest =>
      if character == '/' || character == '\\' || character == '\n' || isNull character then 0
      else 1 + regexPattern fuel rest

def regexFlags (characters : List Char) : Nat :=
  run (fun character => 'a' ≤ character && character ≤ 'z') characters

def lineRest (characters : List Char) : Nat :=
  run (fun character => !endsLine character && !isNull character) characters

/-- The length of a block comment behind its opening. -/
def blockRest : List Char → Option Nat
  | [] => none
  | '*' :: '/' :: _ => some 2
  | character :: rest => if isNull character then none else (blockRest rest).map (· + 1)

def comment : List Char → Nat
  | '/' :: '/' :: rest =>
    2 + run (fun character => !endsLine character && character != '\r' && !isNull character) rest
  | '/' :: '*' :: rest => ((blockRest rest).map (· + 2)).getD 0
  | _ => 0

/-- The length of a comment in the style of markup, which reaches to the end of its line. -/
def markupComment (characters : List Char) : Nat :=
  if "<!--".toList.isPrefixOf characters || "-->".toList.isPrefixOf characters then
    lineRest characters
  else 0

def interpreterLine (characters : List Char) : Nat :=
  if "#!".toList.isPrefixOf characters then
    run (fun character => character != '\n' && !isNull character) characters
  else 0

/-- The operators that may stand behind an operand, longer ones before their beginnings. -/
def operators : List String :=
  [">>>=", "===", "!==", "**=", "<<=", ">>=", ">>>", "&&=", "||=", "??=", "...", "=>", "==", "!=",
    "<=", ">=", "&&", "||", "??", "?.", "++", "--", "+=", "-=", "*=", "/=", "%=", "&=", "|=", "^=",
    "<<", ">>", "**", "<", ">", "+", "-", "*", "/", "%", "&", "|", "^", "=", "?", "!", "~", "."]

/-- The operator at the front. A question mark before a fraction is an operator of its own. -/
def operator? (characters : List Char) : Option String :=
  match characters with
  | '?' :: '.' :: digit :: _ =>
    some (if digit.isDigit then "?" else "?.")
  | _ => operators.find? fun spelling => spelling.toList.isPrefixOf characters

def markupName (characters : List Char) : Nat :=
  let isFirst (character : Char) : Bool :=
    character.isAlpha || character == '_' || character == '$'
  match characters with
  | [] => 0
  | character :: _ =>
    let plain := run (fun next => isFirst next || next.isDigit) characters
    let dashed := run (fun next => isFirst next || next.isDigit || next == '-') characters
    if isFirst character && plain < dashed then max dashed (name characters) else name characters

def characterReference : List Char → Nat
  | '&' :: '#' :: rest =>
    let marked := rest.head? = some 'x' ∨ rest.head? = some 'X'
    let hex := run isHexDigit (rest.drop 1)
    let plain := run Char.isDigit rest
    if marked ∧ 1 ≤ hex ∧ hex ≤ 6 ∧ (rest.drop (hex + 1)).head? = some ';' then hex + 4
    else if 1 ≤ plain ∧ plain ≤ 5 ∧ (rest.drop plain).head? = some ';' then plain + 3
    else 0
  | '&' :: rest =>
    let letters := run Char.isAlpha rest
    if 1 ≤ letters ∧ letters ≤ 30 ∧ (rest.drop letters).head? = some ';' then letters + 2 else 0
  | _ => 0

def markupText (characters : List Char) : Nat :=
  run (fun character => character != '<' && character != '>' && character != '\u007b'
    && character != '\u007d' && character != '&' && !isNull character) characters

/-- Whether blanks and other characters between tags are text; blanks from the end of a line on are
not. -/
def isMarkupText (characters : List Char) : Bool :=
  let step (state : Bool × Bool) (character : Char) : Bool × Bool :=
    let (atLine, sawText) := state
    if character == '\n' then (true, sawText)
    else
      let stays := atLine && isBreakingBlank character
      (stays, sawText || !stays)
  (characters.foldl step (false, false)).2

/-- The length of a piece of a string in markup; an ampersand begins a reference when a letter or a
number sign follows it. -/
def markupStringPiece (quote : Char) : List Char → Nat
  | [] => 0
  | '&' :: rest =>
    match rest with
    | [] => 0
    | next :: behind =>
      if next.isAlpha || next == '#' || isNull next then 0
      else 2 + markupStringPiece quote behind
  | character :: rest =>
    if character == quote || isNull character then 0 else 1 + markupStringPiece quote rest

end ModuleFence.Script.Lexeme
