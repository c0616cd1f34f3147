import ModuleFence.Text.Numeral

/-!
The values of escape sequences in string literals. An escape by number that names no code point
stands for itself; a number beyond the range of 32-bit integers is an error.
-/

set_option autoImplicit false

namespace ModuleFence

/-- Why an escape sequence has no value. -/
inductive EscapeError where
  | numberTooLarge
deriving DecidableEq

namespace Escape

def named? : List Char → Option Char
  | ['n'] => some '\n'
  | ['t'] => some '\t'
  | ['r'] => some '\r'
  | ['b'] => some '\x08'
  | ['f'] => some '\x0c'
  | ['v'] => some '\x0b'
  | ['0'] => some '\x00'
  | _ => none

def verbatim (characters : List Char) : Text :=
  characters.map CodePoint.ofChar

/-- The code point that a hexadecimal numeral names, or the spelling of the escape. -/
def byNumber (spelling digits : List Char) : Except EscapeError Text :=
  match Numeral.readHex? digits with
  | none => .ok (verbatim spelling)
  | some number =>
    if number < -0x80000000 ∨ 0x80000000 ≤ number then .error .numberTooLarge
    else if number < 0 then .ok (verbatim spelling)
    else
      match CodePoint.ofNat? number.toNat with
      | some point => .ok [point]
      | none => .ok (verbatim spelling)

def startsLineEnd : List Char → Bool
  | character :: _ =>
    character == '\n' || character == '\r' || character == '\u2028' || character == '\u2029'
  | [] => false

/-- The value of what follows the backslash, given the whole spelling. -/
def decodeBody (spelling body : List Char) : Except EscapeError Text :=
  if "u\x7b".toList <+: body ∧ body.getLast? = some '\x7d' then
    byNumber spelling ((body.drop 2).dropLast)
  else
    match body with
    | 'u' :: character :: rest => byNumber spelling (character :: rest)
    | 'x' :: character :: rest => byNumber spelling (character :: rest)
    | _ =>
      match named? body with
      | some character => .ok [CodePoint.ofChar character]
      | none => if startsLineEnd body then .ok [] else .ok (verbatim body)

def decode (spelling : List Char) : Except EscapeError Text :=
  decodeBody spelling (spelling.drop 1)

end Escape

end ModuleFence
