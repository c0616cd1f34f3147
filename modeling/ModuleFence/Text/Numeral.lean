import ModuleFence.Text.Blank
import ModuleFence.Text.DecimalDigit

/-!
Reading a hexadecimal numeral leniently: blanks around it, a sign, the mark `0x`, single underscores
between digits, and decimal digits of any script.
-/

set_option autoImplicit false

namespace ModuleFence.Numeral

/-- The ASCII character that a character counts as; none when it can stand in no numeral. -/
def asciiForm? (character : Char) : Option Char :=
  if character.toNat < 127 then some character
  else if isBlankPoint character.toNat then some ' '
  else (decimalDigit? character.toNat).map Nat.digitChar

/-- The blanks that may surround a numeral once it is in ASCII form. -/
def isPadding (character : Char) : Bool :=
  character == ' ' || (9 ≤ character.toNat && character.toNat ≤ 13)

def hexValue? (character : Char) : Option Nat :=
  if '0' ≤ character ∧ character ≤ '9' then some (character.toNat - 48)
  else if 'a' ≤ character ∧ character ≤ 'f' then some (character.toNat - 87)
  else if 'A' ≤ character ∧ character ≤ 'F' then some (character.toNat - 55)
  else none

/-- Digits with single underscores between them, after a digit that has been read. -/
def digitsFrom (value : Nat) : List Char → Option Nat
  | [] => some value
  | '_' :: character :: rest => do digitsFrom (value * 16 + (← hexValue? character)) rest
  | character :: rest => do digitsFrom (value * 16 + (← hexValue? character)) rest

/-- A sequence of digits with single underscores between them. -/
def digits : List Char → Option Nat
  | [] => none
  | character :: rest => do digitsFrom (← hexValue? character) rest

/-- Digits after an optional mark `0x`, which an underscore may follow. -/
def unsigned : List Char → Option Nat
  | '0' :: 'x' :: '_' :: rest => digits rest
  | '0' :: 'x' :: rest => digits rest
  | '0' :: 'X' :: '_' :: rest => digits rest
  | '0' :: 'X' :: rest => digits rest
  | rest => digits rest

/-- An unsigned numeral after an optional sign. -/
def signed : List Char → Option Int
  | '-' :: rest => (unsigned rest).map fun value => -(value : Int)
  | '+' :: rest => (unsigned rest).map Int.ofNat
  | rest => (unsigned rest).map Int.ofNat

def readHex? (characters : List Char) : Option Int := do
  signed (trimBy isPadding (← characters.mapM asciiForm?))

end ModuleFence.Numeral
