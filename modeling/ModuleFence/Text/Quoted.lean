import ModuleFence.Text.Basic
import ModuleFence.Text.Printable

/-!
The quoted form of a text in messages: single quotes unless only those would need escaping,
escapes for line ends and tabs, and numbers for code points that are not printable.
-/

set_option autoImplicit false

namespace ModuleFence

/-- The last digits of a number in lower-case hexadecimal notation. -/
def hexDigits : (width : Nat) → Nat → List Char
  | 0, _ => []
  | width + 1, number => hexDigits width (number / 16) ++ [Nat.digitChar (number % 16)]

/-- A code point by its number, in the shortest of the three widths. -/
def numericEscape (point : Nat) : List Char :=
  if point < 0x100 then '\\' :: 'x' :: hexDigits 2 point
  else if point < 0x10000 then '\\' :: 'u' :: hexDigits 4 point
  else '\\' :: 'U' :: hexDigits 8 point

namespace Text

def quoteFor (text : Text) : Char :=
  if text.contains '\'' && !text.contains '"' then '"' else '\''

/-- One code point inside the given quotes. -/
def quotePoint (quote : Char) (point : CodePoint) : Text :=
  if point = quote ∨ point = '\\' then ['\\', point]
  else if point = '\t' then ofString "\\t"
  else if point = '\n' then ofString "\\n"
  else if point = '\r' then ofString "\\r"
  else if isPrintablePoint point.value then [point]
  else (numericEscape point.value).map CodePoint.ofChar

def quoted (text : Text) : Text :=
  let quote := quoteFor text
  [CodePoint.ofChar quote] ++ text.flatMap (quotePoint quote) ++ [CodePoint.ofChar quote]

end Text

end ModuleFence
