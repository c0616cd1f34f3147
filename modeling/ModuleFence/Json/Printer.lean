import ModuleFence.Json.Basic
import ModuleFence.Text.Quoted

set_option autoImplicit false

namespace ModuleFence.Json

/-- One code point of a string. -/
def printPoint (point : CodePoint) : Text :=
  if point = '"' then "\\\""
  else if point = '\\' then "\\\\"
  else if point = '\n' then "\\n"
  else if point = '\r' then "\\r"
  else if point = '\t' then "\\t"
  else if point = '\x08' then "\\b"
  else if point = '\x0c' then "\\f"
  else if point.value < 0x20 then Text.ofString (String.ofList ('\\' :: 'u' :: hexDigits 4 point.value))
  else [point]

def printString (value : Text) : Text :=
  Text.concat ["\"", value.flatMap printPoint, "\""]

def newLine (level : Nat) : Text :=
  CodePoint.ofChar '\n' :: List.replicate (2 * level) (CodePoint.ofChar ' ')

/-- A decimal with the digits of its mantissa around the point. -/
def printDecimal (mantissa : Int) (exponent : Nat) : Text :=
  let digits := (toString mantissa.natAbs).toList
  let padded := List.replicate (exponent + 1 - digits.length) '0' ++ digits
  let whole := padded.take (padded.length - exponent)
  let part := padded.drop (padded.length - exponent)
  (if mantissa < 0 then ['-'] else []) ++ whole ++ (if part = [] then [] else '.' :: part)
    |>.map CodePoint.ofChar

mutual

def printAt (level : Nat) : Json → Text
  | .null => "null"
  | .bool true => "true"
  | .bool false => "false"
  | .integer value => Text.ofInt value
  | .decimal mantissa exponent => printDecimal mantissa exponent
  | .notFinite => "NaN"
  | .string value => printString value
  | .array [] => "[]"
  | .array (item :: items) =>
    Text.concat ["[", newLine (level + 1), printAt (level + 1) item,
      printItems (level + 1) items, newLine level, "]"]
  | .object [] => "\x7b\x7d"
  | .object ((key, value) :: members) =>
    Text.concat ["\x7b", newLine (level + 1), printString key, ": ", printAt (level + 1) value,
      printMembers (level + 1) members, newLine level, "\x7d"]

def printItems (level : Nat) : List Json → Text
  | [] => []
  | item :: items => Text.concat [",", newLine level, printAt level item, printItems level items]

def printMembers (level : Nat) : List (Text × Json) → Text
  | [] => []
  | (key, value) :: members =>
    Text.concat [",", newLine level, printString key, ": ", printAt level value,
      printMembers level members]

end

mutual

/-- Whether every integer in a value can be written. -/
def isPrintable : Json → Bool
  | .integer value => Text.isShort value
  | .array items => arePrintable items
  | .object members => haveMembersPrintable members
  | _ => true

/-- Whether every item of an array can be written. -/
def arePrintable : List Json → Bool
  | [] => true
  | item :: items => item.isPrintable && arePrintable items

/-- Whether the value of every member of an object can be written. -/
def haveMembersPrintable : List (Text × Json) → Bool
  | [] => true
  | (_, value) :: members => value.isPrintable && haveMembersPrintable members

end

/-- The layout of a value over several lines. -/
def layOut (value : Json) : Text :=
  printAt 0 value

/-- A value over several lines, if all of it can be written. -/
def print? (value : Json) : Option Text :=
  if value.isPrintable then some value.layOut else none

end ModuleFence.Json
