import ModuleFence.Json.Basic
import ModuleFence.Text.Numeral

/-!
Reading of JSON values. Beyond the standard, the names of numbers that are not finite are read, and
surrogates may stand alone; pairs of escapes for one character are joined.
-/

set_option autoImplicit false

namespace ModuleFence.Json

/-- The blanks between tokens. -/
def isSpace (point : CodePoint) : Bool :=
  point = ' ' || point = '\t' || point = '\n' || point = '\r'

/-- Drops the blanks at the front. -/
def skipSpaces (text : Text) : Text :=
  text.dropWhile isSpace

/-- The rest behind a token that stands at the front. -/
def expect? (token : String) (text : Text) : Option Text :=
  let points := Text.ofString token
  if points.isPrefixOf text then some (text.drop points.length) else none

def hexDigit? (point : CodePoint) : Option Nat :=
  point.toChar?.bind Numeral.hexValue?

/-- The number of an escape by four hexadecimal digits, and the rest behind it. -/
def fourDigits? : Text → Option (Nat × Text)
  | first :: second :: third :: fourth :: rest => do
    let high := (← hexDigit? first) * 16 + (← hexDigit? second)
    let low := (← hexDigit? third) * 16 + (← hexDigit? fourth)
    return (high * 256 + low, rest)
  | _ => none

def letterEscape? (point : CodePoint) : Option CodePoint :=
  if point = '"' ∨ point = '\\' ∨ point = '/' then some point
  else if point = 'b' then some '\x08'
  else if point = 'f' then some '\x0c'
  else if point = 'n' then some '\n'
  else if point = 'r' then some '\r'
  else if point = 't' then some '\t'
  else none

/-- Joins the number of an escape with the escape behind it when the two make one character. -/
def joinPair (number : Nat) (rest : Text) : Nat × Text :=
  if 0xD800 ≤ number ∧ number ≤ 0xDBFF then
    match (expect? "\\u" rest).bind fourDigits? with
    | some (second, behind) =>
      if 0xDC00 ≤ second ∧ second ≤ 0xDFFF then
        (0x10000 + (number - 0xD800) * 0x400 + (second - 0xDC00), behind)
      else (number, rest)
    | none => (number, rest)
  else (number, rest)

/-- The rest of a string up to its closing quote, and what stands behind it. -/
def readStringRest : (fuel : Nat) → Text → Option (Text × Text)
  | 0, _ => none
  | _, [] => none
  | fuel + 1, point :: rest =>
    if point = '"' then some ([], rest)
    else if point.value < 0x20 then none
    else if point = '\\' then
      match rest with
      | [] => none
      | letter :: behind =>
        if letter = 'u' then do
          let (number, after) ← fourDigits? behind
          let (joined, final) := joinPair number after
          let (value, out) ← readStringRest fuel final
          return ((← CodePoint.ofNat? joined) :: value, out)
        else do
          let escaped ← letterEscape? letter
          let (value, out) ← readStringRest fuel behind
          return (escaped :: value, out)
    else do
      let (value, out) ← readStringRest fuel rest
      return (point :: value, out)

def readString? (text : Text) : Option (Text × Text) := do
  readStringRest text.length (← expect? "\"" text)

def isDigit (point : CodePoint) : Bool :=
  48 ≤ point.value && point.value ≤ 57

/-- The number that some decimal digits denote. -/
def digitsValue (digits : Text) : Nat :=
  digits.foldl (fun value digit => value * 10 + (digit.value - 48)) 0

/-- A fraction behind the integer part: its digits, none when there is no fraction. -/
def readFraction : Text → Text × Text
  | [] => ([], [])
  | point :: rest =>
    let digits := rest.takeWhile isDigit
    if point = '.' ∧ digits ≠ [] then (digits, rest.drop digits.length) else ([], point :: rest)

/-- The exponent behind a number; none when there is no exponent. -/
def readExponent (text : Text) : Option Int × Text :=
  match text with
  | mark :: rest =>
    if mark = 'e' ∨ mark = 'E' then
      let negative := rest.head? = some (CodePoint.ofChar '-')
      let behind := if negative ∨ rest.head? = some (CodePoint.ofChar '+') then rest.drop 1 else rest
      let digits := behind.takeWhile isDigit
      if digits = [] then (none, text)
      else
        let size : Int := digitsValue digits
        (some (if negative then -size else size), behind.drop digits.length)
    else (none, text)
  | [] => (none, text)

/-- The largest power of ten by which a mantissa may be scaled up. -/
def maxScale : Nat := 400

/-- The value of a mantissa that is scaled by a power of ten. -/
def scaled (mantissa scale : Int) : Json :=
  if scale < 0 then .decimal mantissa scale.natAbs
  else if maxScale < scale.toNat then .notFinite
  else .decimal (mantissa * Nat.pow 10 scale.toNat) 0

/-- A number at the front; there may be a limit to the digits of an integer. -/
def readNumber? (limit : Option Nat) (text : Text) : Option (Json × Text) :=
  let negative := text.head? = some (CodePoint.ofChar '-')
  let body := if negative then text.drop 1 else text
  let digits := body.takeWhile isDigit
  let whole := if digits.head? = some (CodePoint.ofChar '0') then digits.take 1 else digits
  if whole = [] then none
  else
    let sign : Int := if negative then -1 else 1
    let (fraction, afterFraction) := readFraction (body.drop whole.length)
    let (exponent, rest) := readExponent afterFraction
    if fraction = [] ∧ exponent = none then
      if limit.any (· < whole.length) then none
      else some (.integer (sign * digitsValue whole), rest)
    else
      let scale := exponent.getD 0 - fraction.length
      some (scaled (sign * digitsValue (whole ++ fraction)) scale, rest)

/-- The words that are values. -/
def readWord? (text : Text) : Option (Json × Text) :=
  ((expect? "null" text).map (.null, ·))
    <|> ((expect? "true" text).map (.bool true, ·))
    <|> ((expect? "false" text).map (.bool false, ·))
    <|> ((expect? "NaN" text).map (.notFinite, ·))
    <|> ((expect? "Infinity" text).map (.notFinite, ·))
    <|> ((expect? "-Infinity" text).map (.notFinite, ·))

/-- Why a text is not read: it is no JSON, or reading it takes more calls than can be nested. The reason
ends the message about the calls. -/
inductive ReadFault where
  | malformed
  | exhausted (reason : String)
deriving DecidableEq

/-- What bounds the reading of a text: the digits of an integer, and the brackets that can still be
entered. -/
structure Limits where
  digits : Option Nat
  nesting : Option Nat
deriving DecidableEq

namespace Limits

/-- The limits of the standard reader, where calls are left for some brackets. -/
def standard (room : Nat) : Limits :=
  ⟨some Text.maxIntegerDigits, some room⟩

/-- The limits inside a further bracket. -/
def enter (kind : String) (limits : Limits) : Except ReadFault Limits :=
  match limits.nesting with
  | none => .ok limits
  | some 0 => .error (.exhausted (" while decoding a JSON " ++ kind ++ " from a unicode string"))
  | some (room + 1) => .ok { limits with nesting := some room }

/-- What becomes of a complaint about a misplaced mark where it takes too many calls itself, by the
number of brackets that could still be entered. -/
def complaintReasons : List String :=
  [" while calling a Python object", "", " while calling a Python object"]

/-- The fault of a misplaced mark. -/
def complaint (limits : Limits) : ReadFault :=
  match limits.nesting.bind (complaintReasons[·]?) with
  | some reason => .exhausted reason
  | none => .malformed

end Limits

def orFault {α : Type} (fault : ReadFault) : Option α → Except ReadFault α
  | some found => .ok found
  | none => .error fault

mutual

def readValue (limits : Limits) : (fuel : Nat) → Text → Except ReadFault (Json × Text)
  | 0, _ => .error .malformed
  | fuel + 1, text =>
    match readWord? text with
    | some found => .ok found
    | none =>
      match text with
      | [] => .error .malformed
      | point :: rest =>
        if point = '"' then do
          let (value, out) ← orFault limits.complaint (readString? text)
          return (.string value, out)
        else if point = '[' then do
          let inner ← limits.enter "array"
          match expect? "]" (skipSpaces rest) with
          | some out => .ok (.array [], out)
          | none => do
            let (items, out) ← readItems inner fuel (skipSpaces rest)
            return (.array items, out)
        else if point = '\x7b' then do
          let inner ← limits.enter "object"
          match expect? "\x7d" (skipSpaces rest) with
          | some out => .ok (.object [], out)
          | none => do
            let (members, out) ← readMembers inner fuel (skipSpaces rest)
            return (.object members, out)
        else orFault .malformed (readNumber? limits.digits text)

/-- One or more items of an array, and what stands behind its end. -/
def readItems (limits : Limits) : (fuel : Nat) → Text → Except ReadFault (List Json × Text)
  | 0, _ => .error .malformed
  | fuel + 1, text => do
    let (item, rest) ← readValue limits fuel text
    match expect? "," (skipSpaces rest) with
    | some behind => do
      let (items, out) ← readItems limits fuel (skipSpaces behind)
      return (item :: items, out)
    | none => do
      return ([item], ← orFault limits.complaint (expect? "]" (skipSpaces rest)))

/-- One or more members of an object, and what stands behind its end. -/
def readMembers (limits : Limits) :
    (fuel : Nat) → Text → Except ReadFault (List (Text × Json) × Text)
  | 0, _ => .error .malformed
  | fuel + 1, text => do
    let (key, rest) ← orFault limits.complaint (readString? text)
    let behindColon ← orFault limits.complaint (expect? ":" (skipSpaces rest))
    let (value, after) ← readValue limits fuel (skipSpaces behindColon)
    match expect? "," (skipSpaces after) with
    | some behind => do
      let (members, out) ← readMembers limits fuel (skipSpaces behind)
      return ((key, value) :: members, out)
    | none => do
      return ([(key, value)], ← orFault limits.complaint (expect? "\x7d" (skipSpaces after)))

end

/-- Reads a text that is one JSON value, with blanks around it. -/
def readWithin (limits : Limits) (text : Text) : Except ReadFault Json := do
  let (value, rest) ← readValue limits (2 * text.length + 2) (skipSpaces text)
  if skipSpaces rest = [] then return value else throw .malformed

end ModuleFence.Json
