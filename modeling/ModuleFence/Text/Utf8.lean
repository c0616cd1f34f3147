import ModuleFence.Text.Basic
import ModuleFence.Text.Quoted

set_option autoImplicit false

namespace ModuleFence.Utf8

/-- Why bytes are not UTF-8. -/
inductive Reason where
  | invalidStart
  | invalidContinuation
  | unexpectedEnd
deriving DecidableEq

def Reason.wording : Reason → String
  | .invalidStart => "invalid start byte"
  | .invalidContinuation => "invalid continuation byte"
  | .unexpectedEnd => "unexpected end of data"

/-- A run of bytes that is not UTF-8: its position, its length, its first byte. -/
structure Fault where
  position : Nat
  length : Nat
  byte : UInt8
  reason : Reason
deriving DecidableEq

def Fault.message (fault : Fault) : Text :=
  let place :=
    if fault.length ≤ 1 then
      "byte 0x" ++ String.ofList (hexDigits 2 fault.byte.toNat)
        ++ " in position " ++ toString fault.position
    else
      "bytes in position " ++ toString fault.position ++ "-"
        ++ toString (fault.position + fault.length - 1)
  Text.ofString ("'utf-8' codec can't decode " ++ place ++ ": " ++ fault.reason.wording)

/-- The bytes that may follow a leading byte, as ranges; none when it cannot lead. -/
def continuations? (byte : UInt8) : Option (List (UInt8 × UInt8)) :=
  if byte < 0x80 then some []
  else if byte < 0xC2 then none
  else if byte < 0xE0 then some [(0x80, 0xBF)]
  else if byte = 0xE0 then some [(0xA0, 0xBF), (0x80, 0xBF)]
  else if byte = 0xED then some [(0x80, 0x9F), (0x80, 0xBF)]
  else if byte < 0xF0 then some [(0x80, 0xBF), (0x80, 0xBF)]
  else if byte = 0xF0 then some [(0x90, 0xBF), (0x80, 0xBF), (0x80, 0xBF)]
  else if byte < 0xF4 then some [(0x80, 0xBF), (0x80, 0xBF), (0x80, 0xBF)]
  else if byte = 0xF4 then some [(0x80, 0x8F), (0x80, 0xBF), (0x80, 0xBF)]
  else none

/-- The part of a character's number that its leading byte carries. -/
def leadingBits (byte : UInt8) : Nat :=
  if byte < 0x80 then byte.toNat
  else if byte < 0xE0 then byte.toNat % 0x20
  else if byte < 0xF0 then byte.toNat % 0x10
  else byte.toNat % 0x08

/-- What stands at the start of some bytes. -/
inductive Step where
  | character (value : Char) (width : Nat)
  | fault (length : Nat) (reason : Reason)

/-- Reads the continuation bytes of a character of which `width` bytes have been read. -/
def continueWith (value width : Nat) : List (UInt8 × UInt8) → List UInt8 → Step
  | [], _ => .character (Char.ofNat value) width
  | _ :: _, [] => .fault width .unexpectedEnd
  | (low, high) :: ranges, byte :: rest =>
    if low ≤ byte ∧ byte ≤ high then
      continueWith (value * 0x40 + byte.toNat % 0x40) (width + 1) ranges rest
    else .fault width .invalidContinuation

/-- Reads the character that starts with a leading byte. -/
def step (byte : UInt8) (rest : List UInt8) : Step :=
  match continuations? byte with
  | none => .fault 1 .invalidStart
  | some ranges => continueWith (leadingBits byte) 1 ranges rest

/-- Decodes from a position on, behind the characters read so far in reverse; `skip` bytes belong to
the character before. -/
def decodeFrom (position skip : Nat) (before : List Char) : List UInt8 → Except Fault (List Char)
  | [] => .ok before.reverse
  | byte :: rest =>
    match skip with
    | skip + 1 => decodeFrom (position + 1) skip before rest
    | 0 =>
      match step byte rest with
      | .fault length reason => .error ⟨position, length, byte, reason⟩
      | .character value width =>
        decodeFrom (position + 1) (width - 1) (value :: before) rest

/-- The characters that some bytes encode. -/
def decode (bytes : List UInt8) : Except Fault (List Char) :=
  decodeFrom 0 0 [] bytes

def width (character : Char) : Nat :=
  character.utf8Size

def encode (string : String) : List UInt8 :=
  string.toUTF8.toList

end ModuleFence.Utf8
