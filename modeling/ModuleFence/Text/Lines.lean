set_option autoImplicit false

namespace ModuleFence.Lines

/-- Carriage returns, alone or before a newline, become newlines. -/
def normalize : List Char → List Char
  | [] => []
  | '\r' :: '\n' :: rest => '\n' :: normalize rest
  | '\r' :: rest => '\n' :: normalize rest
  | character :: rest => character :: normalize rest

def isLineEnd (character : Char) : Bool :=
  let point := character.toNat
  (10 ≤ point && point ≤ 13) || (28 ≤ point && point ≤ 30) || point == 0x85
    || point == 0x2028 || point == 0x2029

/-- The lines after a begun line, which is given in reverse. -/
def splitFrom (line : List Char) : List Char → List (List Char)
  | [] => if line.isEmpty then [] else [line.reverse]
  | '\r' :: '\n' :: rest => line.reverse :: splitFrom [] rest
  | character :: rest =>
    if isLineEnd character then line.reverse :: splitFrom [] rest
    else splitFrom (character :: line) rest

/-- The lines of a text without their ends. -/
def split (characters : List Char) : List (List Char) :=
  splitFrom [] characters

end ModuleFence.Lines
