set_option autoImplicit false

namespace ModuleFence.Script

/-- Whether a character separates spaces in the sense of its general category. -/
def isSpaceSeparator (point : Nat) : Bool :=
  point == 0x20 || point == 0xA0 || point == 0x1680 || (0x2000 ≤ point && point ≤ 0x200A)
    || point == 0x202F || point == 0x205F || point == 0x3000

/-- Whether a character ends a line; a carriage return alone does not. -/
def endsLine (character : Char) : Bool :=
  character == '\n' || character == '\u2028' || character == '\u2029'

def isBlank (character : Char) : Bool :=
  let point := character.toNat
  (9 ≤ point && point ≤ 13) || isSpaceSeparator point || endsLine character || point == 0xFEFF
    || point == 0x2060 || point == 0x200B

/-- Whether a character is blank in the search for the end of a statement; spaces that do not break
are not. -/
def isBreakingBlank (character : Char) : Bool :=
  let point := character.toNat
  (9 ≤ point && point ≤ 13)
    || (isSpaceSeparator point && point != 0xA0 && point != 0x2007 && point != 0x202F)
    || endsLine character

/-- The characters that have a meaning of their own, and so belong to no name. -/
def marks : List Char :=
  [':', ';', '\u0060', '"', '\'', '@', '#', '.', ',', '|', '^', '&', '<', '=', '>', '+', '-', '*',
    '/', '\\', '%', '?', '!', '~', '(', ')', '[', ']', '\u007b', '\u007d']

def isNameCharacter (character : Char) : Bool :=
  32 ≤ character.toNat && !isBlank character && !marks.contains character

def isNameStart (character : Char) : Bool :=
  isNameCharacter character && !character.isDigit

def isHexDigit (character : Char) : Bool :=
  character.isDigit || ('a' ≤ character && character ≤ 'f') || ('A' ≤ character && character ≤ 'F')

def isOctalDigit (character : Char) : Bool :=
  '0' ≤ character && character ≤ '7'

def isBinaryDigit (character : Char) : Bool :=
  character == '0' || character == '1'

/-- The null character ends a source wherever it stands. -/
def isNull (character : Char) : Bool :=
  character == '\x00'

end ModuleFence.Script
