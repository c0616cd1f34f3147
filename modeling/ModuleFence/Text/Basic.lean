set_option autoImplicit false

namespace ModuleFence

/-- A Unicode code point, surrogates included. -/
structure CodePoint where
  value : Nat
  inRange : value < 0x110000
deriving DecidableEq

namespace CodePoint

theorem ext_value {first second : CodePoint} (same : first.value = second.value) :
    first = second := by
  cases first
  cases second
  cases same
  rfl

def ofChar (character : Char) : CodePoint :=
  ⟨character.toNat, by
    rcases character.valid with low | ⟨-, high⟩
    · exact Nat.lt_trans low (by decide)
    · exact high⟩

theorem ofChar_injective {character other : Char} (same : ofChar character = ofChar other) :
    character = other := by
  rw [← Char.toNat_inj]
  exact congrArg CodePoint.value same

/-- The code point of a number that is small enough. -/
def ofNat? (number : Nat) : Option CodePoint :=
  if inRange : number < 0x110000 then some ⟨number, inRange⟩ else none

/-- Surrogates encode halves of characters and are no characters. -/
def isSurrogate (point : CodePoint) : Bool :=
  0xD800 ≤ point.value && point.value ≤ 0xDFFF

/-- The character of a code point that is not a surrogate. -/
def toChar? (point : CodePoint) : Option Char :=
  if point.isSurrogate then none else some (Char.ofNat point.value)

instance : Coe Char CodePoint := ⟨ofChar⟩

end CodePoint

/-- A sequence of code points. -/
abbrev Text := List CodePoint

namespace Text

def ofString (string : String) : Text :=
  string.toList.map CodePoint.ofChar

instance : Coe String Text := ⟨ofString⟩

theorem ofString_injective {string other : String} (same : ofString string = ofString other) :
    string = other := by
  rw [← String.toList_inj]
  exact (List.map_inj_right fun _ _ => CodePoint.ofChar_injective).mp same

/-- The string with the same code points, when none is a surrogate. -/
def toString? (text : Text) : Option String :=
  (text.mapM CodePoint.toChar?).map String.ofList

/-- An integer in decimal notation, however long. -/
def ofInt (number : Int) : Text :=
  ofString (toString number)

/-- The most digits that an integer may have which is written or read. -/
def maxIntegerDigits : Nat := 4300

/-- Whether an integer can be written. -/
@[irreducible] def isShort (number : Int) : Bool :=
  number.natAbs < Nat.pow 10 maxIntegerDigits

/-- The pieces of a message, one after the other. -/
def concat (pieces : List Text) : Text :=
  pieces.flatten

def joinWith (separator : Text) (texts : List Text) : Text :=
  separator.intercalate texts

def commaList (texts : List Text) : Text :=
  joinWith (ofString ", ") texts

end Text

end ModuleFence
