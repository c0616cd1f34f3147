import ModuleFence.Text.Basic

set_option autoImplicit false

namespace ModuleFence

/-- The blank code points: spaces, line and paragraph ends, and the information separators. -/
def isBlankPoint (point : Nat) : Bool :=
  (9 ≤ point && point ≤ 13) || (28 ≤ point && point ≤ 32) || point == 0x85 || point == 0xA0
    || point == 0x1680 || (0x2000 ≤ point && point ≤ 0x200A) || point == 0x2028
    || point == 0x2029 || point == 0x202F || point == 0x205F || point == 0x3000

def dropWhileEnd {α : Type} (test : α → Bool) (list : List α) : List α :=
  (list.reverse.dropWhile test).reverse

/-- Drops the elements at both ends that satisfy a test. -/
def trimBy {α : Type} (test : α → Bool) (list : List α) : List α :=
  dropWhileEnd test (list.dropWhile test)

namespace Text

/-- The text without the blanks at its ends. -/
def strip (text : Text) : Text :=
  trimBy (fun point => isBlankPoint point.value) text

/-- Splits at every separator; a text without one is its own only piece. -/
def splitAt (separator : CodePoint) : Text → List Text
  | [] => [[]]
  | point :: rest =>
    if point = separator then [] :: splitAt separator rest
    else match splitAt separator rest with
      | [] => [[point]]
      | piece :: pieces => (point :: piece) :: pieces

/-- The entries of a comma-separated list: stripped, and without the empty ones. -/
def commaEntries (text : Text) : List Text :=
  ((text.splitAt ',').map strip).filter (· ≠ [])

end Text

end ModuleFence
