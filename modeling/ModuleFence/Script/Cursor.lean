import ModuleFence.Text.Utf8
import ModuleFence.Tree.Basic

set_option autoImplicit false

namespace ModuleFence

namespace Point

def after (point : Point) (character : Char) : Point :=
  let width := Utf8.width character
  if character = '\n' then ⟨point.row + 1, 0, point.byte + width⟩
  else ⟨point.row, point.column + width, point.byte + width⟩

/-- The later of two places of a source. -/
def later (first second : Point) : Point :=
  if first.byte < second.byte then second else first

end Point

namespace Script

/-- What is left of a source, the number of its characters, and the place where it begins. -/
structure Cursor where
  rest : List Char
  left : Nat
  point : Point

namespace Cursor

def start (source : List Char) : Cursor :=
  ⟨source, source.length, Point.origin⟩

/-- The cursor behind some more characters. -/
def advance : Nat → Cursor → Cursor
  | 0, cursor => cursor
  | count + 1, cursor =>
    match cursor.rest with
    | [] => cursor
    | character :: rest => advance count ⟨rest, cursor.left - 1, cursor.point.after character⟩

end Cursor

end Script

end ModuleFence
