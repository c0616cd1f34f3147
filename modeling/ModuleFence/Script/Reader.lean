import ModuleFence.Script.Cursor
import ModuleFence.Script.Lexeme

/-!
Readers of syntax. A reader takes something from the front of a source, or fails; either way it knows
the furthest place at which something else was expected.
-/

set_option autoImplicit false

namespace ModuleFence.Script

structure Reading (α : Type) where
  found : Option (α × Cursor)
  reach : Point

/-- A reader, given the furthest place at which something was missed before. -/
def Reader (α : Type) : Type :=
  Cursor → Point → Reading α

namespace Reader

variable {α β : Type}

def give (value : α) : Reader α :=
  fun cursor reach => ⟨some (value, cursor), reach⟩

def andThen (reader : Reader α) (next : α → Reader β) : Reader β :=
  fun cursor reach =>
    match reader cursor reach with
    | ⟨some (value, behind), reach⟩ => next value behind reach
    | ⟨none, reach⟩ => ⟨none, reach⟩

/-- Fails where something else was expected. -/
def miss : Reader α :=
  fun cursor reach => ⟨none, reach.later cursor.point⟩

/-- Takes what a reader finds, or else what another one finds at the same place. -/
def orElse (first : Reader α) (second : Unit → Reader α) : Reader α :=
  fun cursor reach =>
    match first cursor reach with
    | ⟨none, reach⟩ => second () cursor reach
    | taken => taken

instance : Monad Reader where
  pure := give
  bind := andThen

instance : Alternative Reader where
  failure := miss
  orElse := orElse

def rest : Reader (List Char) :=
  fun cursor reach => ⟨some (cursor.rest, cursor), reach⟩

/-- Fails unless a condition holds. -/
def require (condition : Bool) : Reader Unit :=
  if condition then give () else miss

/-- Takes what an option holds, or fails. -/
def ofOption : Option α → Reader α
  | some value => give value
  | none => miss

/-- The number of characters that are left of the source. -/
def left : Reader Nat :=
  fun cursor reach => ⟨some (cursor.left, cursor), reach⟩

/-- Takes nothing; fails without a trace when a condition on the place fails. -/
def onlyIf (condition : Cursor → Bool) : Reader Unit :=
  fun cursor reach => if condition cursor then ⟨some ((), cursor), reach⟩ else ⟨none, reach⟩

/-- Takes as much as a reader finds over and over again. -/
def repeated (reader : Reader (List α)) : (fuel : Nat) → Reader (List α)
  | 0 => give []
  | fuel + 1 =>
    orElse
      (andThen reader fun first =>
        andThen (repeated reader fuel) fun others => give (first ++ others))
      fun _ => give []

def many (reader : Reader (List α)) : Reader (List α) :=
  fun cursor reach => repeated reader cursor.left cursor reach

def optional (reader : Reader (List α)) : Reader (List α) :=
  orElse reader fun _ => give []

/-- Takes what the first reader finds that finds anything. -/
def firstOf : List (Reader α) → Reader α
  | [] => miss
  | reader :: others => orElse reader fun _ => firstOf others

end Reader

end ModuleFence.Script
