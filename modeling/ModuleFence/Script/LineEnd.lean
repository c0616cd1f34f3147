import ModuleFence.Script.Character
import ModuleFence.Script.Cursor

/-!
The ends of statements that have no semicolon. A statement may end before a closing brace, at the end
of the source, and at the end of a line whose successor cannot go on with it.
-/

set_option autoImplicit false

namespace ModuleFence.Script.LineEnd

/-- What stands in front of the next token. -/
inductive Gap where
  | other
  | plain (rest : List Char)
  | lines (rest : List Char)

/-- The rest behind a block comment, and whether it holds a line end; an open comment reaches to the
end. -/
def skipBlock (broken : Bool) : List Char → Bool × List Char
  | [] => (broken, [])
  | '*' :: '/' :: rest => (broken, rest)
  | character :: rest =>
    if isNull character then (broken, character :: rest)
    else skipBlock (broken || endsLine character) rest

def skipLine (characters : List Char) : List Char :=
  characters.dropWhile fun character => !endsLine character && !isNull character

/-- Skips blanks and comments; `broken` tells whether a block comment before held a line end. Unless
all are to be skipped, it stops behind a block comment that no other comment follows directly. -/
def skip (all broken : Bool) : (fuel : Nat) → List Char → Gap
  | 0, _ => .other
  | fuel + 1, characters =>
    match characters.dropWhile isBreakingBlank with
    | '/' :: '/' :: rest => skip all broken fuel (skipLine rest)
    | '/' :: '*' :: rest =>
      let (broken, behind) := skipBlock broken rest
      if all || behind.head? = some '/' then skip all broken fuel behind
      else if broken then .lines behind
      else .plain behind
    | '/' :: _ => .other
    | rest => .lines rest

/-- Whether a character goes on with a word. -/
def isLetter (character : Char) : Bool :=
  character.isAlpha || (0x80 ≤ character.toNat && isNameCharacter character)

/-- Whether a line may begin with these characters without going on with the line before. -/
def beginsAnew : List Char → Bool
  | '.' :: rest => (rest.head?.map Char.isDigit).getD false
  | '+' :: rest => rest.head? = some '+'
  | '-' :: rest => rest.head? = some '-'
  | '!' :: rest => rest.head? ≠ some '='
  | 'i' :: 'n' :: rest =>
    let goesOn (characters : List Char) : Bool := (characters.head?.map isLetter).getD false
    goesOn rest && !("stanceof".toList.isPrefixOf rest && !goesOn (rest.drop 8))
  | character :: _ =>
    !(['\u0060', ',', ':', ';', '*', '%', '>', '<', '=', '[', '(', '?', '^', '|', '&', '/'].contains
      character)
  | [] => true

/-- Whether a statement ends in front of what follows the end of its line. -/
def endsAtLine (fuel : Nat) (characters : List Char) : Bool :=
  match skip true false fuel characters with
  | .lines rest | .plain rest => beginsAnew rest
  | .other => false

/-- Whether a statement ends here, in front of these characters; `afterBlanks` stands for the search
behind further blanks. -/
def endsBefore (fuel : Nat) (afterBlanks : List Char → Bool) : List Char → Bool
  | [] => false
  | '\u007d' :: _ => true
  | character :: rest =>
    if endsLine character then endsAtLine fuel rest
    else isBreakingBlank character && afterBlanks rest

/-- Whether a statement may end here. An eager statement, one that no operator could continue, also
ends before a comment that holds or ends a line. -/
def search (eager : Bool) : (fuel : Nat) → List Char → Bool
  | 0, _ => false
  | fuel + 1, characters =>
    match characters with
    | [] => true
    | '\x00' :: _ => true
    | '/' :: _ =>
      match skip false false fuel.succ characters with
      | .other => false
      | .plain rest => endsBefore fuel.succ (search eager fuel) rest
      | .lines rest =>
        (eager && rest.head? ≠ some ',' && rest.head? ≠ some '=')
          || endsBefore fuel.succ (search eager fuel) rest
    | _ => endsBefore fuel.succ (search eager fuel) characters

/-- Whether a statement may end at a place without a semicolon. -/
def isHere (eager : Bool) (place : Cursor) : Bool :=
  search eager (place.left + 1) place.rest

end ModuleFence.Script.LineEnd
