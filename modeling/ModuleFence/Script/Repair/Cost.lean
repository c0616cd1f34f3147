import ModuleFence.Script.Program

set_option autoImplicit false

namespace ModuleFence.Script

structure RepairCosts where
  repair : Nat
  missingToken : Nat
  skippedTree : Nat
  skippedByte : Nat
  skippedLine : Nat

/-- A token that is put in costs about as much as a short tree that is taken out. -/
def repairCosts : RepairCosts :=
  ⟨500, 110, 100, 1, 30⟩

/-- A blank that ends no statement; it stands where a source was repaired. -/
def seam : Char := '\uFEFF'

/-- A token: the characters in front of it and up to its end, and the number of its parts. -/
structure Piece where
  start : Nat
  stop : Nat
  parts : Nat

namespace Repair

/-- The number of characters in front of a place. -/
def charactersBefore (byte : Nat) : List Char → Nat
  | [] => 0
  | character :: rest =>
    let width := Utf8.width character
    if byte < width then 0 else 1 + charactersBefore (byte - width) rest

/-- The length of what stands between tokens. -/
def gapLength : (fuel : Nat) → List Char → Nat
  | 0, _ => 0
  | fuel + 1, characters =>
    let blanks := Lexeme.run isBlank characters
    let comment := Lexeme.comment (characters.drop blanks)
    if comment = 0 then blanks
    else blanks + comment + gapLength fuel (characters.drop (blanks + comment))

/-- The length of a whole string. -/
def quoted : List Char → Nat
  | quote :: rest =>
    if quote == '"' || quote == '\'' then
      let piece := Lexeme.stringPiece quote rest
      if (rest.drop piece).head? = some quote then piece + 2 else 0
    else 0
  | [] => 0

def operatorLength (characters : List Char) : Nat :=
  ((Lexeme.operator? characters).map String.length).getD 0

/-- The length of a token, and the number of its parts. -/
def token (characters : List Char) : Nat × Nat :=
  let string := quoted characters
  if 2 < string then (string, 3)
  else if string = 2 then (2, 2)
  else
    let lengths := [Lexeme.name characters, Lexeme.privateName characters,
      Lexeme.number characters, operatorLength characters]
    ((lengths.find? (0 < ·)).getD 1, 1)

/-- The tokens of some characters that stand behind others. -/
def tokensFrom : (fuel : Nat) → (offset : Nat) → List Char → List Piece
  | 0, _, _ => []
  | fuel + 1, offset, characters =>
    let gap := gapLength (fuel + 1) characters
    match characters.drop gap with
    | [] => []
    | first :: rest =>
      let (length, parts) := token (first :: rest)
      let start := offset + gap
      ⟨start, start + length, parts⟩
        :: tokensFrom fuel (start + length) ((first :: rest).drop length)

/-- The number of characters that a reader takes. -/
def taken (goal : Goal) (characters : List Char) : Nat :=
  match (readers (maxDepth characters) goal (Cursor.start characters) Point.origin).found with
  | none => 0
  | some (_, behind) => characters.length - behind.rest.length

/-- The number of trees that some characters make: statements, expressions, and tokens besides. The
name of a function is a tree of its own. -/
def countTrees (isName : Bool) : (fuel : Nat) → List Char → Nat
  | 0, _ => 0
  | fuel + 1, characters =>
    match characters.drop (gapLength characters.length characters) with
    | [] => 0
    | first :: rest =>
      let tree := first :: rest
      let lengths :=
        if isName then [] else [taken .statement tree, taken (.expression false) tree]
      let namesNext := lengths.all (· = 0) && Reader.nameAhead tree = "function"
      1 + countTrees namesNext fuel
        (tree.drop ((lengths.find? (0 < ·)).getD (token tree).1))

/-- The most trees that are counted; nothing that costs more is worth it. -/
def maxTrees : Nat := 64

def trees (characters : List Char) : Nat :=
  countTrees false maxTrees characters

/-- The cost of taking out some characters that make some trees. -/
def skipCost (characters : List Char) (count : Nat) : Nat :=
  let bytes := characters.foldl (fun count character => count + Utf8.width character) 0
  let lines := characters.count '\n'
  repairCosts.repair + count * repairCosts.skippedTree + bytes * repairCosts.skippedByte
    + lines * repairCosts.skippedLine

def insertionCost : Nat :=
  repairCosts.repair + repairCosts.missingToken

end Repair

end ModuleFence.Script
