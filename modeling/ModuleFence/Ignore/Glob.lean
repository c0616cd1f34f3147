/-!
Globs within one segment of a path: wildcards, classes of characters in brackets, and characters that
stand for themselves, which a backslash enforces.
-/

set_option autoImplicit false

namespace ModuleFence.Ignore

/-- An item of a class in brackets: the characters from one to another. -/
structure CharacterRange where
  first : Char
  last : Char
deriving DecidableEq

/-- What one place of a glob stands for. -/
inductive Glyph where
  | literal (character : Char)
  | one
  | run
  | wholeSegment
  | oneOf (negated : Bool) (ranges : List CharacterRange)
deriving DecidableEq

/-- Why a glob cannot be read. -/
inductive GlobFault where
  | danglingBackslash
  | unclosedBracket
deriving DecidableEq

def rangesOf : List Char → List CharacterRange
  | first :: '-' :: last :: rest => ⟨first, last⟩ :: rangesOf rest
  | character :: rest => ⟨character, character⟩ :: rangesOf rest
  | [] => []

def inRanges (ranges : List CharacterRange) (character : Char) : Bool :=
  ranges.any fun range => range.first ≤ character && character ≤ range.last

/-- The inside of a class up to its closing bracket, and the rest behind it. -/
def splitClass? : List Char → Option (List Char × List Char)
  | [] => none
  | ']' :: rest => some ([], rest)
  | character :: rest => (splitClass? rest).map fun found => (character :: found.1, found.2)

/-- A class without its mark of negation; a closing bracket at its front is a member. -/
def readMembers? : List Char → Option (List CharacterRange × List Char)
  | ']' :: rest => (splitClass? rest).map fun found => (rangesOf (']' :: found.1), found.2)
  | characters => (splitClass? characters).map fun found => (rangesOf found.1, found.2)

/-- A class behind its opening bracket, and the rest behind the class. -/
def readClass? (characters : List Char) : Option (Glyph × List Char) :=
  match characters with
  | '!' :: rest | '^' :: rest => (readMembers? rest).map fun found => (.oneOf true found.1, found.2)
  | _ => (readMembers? characters).map fun found => (.oneOf false found.1, found.2)

theorem length_of_splitClass? {characters inside rest : List Char}
    (found : splitClass? characters = some (inside, rest)) : rest.length < characters.length := by
  induction characters generalizing inside with
  | nil => simp [splitClass?] at found
  | cons character behind hypothesis =>
    unfold splitClass? at found
    split at found
    · contradiction
    · rename_i equal
      cases equal
      simp at found
      simp [← found.2]
    · rename_i equal
      cases equal
      obtain ⟨⟨part, others⟩, split, same⟩ := Option.map_eq_some_iff.1 found
      obtain ⟨-, rfl⟩ := Prod.mk.inj same
      exact Nat.lt_succ_of_lt (hypothesis split)

theorem length_of_readMembers? {characters rest : List Char} {ranges : List CharacterRange}
    (found : readMembers? characters = some (ranges, rest)) : rest.length < characters.length := by
  unfold readMembers? at found
  split at found
  · obtain ⟨⟨part, others⟩, split, same⟩ := Option.map_eq_some_iff.1 found
    obtain ⟨-, rfl⟩ := Prod.mk.inj same
    exact Nat.lt_succ_of_lt (length_of_splitClass? split)
  · obtain ⟨⟨part, others⟩, split, same⟩ := Option.map_eq_some_iff.1 found
    obtain ⟨-, rfl⟩ := Prod.mk.inj same
    exact length_of_splitClass? split

theorem length_of_readClass? {characters rest : List Char} {glyph : Glyph}
    (found : readClass? characters = some (glyph, rest)) : rest.length < characters.length := by
  unfold readClass? at found
  split at found
  · obtain ⟨⟨part, others⟩, split, same⟩ := Option.map_eq_some_iff.1 found
    obtain ⟨-, rfl⟩ := Prod.mk.inj same
    exact Nat.lt_succ_of_lt (length_of_readMembers? split)
  · obtain ⟨⟨part, others⟩, split, same⟩ := Option.map_eq_some_iff.1 found
    obtain ⟨-, rfl⟩ := Prod.mk.inj same
    exact Nat.lt_succ_of_lt (length_of_readMembers? split)
  · obtain ⟨⟨part, others⟩, split, same⟩ := Option.map_eq_some_iff.1 found
    obtain ⟨-, rfl⟩ := Prod.mk.inj same
    exact length_of_readMembers? split

def readGlob : List Char → Except GlobFault (List Glyph)
  | [] => .ok []
  | '\\' :: [] => .error .danglingBackslash
  | '\\' :: character :: rest => (readGlob rest).map (.literal character :: ·)
  | '*' :: rest => (readGlob rest).map (.run :: ·)
  | '?' :: rest => (readGlob rest).map (.one :: ·)
  | '[' :: rest =>
    match found : readClass? rest with
    | none => .error .unclosedBracket
    | some (glyph, behind) =>
      have := length_of_readClass? found
      (readGlob behind).map (glyph :: ·)
  | character :: rest => (readGlob rest).map (.literal character :: ·)
termination_by characters => characters.length

end ModuleFence.Ignore
