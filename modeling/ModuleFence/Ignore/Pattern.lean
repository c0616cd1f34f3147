import ModuleFence.Ignore.Glob
import ModuleFence.Text.Blank

/-!
Ignore patterns, one on a line. A pattern selects paths below a root; a slash at its front or in its
middle ties it to the root, one at its end restricts it to directories, and two stars stand for any
number of directories.
-/

set_option autoImplicit false

namespace ModuleFence.Ignore

/-- How firmly a pattern selects a path; what lies in a selected directory is selected weakly. -/
inductive Strength where
  | weak
  | strong
deriving DecidableEq, Repr

/-- A segment of a pattern between slashes. -/
inductive Segment where
  | directories
  | glob (glyphs : List Glyph)
deriving DecidableEq

/-- A piece of what a path is compared with. -/
inductive Piece where
  | glyph (glyph : Glyph)
  | leadingDirectories
  | innerDirectories
  | below (strength : Strength)
  | ending
deriving DecidableEq

/-- What a pattern selects. -/
inductive Shape where
  | everything
  | nested (strength : Strength)
  | pieces (pieces : List Piece)
deriving DecidableEq

/-- A pattern; a negated one takes paths back. -/
structure Pattern where
  negated : Bool
  shape : Shape
deriving DecidableEq

def splitSlashes : List Char → List (List Char)
  | [] => [[]]
  | '/' :: rest => [] :: splitSlashes rest
  | character :: rest =>
    match splitSlashes rest with
    | [] => [[character]]
    | segment :: others => (character :: segment) :: others

/-- The spelling of a segment that stands for any number of directories. -/
def directoriesSpelling : List Char := ['*', '*']

/-- Ties segments to the root: those of a pattern without inner slash may begin anywhere. -/
def anchor : List (List Char) → List (List Char)
  | [] :: rest => rest
  | [segment] => if segment = directoriesSpelling then [segment] else [directoriesSpelling, segment]
  | [segment, []] =>
    if segment = directoriesSpelling then [segment, []] else [directoriesSpelling, segment, []]
  | segments => segments

/-- An empty segment at the end stands for all that a directory holds. -/
def openEnd : List (List Char) → List (List Char)
  | [] => []
  | [[]] => [directoriesSpelling]
  | segment :: rest => segment :: openEnd rest

/-- Leaves one of neighbours that both stand for directories. -/
def collapse : List (List Char) → List (List Char)
  | first :: second :: rest =>
    if first = directoriesSpelling ∧ second = directoriesSpelling then collapse (second :: rest)
    else first :: collapse (second :: rest)
  | segments => segments

def readSegment (spelling : List Char) : Except GlobFault Segment :=
  if spelling = directoriesSpelling then .ok .directories
  else if spelling = ['*'] then .ok (.glob [.wholeSegment])
  else (readGlob spelling).map .glob

def readSegments : List (List Char) → Except GlobFault (List Segment)
  | [] => .ok []
  | spelling :: rest => do
    let segment ← readSegment spelling
    return segment :: (← readSegments rest)

/-- The slash between two segments. -/
def separator : Piece := .glyph (.literal '/')

/-- The pieces of segments; a glob is set off by a slash from what stands before it. -/
def piecesFrom (inside : Strength) (needsSlash : Bool) : List Segment → List Piece
  | [] => []
  | [.directories] => [.below inside]
  | .directories :: rest => .innerDirectories :: piecesFrom inside true rest
  | .glob glyphs :: rest =>
    (if needsSlash then [separator] else []) ++ glyphs.map Piece.glyph
      ++ (if rest = [] then [.ending] else piecesFrom inside true rest)

/-- The shape of segments, in which a last segment for directories selects with a strength. -/
def shapeOf (inside : Strength) : List Segment → Shape
  | [.directories] => if inside = .weak then .nested .weak else .everything
  | [.directories, .glob [.wholeSegment]] => .everything
  | [.directories, .glob [.wholeSegment], .directories] => .nested inside
  | .directories :: rest => .pieces (.leadingDirectories :: piecesFrom inside false rest)
  | segments => .pieces (piecesFrom inside false segments)

/-- Why a line holds no usable pattern. -/
inductive PatternFault where
  | nothing
  | invalid
deriving DecidableEq

/-- What a fault in a glob means for its line. -/
def PatternFault.ofGlob : GlobFault → PatternFault
  | .unclosedBracket => nothing
  | .danglingBackslash => invalid

/-- Reads a pattern without its mark of negation. -/
def readShape (spelling : List Char) : Except PatternFault Shape :=
  let segments := splitSlashes spelling
  let inside : Strength := if segments.getLast? = some [] then .weak else .strong
  match anchor segments with
  | [] => .error .invalid
  | anchored => ((readSegments (collapse (openEnd anchored))).map (shapeOf inside)).mapError .ofGlob

/-- A line without the blanks at its end, unless a backslash protects the last of them. -/
def trimLine (line : List Char) : List Char :=
  if ['\\', ' '] <:+ line then line else dropWhileEnd (fun character => isBlankPoint character.toNat) line

/-- Reads a trimmed line that is neither empty nor a comment. -/
def readTrimmed : List Char → Except PatternFault Pattern
  | [] => .error .nothing
  | '#' :: _ => .error .nothing
  | ['/'] => .error .nothing
  | '!' :: rest => (readShape rest).map (⟨true, ·⟩)
  | spelling => (readShape spelling).map (⟨false, ·⟩)

/-- The patterns of some lines, or the first line that is invalid. -/
def readLines : List (List Char) → Except (List Char) (List Pattern)
  | [] => .ok []
  | line :: rest =>
    match readTrimmed (trimLine line) with
    | .ok pattern => (readLines rest).map (pattern :: ·)
    | .error .nothing => readLines rest
    | .error .invalid => .error line

end ModuleFence.Ignore
