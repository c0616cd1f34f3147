import ModuleFence.Ignore.Pattern

/-!
Comparison of paths with ignore patterns. A wildcard tries the longest run first, and the first way
to compare a whole path decides how strongly it is selected. The last pattern that selects a path
strongly has the last word, and failing that the last that selects it weakly.
-/

set_option autoImplicit false

namespace ModuleFence.Ignore

/-- A comparison of the rest of a path. -/
abbrev Continuation := List Char → Option Strength

/-- Goes on behind a run of characters within a segment. -/
def afterRun (go : Continuation) : List Char → Option Strength
  | [] => go []
  | character :: rest =>
    if character = '/' then go (character :: rest)
    else afterRun go rest <|> go (character :: rest)

/-- Goes on behind a character within a segment. -/
def afterOne (go : Continuation) : List Char → Option Strength
  | [] => none
  | character :: rest => if character = '/' then none else go rest

/-- Goes on behind a run of at least one character within a segment. -/
def afterSegment (go : Continuation) : List Char → Option Strength :=
  afterOne (afterRun go)

/-- Goes on behind a run of at least one character of one line. -/
def afterAny (go : Continuation) : List Char → Option Strength
  | [] => none
  | character :: rest => if character = '\n' then none else afterAny go rest <|> go rest

def afterSlash (go : Continuation) : List Char → Option Strength
  | '/' :: rest => go rest
  | _ => none

/-- Goes on behind what a glyph stands for. -/
def afterGlyph (go : Continuation) : Glyph → List Char → Option Strength
  | .run, path => afterRun go path
  | .one, path => afterOne go path
  | .wholeSegment, path => afterSegment go path
  | .literal expected, character :: rest => if character = expected then go rest else none
  | .oneOf negated ranges, character :: rest =>
    if inRanges ranges character = negated then none else go rest
  | _, [] => none

def compare : List Piece → List Char → Option Strength
  | [], _ => some .strong
  | .glyph glyph :: rest, path => afterGlyph (compare rest) glyph path
  | .leadingDirectories :: rest, path =>
    afterAny (afterSlash (compare rest)) path <|> compare rest path
  | .innerDirectories :: rest, path =>
    afterSlash (afterAny (compare rest)) path <|> compare rest path
  | .below strength :: rest, path =>
    afterSlash (fun behind => (compare rest behind).map fun _ => strength) path
  | .ending :: _, [] => some .strong
  | .ending :: _, character :: _ => if character = '/' then some .weak else none

/-- How strongly a shape selects a path. -/
def Shape.select (path : List Char) : Shape → Option Strength
  | everything => some .strong
  | nested strength => if '/' ∈ path then some strength else none
  | .pieces list => compare list path

/-- The word of the last of some patterns that select a path with a strength. -/
def lastWord (strength : Strength) (path : List Char) (patterns : List Pattern) : Option Bool :=
  (patterns.reverse.find? fun pattern => pattern.shape.select path = some strength).map (!·.negated)

def selects (patterns : List Pattern) (path : List Char) : Bool :=
  (lastWord .strong path patterns <|> lastWord .weak path patterns).getD false

end ModuleFence.Ignore
