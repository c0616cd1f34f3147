import ModuleFence.Failure
import ModuleFence.Ignore.Matching
import ModuleFence.Log

/-!
Discovery of the sources that are to be linted. A file that is named is taken as it is; a named
directory is walked, without the directories that are hidden, skipped or ignored, and without what
links lead to outside of it.
-/

set_option autoImplicit false

namespace ModuleFence.Discovery

def sourceSuffixes : List String := [".js", ".mjs", ".cjs", ".jsx", ".vue"]

def foldedSuffix (path : Path) : String :=
  (String.ofList path.suffix).toLower

def hasSourceSuffix (path : Path) : Bool :=
  sourceSuffixes.contains (foldedSuffix path)

/-- A walk through a directory. -/
structure Search where
  files : FileSystem
  root : Path
  realRoot : Location
  skipped : List Text
  ignored : List Char → Bool

/-- The steps from a root to what lies below it. -/
abbrev Steps := List String

def Search.path (search : Search) (steps : Steps) : Path :=
  { search.root with parts := search.root.parts ++ steps }

/-- The steps with slashes between them. -/
def relativeSpelling (steps : Steps) : List Char :=
  ("/".intercalate steps).toList

/-- What a path leads to; a fault other than absence ends the walk. -/
def lookUp (files : FileSystem) (path : Path) : Except Failure (Option (Location × Entry)) :=
  (files.find? path).mapError fun fault => .read (.path fault path)

/-- What the entries of a directory give: directories to walk, and sources. -/
structure Harvest where
  directories : List Steps := []
  sources : List Path := []

/-- The harvest of two groups of entries. -/
def Harvest.append (first second : Harvest) : Harvest :=
  ⟨first.directories ++ second.directories, first.sources ++ second.sources⟩

/-- Whether the name of a directory keeps it from being walked. -/
def Search.isPruned (search : Search) (name : String) : Bool :=
  name.startsWith "." || search.skipped.contains (Text.ofString name)

/-- What an entry gives that leads to a directory. -/
def Search.harvestDirectory (search : Search) (name : String) (steps : Steps) : Harvest :=
  if search.isPruned name || search.ignored (relativeSpelling steps ++ ['/']) then {}
  else { directories := [steps] }

/-- Whether a location lies at or below the root of a walk. -/
def Search.contains (search : Search) (location : Location) : Bool :=
  search.realRoot.isPrefixOf location

/-- What an entry gives that leads to a file. -/
def Search.harvestFile (search : Search) (location : Location) (steps : Steps) : Harvest :=
  let path := search.path steps
  if hasSourceSuffix path && !search.ignored (relativeSpelling steps) && search.contains location then
    { sources := [path] }
  else {}

def Search.harvestEntry (search : Search) (directory : Steps) (name : String) :
    Except Failure Harvest := do
  let steps := directory ++ [name]
  match ← lookUp search.files (search.path steps) with
  | some (_, .directory) => return search.harvestDirectory name steps
  | some (location, .file _) => return search.harvestFile location steps
  | _ => return {}

/-- What the entries of a directory give, in listing order. -/
def Search.harvestAll (search : Search) (directory : Steps) : List String → Except Failure Harvest
  | [] => .ok {}
  | name :: rest => do
    let here ← search.harvestEntry directory name
    return here.append (← search.harvestAll directory rest)

def without (location : Location) (locations : List Location) : List Location :=
  locations.filter (· ≠ location)

theorem length_without_lt {location : Location} {locations : List Location}
    (known : location ∈ locations) : (without location locations).length < locations.length :=
  List.length_filter_lt_length_iff_exists.2 ⟨location, known, by simp⟩

/-- Walks the waiting directories, the last found first; `unseen` holds the directories that were not
walked yet, so that none is walked twice. -/
def Search.walk (search : Search) (unseen : List Location) (pending : List Steps) :
    Except Failure (List Path) :=
  match pending with
  | [] => .ok []
  | steps :: rest =>
    match lookUp search.files (search.path steps) with
    | .error failure => .error failure
    | .ok none => walk search unseen rest
    | .ok (some (location, _)) =>
      if location ∈ unseen ∧ search.contains location = true then
        match search.harvestAll steps (search.files.list location) with
        | .error failure => .error failure
        | .ok harvest => do
          let others ← walk search (without location unseen) (harvest.directories.reverse ++ rest)
          return harvest.sources ++ others
      else walk search unseen rest
termination_by (unseen.length, pending.length)
decreasing_by
  · exact Prod.Lex.right _ (Nat.lt_succ_self _)
  · have known := ‹location ∈ unseen ∧ search.contains location = true›
    exact Prod.Lex.left _ _ (length_without_lt known.1)
  · exact Prod.Lex.right _ (Nat.lt_succ_self _)

/-- The locations of all directories. -/
def directoryLocations (files : FileSystem) : List Location :=
  [] :: (files.entries.filter fun pair => pair.2 = .directory).map (·.1)

/-- The name of the file with the ignore patterns of a root. -/
def ignoreFileName : String := ".gitignore"

/-- The warning about a file of patterns that cannot be read. -/
def unreadableRecord (path : Path) (error : ReadError) : LogRecord :=
  ⟨.warning, .discovery, Text.concat ["Ignoring unreadable ", path.toText, ": ", error.message]⟩

/-- The lines of the ignore file of a root, and the records about it. -/
def ignoreLines (files : FileSystem) (root : Path) :
    Except Failure (List (List Char)) × List LogRecord :=
  let path := root.child ignoreFileName
  match lookUp files path with
  | .error failure => (.error failure, [])
  | .ok (some (_, .file _)) =>
    match files.readText path with
    | .ok characters => (.ok (Lines.split characters), [])
    | .error error => (.ok [], [unreadableRecord path error])
  | .ok _ => (.ok [], [])

def ignorePatterns (files : FileSystem) (root : Path) :
    Except Failure (List Ignore.Pattern) × List LogRecord :=
  let (lines, records) := ignoreLines files root
  (lines.bind fun lines =>
    (Ignore.readLines lines).mapError fun line => .ignorePattern (Text.ofString (String.ofList line)),
    records)

/-- The sources below a named directory, and the records about it. -/
def inDirectory (files : FileSystem) (skipped : List Text) (root : Path) (realRoot : Location) :
    Except Failure (List Path) × List LogRecord :=
  let (patterns, records) := ignorePatterns files root
  (patterns.bind fun patterns =>
    Search.walk ⟨files, root, realRoot, skipped, Ignore.selects patterns⟩
      (directoryLocations files) [[]],
    records)

/-- The sources that a named path stands for, and the records about it. -/
def ofPath (files : FileSystem) (skipped : List Text) (path : Path) :
    Except Failure (List Path) × List LogRecord :=
  match lookUp files path with
  | .error failure => (.error failure, [])
  | .ok (some (_, .file _)) => (.ok [path], [])
  | .ok (some (location, .directory)) => inDirectory files skipped path location
  | .ok _ => (.ok [], [])

/-- The sources that some named paths stand for, in the order found, and the records about them. -/
def ofPaths (files : FileSystem) (skipped : List Text) :
    List Path → Except Failure (List Path) × List LogRecord
  | [] => (.ok [], [])
  | path :: rest =>
    match ofPath files skipped path with
    | (.error failure, records) => (.error failure, records)
    | (.ok here, records) =>
      let (others, further) := ofPaths files skipped rest
      (others.map (here ++ ·), records ++ further)

/-- The sources that some named paths stand for, each once and in order. -/
def discover (files : FileSystem) (skipped : List Text) (paths : List Path) :
    Except Failure (List Path) × List LogRecord :=
  let (found, records) := ofPaths files skipped paths
  (found.map fun sources => sources.eraseDups.mergeSort Path.le, records)

end ModuleFence.Discovery
