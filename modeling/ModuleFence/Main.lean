import ModuleFence.CommandLine.Run

/-!
The program. It takes a picture of the files below the working directory and of those that the
command line names, runs the command line on that picture, and prints what comes of it.
-/

set_option autoImplicit false

namespace ModuleFence.Program

/-- The number of levels of directories that a picture shows. -/
def maxLevels : Nat := 64

def locationOf (place : IO.FS.DirEntry) : IO Location := do
  let goal ← IO.FS.realPath place.path
  return (Path.ofString goal.toString).parts

def entriesFrom : (levels : Nat) → Location → IO.FS.DirEntry → IO (List (Location × Entry))
  | 0, _, _ => return []
  | levels + 1, location, place => do
    let metadata ← place.path.symlinkMetadata
    match metadata.type with
    | .dir =>
      let inside ← place.path.readDir
      let below ← inside.toList.mapM fun entry =>
        entriesFrom levels (location ++ [entry.fileName]) entry
      return (location, .directory) :: below.flatten
    | .file =>
      let bytes ← IO.FS.readBinFile place.path
      return [(location, .file bytes.toList)]
    | .symlink =>
      let target ← locationOf place
      return [(location, .link ("/" ++ "/".intercalate target))]
    | .other => return []

def ancestors (location : Location) : List (Location × Entry) :=
  (List.range location.length).map fun count => (location.take count, .directory)

/-- A picture of a place, or nothing when there is none. -/
def picture (place : IO.FS.DirEntry) : IO (List (Location × Entry)) := do
  try
    let location ← locationOf place
    let entries ← entriesFrom maxLevels location place
    return entries ++ ancestors location
  catch _ => return []

/-- The variables of the environment of this run. -/
def environment : IO Environment := do
  let bytes ← try IO.FS.readBinFile "/proc/self/environ" catch _ => return {}
  let text := ((Utf8.decode bytes.toList).toOption.map String.ofList).getD ""
  let bindings := (text.splitOn "\x00").map fun entry =>
    let name := entry.takeWhile (· != '=')
    (name.toString, (entry.drop (name.toString.length + 1)).toString)
  return { bindings }

/-- The characters of a text; what stands for none is replaced. -/
def printable (text : Text) : String :=
  String.ofList (text.map fun point => point.toChar?.getD '\uFFFD')

def recordLine (record : LogRecord) : String :=
  record.level.name ++ " - [" ++ record.source.name ++ "] - " ++ printable record.message

/-- Runs a command line, and tells the exit code. -/
def run (words : List String) : IO UInt32 := do
  let here : IO.FS.DirEntry := ⟨← IO.currentDir, "."⟩
  let named ← (words.filter fun word => !word.startsWith "-").mapM fun word =>
    picture ⟨here.root, word⟩
  let files : FileSystem := ⟨(← picture here) ++ named.flatten, ← locationOf here⟩
  let outcome := CommandLine.run files (← environment) words
  for record in outcome.records do
    IO.eprintln (recordLine record)
  IO.print (printable outcome.output)
  IO.eprint (printable outcome.errors)
  match outcome.ending with
  | .done => return 0
  | .exit code => return code.toUInt32
  | .failed failure =>
    IO.eprintln (printable failure.message)
    return 1

end ModuleFence.Program

def main (words : List String) : IO UInt32 :=
  ModuleFence.Program.run words
