import ModuleFence.FileSystem.Path
import ModuleFence.Text.Lines
import ModuleFence.Text.Utf8

/-!
File systems. A location is a list of names from the root down; an entry at a location is a file, a
directory or a symbolic link. Following a path through links ends in a location or in a fault.
-/

set_option autoImplicit false

namespace ModuleFence

/-- What a location holds. -/
inductive Entry where
  | file (bytes : List UInt8)
  | directory
  | link (target : String)
deriving DecidableEq

/-- A list of names from the root down. -/
abbrev Location := List String

/-- The entries of a file system, in the order in which directories list them. -/
structure FileSystem where
  entries : List (Location × Entry)
  workingDirectory : Location

/-- Why a path leads nowhere. -/
inductive PathFault where
  | notFound
  | isDirectory
  | notADirectory
  | tooManyLinks
  | nameTooLong
deriving DecidableEq, Repr

namespace PathFault

def wording : PathFault → String
  | notFound => "[Errno 2] No such file or directory"
  | isDirectory => "[Errno 21] Is a directory"
  | notADirectory => "[Errno 20] Not a directory"
  | tooManyLinks => "[Errno 40] Too many levels of symbolic links"
  | nameTooLong => "[Errno 36] File name too long"

end PathFault

/-- Why a file cannot be read as text. -/
inductive ReadError where
  | path (fault : PathFault) (path : Path)
  | undecodable (fault : Utf8.Fault)
  | embeddedNull
deriving DecidableEq

namespace ReadError

def message : ReadError → Text
  | path fault place => Text.concat [fault.wording, ": ", place.toText.quoted]
  | undecodable fault => fault.message
  | embeddedNull => "embedded null byte"

def isExpected : ReadError → Bool
  | embeddedNull => false
  | _ => true

end ReadError

namespace FileSystem

/-- The longest name of an entry, in bytes. -/
def maxNameBytes : Nat := 255

/-- The longest spelling of a path, in bytes. -/
def maxPathBytes : Nat := 4095

/-- The number of links that may be followed on one path. -/
def maxLinks : Nat := 40

def entryAt? (files : FileSystem) : Location → Option Entry
  | [] => some .directory
  | location => files.entries.lookup location

/-- What is found, where only a directory may be. -/
def onlyDirectory : Except PathFault (Location × Entry) → Except PathFault (Location × Entry)
  | .ok (location, .directory) => .ok (location, .directory)
  | .ok _ => .error .notADirectory
  | .error fault => .error fault

/-- The directory from which the target of a link is followed. -/
def linkBase (location : Location) (target : String) : Location :=
  if (Path.ofString target).root = .relative then location else []

/-- Goes on from a link in a directory with the steps behind it. When none is left, the ending of the
target may demand a directory. -/
def followLink (onLink : Location → List String → Except PathFault (Location × Entry))
    (location : Location) (target : String) (rest : List String) :
    Except PathFault (Location × Entry) :=
  match rest, Path.namesDirectory target with
  | [], true => onlyDirectory (onLink (linkBase location target) (Path.ofString target).parts)
  | _, _ => onLink (linkBase location target) ((Path.ofString target).parts ++ rest)

/-- Follows steps from a directory; `onLink` goes on from where a link leads with all the steps that
remain. -/
def followSteps (files : FileSystem)
    (onLink : Location → List String → Except PathFault (Location × Entry)) :
    Location → List String → Except PathFault (Location × Entry)
  | location, [] =>
    match files.entryAt? location with
    | some entry => .ok (location, entry)
    | none => .error .notFound
  | location, name :: rest =>
    if name = ".." then followSteps files onLink location.dropLast rest
    else if maxNameBytes < name.utf8ByteSize then .error .nameTooLong
    else
      match files.entryAt? (location ++ [name]) with
      | none => .error .notFound
      | some (.link target) => followLink onLink location target rest
      | some .directory => followSteps files onLink (location ++ [name]) rest
      | some (.file bytes) =>
        if rest = [] then .ok (location ++ [name], .file bytes) else .error .notADirectory

/-- Follows steps from a directory through a limited number of links. -/
def follow (files : FileSystem) : (links : Nat) → Location → List String →
    Except PathFault (Location × Entry)
  | 0 => followSteps files fun _ _ => .error .tooManyLinks
  | links + 1 => followSteps files (follow files links)

/-- The location and the entry that a path leads to. -/
def locate (files : FileSystem) (path : Path) : Except PathFault (Location × Entry) :=
  if maxPathBytes < path.toString.utf8ByteSize then .error .nameTooLong
  else
    files.follow maxLinks
      (if path.root = .relative then files.workingDirectory else []) path.parts

/-- Whether a path cannot be handed to the file system. -/
def hasNull (path : Path) : Bool :=
  path.parts.any (·.contains '\x00')

/-- What a path leads to, if it leads anywhere; a name that is too long is a fault. -/
def find? (files : FileSystem) (path : Path) : Except PathFault (Option (Location × Entry)) :=
  if hasNull path then .ok none
  else
    match files.locate path with
    | .ok found => .ok (some found)
    | .error .nameTooLong => .error .nameTooLong
    | .error _ => .ok none

/-- The names in a directory, in listing order. -/
def list (files : FileSystem) (location : Location) : List String :=
  files.entries.filterMap fun (place, _) =>
    if place.dropLast = location then place.getLast? else none

def readBytes (files : FileSystem) (path : Path) : Except ReadError (List UInt8) :=
  if hasNull path then .error .embeddedNull
  else
    match files.locate path with
    | .ok (_, .file bytes) => .ok bytes
    | .ok _ => .error (.path .isDirectory path)
    | .error fault => .error (.path fault path)

/-- The text of a file, with newlines for all its line ends. -/
def readText (files : FileSystem) (path : Path) : Except ReadError (List Char) := do
  match Utf8.decode (← files.readBytes path) with
  | .ok characters => return Lines.normalize characters
  | .error fault => throw (.undecodable fault)

/-- The location of a path that is taken literally. -/
def literalLocation (files : FileSystem) (path : Path) : Location :=
  path.parts.foldl (fun location part => if part = ".." then location.dropLast else location ++ [part])
    (if path.root = .relative then files.workingDirectory else [])

/-- A file system with nothing but its working directory. -/
def empty (workingDirectory : Location) : FileSystem where
  entries := (List.range workingDirectory.length).map fun depth =>
    (workingDirectory.take (depth + 1), .directory)
  workingDirectory := workingDirectory

/-- Puts an entry at a location, behind the others when the location is new. -/
def put (files : FileSystem) (location : Location) (entry : Entry) : FileSystem :=
  { files with
    entries :=
      if files.entries.any (·.1 = location) then
        files.entries.map fun pair => if pair.1 = location then (location, entry) else pair
      else files.entries ++ [(location, entry)] }

def makeParents (files : FileSystem) (location : Location) : FileSystem :=
  (List.range (location.length - 1)).foldl
    (fun made depth =>
      let place := location.take (depth + 1)
      if (made.entryAt? place).isNone then made.put place .directory else made)
    files

def write (files : FileSystem) (path : Path) (entry : Entry) : FileSystem :=
  let location := files.literalLocation path
  (files.makeParents location).put location entry

/-- Removes what a path names, and all that lies below. -/
def remove (files : FileSystem) (path : Path) : FileSystem :=
  let location := files.literalLocation path
  { files with entries := files.entries.filter fun pair => !location.isPrefixOf pair.1 }

end FileSystem

end ModuleFence
