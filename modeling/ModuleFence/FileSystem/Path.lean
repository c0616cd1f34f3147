import ModuleFence.Text.Basic

/-!
Paths. A path is normalized when it is read: repeated slashes, single dots and trailing slashes are
dropped, two dots are kept, and the empty path is the current directory.
-/

set_option autoImplicit false

namespace ModuleFence

/-- The root that a path starts from; exactly two slashes are a root of their own. -/
inductive PathRoot where
  | relative
  | slash
  | doubleSlash
deriving DecidableEq, Repr

def PathRoot.spelling : PathRoot → String
  | relative => ""
  | slash => "/"
  | doubleSlash => "//"

/-- A normalized path. -/
structure Path where
  root : PathRoot
  parts : List String
deriving DecidableEq, Repr

namespace Path

def isPart (segment : List Char) : Bool :=
  segment != [] && segment != ['.']

def segments : List Char → List (List Char)
  | [] => [[]]
  | '/' :: rest => [] :: segments rest
  | character :: rest =>
    match segments rest with
    | [] => [[character]]
    | segment :: others => (character :: segment) :: others

def rootOf : List Char → PathRoot
  | '/' :: '/' :: '/' :: _ => .slash
  | '/' :: '/' :: _ => .doubleSlash
  | '/' :: _ => .slash
  | _ => .relative

def ofString (spelling : String) : Path where
  root := rootOf spelling.toList
  parts := ((segments spelling.toList).filter isPart).map String.ofList

/-- Whether what a spelling names has to be a directory: it ends in a slash, or in a single dot that a
slash precedes. Reading the path drops that ending. -/
def namesDirectory (spelling : String) : Bool :=
  !(segments spelling.toList).getLast?.any isPart

def toString (path : Path) : String :=
  if path.root = .relative ∧ path.parts = [] then "."
  else path.root.spelling ++ "/".intercalate path.parts

def toText (path : Path) : Text :=
  Text.ofString path.toString

def child (directory : Path) (name : String) : Path :=
  { directory with parts := directory.parts ++ [name] }

/-- The last part of a path, if it has one. -/
def name (path : Path) : String :=
  path.parts.getLastD ""

/-- The ending of a name from its last dot on; a dot at either end of the name begins none. -/
def suffixOf (characters : List Char) : List Char :=
  let ending := characters.reverse.takeWhile (· ≠ '.')
  if ending.length + 1 < characters.length ∧ ending ≠ [] then '.' :: ending.reverse else []

def suffix (path : Path) : List Char :=
  suffixOf path.name.toList

/-- The parts by which paths are ordered; a root counts as a part. -/
def sortKey (path : Path) : List String :=
  if path.root = .relative then path.parts else path.root.spelling :: path.parts

/-- Whether names come before others, or are the same, when the first different names decide. -/
def namesLe : List String → List String → Bool
  | [], _ => true
  | _ :: _, [] => false
  | first :: rest, second :: others =>
    if first = second then namesLe rest others else first < second

/-- The order of paths by their parts. -/
def le (first second : Path) : Bool :=
  namesLe first.sortKey second.sortKey

end Path

end ModuleFence
