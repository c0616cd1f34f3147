import ModuleFence.FileSystem.Basic
import ModuleFence.Source.Discovery
import ModuleFence.Source.Vue

set_option autoImplicit false

namespace ModuleFence

/-- A source: where it comes from, and what is linted of it. -/
structure SourceFile where
  path : Path
  characters : List Char

namespace SourceFile

def vueSuffix : String := ".vue"

def content (path : Path) (characters : List Char) : List Char :=
  if Discovery.foldedSuffix path = vueSuffix then Vue.extractScript characters else characters

def load (files : FileSystem) (path : Path) : Except ReadError SourceFile := do
  return ⟨path, content path (← files.readText path)⟩

end SourceFile

end ModuleFence
