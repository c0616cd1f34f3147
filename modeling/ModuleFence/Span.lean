import ModuleFence.Tree.Basic

set_option autoImplicit false

namespace ModuleFence

/-- A range of a source; columns count bytes. -/
structure Span where
  startLine : Int
  startColumn : Int
  endLine : Int
  endColumn : Int
  startByte : Int
  endByte : Int
deriving DecidableEq, Repr

namespace Span

/-- The range between two places. -/
def between (start stop : Point) : Span where
  startLine := start.row + 1
  startColumn := start.column + 1
  endLine := stop.row + 1
  endColumn := stop.column + 1
  startByte := start.byte
  endByte := stop.byte

/-- The empty range at a line and a column, whose offset is not known. -/
def atPlace (line column : Int) : Span :=
  ⟨line, column, line, column, 0, 0⟩

end Span

def Node.span (node : Node) : Span :=
  Span.between node.label.start node.label.stop

end ModuleFence
