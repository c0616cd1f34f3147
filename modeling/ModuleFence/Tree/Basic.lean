/-!
Syntax trees. A node has a kind, a place in its source, and children in source order; children that
carry meaning are named, and a child may have a role in its parent, its field.
-/

set_option autoImplicit false

namespace ModuleFence

/-- A place in a source: lines and columns from zero, columns and offsets in bytes. -/
structure Point where
  row : Nat
  column : Nat
  byte : Nat
deriving DecidableEq, Repr

namespace Point

/-- The first place of a source. -/
def origin : Point := ⟨0, 0, 0⟩

end Point

/-- What a node says of itself. -/
structure Label where
  kind : String
  start : Point := Point.origin
  stop : Point := Point.origin
  text : String := ""
  isNamed : Bool := true
  isMissing : Bool := false
  hasError : Bool := false
  field : Option String := none
deriving DecidableEq, Repr

inductive Node where
  | mk (label : Label) (children : List Node)

namespace Node

/-- What a node says of itself. -/
def label : Node → Label
  | mk label _ => label

def children : Node → List Node
  | mk _ children => children

@[simp] theorem label_mk (label : Label) (children : List Node) :
    (mk label children).label = label := rfl

@[simp] theorem children_mk (label : Label) (children : List Node) :
    (mk label children).children = children := rfl

def kind (node : Node) : String :=
  node.label.kind

def text (node : Node) : String :=
  node.label.text

/-- Whether a node is a child that carries meaning to its parent: named, and no comment. -/
def isMeaningful (node : Node) : Bool :=
  node.label.isNamed && node.kind != "comment"

/-- Whether a node marks damage: a part that fits no rule, or one that should be there. -/
def isDamage (node : Node) : Bool :=
  node.kind == "ERROR" || node.label.isMissing

/-- Whether a node has a role in its parent. -/
def hasField (name : String) (node : Node) : Bool :=
  node.label.field == some name

def withField? (name : String) (nodes : List Node) : Option Node :=
  nodes.find? (hasField name)

def child? (name : String) (node : Node) : Option Node :=
  withField? name node.children

def namedChildren (node : Node) : List Node :=
  node.children.filter (·.label.isNamed)

/-- The children of a node that are named and no comments. -/
def meaningfulChildren (node : Node) : List Node :=
  node.children.filter isMeaningful

/-- The same node in another role. -/
def inField (name : String) : Node → Node
  | mk label children => mk { label with field := some name } children

end Node

end ModuleFence
