import ModuleFence.Span
import ModuleFence.Text.Basic

set_option autoImplicit false

namespace ModuleFence

mutual

/-- An expression of one of the shapes that rules look at, or some other expression. -/
inductive Expression where
  | identifier (name : String) (span : Span)
  | string (value : Text) (span : Span)
  | object (members : List Member) (span : Span)
  | call (callee : Expression) (arguments : List Expression) (span : Span)
  | other (kind : String) (span : Span)

/-- A member of an object; its key is absent when it is computed or a number. -/
inductive Member where
  | pair (key : Option Text) (value : Expression) (span : Span)
  | shorthand (name : String) (span : Span)
  | method (key : Option Text) (span : Span)
  | other (kind : String) (span : Span)

end

/-- A call with its lowered callee and arguments. -/
structure Call where
  callee : Expression
  arguments : List Expression
  span : Span

/-- A catch clause: the number of its statements, and the range of its body. -/
structure CatchClause where
  statementCount : Nat
  bodySpan : Span
  span : Span

namespace Member

def key? : Member → Option Text
  | pair key _ _ => key
  | shorthand name _ => some (Text.ofString name)
  | method key _ => key
  | other _ _ => none

end Member

namespace Expression

def memberKeys (members : List Member) : List Text :=
  members.filterMap Member.key?

def span : Expression → Span
  | identifier _ span => span
  | string _ span => span
  | object _ span => span
  | call _ _ span => span
  | other _ span => span

end Expression

namespace Call

/-- The name of a callee that is a plain identifier. -/
def calleeName? (call : Call) : Option String :=
  match call.callee with
  | .identifier name _ => some name
  | _ => none

def firstArgument? (call : Call) : Option Expression :=
  call.arguments.head?

def toExpression (call : Call) : Expression :=
  .call call.callee call.arguments call.span

end Call

namespace CatchClause

/-- Whether a clause has no statements. -/
def isEmpty (clause : CatchClause) : Bool :=
  clause.statementCount == 0

end CatchClause

end ModuleFence
