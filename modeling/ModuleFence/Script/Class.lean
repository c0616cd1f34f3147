import ModuleFence.Script.Member

set_option autoImplicit false

namespace ModuleFence.Script.Reader

def decoratorTail : (fuel : Nat) → Node → Reader Node
  | 0, target => give target
  | fuel + 1, target =>
    orElse
      (andThen
        (node "member_expression"
          (joined [
            give [target.inField "object"],
            follow (mark "."),
            follow (inField "property" (leaf "property_identifier" true Lexeme.name))]))
        (decoratorTail fuel))
      fun _ => give target

/-- Takes a decorator: a name, maybe with names behind points, maybe called. -/
def decorator (self : Self) : Reader Node := do
  let opening ← joined [mark "@", gap]
  let first ← binding
  let target ← decoratorTail (← left) first
  let called :=
    node "call_expression"
      (joined [
        give [target.inField "function"],
        follow (inField "arguments" (arguments self))])
  let value ← firstOf [called, give target]
  return branch "decorator" (opening ++ [value])

def decorators (self : Self) : Reader (List Node) :=
  many (joined [inField "decorator" (decorator self), gap])

/-- Takes the gap between a word and what it modifies, as long as no field ends there. -/
def fieldContinuation : Reader (List Node) :=
  andThen (onlyIf fun place => !LineEnd.isHere true place) fun _ => gap

/-- Takes the rest of a field behind its name. -/
def field (self : Self) (opening : List Node) (name : Node) : Reader (List Node) := do
  let value ← optional (joined [
    continuation true,
    operator "=",
    follow (inField "value" (self (.expression true)))])
  let definition := branch "field_definition" (opening ++ [name.inField "property"] ++ value)
  let ending ← statementEnd value.isEmpty
  return definition :: ending

def staticBlock (self : Self) : Reader Node :=
  node "class_static_block" (inSequence [word "static", inField "body" (block self)])

def methodOrField (self : Self) : Reader (List Node) := do
  let opening ← decorators self
  let words ← modifiers fieldContinuation
  let name ← propertyName self
  firstOf [one (method self (opening ++ words) name), field self (opening ++ words) name]

def classMember (self : Self) : Reader (List Node) :=
  firstOf [mark ";", one (staticBlock self), methodOrField self]

/-- Takes the rest of a class behind its name. -/
def classRest (self : Self) : Reader (List Node) :=
  joined [
    optional (follow (one (node "class_heritage"
      (inSequence [word "extends", one (self (.expression false))])))),
    follow (inField "body" (node "class_body"
      (inSequence [mark "\x7b", series (classMember self), mark "\x7d"])))]

def classDeclaration (self : Self) : Reader Node :=
  node "class_declaration"
    (joined [
      decorators self,
      word "class",
      follow (inField "name" binding),
      classRest self])

def classValue (self : Self) : Reader Node :=
  node "class"
    (joined [
      decorators self,
      word "class",
      optional (follow (inField "name" binding)),
      classRest self])

end ModuleFence.Script.Reader
