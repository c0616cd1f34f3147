import ModuleFence.Script.Function

set_option autoImplicit false

namespace ModuleFence.Script.Reader

/-- Takes the name of a property: any word, a private name, a string, a number or a computed one. -/
def propertyName (self : Self) : Reader Node :=
  firstOf [
    leaf "property_identifier" true Lexeme.name,
    leaf "private_property_identifier" true Lexeme.privateName,
    string,
    number,
    node "computed_property_name"
      (inSequence [mark "[", one (self (.expression false)), mark "]"])]

def beginsPropertyName (characters : List Char) : Bool :=
  0 < Lexeme.name characters || 0 < Lexeme.number characters
    || ['[', '#', '"', '\''].contains (characters.head?.getD ' ')

/-- Takes a word that modifies the member behind it; without one it is the name of a member. -/
def modifier (between : Reader (List Node)) (mayHaveStar : Bool) (spelling : String) :
    Reader (List Node) := do
  let found ← word spelling
  let behind ← between
  let characters ← rest
  onlyIf fun _ => beginsPropertyName characters || (mayHaveStar && characters.head? = some '*')
  return found ++ behind

/-- Takes the words and the star in front of the name of a member. -/
def modifiers (between : Reader (List Node)) : Reader (List Node) :=
  joined [
    optional (modifier between true "static"),
    optional (modifier between true "async"),
    optional (firstOf [
      modifier between false "get",
      modifier between false "set",
      joined [mark "*", gap]])]

def method (self : Self) (opening : List Node) (name : Node) : Reader Node :=
  node "method_definition"
    (joined [give (opening ++ [name.inField "name"]), follow (signature self (block self))])

def pair (self : Self) (key : Node) : Reader Node :=
  node "pair"
    (joined [
      give [key.inField "key"],
      follow (mark ":"),
      follow (inField "value" (self (.expression false)))])

/-- Whether a name stands for a member and for its value at once. -/
def isShorthand (node : Node) : Bool :=
  node.kind = "property_identifier" && isValueName node.text

/-- The member that a name alone makes, as a value or as a pattern. -/
def asShorthand (kind : String) (node : Node) : Node :=
  Node.remade node.label kind []

/-- Takes what stands behind a name alone: maybe a default, when the object is a pattern. -/
def shorthand (self : Self) (name : Node) : Reader Node :=
  orElse
    (node "object_assignment_pattern"
      (joined [
        give [(asShorthand "shorthand_property_identifier_pattern" name).inField "left"],
        followOperand (operator "="),
        follow (inField "right" (self (.expression false)))]))
    fun _ => give (asShorthand "shorthand_property_identifier" name)

def objectMember (self : Self) : Reader Node :=
  orElse (node "spread_element" (inSequence [mark "...", one (self (.expression false))])) fun _ => do
    let opening ← modifiers gap
    let name ← propertyName self
    let others :=
      if opening.isEmpty then
        [pair self name, if isShorthand name then shorthand self name else miss]
      else []
    firstOf (method self opening name :: others)

def object (self : Self) : Reader Node :=
  node "object" (bracketed "\x7b" "\x7d" (one (objectMember self)))

/-- Takes a pattern that takes a value apart. -/
def destructuring (self : Self) : Reader Node :=
  andThen (firstOf [array self, object self]) fun found => ofOption found.asPattern?

/-- Takes a name or a pattern that is declared here. -/
def declared (self : Self) : Reader Node :=
  firstOf [binding, destructuring self]

end ModuleFence.Script.Reader
