import ModuleFence.Script.Literal

set_option autoImplicit false

namespace ModuleFence.Script.Reader

/-- Takes the names behind the first one of an element. -/
def elementNameTail : (fuel : Nat) → Node → Reader Node
  | 0, target => give target
  | fuel + 1, target =>
    orElse
      (andThen
        (node "member_expression"
          (joined [
            give [target.inField "object"],
            follow (mark "."),
            follow (inField "property" (leaf "property_identifier" true Lexeme.markupName))]))
        (elementNameTail fuel))
      fun _ => give target

def spacedName (kind : String) : Reader Node :=
  let part := leaf kind true Lexeme.markupName
  firstOf [node "jsx_namespace_name" (inSequence [one part, mark ":", one part]), part]

def elementName : Reader Node := do
  let first ← spacedName "identifier"
  elementNameTail (← left) first

/-- Takes an expression between braces, which may be absent. -/
def embedded (self : Self) : Reader Node :=
  node "jsx_expression"
    (joined [
      mark "\x7b",
      optional (follow (one (firstOf [
        node "spread_element" (inSequence [mark "...", one (self (.expression false))]),
        expressions self false]))),
      follow (mark "\x7d")])

/-- Takes a string in markup, in which characters may be references. -/
def markupStringBetween (quote : Char) : Reader Node :=
  let edge := mark (String.singleton quote)
  node "string" (joined [
    edge,
    many (firstOf [
      lexeme "string_fragment" (Lexeme.markupStringPiece quote),
      lexeme "html_character_reference" Lexeme.characterReference]),
    edge])

def attributeValue (self : Self) : Reader Node :=
  firstOf [
    markupStringBetween '"', markupStringBetween '\'', embedded self, self .element]

/-- Takes an attribute, or attributes spread out. -/
def elementAttribute (self : Self) : Reader Node :=
  orElse (embedded self) fun _ =>
    node "jsx_attribute"
      (joined [
        one (spacedName "property_identifier"),
        optional (joined [follow (mark "="), follow (one (attributeValue self))])])

/-- Takes text between tags; blanks over several lines are none. -/
def markupText : Reader Node := do
  let text ← leaf "jsx_text" true Lexeme.markupText
  let isText := Lexeme.isMarkupText text.text.toList
  onlyIf fun _ => isText
  return text

def content (self : Self) : Reader (List Node) :=
  firstOf [
    one markupText,
    joined [blanks, one (firstOf [
      leaf "html_character_reference" true Lexeme.characterReference,
      embedded self,
      self .element])]]

def element (self : Self) : Reader Node := do
  let opening ← joined [mark "<", gap]
  let name ← optional (inField "name" elementName)
  let attributes ←
    if name.isEmpty then give []
    else many (follow (inField "attribute" (elementAttribute self)))
  let behind ← gap
  let head := opening ++ name ++ attributes ++ behind
  orElse
    (andThen (if name.isEmpty then miss else mark "/>") fun ending =>
      give (branch "jsx_self_closing_element" (head ++ ending)))
    fun _ => do
      let edge ← mark ">"
      let inside ← many (content self)
      let _ ← blanks
      let closing ← node "jsx_closing_element" (joined [
        mark "</",
        optional (follow (inField "name" elementName)),
        follow (mark ">")])
      return branch "jsx_element"
        ((branch "jsx_opening_element" (head ++ edge)).inField "open_tag"
          :: inside ++ [closing.inField "close_tag"])

end ModuleFence.Script.Reader
