import ModuleFence.Script.Goal

set_option autoImplicit false

namespace ModuleFence.Script

def reservedWords : List String :=
  ["break", "case", "catch", "class", "const", "continue", "debugger", "default", "delete", "do",
    "else", "export", "extends", "false", "finally", "for", "function", "if", "import", "in",
    "instanceof", "new", "null", "return", "super", "switch", "this", "throw", "true", "try",
    "typeof", "var", "void", "while", "with"]

/-- Whether a word may be the name of something. -/
def isBindingName (name : String) : Bool :=
  name ≠ "" && !reservedWords.contains name

/-- Whether a word may stand for a value; an export is told apart by what follows. -/
def isValueName (name : String) : Bool :=
  isBindingName name || name = "export"

namespace Reader

def nameIf (kind : String) (test : String → Bool) : Reader Node :=
  andThen rest fun characters =>
    if test (nameAhead characters) then leaf kind true Lexeme.name else miss

def binding : Reader Node :=
  nameIf "identifier" isBindingName

/-- Takes a string between two marks. -/
def stringBetween (quote : Char) : Reader Node :=
  let edge := mark (String.singleton quote)
  node "string" (joined [
    edge,
    many (firstOf [
      lexeme "string_fragment" (Lexeme.stringPiece quote),
      lexeme "escape_sequence" Lexeme.escape]),
    edge])

def string : Reader Node :=
  firstOf [stringBetween '"', stringBetween '\'']

def template (self : Self) : Reader Node :=
  let edge := mark "\u0060"
  node "template_string" (joined [
    edge,
    many (firstOf [
      lexeme "string_fragment" Lexeme.templatePiece,
      lexeme "escape_sequence" Lexeme.escape,
      one (node "template_substitution"
        (inSequence [mark "$\x7b", one (expressions self false), mark "\x7d"]))]),
    edge])

def number : Reader Node :=
  leaf "number" true Lexeme.number

def regex : Reader Node :=
  node "regex" (joined [
    mark "/",
    inField "pattern" (leaf "regex_pattern" true fun characters =>
      Lexeme.regexPattern characters.length characters),
    mark "/",
    optional (inField "flags" (leaf "regex_flags" true Lexeme.regexFlags))])

end Reader

end ModuleFence.Script
