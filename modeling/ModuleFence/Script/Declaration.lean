import ModuleFence.Script.Class

set_option autoImplicit false

namespace ModuleFence.Script

/-- Whether what follows a word that may introduce a declaration is something declared. -/
def declaresBehind (length : Nat) (place : Cursor) : Bool :=
  let behind := place.advance length
  let next := behind.rest.dropWhile isBlank
  !LineEnd.isHere false behind
    && (isBindingName (nameAheadOf next) || next.head? = some '[' || next.head? = some '\u007b')
where
  /-- The name at the front. -/
  nameAheadOf (characters : List Char) : String :=
    String.ofList (characters.take (Lexeme.name characters))

namespace Reader

/-- Takes the value that a variable begins with. -/
def initializer (self : Self) : Reader (List Node) :=
  joined [continuation true, operator "=", follow (inField "value" (self (.expression true)))]

/-- Takes a variable that is declared, maybe with a value. -/
def declarator (self : Self) : Reader Node :=
  node "variable_declarator"
    (joined [inField "name" (declared self), optional (initializer self)])

def endsWithoutValue (nodes : List Node) : Bool :=
  (nodes.getLast?.map fun last => (last.child? "value").isNone).getD false

def variableList (self : Self) (kind : String) (opening : Reader (List Node)) : Reader Node :=
  node kind do
    let words ← opening
    let found ← follow (commaSeparated true (one (declarator self)))
    let ending ← statementEnd (endsWithoutValue found)
    return words ++ found ++ ending

/-- Takes the word of a declaration that is none when nothing declared follows. -/
def softWord (spelling : String) : Reader (List Node) :=
  andThen (onlyIf (declaresBehind spelling.length)) fun _ => inField "kind" (leafOf spelling)
where
  /-- Takes a word as a mark. -/
  leafOf (spelling : String) : Reader Node :=
    andThen rest fun characters =>
      if nameAhead characters = spelling then leaf spelling false (Lexeme.exact spelling) else miss

/-- Takes the words that introduce variables that are disposed of. -/
def usingWords : Reader (List Node) :=
  firstOf [
    softWord "using",
    joined [word "await", follow (softWord "using")]]

def variableDeclaration (self : Self) : Reader Node := do
  let characters ← rest
  match nameAhead characters with
  | "var" => variableList self "variable_declaration" (word "var")
  | "const" => variableList self "lexical_declaration" (word "const")
  | "let" => variableList self "lexical_declaration" (softWord "let")
  | "using" | "await" => variableList self "using_declaration" usingWords
  | _ => miss

/-- The operators that a statement may begin with. -/
def statementOpenings : List String :=
  ["+", "-", "++", "--", "!", "~", "/", "/=", "<", "..."]

/-- Whether an operator follows that no statement begins with. -/
def goesOn (characters : List Char) : Bool :=
  match Lexeme.operator? (characters.dropWhile isBlank) with
  | none => false
  | some spelling =>
    !(statementOpenings.contains spelling)

/-- Takes a declaration of a function or a class, unless an operator makes it a value. -/
def namedDeclaration (self : Self) : Reader Node :=
  andThen (firstOf [functionDeclaration self, classDeclaration self]) fun found =>
    andThen (onlyIf fun place => !goesOn place.rest) fun _ => give found

def declaration (self : Self) : Reader Node :=
  firstOf [variableDeclaration self, namedDeclaration self]

end Reader

end ModuleFence.Script
