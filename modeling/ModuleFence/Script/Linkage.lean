import ModuleFence.Script.Declaration
import ModuleFence.Script.Operand

set_option autoImplicit false

namespace ModuleFence.Script.Reader

/-- Takes the name of something exported: a name, a string, or the word for a default. -/
def linkName : Reader Node :=
  firstOf [
    binding,
    string,
    andThen rest fun characters =>
      if nameAhead characters = "default" then leaf "default" false Lexeme.name else miss]

/-- Takes a name and maybe another one that replaces it. -/
def specifier (kind : String) (name other : Reader Node) : Reader Node :=
  node kind
    (joined [
      inField "name" name,
      optional (follow (inSequence [word "as", inField "alias" other]))])

/-- Takes items between braces, with commas between them and maybe behind them. -/
def braced (kind : String) (item : Reader Node) : Reader Node := do
  let found ← node kind (bracketed "\x7b" "\x7d" (one item))
  let inside := (found.children.filter fun child => !isRemark child).drop 1
  require (areSeparated inside)
  return found
where
  /-- Whether no two commas stand side by side, and none at the front. -/
  areSeparated : List Node → Bool
    | [] => true
    | first :: others => !isComma first && followsWell others
  /-- Whether no comma follows another one. -/
  followsWell : List Node → Bool
    | first :: second :: others => !(isComma first && isComma second) && followsWell (second :: others)
    | _ => true

def fromClause : Reader (List Node) :=
  inSequence [word "from", inField "source" string]

def importedNames : Reader Node :=
  let renamed := node "import_specifier"
    (inSequence [inField "name" linkName, word "as", inField "alias" binding])
  let plain := node "import_specifier" (inField "name" binding)
  braced "named_imports" (firstOf [renamed, plain])

/-- Takes all that a module exports, under one name. -/
def importedSpace : Reader Node :=
  node "namespace_import" (inSequence [mark "*", word "as", one binding])

def importClause : Reader Node :=
  let several := firstOf [importedSpace, importedNames]
  node "import_clause" (firstOf [
    one several,
    joined [one binding, optional (follow (inSequence [mark ",", one several]))]])

def importAttribute (self : Self) : Reader Node :=
  node "import_attribute" (inSequence [word "with", one (object self)])

def importStatement (self : Self) : Reader Node :=
  node "import_statement"
    (joined [
      word "import",
      follow (firstOf [
        inField "source" string,
        inSequence [one importClause, fromClause]]),
      optional (follow (one (importAttribute self))),
      statementEnd true])

/-- Takes the rest of an export of names or of another module. -/
def exportedNames : Reader (List Node) :=
  let space := node "namespace_export" (inSequence [mark "*", word "as", one linkName])
  let clause := braced "export_clause" (specifier "export_specifier" linkName linkName)
  joined [
    firstOf [
      inSequence [one space, fromClause],
      inSequence [mark "*", fromClause],
      joined [one clause, optional (follow fromClause)]],
    statementEnd true]

def exportedDefault (self : Self) : Reader (List Node) :=
  inSequence [
    word "default",
    firstOf [
      inField "declaration" (declaration self),
      joined [inField "value" (self (.expression true)), statementEnd false]]]

def exportStatement (self : Self) : Reader Node :=
  node "export_statement"
    (joined [
      decorators self,
      word "export",
      follow (firstOf [
        exportedNames,
        exportedDefault self,
        inField "declaration" (declaration self)])])

end ModuleFence.Script.Reader
