import ModuleFence.Script.Linkage

set_option autoImplicit false

namespace ModuleFence.Script.Reader

def expressionStatement (self : Self) : Reader Node :=
  node "expression_statement" (joined [one (expressions self true), statementEnd false])

def condition (self : Self) (field : String) : Reader (List Node) :=
  inField field (parenthesized self)

/-- Takes a statement that belongs to another one. -/
def body (self : Self) (field : String) : Reader (List Node) :=
  inField field (self .statement)

def ifStatement (self : Self) : Reader Node :=
  node "if_statement"
    (joined [
      inSequence [word "if", condition self "condition", body self "consequence"],
      optional (follow (inField "alternative"
        (node "else_clause" (inSequence [word "else", one (self .statement)]))))])

def switchCase (self : Self) : Reader Node :=
  let statements := optional (follow (series (body self "body")))
  orElse
    (node "switch_case"
      (joined [
        inSequence [word "case", inField "value" (expressions self false), mark ":"],
        statements]))
    fun _ =>
      node "switch_default" (joined [inSequence [word "default", mark ":"], statements])

def switchStatement (self : Self) : Reader Node :=
  node "switch_statement"
    (inSequence [
      word "switch",
      condition self "value",
      inField "body" (node "switch_body"
        (inSequence [mark "\x7b", series (one (switchCase self)), mark "\x7d"]))])

/-- Takes what a loop binds to each element. -/
def loopTarget (self : Self) : Reader (List Node) :=
  firstOf [
    joined [
      inSequence [inField "kind" (wordNode "var"), inField "left" (declared self)],
      optional (follow (joined [operator "=", follow (inField "value" (self (.expression false)))]))],
    inSequence [
      inField "kind" (firstOf [wordNode "let", wordNode "const", wordNode "using"]),
      inField "left" (declared self)],
    inSequence [
      word "await", inField "kind" (wordNode "using"), inField "left" (declared self)],
    inField "left" (andThen (self (.operand false)) fun found => ofOption found.asTarget?)]
where
  /-- Takes a word as a mark. -/
  wordNode (spelling : String) : Reader Node :=
    andThen rest fun characters =>
      if nameAhead characters = spelling then leaf spelling false (Lexeme.exact spelling) else miss

/-- Takes the word between what a loop binds and what it runs over. -/
def loopOperator : Reader Node :=
  andThen rest fun characters =>
    let name := nameAhead characters
    if name = "in" || name = "of" then leaf name false (Lexeme.exact name) else miss

def forInStatement (self : Self) : Reader Node :=
  node "for_in_statement"
    (joined [
      word "for",
      optional (follow (word "await")),
      follow (inSequence [
        mark "(",
        loopTarget self,
        inField "operator" loopOperator,
        inField "right" (expressions self false),
        mark ")",
        body self "body"])])

def emptyStatement : Reader Node :=
  node "empty_statement" (mark ";")

/-- Takes an expression and the semicolon behind it, or the latter alone. -/
def forPart (self : Self) (field : String) : Reader (List Node) :=
  firstOf [
    inField field emptyStatement,
    joined [inField field (expressions self false), followOperand (mark ";")]]

/-- Takes a loop with a condition and a step. -/
def forStatement (self : Self) : Reader Node :=
  node "for_statement"
    (joined [
      inSequence [
        word "for",
        mark "(",
        firstOf [
          inField "initializer" (variableDeclaration self),
          forPart self "initializer"],
        forPart self "condition"],
      optional (follow (inField "increment" (expressions self false))),
      follow (inSequence [mark ")", body self "body"])])

def whileStatement (self : Self) : Reader Node :=
  node "while_statement"
    (inSequence [word "while", condition self "condition", body self "body"])

def doStatement (self : Self) : Reader Node :=
  node "do_statement"
    (joined [
      inSequence [word "do", body self "body", word "while", condition self "condition"],
      optional (statementEnd true)])

def catchClause (self : Self) : Reader Node :=
  let parameter := inSequence [mark "(", inField "parameter" (declared self), mark ")"]
  node "catch_clause"
    (joined [
      word "catch",
      optional (follow parameter),
      follow (inField "body" (block self))])

def tryStatement (self : Self) : Reader Node :=
  node "try_statement"
    (joined [
      inSequence [word "try", inField "body" (block self)],
      optional (follow (inField "handler" (catchClause self))),
      optional (follow (inField "finalizer"
        (node "finally_clause" (inSequence [word "finally", inField "body" (block self)]))))])

def withStatement (self : Self) : Reader Node :=
  node "with_statement"
    (inSequence [word "with", condition self "object", body self "body"])

/-- Takes a jump, maybe to a label. -/
def jump (kind spelling : String) : Reader Node :=
  let label := follow (inField "label" (nameIf "statement_identifier" isBindingName))
  node kind
    (joined [
      word spelling,
      firstOf [statementEnd true, joined [label, statementEnd true]]])

def debuggerStatement : Reader Node :=
  node "debugger_statement" (joined [word "debugger", statementEnd true])

def returnStatement (self : Self) : Reader Node :=
  node "return_statement"
    (joined [
      word "return",
      firstOf [
        statementEnd true,
        joined [follow (one (expressions self true)), statementEnd false]]])

def throwStatement (self : Self) : Reader Node :=
  node "throw_statement"
    (joined [word "throw", follow (one (expressions self true)), statementEnd false])

def labeledStatement (self : Self) : Reader Node :=
  node "labeled_statement"
    (inSequence [
      inField "label" (nameIf "statement_identifier" isValueName),
      mark ":",
      body self "body"])

/-- Takes a statement that begins with a brace: a block, or an expression whose first operand is an
object. -/
def bracedStatement (self : Self) : Reader Node := do
  let characters ← rest
  if opensWithLabel characters then firstOf [expressionStatement self, block self]
  else firstOf [block self, expressionStatement self]

/-- Takes a statement that no word of its own introduces. -/
def plainStatement (self : Self) : Reader Node :=
  firstOf [
    variableDeclaration self, namedDeclaration self, labeledStatement self,
    expressionStatement self]

def statementMark (self : Self) (first : Char) : Reader Node :=
  match first with
  | ';' => emptyStatement
  | '\u007b' => bracedStatement self
  | '@' => firstOf [exportStatement self, namedDeclaration self, expressionStatement self]
  | _ => expressionStatement self

def statementWord (self : Self) (name : String) : Reader Node :=
  match name with
  | "if" => ifStatement self
  | "switch" => switchStatement self
  | "for" => firstOf [forInStatement self, forStatement self]
  | "while" => whileStatement self
  | "do" => doStatement self
  | "try" => tryStatement self
  | "with" => withStatement self
  | "break" => jump "break_statement" "break"
  | "continue" => jump "continue_statement" "continue"
  | "debugger" => debuggerStatement
  | "return" => returnStatement self
  | "throw" => throwStatement self
  | "import" => firstOf [importStatement self, expressionStatement self]
  | "export" => firstOf [exportStatement self, labeledStatement self, expressionStatement self]
  | _ => plainStatement self

def statement (self : Self) : Reader Node := do
  let characters ← rest
  match nameAhead characters with
  | "" => statementMark self (characters.head?.getD ' ')
  | name => statementWord self name

end ModuleFence.Script.Reader
