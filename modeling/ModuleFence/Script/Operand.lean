import ModuleFence.Script.Class
import ModuleFence.Script.Markup
import ModuleFence.Script.Operation

set_option autoImplicit false

namespace ModuleFence.Script

def valueWords : List String :=
  ["this", "super", "null", "true", "false", "undefined"]

/-- The words in front of an operand. -/
def operatorWords : List String :=
  ["typeof", "void", "delete"]

/-- The operators in front of an operand. -/
def signs : List String :=
  ["!", "~", "+", "-"]

/-- The operators that assign the result of an operation. -/
def augmentedOperators : List String :=
  ["+=", "-=", "*=", "/=", "%=", "**=", "<<=", ">>=", ">>>=", "&=", "^=", "|=", "&&=", "||=",
    "??="]

/-- The kinds that may stand on the left of an operation that assigns. -/
def augmentedTargetKinds : List String :=
  ["identifier", "undefined", "member_expression", "subscript_expression",
    "parenthesized_expression"]

/-- Whether a node is a comma between items. -/
def isComma (node : Node) : Bool :=
  node.kind = ","

/-- Whether a node is a comment in either style. -/
def isRemark (node : Node) : Bool :=
  node.kind = "comment" || node.kind = "html_comment"

/-- What stands between parentheses as expressions: at least one, none spread out, and commas only
between them. -/
def asExpressions? (inside : List Node) : Option (List Node) :=
  let remarks := inside.takeWhile isRemark
  let content := inside.dropWhile isRemark
  let items := content.filter fun node => !isRemark node && !isComma node
  let commas := content.filter isComma
  if items.length ≠ commas.length + 1 then none
  else if items.any fun node => node.kind = "spread_element" then none
  else if commas.isEmpty then some inside
  else some (remarks ++ [branch "sequence_expression" content])

/-- The word that a name turns out to be. -/
def asWord : Node → Node
  | .mk label children => .mk { label with kind := label.text, isNamed := false } children

namespace Reader

/-- Takes an operand that more may follow. -/
def opened (reader : Reader Node) : Reader Operand :=
  andThen reader fun node => give ⟨node, true⟩

/-- Takes what stands between parentheses: an expression, or the parameters of an arrow function. -/
def group (self : Self) (lineEnds : Bool) : Reader Operand := do
  let opening ← mark "("
  let inside ← optional (follow (listOf (one (item self))))
  let closing ← follow (mark ")")
  let arrow ← optional (arrowMark lineEnds)
  if arrow.isEmpty then
    let content ← ofOption (asExpressions? inside)
    return ⟨branch "parenthesized_expression" (opening ++ content ++ closing), true⟩
  else
    let parameters ← ofOption (branch "arguments" (opening ++ inside ++ closing)).asParameters?
    arrowRest self lineEnds (parameters.inField "parameters" :: arrow)

/-- Takes a name, or the arrow function whose only parameter it is. -/
def nameOrArrow (self : Self) (lineEnds : Bool) : Reader Operand := do
  let name ← nameIf "identifier" isValueName
  let arrow ← optional (arrowMark lineEnds)
  if arrow.isEmpty then return ⟨name, true⟩
  else arrowRest self lineEnds (name.inField "parameter" :: arrow)

/-- Takes an arrow function behind a word, with a single parameter. -/
def markedArrow (self : Self) (lineEnds : Bool) : Reader Operand := do
  let opening ← joined [
    word "async", continuation lineEnds, inField "parameter" binding, arrowMark lineEnds]
  arrowRest self lineEnds opening

/-- Takes a property of the running program. -/
def metaProperty (first second : String) : Reader Node :=
  node "meta_property" (inSequence [word first, mark ".", word second])

/-- Takes an import as a value, which must be called or looked into. -/
def importValue : Reader Node :=
  andThen (nameIf "import" (· = "import")) fun value =>
    andThen
      (onlyIf fun place =>
        let next := (place.rest.dropWhile isBlank).head?
        next = some '(' || next = some '.')
      fun _ => give value

/-- Takes a private name whose presence is asked for. -/
def askedName : Reader Node :=
  andThen (leaf "private_property_identifier" true Lexeme.privateName) fun name =>
    andThen (onlyIf fun place => nameAhead (place.rest.dropWhile isBlank) = "in") fun _ =>
      give name

def primaryMark (self : Self) (lineEnds : Bool) (first : Char) : Reader Operand :=
  match first with
  | '(' => group self lineEnds
  | '[' => opened (array self)
  | '\u007b' => opened (object self)
  | '"' | '\'' => opened (stringBetween first)
  | '\u0060' => opened (template self)
  | '/' => opened regex
  | '<' => opened (self .element)
  | '@' => opened (classValue self)
  | '#' => opened askedName
  | _ => opened number

def primaryWord (self : Self) (lineEnds : Bool) (name : String) : Reader Operand :=
  if valueWords.contains name then opened (nameIf name (· = name))
  else
    match name with
    | "function" => opened (functionValue self lineEnds)
    | "class" => opened (classValue self)
    | "new" => opened (firstOf [metaProperty "new" "target", self (.construction lineEnds)])
    | "import" => opened (firstOf [metaProperty "import" "meta", importValue])
    | "async" =>
      firstOf [
        opened (functionValue self lineEnds), markedArrow self lineEnds, nameOrArrow self lineEnds]
    | _ => nameOrArrow self lineEnds

def primary (self : Self) (lineEnds : Bool) : Reader Operand := do
  let characters ← rest
  match nameAhead characters with
  | "" => primaryMark self lineEnds (characters.head?.getD ' ')
  | name => primaryWord self lineEnds name

/-- Takes the mark of a step that is skipped when there is nothing to step from. -/
def optionalMark : Reader (List Node) := do
  let characters ← rest
  require (Lexeme.operator? characters = some "?.")
  inField "optional_chain" (leaf "optional_chain" true (Lexeme.exact "?."))

def propertyBehindPoint : Reader (List Node) :=
  inField "property" (firstOf [
    leaf "property_identifier" true Lexeme.name,
    leaf "private_property_identifier" true Lexeme.privateName])

def index (self : Self) : Reader (List Node) :=
  inSequence [mark "[", inField "index" (expressions self false), mark "]"]

/-- Takes a step from an operand to a part of it, or a call that binds as strongly. -/
def step (self : Self) (before : List Node) (target : Node) : Reader Operand :=
  let fromWhole (kind : String) (reader : Reader (List Node)) : Reader Operand :=
    opened (node kind (joined [give (target.inField "object" :: before), reader]))
  let called (reader : Reader (List Node)) : Reader Operand :=
    opened (node "call_expression" (joined [give (target.inField "function" :: before), reader]))
  firstOf [
    fromWhole "member_expression" (joined [operator ".", follow propertyBehindPoint]),
    fromWhole "member_expression" (joined [optionalMark, follow propertyBehindPoint]),
    fromWhole "subscript_expression" (index self),
    fromWhole "subscript_expression" (joined [optionalMark, follow (index self)]),
    called (joined [optionalMark, follow (inField "arguments" (arguments self))]),
    called (inField "arguments" (template self))]

/-- Takes the arguments of a call, which may turn out to be the parameters of an arrow function. -/
def call (self : Self) (lineEnds : Bool) (before : List Node) (target : Node) : Reader Operand := do
  let found ← arguments self
  let plain :=
    branch "call_expression"
      (target.inField "function" :: before ++ [found.inField "arguments"])
  let arrow ←
    if target.kind = "identifier" && target.text = "async" then optional (arrowMark lineEnds)
    else give []
  if arrow.isEmpty then return ⟨plain, true⟩
  else
    let parameters ← ofOption found.asParameters?
    arrowRest self lineEnds
      (asWord target :: before ++ parameters.inField "parameters" :: arrow)

def update (before : List Node) (target : Node) : Reader Operand :=
  opened (node "update_expression"
    (joined [
      give (target.inField "argument" :: before),
      inField "operator" (firstOf [leafOf "++", leafOf "--"])]))
where
  leafOf (spelling : String) : Reader Node :=
    leaf spelling false (Lexeme.exact spelling)

/-- Takes all that belongs to an operand and stands behind it. -/
def tail (self : Self) (lineEnds withCalls : Bool) : (fuel : Nat) → Node → Reader Operand
  | 0, target => give ⟨target, true⟩
  | fuel + 1, target =>
    orElse
      (do
        let before ← continuation lineEnds
        let next ←
          if withCalls then
            firstOf [
              step self before target, call self lineEnds before target, update before target]
          else step self before target
        if next.isOpen then tail self lineEnds withCalls fuel next.node else give next)
      fun _ => give ⟨target, true⟩

/-- Takes a primary expression and what belongs to it. -/
def chain (self : Self) (lineEnds withCalls : Bool) : Reader Operand := do
  let first ← primary self lineEnds
  if first.isOpen then tail self lineEnds withCalls (← left) first.node else give first

def construction (self : Self) (lineEnds : Bool) : Reader Node := do
  let opening ← joined [word "new", gap]
  let maker ← chain self lineEnds false
  let found ← optional (joined [continuation lineEnds, inField "arguments" (arguments self)])
  return branch "new_expression" (opening ++ maker.node.inField "constructor" :: found)

/-- Takes the value behind an operand that it is assigned to, if there is one. -/
def assignment (self : Self) (lineEnds : Bool) (target : Node) : Reader Node :=
  orElse
    (do
      let before ← continuation lineEnds
      let spelling ← ofOption (Lexeme.operator? (← rest))
      let value := follow (inField "right" (self (.expression lineEnds)))
      if spelling = "=" then
        let left ← ofOption target.asTarget?
        node "assignment_expression"
          (joined [give (left.inField "left" :: before), mark "=", value])
      else if augmentedOperators.contains spelling && augmentedTargetKinds.contains target.kind then
        node "augmented_assignment_expression"
          (joined [
            give (target.inField "left" :: before),
            inField "operator" (leaf spelling false (Lexeme.exact spelling)),
            value])
      else miss)
    fun _ => give target

/-- Takes an operand without anything in front of it. -/
def plainOperand (self : Self) (lineEnds : Bool) : Reader Node := do
  let whole ← chain self lineEnds true
  if whole.isOpen then assignment self lineEnds whole.node else give whole.node

def prefixed (self : Self) (lineEnds : Bool) (kind spelling : String) : Reader Node :=
  node kind
    (inSequence [
      inField "operator" (leaf spelling false (Lexeme.exact spelling)),
      inField "argument" (self (.operand lineEnds))])

/-- Takes an operand that is waited for. -/
def awaited (self : Self) (lineEnds : Bool) : Reader Node :=
  node "await_expression"
    (joined [word "await", continuation lineEnds, one (self (.operand lineEnds))])

/-- Takes a value that a generator gives away. -/
def yielded (self : Self) (lineEnds : Bool) : Reader Node :=
  let value := one (self (.expression lineEnds))
  node "yield_expression"
    (joined [
      word "yield",
      optional (joined [
        continuation lineEnds,
        firstOf [joined [mark "*", follow value], value]])])

def operand (self : Self) (lineEnds : Bool) : Reader Node := do
  let characters ← rest
  match nameAhead characters with
  | "" =>
    match Lexeme.operator? characters with
    | none => plainOperand self lineEnds
    | some spelling =>
      if spelling = "++" || spelling = "--" then prefixed self lineEnds "update_expression" spelling
      else if signs.contains spelling then prefixed self lineEnds "unary_expression" spelling
      else plainOperand self lineEnds
  | "await" => firstOf [awaited self lineEnds, plainOperand self lineEnds]
  | "yield" => yielded self lineEnds
  | name =>
    if operatorWords.contains name then prefixed self lineEnds "unary_expression" name
    else plainOperand self lineEnds

def expression (self : Self) (lineEnds : Bool) : Reader Node := do
  let condition ← operations lineEnds (operand self lineEnds)
  orElse
    (node "ternary_expression"
      (joined [
        give [condition.inField "condition"],
        continuation lineEnds,
        operator "?",
        follow (inField "consequence" (self (.expression false))),
        followOperand (mark ":"),
        follow (inField "alternative" (self (.expression lineEnds)))]))
    fun _ => give condition

end Reader

end ModuleFence.Script
