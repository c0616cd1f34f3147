import ModuleFence.Script.LineEnd
import ModuleFence.Script.Reader

set_option autoImplicit false

namespace ModuleFence.Script

/-- The node with some children, which reaches from the first to the last of them. -/
def branch (kind : String) (children : List Node) : Node :=
  .mk
    { kind
      start := (children.head?.map fun child => child.label.start).getD Point.origin
      stop := (children.getLast?.map fun child => child.label.stop).getD Point.origin }
    children

namespace Reader

/-- Takes some characters as a leaf; there must be any. -/
def leaf (kind : String) (isNamed : Bool) (length : List Char → Nat) : Reader Node :=
  fun cursor reach =>
    let count := length cursor.rest
    if count = 0 then miss cursor reach
    else
      let behind := cursor.advance count
      let label : Label :=
        { kind
          start := cursor.point
          stop := behind.point
          text := String.ofList (cursor.rest.take count)
          isNamed }
      ⟨some (.mk label [], behind), reach⟩

/-- Takes a lexeme that carries meaning. -/
def lexeme (kind : String) (length : List Char → Nat) : Reader (List Node) :=
  andThen (leaf kind true length) fun node => give [node]

def mark (spelling : String) : Reader (List Node) :=
  andThen (leaf spelling false (Lexeme.exact spelling)) fun node => give [node]

/-- Takes an operator that is not the beginning of a longer one. -/
def operator (spelling : String) : Reader (List Node) :=
  andThen rest fun characters =>
    if Lexeme.operator? characters = some spelling then mark spelling else miss

def nameAhead (characters : List Char) : String :=
  String.ofList (characters.take (Lexeme.name characters))

def word (spelling : String) : Reader (List Node) :=
  andThen rest fun characters =>
    if nameAhead characters = spelling then mark spelling else miss

def skipBlanks (cursor : Cursor) : Cursor :=
  cursor.advance (Lexeme.run isBlank cursor.rest)

def comment (withMarkup : Bool) : Reader (List Node) :=
  fun cursor reach =>
    let behind := skipBlanks cursor
    if 0 < Lexeme.comment behind.rest then lexeme "comment" Lexeme.comment behind reach
    else if withMarkup && decide (0 < Lexeme.markupComment behind.rest) then
      lexeme "html_comment" Lexeme.markupComment behind reach
    else ⟨none, reach⟩

def blanks : Reader (List Node) :=
  fun cursor reach => ⟨some ([], skipBlanks cursor), reach⟩

/-- Takes blanks and comments. -/
def gapWith (withMarkup : Bool) : Reader (List Node) :=
  andThen (many (comment withMarkup)) fun comments =>
    andThen blanks fun _ => give comments

/-- Takes blanks and comments where an operand may stand. -/
def gap : Reader (List Node) :=
  gapWith true

/-- Takes blanks and comments behind an operand, where the marks of comments in the style of markup
are operators. -/
def operandGap : Reader (List Node) :=
  gapWith false

/-- Takes blanks and comments behind an operand, as long as no statement ends there. -/
def continuationFrom : (fuel : Nat) → Reader (List Node)
  | 0 => miss
  | fuel + 1 =>
    andThen (onlyIf fun place => !LineEnd.isHere false place) fun _ =>
      andThen (optional (comment false)) fun first =>
        if first.isEmpty then blanks
        else andThen (continuationFrom fuel) fun others => give (first ++ others)

/-- Takes what stands behind an operand; `lineEnds` tells whether a statement may end there. -/
def continuation (lineEnds : Bool) : Reader (List Node) :=
  if lineEnds then fun cursor reach => continuationFrom (cursor.left + 1) cursor reach
  else operandGap

/-- Takes a gap and what stands behind it. -/
def follow (reader : Reader (List Node)) : Reader (List Node) :=
  andThen gap fun between => andThen reader fun found => give (between ++ found)

/-- Takes the gap behind an operand and what stands behind it. -/
def followOperand (reader : Reader (List Node)) : Reader (List Node) :=
  andThen operandGap fun between => andThen reader fun found => give (between ++ found)

/-- Takes parts with gaps between them. -/
def inSequence : List (Reader (List Node)) → Reader (List Node)
  | [] => give []
  | [reader] => reader
  | reader :: others =>
    andThen reader fun first => andThen (follow (inSequence others)) fun further =>
      give (first ++ further)

def joined : List (Reader (List Node)) → Reader (List Node)
  | [] => give []
  | reader :: others =>
    andThen reader fun first => andThen (joined others) fun further => give (first ++ further)

/-- Takes any number of items with gaps between them. -/
def series (item : Reader (List Node)) : Reader (List Node) :=
  optional (joined [item, many (follow item)])

def one (reader : Reader Node) : Reader (List Node) :=
  andThen reader fun node => give [node]

def inField (name : String) (reader : Reader Node) : Reader (List Node) :=
  andThen reader fun node => give [node.inField name]

def node (kind : String) (children : Reader (List Node)) : Reader Node :=
  andThen children fun found => give (branch kind found)

/-- Takes items with commas between them, and around them as well when `loose`. -/
def separatedFrom (item : Reader (List Node)) : (fuel : Nat) → Reader (List Node)
  | 0 => give []
  | fuel + 1 =>
    orElse
      (andThen (followOperand (mark ",")) fun comma =>
        andThen (optional (follow item)) fun next =>
          andThen (separatedFrom item fuel) fun others => give (comma ++ next ++ others))
      fun _ => give []

/-- Takes items between commas, any of which may be absent. -/
def listOf (item : Reader (List Node)) : Reader (List Node) :=
  andThen (optional item) fun first =>
    andThen (fun cursor reach => separatedFrom item cursor.left cursor reach) fun others =>
      give (first ++ others)

def bracketed (opening closing : String) (item : Reader (List Node)) : Reader (List Node) :=
  andThen (mark opening) fun left =>
    andThen (optional (follow (listOf item))) fun inside =>
      andThen (follow (mark closing)) fun right => give (left ++ inside ++ right)

def commaSeparated (lineEnds : Bool) (item : Reader (List Node)) : Reader (List Node) :=
  andThen item fun first =>
    andThen
      (many (andThen (continuation lineEnds) fun before =>
        andThen (mark ",") fun comma =>
          andThen (follow item) fun next => give (before ++ comma ++ next)))
      fun others => give (first ++ others)

/-- Takes the comments in front of the next place where a statement ends at the end of a line, if no
other token comes first. -/
def lineEndFrom (eager : Bool) : (fuel : Nat) → Reader (List Node)
  | 0 => miss
  | fuel + 1 =>
    orElse (andThen (onlyIf (LineEnd.isHere eager)) fun _ => give []) fun _ =>
      joined [comment false, lineEndFrom eager fuel]

/-- Takes the end of a statement without a semicolon; an eager one could not go on with an
operator. -/
def lineEnd (eager : Bool) : Reader (List Node) :=
  fun cursor reach => lineEndFrom eager (cursor.left + 1) cursor reach

/-- Takes the end of a statement: a semicolon, or nothing where none is needed. Comments in front of
either belong to the statement. -/
def statementEnd (eager : Bool) : Reader (List Node) :=
  firstOf [lineEnd eager, joined [many (comment false), blanks, mark ";"]]

end Reader

end ModuleFence.Script
