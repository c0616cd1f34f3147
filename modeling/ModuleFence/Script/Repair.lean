import ModuleFence.Script.Repair.Cost

/-!
The places of damage. A source that does not read as a whole is repaired in the cheapest way: some of
it is taken out, or a token is put in. Its damage is where the repair is.
-/

set_option autoImplicit false

namespace ModuleFence.Script

namespace Repair

/-- A way to repair a source: the characters in front of the damage, the cost, and the source that
comes of it. -/
structure Candidate where
  place : Nat
  cost : Nat
  repaired : List Char

def without (source : List Char) (start stop : Nat) : List Char :=
  source.take start ++ seam :: source.drop stop

/-- A source without the characters of a range, in front of which a statement ended. -/
def withoutBehindEnd (source : List Char) (start stop : Nat) : List Char :=
  source.take start ++ ';' :: seam :: source.drop stop

/-- The ways to write a source without the characters of a range. -/
def cuts (source : List Char) (start stop : Nat) : List (List Char) :=
  let plain := without source start stop
  if LineEnd.isHere false ((Cursor.start source).advance start) then
    [withoutBehindEnd source start stop, plain]
  else [plain]

def slice (source : List Char) (start stop : Nat) : List Char :=
  (source.drop start).take (stop - start)

/-- The number of characters from the damage of a source on; none when it reads as a whole. -/
def unread (source : List Char) : Nat :=
  match readWhole source with
  | .ok _ => 0
  | .error place => source.length + 1 - charactersBefore place.byte source

def lastStop (tokens : List Piece) : Nat :=
  (tokens.getLast?.map Piece.stop).getD 0

/-- The most tokens in front of the damage that a repair takes out. -/
def maxTokensBefore : Nat := 16

/-- The most tokens behind the damage that a repair takes out. -/
def maxTokensBehind : Nat := 8

/-- The tokens that may be missing where an operand or a bracket should end. -/
def missingTokens : List String :=
  ["null", ")", "]", "\x7d", ";", "\"", "'"]

/-- A source with a token at a place, in front of what follows the damage. -/
def inserted (source : List Char) (place damage : Nat) (spelling : String) : List Char :=
  source.take place ++ spelling.toList ++ seam :: source.drop damage

/-- The ways to put in a token in front of the damage. -/
def insertions (source : List Char) (damage : Nat) (before : List Piece) : List Candidate :=
  let place := lastStop before
  missingTokens.map fun spelling =>
    ⟨place, insertionCost, inserted source place damage spelling⟩

/-- The ways to take out some tokens in front of the damage alone. -/
def retreats (source : List Char) (damage : Nat) (kept dropped : List Piece) : List Candidate :=
  match dropped with
  | [] => []
  | first :: _ =>
    let cost := skipCost (slice source first.start (lastStop dropped))
      (trees (slice source first.start damage))
    (cuts source (lastStop kept) damage).map (⟨first.start, cost, ·⟩)

/-- Whether a source reads on behind the damage when some tokens in front of it are taken out. -/
def readsOn (source : List Char) (damage : Nat) (kept dropped : List Piece) : Bool :=
  !dropped.isEmpty && (cuts source (lastStop kept) damage).any fun repaired =>
    unread repaired < source.length + 1 - damage

def partsOf (tokens : List Piece) : Nat :=
  tokens.foldl (fun count piece => count + piece.parts) 0

/-- The ways to take out some tokens in front of the damage and some behind it. The latter are read as
usual when the former are in their way. -/
def advances (source : List Char) (damage : Nat) (kept dropped behind : List Piece) :
    List Candidate :=
  let start := (dropped.head?.map Piece.start).getD damage
  let popped := trees (slice source start damage)
  let isRead := readsOn source damage kept dropped
  (List.range (min maxTokensBehind behind.length)).flatMap fun index =>
    let skipped := behind.take (index + 1)
    let stop := lastStop skipped
    let count := if isRead then trees (slice source damage stop) else partsOf skipped
    let cost := skipCost (slice source start stop) (popped + count)
    (cuts source (lastStop kept) stop).map (⟨start, cost, ·⟩)

/-- Whether a token begins what may follow an operand that is a value by then. -/
def followsValue (characters : List Char) : Bool :=
  characters.head? = some '(' || (Reader.binaryOperator? characters).isSome

/-- The tokens behind which a value begins that nothing else follows. -/
def valueOpenings : List String :=
  [";", "\x7d", "\x7b", "(", "[", "return", "throw"]

/-- The number of characters of an operand with what belongs to it. -/
def operandLength (characters : List Char) : Nat :=
  let reader := Reader.chain (readers (maxDepth characters)) false true
  match (reader (Cursor.start characters) Point.origin).found with
  | none => 0
  | some (_, behind) => characters.length - behind.rest.length

/-- Whether a value may begin behind some tokens, and nothing else may follow it. -/
def opensValue (source : List Char) (tokens : List Piece) : Bool :=
  match tokens.getLast? with
  | none => true
  | some last => valueOpenings.contains (String.ofList (slice source last.start last.stop))

/-- Whether some tokens end in an operand that begins a statement or stands behind an opening. -/
def endsInValue (source : List Char) (kept : List Piece) : Bool :=
  let stop := lastStop kept
  (List.range (min maxTokensBefore kept.length)).any fun count =>
    let index := kept.length - (count + 1)
    let start := ((kept.drop index).head?.map Piece.start).getD 0
    opensValue source (kept.take index)
      && operandLength (slice source start stop) = stop - start

/-- Whether a missing token completes what follows a value; then it is not taken out. -/
def isCompleted (source : List Char) (damage : Nat) (before kept dropped : List Piece) : Bool :=
  match dropped with
  | [] => false
  | first :: _ =>
    followsValue (source.drop first.start) && endsInValue source kept
      && (insertions source damage before).any fun candidate => unread candidate.repaired = 0

/-- The ways to take out tokens around the damage. -/
def deletions (source : List Char) (damage : Nat) (before behind : List Piece) : List Candidate :=
  (List.range (min maxTokensBefore before.length + 1)).flatMap fun count =>
    let kept := before.take (before.length - count)
    let dropped := before.drop (before.length - count)
    let further := advances source damage kept dropped behind
    if isCompleted source damage before kept dropped then further
    else retreats source damage kept dropped ++ further

/-- The ways to close the blocks that are open at the end of a source. -/
def closings (source : List Char) (place : Nat) : List Candidate :=
  (List.range maxTokensBehind).map fun index =>
    let closing := (List.replicate (index + 1) ['\u007d', seam]).flatten
    ⟨place, (index + 1) * insertionCost, source.take place ++ closing⟩

/-- The way to take out a whole source. -/
def removal (source : List Char) : Candidate :=
  let start := gapLength source.length source
  ⟨start, skipCost (source.drop start) (trees source), []⟩

/-- The ways to repair a source. Damage at its end takes it out as a whole unless something can be
put in. -/
def candidates (source : List Char) (damage : Nat) : List Candidate :=
  let before := tokensFrom (damage + 1) 0 (source.take damage)
  let rest := source.drop damage
  if rest.isEmpty then
    removal source :: insertions source damage before ++ closings source (lastStop before)
  else
    insertions source damage before
      ++ deletions source damage before (tokensFrom (rest.length + 1) damage rest)

/-- Whether a candidate costs less than another one, or is as good and later. -/
def isCheaper (first second : Candidate) : Bool :=
  first.cost < second.cost || (first.cost = second.cost && second.place ≤ first.place)

/-- The candidate after which the least is unread, and the first of these. -/
def leastUnread : List Candidate → Option (Candidate × Nat)
  | [] => none
  | candidate :: rest =>
    let own := unread candidate.repaired
    if own = 0 then some (candidate, 0)
    else
      match leastUnread rest with
      | none => some (candidate, own)
      | some (other, least) => if least < own then some (other, least) else some (candidate, own)

end Repair

/-- The place of the damage of a source, given where it stops to read. -/
def damagePlace (source : List Char) (reach : Point) : Point :=
  let stop := Repair.charactersBefore reach.byte source
  let damage := stop + Repair.gapLength source.length (source.drop stop)
  let sorted := (Repair.candidates source damage).mergeSort Repair.isCheaper
  let place := ((Repair.leastUnread sorted).map fun best => best.1.place).getD damage
  ((Cursor.start source).advance place).point

end ModuleFence.Script
