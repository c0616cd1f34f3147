import ModuleFence.Expression.Lowering
import ModuleFence.Proofs.Success

set_option autoImplicit false

namespace ModuleFence

namespace Escape

/-- The numeral in what follows the backslash of an escape sequence. -/
def numeral? (body : List Char) : Option (List Char) :=
  if "u\x7b".toList <+: body ∧ body.getLast? = some '\x7d' then some ((body.drop 2).dropLast)
  else
    match body with
    | 'u' :: character :: rest => some (character :: rest)
    | 'x' :: character :: rest => some (character :: rest)
    | _ => none

/-- The number that an escape sequence names. -/
def number? (spelling : List Char) : Option Int :=
  (numeral? (spelling.drop 1)).bind Numeral.readHex?

/-- A number fits in a signed integer of 32 bits. -/
def Fits (number : Int) : Prop :=
  -0x80000000 ≤ number ∧ number < 0x80000000

theorem succeeds_byNumber_iff (spelling digits : List Char) :
    Succeeds (byNumber spelling digits) ↔
      ∀ number, Numeral.readHex? digits = some number → Fits number := by
  rw [byNumber]
  cases Numeral.readHex? digits with
  | none => simp only [succeeds_ok, reduceCtorEq, false_implies, implies_true]
  | some number =>
    simp only [Option.some.injEq, forall_eq', Fits]
    by_cases large : number < -0x80000000 ∨ 0x80000000 ≤ number
    · rw [if_pos large]
      refine iff_of_false (not_succeeds_error _) ?_
      omega
    · rw [if_neg large]
      refine iff_of_true ?_ (by omega)
      split
      · exact succeeds_ok _
      · split <;> exact succeeds_ok _

theorem decodeBody_of_numeral {body digits : List Char} (found : numeral? body = some digits)
    (spelling : List Char) : decodeBody spelling body = byNumber spelling digits := by
  unfold numeral? at found
  unfold decodeBody
  split at found
  · rename_i braced
    cases found
    rw [if_pos braced]
  · rename_i unbraced
    rw [if_neg unbraced]
    split at found
    · cases found
      rfl
    · cases found
      rfl
    · cases found

theorem succeeds_decodeBody_of_plain {body : List Char} (plain : numeral? body = none)
    (spelling : List Char) : Succeeds (decodeBody spelling body) := by
  unfold numeral? at plain
  by_cases braced : "u\x7b".toList <+: body ∧ body.getLast? = some '\x7d'
  · rw [if_pos braced] at plain
    cases plain
  · rw [if_neg braced] at plain
    rw [decodeBody.eq_def, if_neg braced]
    split
    · cases plain
    · cases plain
    · split
      · exact succeeds_ok _
      · split <;> exact succeeds_ok _

/-- Where escape sequences are read, only a number that is too large is an error. -/
theorem tooLarge_of_not_succeeds {α : Type} {result : Except EscapeError α}
    (fails : ¬ Succeeds result) : result = .error .numberTooLarge := by
  cases result with
  | ok value => exact absurd (succeeds_ok value) fails
  | error error =>
    cases error
    rfl

/-- An escape sequence has a value unless it names a number that is too large. -/
theorem succeeds_decode_iff (spelling : List Char) :
    Succeeds (decode spelling) ↔ ∀ number, number? spelling = some number → Fits number := by
  rw [decode, number?]
  cases found : numeral? (spelling.drop 1) with
  | none =>
    refine iff_of_true (succeeds_decodeBody_of_plain found spelling) ?_
    intro number impossible
    cases impossible
  | some digits =>
    rw [decodeBody_of_numeral found, succeeds_byNumber_iff]
    rfl

end Escape

namespace Node

/-- An escape sequence that names a number that is too large. -/
def Overflows (piece : Node) : Prop :=
  piece.kind = "escape_sequence" ∧
    ∃ number, Escape.number? piece.text.toList = some number ∧ ¬ Escape.Fits number

theorem succeeds_pieceValue_iff (piece : Node) : Succeeds piece.pieceValue ↔ ¬ piece.Overflows := by
  rw [pieceValue, Overflows]
  by_cases escapes : piece.kind = "escape_sequence"
  · rw [if_pos escapes, Escape.succeeds_decode_iff]
    push Not
    simp only [escapes, forall_const]
  · rw [if_neg escapes]
    exact iff_of_true (succeeds_ok _) fun both => escapes both.1

/-- A string literal has a value unless one of its pieces names a number that is too large. -/
theorem succeeds_stringValue_iff (literal : Node) :
    Succeeds literal.stringValue ↔ ∀ piece ∈ literal.namedChildren, ¬ piece.Overflows := by
  rw [stringValue, namedChildren]
  induction literal.children with
  | nil => simp only [piecesValue, succeeds_ok, List.filter_nil, List.not_mem_nil, false_implies,
      implies_true]
  | cons piece rest ih =>
    rw [piecesValue]
    by_cases named : piece.label.isNamed = true
    · have tail (value : Text) : Succeeds (do return value ++ (← piecesValue rest)) ↔
          ∀ other ∈ rest.filter (·.label.isNamed), ¬ other.Overflows := by
        rw [← ih]
        exact succeeds_map_iff (value ++ ·) (piecesValue rest)
      rw [if_pos named, succeeds_bind_iff _ _ _ tail, succeeds_pieceValue_iff,
        List.filter_cons_of_pos (by simpa using named), List.forall_mem_cons]
    · rw [if_neg named, ih, List.filter_cons_of_neg (by simpa using named)]

end Node

end ModuleFence
