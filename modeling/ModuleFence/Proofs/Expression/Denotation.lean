import ModuleFence.Proofs.Expression.Spelling
import ModuleFence.Proofs.Text.CodeUnits

/-!
What the escape sequences of the language denote. Decoding agrees with it for all of them but those
by octal digits, of which only the zero alone is known: the others are read as the digits that spell
them. A value that is read so is never the one that is denoted, in code units as little as in code
points.
-/

set_option autoImplicit false

namespace ModuleFence

namespace Escape

open Numeral (hexCharacters hexNumber digitNumber)

/-- What the escapes by a letter denote. -/
def namedCharacters : List (Char × Char) :=
  [('n', '\n'), ('t', '\t'), ('r', '\r'), ('b', '\x08'), ('f', '\x0c'), ('v', '\x0b')]

/-- The letters that do not stand for themselves behind a backslash. -/
def letters : List Char :=
  "ntrbfvxu".toList

/-- The number that octal digits denote, the greatest place first. -/
def octalNumber (run : List Char) : Nat :=
  run.foldl (fun number digit => number * 8 + digitNumber digit) 0

/-- What follows the backslash of an escape sequence denotes a text. -/
inductive Denotes : List Char → Text → Prop where
  | named {letter character : Char} (listed : (letter, character) ∈ namedCharacters) :
      Denotes [letter] [CodePoint.ofChar character]
  | itself {character : Char} (noDigit : character ∉ octalDigits) (noLetter : character ∉ letters)
      (inLine : [character] ∉ lineEnds) : Denotes [character] [CodePoint.ofChar character]
  | octal {run : List Char} {point : CodePoint} (someDigits : run ≠ []) (few : run.length ≤ 3)
      (octal : ∀ digit ∈ run, digit ∈ octalDigits) (number : point.value = octalNumber run)
      (small : octalNumber run ≤ 0o377) : Denotes run [point]
  | split {first second third : Char} {point : CodePoint}
      (octal : ∀ digit ∈ [first, second, third], digit ∈ octalDigits)
      (large : 0o377 < octalNumber [first, second, third])
      (number : point.value = octalNumber [first, second]) :
      Denotes [first, second, third] [point, CodePoint.ofChar third]
  | byte {run : List Char} {point : CodePoint} (two : run.length = 2)
      (hex : ∀ digit ∈ run, digit ∈ hexCharacters) (number : point.value = hexNumber run) :
      Denotes ('x' :: run) [point]
  | unit {run : List Char} {point : CodePoint} (four : run.length = 4)
      (hex : ∀ digit ∈ run, digit ∈ hexCharacters) (number : point.value = hexNumber run) :
      Denotes ('u' :: run) [point]
  | braced {run : List Char} {point : CodePoint} (someDigits : run ≠ [])
      (hex : ∀ digit ∈ run, digit ∈ hexCharacters) (number : point.value = hexNumber run) :
      Denotes ('u' :: '\x7b' :: (run ++ ['\x7d'])) [point]
  | lineEnd {terminator : List Char} (ends : terminator ∈ lineEnds) : Denotes terminator []

/-- An escape by octal digits other than the zero alone. -/
def IsOctal (body : List Char) : Prop :=
  body ≠ [] ∧ (∀ digit ∈ body, digit ∈ octalDigits) ∧ body ≠ ['0']

instance (body : List Char) : Decidable (IsOctal body) :=
  have : Decidable (∀ digit ∈ body, digit ∈ octalDigits) := List.decidableBAll _ body
  inferInstanceAs (Decidable (_ ∧ _ ∧ _))

theorem not_isOctal_of_head {first : Char} {rest : List Char} (other : first ∉ octalDigits) :
    ¬ IsOctal (first :: rest) := by
  rintro ⟨-, octal, -⟩
  exact other (octal first List.mem_cons_self)

/-- What follows the backslash of an escape without a number is a known letter, a line end, or
stands for itself. -/
theorem decodeBody_of_unnumbered {body : List Char} (unnumbered : numeral? body = none)
    (spelling : List Char) :
    decodeBody spelling body =
      match named? body with
      | some character => .ok [CodePoint.ofChar character]
      | none => if startsLineEnd body then .ok [] else .ok (verbatim body) := by
  unfold numeral? at unnumbered
  by_cases braced : "u\x7b".toList <+: body ∧ body.getLast? = some '\x7d'
  · rw [if_pos braced] at unnumbered
    cases unnumbered
  · rw [if_neg braced] at unnumbered
    rw [decodeBody.eq_def, if_neg braced]
    split
    · cases unnumbered
    · cases unnumbered
    · rfl

/-- An escape by hexadecimal digits that denote a code point has it for its value. -/
theorem byNumber_of_hexCharacters {run : List Char} {point : CodePoint} (someDigits : run ≠ [])
    (hex : ∀ digit ∈ run, digit ∈ hexCharacters) (number : point.value = hexNumber run)
    (spelling : List Char) : byNumber spelling run = .ok [point] := by
  have inRange := point.inRange
  have found : CodePoint.ofNat? point.value = some point := by
    rw [CodePoint.ofNat?, dif_pos inRange]
  have read : Numeral.readHex? run = some (point.value : Int) := by
    rw [Numeral.readHex?_of_hexCharacters hex, if_neg someDigits, number]
  simp only [byNumber, read]
  rw [if_neg (by omega), if_neg (by omega), Int.toNat_natCast, found]

theorem decode_of_numeral {body digits : List Char} {point : CodePoint}
    (found : numeral? body = some digits) (someDigits : digits ≠ [])
    (hex : ∀ digit ∈ digits, digit ∈ hexCharacters) (number : point.value = hexNumber digits) :
    decode ('\\' :: body) = .ok [point] := by
  rw [decode, List.drop_one, List.tail_cons, decodeBody_of_numeral found]
  exact byNumber_of_hexCharacters someDigits hex number _

theorem decode_of_named {letter character : Char} (listed : (letter, character) ∈ namedCharacters) :
    decode ['\\', letter] = .ok [CodePoint.ofChar character] := by
  simp only [namedCharacters, List.mem_cons, Prod.mk.injEq, List.not_mem_nil, or_false] at listed
  rcases listed with ⟨rfl, rfl⟩ | ⟨rfl, rfl⟩ | ⟨rfl, rfl⟩ | ⟨rfl, rfl⟩ | ⟨rfl, rfl⟩ | ⟨rfl, rfl⟩ <;>
    rfl

theorem decode_of_lineEnd {terminator : List Char} (ends : terminator ∈ lineEnds) :
    decode ('\\' :: terminator) = .ok [] := by
  simp only [lineEnds, List.mem_cons, List.not_mem_nil, or_false] at ends
  rcases ends with rfl | rfl | rfl | rfl | rfl <;> rfl

/-- Behind a backslash, what is no letter, no zero alone and no line end stands for itself. -/
theorem decode_of_plain {first : Char} {rest : List Char} (noLetter : first ∉ letters)
    (notZero : first :: rest ≠ ['0']) (inLine : [first] ∉ lineEnds) :
    decode ('\\' :: first :: rest) = .ok (verbatim (first :: rest)) := by
  have foreign (letter : Char) (listed : letter ∈ letters) : first ≠ letter := by
    rintro rfl
    exact noLetter listed
  have unnumbered : numeral? (first :: rest) = none := by
    refine numeral?_of_unmarked ?_ ?_
    · simpa using foreign 'x' (by decide)
    · simpa using foreign 'u' (by decide)
  have unnamed : named? (first :: rest) = none := by
    unfold named?
    split
    case h_7 same => exact absurd same notZero
    case h_8 => rfl
    all_goals
      rename_i same
      obtain ⟨rfl, -⟩ := List.cons.inj same
      exact absurd (by decide) noLetter
  have stays : startsLineEnd (first :: rest) = false := by
    simp only [lineEnds, List.mem_cons, List.cons.injEq, and_true, List.not_mem_nil, or_false,
      not_or] at inLine
    simp only [startsLineEnd, Bool.or_eq_false_iff, beq_eq_false_iff_ne, ne_eq]
    exact ⟨⟨⟨inLine.1, inLine.2.1⟩, inLine.2.2.2.1⟩, inLine.2.2.2.2⟩
  rw [decode, List.drop_one, List.tail_cons, decodeBody_of_unnumbered unnumbered, unnamed, stays]
  rfl

theorem octalDigits_plain : ∀ digit ∈ octalDigits, digit ∉ letters ∧ [digit] ∉ lineEnds := by
  rw [← List.forall_iff_forall_mem]
  decide

/-- An escape by octal digits, other than the zero alone, is read as its digits. -/
theorem decode_of_isOctal {body : List Char} (octal : IsOctal body) :
    decode ('\\' :: body) = .ok (verbatim body) := by
  obtain ⟨someDigits, digits, notZero⟩ := octal
  cases body with
  | nil => exact absurd rfl someDigits
  | cons first rest =>
    obtain ⟨noLetter, inLine⟩ := octalDigits_plain first (digits first List.mem_cons_self)
    exact decode_of_plain noLetter notZero inLine

/-- Decoding gives what an escape denotes, unless it is one by octal digits. -/
theorem decode_of_denotes {body : List Char} {points : Text} (denotes : Denotes body points)
    (notOctal : ¬ IsOctal body) : decode ('\\' :: body) = .ok points := by
  cases denotes with
  | named listed => exact decode_of_named listed
  | itself noDigit noLetter inLine =>
    refine decode_of_plain noLetter ?_ inLine
    rintro ⟨⟩
    exact noDigit (by decide)
  | @octal _ point someDigits _ octal number _ =>
    have zero : body = ['0'] := by
      by_contra other
      exact notOctal ⟨someDigits, octal, other⟩
    subst zero
    have point_eq : point = CodePoint.ofChar '\x00' := CodePoint.ext_value number
    rw [point_eq]
    rfl
  | split octal =>
    refine absurd ⟨List.cons_ne_nil _ _, octal, ?_⟩ notOctal
    simp only [ne_eq, List.cons.injEq, reduceCtorEq, and_false, not_false_eq_true]
  | @byte run _ two hex number =>
    have someDigits : run ≠ [] := List.ne_nil_of_length_eq_add_one two
    exact decode_of_numeral (numeral?_of_run (.inl rfl) someDigits hex) someDigits hex number
  | @unit run _ four hex number =>
    have someDigits : run ≠ [] := List.ne_nil_of_length_eq_add_one four
    exact decode_of_numeral (numeral?_of_run (.inr rfl) someDigits hex) someDigits hex number
  | @braced run _ someDigits hex number =>
    exact decode_of_numeral (numeral?_braced run) someDigits hex number
  | lineEnd ends => exact decode_of_lineEnd ends

theorem units_of_octalDigit :
    ∀ digit ∈ octalDigits, (CodePoint.ofChar digit).units = ['0'.toNat + digitNumber digit] := by
  rw [← List.forall_iff_forall_mem]
  decide

theorem digitNumber_lt_of_octalDigit : ∀ digit ∈ octalDigits, digitNumber digit < 8 := by
  rw [← List.forall_iff_forall_mem]
  decide

/-- Octal digits have one unit each. -/
theorem units_verbatim_of_octal {run : List Char} (octal : ∀ digit ∈ run, digit ∈ octalDigits) :
    Text.units (verbatim run) = run.map fun digit => '0'.toNat + digitNumber digit := by
  induction run with
  | nil => rfl
  | cons digit rest ih =>
    rw [List.forall_mem_cons] at octal
    rw [verbatim, List.map_cons, Text.units_cons, units_of_octalDigit digit octal.1,
      List.map_cons, ← ih octal.2]
    rfl

/-- The digits of an escape by octal digits are no shorter than what they denote, and never the
same. -/
theorem units_of_isOctal {body : List Char} {points : Text} (denotes : Denotes body points)
    (octal : IsOctal body) :
    points.units.length ≤ (Text.units (verbatim body)).length ∧
      points.units ≠ Text.units (verbatim body) := by
  rw [units_verbatim_of_octal octal.2.1]
  cases denotes with
  | @octal _ point _ _ digits number small =>
    rw [Text.units_cons, CodePoint.units_of_low (by omega), Text.units_nil]
    cases body with
    | nil => exact absurd rfl octal.1
    | cons first rest =>
      refine ⟨by simp, ?_⟩
      -- One digit denotes a number that is less than the code of the digit.
      intro same
      have code : point.value = 48 + digitNumber first := (List.cons.inj same).1
      have alone : rest = [] := List.map_eq_nil_iff.mp (List.cons.inj same).2.symm
      subst alone
      have value : octalNumber [first] = 0 * 8 + digitNumber first := rfl
      omega
  | @split first second third point digits large number =>
    simp only [List.forall_mem_cons] at digits
    have high := digitNumber_lt_of_octalDigit first digits.1
    have low := digitNumber_lt_of_octalDigit second digits.2.1
    have value : octalNumber [first, second] = (0 * 8 + digitNumber first) * 8 +
        digitNumber second := rfl
    rw [Text.units_cons, Text.units_cons, CodePoint.units_of_low (by omega),
      units_of_octalDigit third digits.2.2.1, Text.units_nil]
    refine ⟨by simp, fun same => ?_⟩
    exact absurd (congrArg List.length same) (by simp)
  | named listed =>
    simp only [namedCharacters, List.mem_cons, Prod.mk.injEq, List.not_mem_nil, or_false] at listed
    rcases listed with ⟨rfl, -⟩ | ⟨rfl, -⟩ | ⟨rfl, -⟩ | ⟨rfl, -⟩ | ⟨rfl, -⟩ | ⟨rfl, -⟩ <;>
      exact absurd octal (not_isOctal_of_head (by decide))
  | itself noDigit => exact absurd octal (not_isOctal_of_head noDigit)
  | byte => exact absurd octal (not_isOctal_of_head (by decide))
  | unit => exact absurd octal (not_isOctal_of_head (by decide))
  | braced => exact absurd octal (not_isOctal_of_head (by decide))
  | lineEnd ends =>
    simp only [lineEnds, List.mem_cons, List.not_mem_nil, or_false] at ends
    rcases ends with rfl | rfl | rfl | rfl | rfl <;>
      exact absurd octal (not_isOctal_of_head (by decide))

end Escape

namespace Node

/-- The pieces of a string literal denote a text. Marks are no pieces of it, fragments denote
themselves. -/
inductive PiecesDenote : List Node → Text → Prop where
  | done : PiecesDenote [] []
  | mark {piece : Node} {rest : List Node} {points : Text} (unnamed : piece.label.isNamed = false)
      (behind : PiecesDenote rest points) : PiecesDenote (piece :: rest) points
  | fragment {piece : Node} {rest : List Node} {points : Text}
      (named : piece.label.isNamed = true) (plain : piece.kind = "string_fragment")
      (behind : PiecesDenote rest points) :
      PiecesDenote (piece :: rest) (Text.ofString piece.text ++ points)
  | escape {piece : Node} {rest : List Node} {body : List Char} {value points : Text}
      (named : piece.label.isNamed = true) (escapes : piece.kind = "escape_sequence")
      (spelled : piece.text.toList = '\\' :: body) (denotes : Escape.Denotes body value)
      (behind : PiecesDenote rest points) : PiecesDenote (piece :: rest) (value ++ points)

def LiteralDenotes (literal : Node) (points : Text) : Prop :=
  literal.kind = "string" ∧ PiecesDenote literal.children points

/-- An escape sequence by octal digits other than the zero alone. -/
def IsOctalEscape (piece : Node) : Prop :=
  piece.label.isNamed = true ∧ piece.kind = "escape_sequence" ∧
    Escape.IsOctal (piece.text.toList.drop 1)

/-- No piece of a string literal is an escape sequence by octal digits. -/
def OctalFree (literal : Node) : Prop :=
  ∀ piece ∈ literal.children, ¬ piece.IsOctalEscape

instance (piece : Node) : Decidable piece.IsOctalEscape :=
  inferInstanceAs (Decidable (_ ∧ _ ∧ _))

instance (literal : Node) : Decidable literal.OctalFree :=
  inferInstanceAs (Decidable (∀ piece ∈ literal.children, ¬ piece.IsOctalEscape))

theorem piecesValue_of_mark {piece : Node} (unnamed : piece.label.isNamed = false)
    (rest : List Node) : piecesValue (piece :: rest) = piecesValue rest := by
  rw [piecesValue, if_neg (by rw [unnamed]; decide)]

theorem piecesValue_of_ok {piece : Node} {rest : List Node} {value others : Text}
    (named : piece.label.isNamed = true) (here : pieceValue piece = .ok value)
    (behind : piecesValue rest = .ok others) :
    piecesValue (piece :: rest) = .ok (value ++ others) := by
  rw [piecesValue, if_pos named, here, behind]
  rfl

theorem pieceValue_of_fragment {piece : Node} (plain : piece.kind = "string_fragment") :
    pieceValue piece = .ok (Text.ofString piece.text) := by
  rw [pieceValue, if_neg (by rw [plain]; decide)]

theorem pieceValue_of_escape {piece : Node} {body : List Char}
    (escapes : piece.kind = "escape_sequence") (spelled : piece.text.toList = '\\' :: body) :
    pieceValue piece = Escape.decode ('\\' :: body) := by
  rw [pieceValue, if_pos escapes, spelled]

theorem isOctalEscape_iff {piece : Node} {body : List Char} (named : piece.label.isNamed = true)
    (escapes : piece.kind = "escape_sequence") (spelled : piece.text.toList = '\\' :: body) :
    piece.IsOctalEscape ↔ Escape.IsOctal body := by
  rw [IsOctalEscape, spelled, List.drop_one, List.tail_cons, and_iff_right named,
    and_iff_right escapes]

/-- Pieces without escapes by octal digits have the value that they denote. -/
theorem PiecesDenote.piecesValue_eq {pieces : List Node} {points : Text}
    (denote : PiecesDenote pieces points) (octalFree : ∀ piece ∈ pieces, ¬ piece.IsOctalEscape) :
    piecesValue pieces = .ok points := by
  induction denote with
  | done => rfl
  | mark unnamed _ ih =>
    rw [List.forall_mem_cons] at octalFree
    rw [piecesValue_of_mark unnamed, ih octalFree.2]
  | fragment named plain _ ih =>
    rw [List.forall_mem_cons] at octalFree
    exact piecesValue_of_ok named (pieceValue_of_fragment plain) (ih octalFree.2)
  | escape named escapes spelled denotes _ ih =>
    rw [List.forall_mem_cons, isOctalEscape_iff named escapes spelled] at octalFree
    refine piecesValue_of_ok named ?_ (ih octalFree.2)
    rw [pieceValue_of_escape escapes spelled, Escape.decode_of_denotes denotes octalFree.1]

/-- Lists that are made of two parts each have the same parts if no part of the first is longer than
its counterpart. -/
theorem append_eq_of_length_le {α : Type} {first second firstRest secondRest : List α}
    (shorter : first.length ≤ second.length) (restShorter : firstRest.length ≤ secondRest.length)
    (same : first ++ firstRest = second ++ secondRest) : first = second ∧ firstRest = secondRest := by
  have lengths := congrArg List.length same
  rw [List.length_append, List.length_append] at lengths
  exact List.append_inj same (by omega)

/-- Pieces that denote a text have a value, with as many units as are denoted or more. They are the
same units only if there are no escapes by octal digits. -/
theorem PiecesDenote.exists_piecesValue {pieces : List Node} {points : Text}
    (denote : PiecesDenote pieces points) :
    ∃ value, piecesValue pieces = .ok value ∧ points.units.length ≤ value.units.length ∧
      (points.units = value.units → ∀ piece ∈ pieces, ¬ piece.IsOctalEscape) := by
  induction denote with
  | done => exact ⟨[], rfl, Nat.le_refl _, fun _ _ impossible => nomatch impossible⟩
  | @mark piece rest points unnamed _ ih =>
    obtain ⟨value, behind, length_le, free⟩ := ih
    refine ⟨value, (piecesValue_of_mark unnamed rest).trans behind, length_le, fun same => ?_⟩
    refine List.forall_mem_cons.mpr ⟨fun octal => ?_, free same⟩
    rw [IsOctalEscape, unnamed] at octal
    exact absurd octal.1 (by decide)
  | @fragment piece rest points named plain _ ih =>
    obtain ⟨value, behind, length_le, free⟩ := ih
    refine ⟨_, piecesValue_of_ok named (pieceValue_of_fragment plain) behind, ?_, fun same => ?_⟩
    · simp only [Text.units_append, List.length_append]
      omega
    · rw [Text.units_append, Text.units_append] at same
      refine List.forall_mem_cons.mpr ⟨fun octal => ?_, free (List.append_cancel_left same)⟩
      rw [IsOctalEscape, plain] at octal
      exact absurd octal.2.1 (by decide)
  | @escape piece rest body denoted points named escapes spelled denotes _ ih =>
    obtain ⟨value, behind, length_le, free⟩ := ih
    obtain ⟨here, decoded, here_le, same_iff⟩ : ∃ here, Escape.decode ('\\' :: body) = .ok here ∧
        denoted.units.length ≤ here.units.length ∧
          (denoted.units = here.units → ¬ Escape.IsOctal body) := by
      by_cases octal : Escape.IsOctal body
      · obtain ⟨length_le, other⟩ := Escape.units_of_isOctal denotes octal
        exact ⟨_, Escape.decode_of_isOctal octal, length_le, fun same => absurd same other⟩
      · exact ⟨_, Escape.decode_of_denotes denotes octal, Nat.le_refl _, fun _ => octal⟩
    have read := (pieceValue_of_escape escapes spelled).trans decoded
    refine ⟨_, piecesValue_of_ok named read behind, ?_, fun same => ?_⟩
    · simp only [Text.units_append, List.length_append]
      omega
    · rw [Text.units_append, Text.units_append] at same
      obtain ⟨here_eq, behind_eq⟩ := append_eq_of_length_le here_le length_le same
      refine List.forall_mem_cons.mpr ⟨?_, free behind_eq⟩
      rw [isOctalEscape_iff named escapes spelled]
      exact same_iff here_eq

/-- A literal has the value that it denotes if none of its escapes is one by octal digits. -/
theorem LiteralDenotes.stringValue_eq {literal : Node} {points : Text}
    (denotes : literal.LiteralDenotes points) (octalFree : literal.OctalFree) :
    literal.stringValue = .ok points :=
  denotes.2.piecesValue_eq octalFree

/-- Of two literals that denote the same units, the first one has the value of a second one that
spells its characters plainly exactly when it has neither escapes by octal digits nor pairs of
surrogates. -/
theorem LiteralDenotes.stringValue_eq_iff {first second : Node} {points others : Text}
    (denotes : first.LiteralDenotes points) (also : second.LiteralDenotes others)
    (same : points.units = others.units) (plain : second.OctalFree) (unpaired : others.Unpaired) :
    first.stringValue = second.stringValue ↔ first.OctalFree ∧ points.Unpaired := by
  rw [also.stringValue_eq plain]
  constructor
  · intro value_eq
    obtain ⟨value, read, -, free⟩ := denotes.2.exists_piecesValue
    obtain rfl : value = others := Except.ok.inj (read.symm.trans value_eq)
    have octalFree : first.OctalFree := free same
    obtain rfl : points = value := Except.ok.inj ((denotes.stringValue_eq octalFree).symm.trans read)
    exact ⟨octalFree, unpaired⟩
  · rintro ⟨octalFree, apart⟩
    rw [denotes.stringValue_eq octalFree, Text.eq_of_units apart unpaired same]

end Node

end ModuleFence
