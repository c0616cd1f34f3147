import ModuleFence.Proofs.Expression.Reach
import ModuleFence.Proofs.Expression.Decoding
import ModuleFence.Proofs.Text.Hexadecimal

/-!
The spellings that the grammar gives to escape sequences. Of all of them only a braced numeral can
name a number that does not fit in 32 bits, and it does as soon as its digits denote one.
-/

set_option autoImplicit false

namespace ModuleFence

namespace Escape

open Numeral (hexCharacters hexNumber)

def octalDigits : List Char :=
  "01234567".toList

def lineEnds : List (List Char) :=
  [['\n'], ['\r'], ['\r', '\n'], ['\u2028'], ['\u2029']]

/-- What may follow the backslash of an escape sequence. -/
inductive Body : List Char → Prop where
  | single {character : Char} (notByte : character ≠ 'x') (notUnit : character ≠ 'u')
      (notOctal : character ∉ octalDigits) : Body [character]
  | octal {run : List Char} (someDigits : run ≠ []) (few : run.length ≤ 3)
      (octal : ∀ digit ∈ run, digit ∈ octalDigits) : Body run
  | byte {run : List Char} (two : run.length = 2) (hex : ∀ digit ∈ run, digit ∈ hexCharacters) :
      Body ('x' :: run)
  | unit {run : List Char} (four : run.length = 4) (hex : ∀ digit ∈ run, digit ∈ hexCharacters) :
      Body ('u' :: run)
  | braced {run : List Char} (hex : ∀ digit ∈ run, digit ∈ hexCharacters) :
      Body ('u' :: '\x7b' :: (run ++ ['\x7d']))
  | lineEnd {terminator : List Char} (ends : terminator ∈ lineEnds) : Body terminator

/-- The spellings of escape sequences. -/
def Spelled (spelling : List Char) : Prop :=
  ∃ body, spelling = '\\' :: body ∧ Body body

/-- A braced numeral beyond the range of signed integers of 32 bits. -/
def TooLarge (spelling : List Char) : Prop :=
  ∃ run, (∀ digit ∈ run, digit ∈ hexCharacters) ∧
    spelling = '\\' :: 'u' :: '\x7b' :: (run ++ ['\x7d']) ∧ 2 ^ 31 ≤ hexNumber run

theorem numeral?_braced (run : List Char) :
    numeral? ('u' :: '\x7b' :: (run ++ ['\x7d'])) = some run := by
  have last : ('u' :: '\x7b' :: (run ++ ['\x7d'])).getLast? = some '\x7d' := by
    rw [← List.cons_append, ← List.cons_append, List.getLast?_concat]
  rw [numeral?, if_pos ⟨List.prefix_append ['u', '\x7b'] (run ++ ['\x7d']), last⟩]
  simp only [List.drop_succ_cons, List.drop_zero, List.dropLast_concat]

/-- A body without a mark for numbers names none. -/
theorem numeral?_of_unmarked {body : List Char} (notByte : body.head? ≠ some 'x')
    (notUnit : body.head? ≠ some 'u') : numeral? body = none := by
  unfold numeral?
  split
  · rename_i braced
    obtain ⟨rest, rfl⟩ := braced.1
    exact absurd rfl notUnit
  · split
    · exact absurd rfl notUnit
    · exact absurd rfl notByte
    · rfl

/-- A numeral without braces that consists of digits stands behind its mark. -/
theorem numeral?_of_run {mark : Char} (marks : mark = 'x' ∨ mark = 'u') {run : List Char}
    (someDigits : run ≠ []) (hex : ∀ digit ∈ run, digit ∈ hexCharacters) :
    numeral? (mark :: run) = some run := by
  cases run with
  | nil => exact absurd rfl someDigits
  | cons digit rest =>
    have unbraced : ¬ "u\x7b".toList <+: mark :: digit :: rest := by
      intro braced
      have second := (List.cons_prefix_cons.mp (List.cons_prefix_cons.mp braced).2).1
      exact absurd (hex '\x7b' (second ▸ List.mem_cons_self)) (by decide)
    unfold numeral?
    rw [if_neg fun both => unbraced both.1]
    rcases marks with rfl | rfl <;> rfl

/-- Few digits denote a number that fits. -/
theorem fits_of_few {run : List Char} (few : run.length ≤ 4)
    (hex : ∀ digit ∈ run, digit ∈ hexCharacters) (number : Int)
    (read : Numeral.readHex? run = some number) : Fits number := by
  have small : hexNumber run < 2 ^ 16 :=
    calc hexNumber run < 16 ^ run.length := Numeral.hexNumber_lt hex
      _ ≤ 16 ^ 4 := Nat.pow_le_pow_right (by decide) few
      _ = 2 ^ 16 := by decide
  rw [Numeral.readHex?_of_hexCharacters hex] at read
  split at read
  · cases read
  · cases read
    rw [Fits]
    omega

theorem not_tooLarge {first : Char} {rest : List Char}
    (unbraced : first = 'u' → rest.head? ≠ some '\x7b') :
    ¬ TooLarge ('\\' :: first :: rest) := by
  rintro ⟨run, -, same, -⟩
  cases same
  exact unbraced rfl rfl

theorem number?_of_braced {run : List Char} (hex : ∀ digit ∈ run, digit ∈ hexCharacters) :
    number? ('\\' :: 'u' :: '\x7b' :: (run ++ ['\x7d'])) =
      if run = [] then none else some (hexNumber run : Int) := by
  rw [number?, List.drop_one, List.tail_cons, numeral?_braced, Option.bind_some,
    Numeral.readHex?_of_hexCharacters hex]

/-- What follows the backslash of any other spelling than a braced numeral. -/
theorem number?_fits_of_unbraced {body : List Char} (shape : Body body) :
    (∃ run, (∀ digit ∈ run, digit ∈ hexCharacters) ∧ body = 'u' :: '\x7b' :: (run ++ ['\x7d'])) ∨
      (¬ TooLarge ('\\' :: body) ∧
        ∀ number, number? ('\\' :: body) = some number → Fits number) := by
  have unnumbered {first : Char} {rest : List Char} (notByte : first ≠ 'x')
      (notUnit : first ≠ 'u') : ¬ TooLarge ('\\' :: first :: rest) ∧
        ∀ number, number? ('\\' :: first :: rest) = some number → Fits number := by
    refine ⟨not_tooLarge fun marked => absurd marked notUnit, ?_⟩
    intro number named
    rw [number?, List.drop_one, List.tail_cons,
      numeral?_of_unmarked (by simpa using notByte) (by simpa using notUnit)] at named
    cases named
  have numbered {mark : Char} (marks : mark = 'x' ∨ mark = 'u') {run : List Char}
      (someDigits : run ≠ []) (few : run.length ≤ 4) (hex : ∀ digit ∈ run, digit ∈ hexCharacters) :
      ¬ TooLarge ('\\' :: mark :: run) ∧
        ∀ number, number? ('\\' :: mark :: run) = some number → Fits number := by
    refine ⟨not_tooLarge fun _ braced => ?_, ?_⟩
    · exact absurd (hex _ (List.mem_of_mem_head? braced)) (by decide)
    · intro number named
      rw [number?, List.drop_one, List.tail_cons, numeral?_of_run marks someDigits hex] at named
      exact fits_of_few few hex number named
  cases shape with
  | single notByte notUnit _ => exact .inr (unnumbered notByte notUnit)
  | octal someDigits few octal =>
    cases body with
    | nil => exact absurd rfl someDigits
    | cons first rest =>
      have digit := octal first List.mem_cons_self
      refine .inr (unnumbered ?_ ?_)
      · rintro rfl
        exact absurd digit (by decide)
      · rintro rfl
        exact absurd digit (by decide)
  | byte two hex =>
    exact .inr (numbered (.inl rfl) (List.ne_nil_of_length_eq_add_one two) (by omega) hex)
  | unit four hex =>
    exact .inr (numbered (.inr rfl) (List.ne_nil_of_length_eq_add_one four) (by omega) hex)
  | @braced run hex => exact .inl ⟨run, hex, rfl⟩
  | lineEnd ends =>
    simp only [lineEnds, List.mem_cons, List.not_mem_nil, or_false] at ends
    rcases ends with rfl | rfl | rfl | rfl | rfl <;>
      exact .inr (unnumbered (by decide) (by decide))

/-- An escape sequence of the grammar names a number that does not fit exactly when it is a braced
numeral that is too large. -/
theorem number?_fits_iff_of_spelled {spelling : List Char} (spelled : Spelled spelling) :
    (∀ number, number? spelling = some number → Fits number) ↔ ¬ TooLarge spelling := by
  obtain ⟨body, rfl, shape⟩ := spelled
  rcases number?_fits_of_unbraced shape with ⟨run, hex, rfl⟩ | ⟨small, fits⟩
  · have large_iff : TooLarge ('\\' :: 'u' :: '\x7b' :: (run ++ ['\x7d'])) ↔
        2 ^ 31 ≤ hexNumber run := by
      constructor
      · rintro ⟨other, -, same, large⟩
        have run_eq : run = other := by simpa using same
        rwa [run_eq]
      · exact fun large => ⟨run, hex, rfl, large⟩
    rw [large_iff, number?_of_braced hex]
    by_cases empty : run = []
    · subst empty
      simp [hexNumber]
    · rw [if_neg empty]
      simp only [Option.some.injEq, forall_eq', Fits]
      omega
  · exact iff_of_true fits small

end Escape

namespace Node

/-- Every escape sequence in a string literal of a tree has a spelling of the grammar. -/
def EscapesSpelled (root : Node) : Prop :=
  ∀ literal ∈ root.preorder, literal.kind = "string" → ∀ piece ∈ literal.namedChildren,
    piece.kind = "escape_sequence" → Escape.Spelled piece.text.toList

/-- No braced numeral in a literal that lowering the calls of a tree reads is too large. -/
def NumbersFit (root : Node) : Prop :=
  ∀ call ∈ root.calls, ∀ literal, Reads literal 0 call → ∀ piece ∈ literal.namedChildren,
    piece.kind = "escape_sequence" → ¬ Escape.TooLarge piece.text.toList

/-- The numerals of a tree fit when those of all its literals do. -/
theorem numbersFit_of_preorder {root : Node}
    (fits : ∀ literal ∈ root.preorder, literal.kind = "string" → ∀ piece ∈ literal.namedChildren,
      piece.kind = "escape_sequence" → ¬ Escape.TooLarge piece.text.toList) :
    root.NumbersFit := by
  intro call member literal reads piece inside escapes
  obtain ⟨inCall, quoted⟩ := reads.mem_preorder
  have inTree := mem_preorder_trans inCall (mem_calls_iff.mp member).1
  exact fits literal inTree quoted piece inside escapes

/-- With the spellings of the grammar, only numerals that are too large keep the calls of a tree
from being lowered. -/
theorem EscapesSpelled.callsLegible_iff {root : Node} (spelled : root.EscapesSpelled) :
    root.CallsLegible ↔ root.NumbersFit := by
  refine forall₂_congr fun call member => forall₂_congr fun literal reads => ?_
  rw [succeeds_stringValue_iff]
  refine forall₂_congr fun piece inside => ?_
  obtain ⟨inCall, quoted⟩ := reads.mem_preorder
  have inTree := mem_preorder_trans inCall (mem_calls_iff.mp member).1
  rw [Overflows, not_and]
  refine forall_congr' fun escapes => ?_
  rw [← Escape.number?_fits_iff_of_spelled (spelled literal inTree quoted piece inside escapes)]
  push Not
  rfl

end Node

end ModuleFence
