import ModuleFence.Proofs.Json.Numeral

/-!
What stands in front of a printed JSON value. Its first code point tells what kind of value follows:
no value begins with a blank or with what closes an array or an object, and only a word that is a value
is read as one.
-/

set_option autoImplicit false

namespace ModuleFence.Json

namespace Limits

/-- An integer has no more digits than are allowed. -/
def Allows (limits : Limits) (number : Int) : Prop :=
  ∀ most ∈ limits.digits, (numeral number.natAbs).length ≤ most

/-- As many brackets can be entered. -/
def Admits (limits : Limits) (depth : Nat) : Prop :=
  ∀ room ∈ limits.nesting, depth ≤ room

/-- The limits inside a bracket that can be entered. -/
def inside (limits : Limits) : Limits :=
  { limits with nesting := limits.nesting.map (· - 1) }

theorem enter_of_admits {limits : Limits} {depth : Nat} (deep : limits.Admits (depth + 1))
    (kind : String) : limits.enter kind = .ok limits.inside ∧ limits.inside.Admits depth := by
  obtain ⟨digits, nesting⟩ := limits
  cases nesting with
  | none => exact ⟨rfl, fun room absent => by cases absent⟩
  | some room =>
    have wide : depth + 1 ≤ room := deep room rfl
    cases room with
    | zero => exact absurd wide (Nat.not_succ_le_zero depth)
    | succ room =>
      refine ⟨rfl, fun left same => ?_⟩
      cases same
      exact Nat.le_of_succ_le_succ wide

end Limits

/-- Values without decimals that are within limits: no integer has too many digits, and no list or object
is nested too deeply. -/
inductive Plain : Limits → Json → Prop where
  | null {limits : Limits} : Plain limits .null
  | bool {limits : Limits} (value : Bool) : Plain limits (.bool value)
  | integer {limits : Limits} (value : Int) (short : limits.Allows value) :
      Plain limits (.integer value)
  | notFinite {limits : Limits} : Plain limits .notFinite
  | string {limits : Limits} (value : Text) : Plain limits (.string value)
  | array {limits inner : Limits} (items : List Json) (enters : limits.enter "array" = .ok inner)
      (each : ∀ item ∈ items, Plain inner item) : Plain limits (.array items)
  | object {limits inner : Limits} (members : List (Text × Json))
      (enters : limits.enter "object" = .ok inner) (each : ∀ member ∈ members, Plain inner member.2) :
      Plain limits (.object members)

variable {limits : Limits}

theorem skipSpaces_newLine (level : Nat) (rest : Text) :
    skipSpaces (newLine level ++ rest) = skipSpaces rest := by
  have blank (point : CodePoint) (member : point ∈ newLine level) : isSpace point = true := by
    rw [newLine, List.mem_cons] at member
    rcases member with rfl | member
    · rfl
    · rw [List.eq_of_mem_replicate member]
      rfl
  exact List.dropWhile_append_of_pos blank

theorem skipSpaces_cons {point : CodePoint} (solid : isSpace point = false) (rest : Text) :
    skipSpaces (point :: rest) = point :: rest :=
  List.dropWhile_cons_of_neg (by rw [solid]; decide)

/-- Whether a code point begins a value: it is no blank, and ends no list and no object. -/
def begins (point : CodePoint) : Bool :=
  !isSpace point && point != CodePoint.ofChar ']' && point != CodePoint.ofChar '\x7d'

theorem begins_iff (point : CodePoint) :
    begins point = true ↔
      isSpace point = false ∧ point ≠ CodePoint.ofChar ']' ∧ point ≠ CodePoint.ofChar '\x7d' := by
  simp only [begins, Bool.and_eq_true, Bool.not_eq_true', bne_iff_ne, ne_eq, and_assoc]

def beginsInteger (point : CodePoint) : Bool :=
  point == CodePoint.ofChar '-' || isDigit point

theorem ne_of_beginsInteger {point : CodePoint} (begun : beginsInteger point = true)
    {character : Char} (other : beginsInteger (CodePoint.ofChar character) = false) :
    point ≠ CodePoint.ofChar character := by
  intro same
  rw [same, other] at begun
  exact Bool.false_ne_true begun

theorem begins_of_beginsInteger {point : CodePoint} (begun : beginsInteger point = true) :
    begins point = true := by
  have other {character : Char} (outside : beginsInteger (CodePoint.ofChar character) = false) :=
    ne_of_beginsInteger begun outside
  rw [begins_iff, isSpace]
  refine ⟨?_, other (by decide), other (by decide)⟩
  simp only [other (by decide : beginsInteger (CodePoint.ofChar ' ') = false),
    other (by decide : beginsInteger (CodePoint.ofChar '\t') = false),
    other (by decide : beginsInteger (CodePoint.ofChar '\n') = false),
    other (by decide : beginsInteger (CodePoint.ofChar '\r') = false), decide_false, Bool.or_self]

/-- An integer begins with a digit, or with a sign that a digit follows. -/
theorem exists_head_ofInt (number : Int) :
    ∃ point others, Text.ofInt number = point :: others ∧ beginsInteger point = true ∧
      (point = CodePoint.ofChar '-' →
        ∃ digit behind, others = digit :: behind ∧ isDigit digit = true) := by
  cases written : numeral number.natAbs with
  | nil => exact absurd written (numeral_ne_nil _)
  | cons digit behind =>
    have decimal : isDigit digit = true :=
      isDigit_of_mem_numeral (by rw [written]; exact List.mem_cons_self)
    rw [ofInt_eq, written]
    by_cases negative : number < 0
    · rw [if_pos negative]
      exact ⟨_, _, rfl, by decide, fun _ => ⟨digit, behind, rfl, decimal⟩⟩
    · have unsigned : digit ≠ CodePoint.ofChar '-' := by
        rintro rfl
        exact absurd decimal (by decide)
      rw [if_neg negative]
      exact ⟨_, _, rfl, by rw [beginsInteger, decimal, Bool.or_true], fun sign => absurd sign unsigned⟩

/-- No printed value begins with a blank, or with what ends a list or an object. -/
theorem exists_head_printAt {value : Json} (plain : Plain limits value) (level : Nat) :
    ∃ point others, printAt level value = point :: others ∧ begins point = true := by
  cases plain with
  | null => exact ⟨_, _, rfl, by decide⟩
  | bool value => cases value <;> exact ⟨_, _, rfl, by decide⟩
  | integer number short =>
    obtain ⟨point, others, spelled, begun, -⟩ := exists_head_ofInt number
    exact ⟨point, others, spelled, begins_of_beginsInteger begun⟩
  | notFinite => exact ⟨_, _, rfl, by decide⟩
  | string value => exact ⟨_, _, rfl, by decide⟩
  | array items enters each => cases items <;> exact ⟨_, _, rfl, by decide⟩
  | object members enters each => cases members <;> exact ⟨_, _, rfl, by decide⟩

theorem skipSpaces_printAt {value : Json} (plain : Plain limits value) (level : Nat) (rest : Text) :
    skipSpaces (printAt level value ++ rest) = printAt level value ++ rest := by
  obtain ⟨point, others, spelled, solid⟩ := exists_head_printAt plain level
  rw [spelled, List.cons_append, skipSpaces_cons ((begins_iff point).mp solid).1]

theorem skipSpaces_printString (value rest : Text) :
    skipSpaces (printString value ++ rest) = printString value ++ rest :=
  skipSpaces_printAt (Plain.string value : Plain ⟨none, none⟩ (.string value)) 0 rest

/-- What begins a value neither ends an array nor an object. -/
theorem expect?_close_printAt {value : Json} (plain : Plain limits value) (level : Nat) (rest : Text) :
    expect? "]" (printAt level value ++ rest) = none := by
  obtain ⟨point, others, spelled, begun⟩ := exists_head_printAt plain level
  rw [spelled, List.cons_append]
  exact expect?_cons_of_ne (rfl : "]".toList = [']']) ((begins_iff point).mp begun).2.1 _

theorem expect?_cons_cons_of_ne {token : String} {first second : Char} {others : List Char}
    (spelled : token.toList = first :: second :: others) (point : CodePoint) {next : CodePoint}
    (different : next ≠ CodePoint.ofChar second) (rest : Text) :
    expect? token (point :: next :: rest) = none := by
  have absent : (Text.ofString token).isPrefixOf (point :: next :: rest) = false := by
    rw [Text.ofString, spelled, List.map_cons, List.map_cons, List.isPrefixOf_cons_cons,
      List.isPrefixOf_cons_cons, beq_eq_false_iff_ne.mpr (Ne.symm different), Bool.false_and,
      Bool.and_false]
  simp only [expect?, absent, Bool.false_eq_true, if_false]

/-- The characters with which the words begin that are values. -/
def wordStarts : List Char := ['n', 't', 'f', 'N', 'I']

theorem readWord?_of_other {point : CodePoint}
    (other : point ∉ wordStarts.map CodePoint.ofChar) {rest : Text}
    (unsigned : point = CodePoint.ofChar '-' →
      ∃ digit behind, rest = digit :: behind ∧ isDigit digit = true) :
    readWord? (point :: rest) = none := by
  have noInfinity : expect? "-Infinity" (point :: rest) = none := by
    by_cases sign : point = CodePoint.ofChar '-'
    · obtain ⟨digit, behind, rfl, decimal⟩ := unsigned sign
      have different : digit ≠ CodePoint.ofChar 'I' := by
        rintro rfl
        exact absurd decimal (by decide)
      exact expect?_cons_cons_of_ne (rfl : "-Infinity".toList = '-' :: 'I' :: "nfinity".toList) _
        different behind
    · exact expect?_cons_of_ne rfl sign rest
  have noWord {word : String} {first : Char} {others : List Char}
      (spelled : word.toList = first :: others) (member : first ∈ wordStarts) :
      expect? word (point :: rest) = none := by
    apply expect?_cons_of_ne spelled
    rintro rfl
    exact other (List.mem_map_of_mem member)
  rw [readWord?, noWord rfl (by decide : 'n' ∈ wordStarts),
    noWord rfl (by decide : 't' ∈ wordStarts), noWord rfl (by decide : 'f' ∈ wordStarts),
    noWord rfl (by decide : 'N' ∈ wordStarts), noWord rfl (by decide : 'I' ∈ wordStarts), noInfinity]
  rfl

theorem readWord?_bracket (rest : Text) : readWord? (CodePoint.ofChar '[' :: rest) = none :=
  readWord?_of_other (by decide) (fun sign => absurd sign (by decide))

theorem readWord?_brace (rest : Text) : readWord? (CodePoint.ofChar '\x7b' :: rest) = none :=
  readWord?_of_other (by decide) (fun sign => absurd sign (by decide))

theorem readWord?_quote (rest : Text) : readWord? (CodePoint.ofChar '"' :: rest) = none :=
  readWord?_of_other (by decide) (fun sign => absurd sign (by decide))

end ModuleFence.Json
