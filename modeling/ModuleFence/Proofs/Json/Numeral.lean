import ModuleFence.Proofs.Json.Token

/-!
Integers in JSON texts. An integer is printed with a sign and its decimal digits, without a leading
zero; what is read is the longest numeral at the front, so that the integer comes back if nothing
stands behind it that would go on with it.
-/

set_option autoImplicit false

namespace ModuleFence.Json

def numeral (number : Nat) : Text :=
  (Nat.toDigits 10 number).map CodePoint.ofChar

/-- Nothing that would go on with a number stands at the front of a text: it is empty, or begins with
a comma or a new line. -/
def EndsNumber (rest : Text) : Prop :=
  ∀ point ∈ rest.head?, point = CodePoint.ofChar ',' ∨ point = CodePoint.ofChar '\n'

theorem ofInt_eq (number : Int) :
    Text.ofInt number =
      (if number < 0 then [CodePoint.ofChar '-'] else []) ++ numeral number.natAbs := by
  have text : toString number = number.repr := Int.toString_eq_repr
  rw [Text.ofInt, text, Int.repr_eq_if]
  by_cases negative : number < 0
  · have size : (-number).toNat = number.natAbs := by omega
    rw [if_neg (by omega), if_pos negative, size, Text.ofString, String.toList_append,
      Nat.repr_eq_ofList_toDigits, String.toList_ofList, String.toList_ofList, List.map_append]
    rfl
  · have size : number.toNat = number.natAbs := by omega
    rw [if_pos (by omega), if_neg negative, size, Text.ofString, Nat.repr_eq_ofList_toDigits,
      String.toList_ofList]
    rfl

theorem isDigit_of_mem_numeral {number : Nat} {point : CodePoint} (member : point ∈ numeral number) :
    isDigit point = true := by
  obtain ⟨digit, inside, rfl⟩ := List.mem_map.mp member
  have decimal : digit.isDigit = true :=
    Nat.isDigit_of_mem_toDigits (by decide) (by decide) inside
  rw [Char.isDigit_iff_toNat] at decimal
  simp only [isDigit, Bool.and_eq_true, decide_eq_true_eq]
  exact decimal

theorem numeral_ne_nil (number : Nat) : numeral number ≠ [] := by
  rw [numeral, Ne, List.map_eq_nil_iff]
  exact Nat.toDigits_ne_nil

theorem digitsValue_numeral (number : Nat) : digitsValue (numeral number) = number := by
  have folded : digitsValue (numeral number) = Nat.ofDigitChars 10 (Nat.toDigits 10 number) 0 := by
    rw [digitsValue, numeral, List.foldl_map, Nat.ofDigitChars_eq_foldl]
    congr 1
    funext value digit
    rw [Nat.mul_comm 10 value]
    rfl
  rw [folded, Nat.ofDigitChars_ten_toDigits]

/-- Only zero is written with a zero in front. -/
theorem head?_numeral_ne {number : Nat} (positive : 0 < number) :
    (numeral number).head? ≠ some (CodePoint.ofChar '0') := by
  induction number using Nat.strongRecOn with
  | ind number ih =>
    by_cases short : number < 10
    · rw [numeral, Nat.toDigits_of_lt_base short]
      intro same
      have digit := congrArg CodePoint.value (Option.some.inj same)
      have value : (Nat.digitChar number).toNat = 48 + number := Nat.toNat_digitChar_of_lt_ten short
      change (Nat.digitChar number).toNat = 48 at digit
      omega
    · have above := ih (number / 10) (by omega) (by omega)
      have split : numeral number =
          numeral (number / 10) ++ [CodePoint.ofChar (Nat.digitChar (number % 10))] := by
        rw [numeral, Nat.toDigits_of_base_le (by decide) (by omega), List.map_append]
        rfl
      rw [split, List.head?_append, Option.or_of_isSome]
      · exact above
      · exact List.isSome_head?.mpr (numeral_ne_nil _)

theorem head?_numeral_append_ne (number : Nat) (rest : Text) :
    ¬ (numeral number ++ rest).head? = some (CodePoint.ofChar '-') := by
  cases spelled : numeral number with
  | nil => exact absurd spelled (numeral_ne_nil number)
  | cons point others =>
    intro same
    have digit : isDigit point = true :=
      isDigit_of_mem_numeral (by rw [spelled]; exact List.mem_cons_self)
    rw [Option.some.inj same] at digit
    exact absurd digit (by decide)

theorem takeWhile_numeral (number : Nat) {rest : Text} (ends : EndsNumber rest) :
    (numeral number ++ rest).takeWhile isDigit = numeral number := by
  rw [List.takeWhile_append_of_pos fun point member => isDigit_of_mem_numeral member]
  have stops : rest.takeWhile isDigit = [] := by
    cases rest with
    | nil => rfl
    | cons point others =>
      apply List.takeWhile_cons_of_neg
      rcases ends point rfl with rfl | rfl <;> decide
  rw [stops, List.append_nil]

/-- The digits of a number are the integer part that is read. -/
theorem wholePart_numeral (number : Nat) :
    (if (numeral number).head? = some (CodePoint.ofChar '0') then (numeral number).take 1
      else numeral number) = numeral number := by
  by_cases positive : 0 < number
  · rw [if_neg (head?_numeral_ne positive)]
  · obtain rfl : number = 0 := by omega
    rfl

theorem readFraction_of_ends {rest : Text} (ends : EndsNumber rest) :
    readFraction rest = ([], rest) := by
  cases rest with
  | nil => rfl
  | cons point others =>
    have noPoint : point ≠ CodePoint.ofChar '.' := by
      rcases ends point rfl with rfl | rfl <;> decide
    rw [readFraction, if_neg fun both => noPoint both.1]

theorem readExponent_of_ends {rest : Text} (ends : EndsNumber rest) :
    readExponent rest = (none, rest) := by
  cases rest with
  | nil => rfl
  | cons point others =>
    have noMark : ¬ (point = CodePoint.ofChar 'e' ∨ point = CodePoint.ofChar 'E') := by
      rcases ends point rfl with rfl | rfl <;> decide
    rw [readExponent, if_neg noMark]

/-- An integer is read back, if it has no more digits than are allowed. -/
theorem readNumber?_ofInt {limit : Option Nat} {number : Int}
    (short : ∀ most ∈ limit, (numeral number.natAbs).length ≤ most) {rest : Text}
    (ends : EndsNumber rest) :
    readNumber? limit (Text.ofInt number ++ rest) = some (.integer number, rest) := by
  have allowed : limit.any (· < (numeral number.natAbs).length) = false := by
    cases limit with
    | none => rfl
    | some most =>
      have := short most rfl
      simp only [Option.any_some, decide_eq_false_iff_not]
      omega
  have written := numeral_ne_nil number.natAbs
  rw [ofInt_eq, List.append_assoc]
  by_cases negative : number < 0
  · have value : -1 * ((number.natAbs : Nat) : Int) = number := by omega
    simp only [readNumber?, if_pos negative, List.cons_append, List.nil_append, List.head?_cons,
      if_true, List.drop_one, List.tail_cons, takeWhile_numeral _ ends, wholePart_numeral,
      if_neg written, List.drop_left, readFraction_of_ends ends, readExponent_of_ends ends, allowed,
      digitsValue_numeral, value, and_self, Bool.false_eq_true, if_false]
  · have value : 1 * ((number.natAbs : Nat) : Int) = number := by omega
    simp only [readNumber?, if_neg negative, List.nil_append, head?_numeral_append_ne,
      if_false, takeWhile_numeral _ ends, wholePart_numeral,
      if_neg written, List.drop_left, readFraction_of_ends ends, readExponent_of_ends ends, allowed,
      digitsValue_numeral, value, and_self, Bool.false_eq_true, if_true]

end ModuleFence.Json
