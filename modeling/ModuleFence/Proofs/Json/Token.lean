import ModuleFence.Json.Printer
import ModuleFence.Json.Reader
import ModuleFence.Proofs.Success

set_option autoImplicit false

namespace ModuleFence.Json

@[simp] theorem orFault_some {α : Type} (fault : ReadFault) (found : α) :
    orFault fault (some found) = .ok found :=
  rfl

theorem orFault_eq_ok_iff {α : Type} (fault : ReadFault) (result : Option α) (found : α) :
    orFault fault result = .ok found ↔ result = some found := by
  cases result <;> simp [orFault]

theorem expect?_append (token : String) (rest : Text) :
    expect? token (Text.ofString token ++ rest) = some rest := by
  have begins : (Text.ofString token).isPrefixOf (Text.ofString token ++ rest) = true :=
    List.isPrefixOf_iff_prefix.mpr (List.prefix_append _ rest)
  simp only [expect?, begins, if_true, List.drop_left]

/-- A token does not stand in front of a text that begins with another character. -/
theorem expect?_cons_of_ne {token : String} {first : Char} {others : List Char}
    (spelled : token.toList = first :: others) {point : CodePoint}
    (different : point ≠ CodePoint.ofChar first) (rest : Text) :
    expect? token (point :: rest) = none := by
  have absent : (Text.ofString token).isPrefixOf (point :: rest) = false := by
    rw [Text.ofString, spelled, List.map_cons, List.isPrefixOf_cons_cons]
    simp only [Bool.and_eq_false_iff, beq_eq_false_iff_ne, ne_eq]
    exact Or.inl (Ne.symm different)
  simp only [expect?, absent, Bool.false_eq_true, if_false]

theorem hexDigit?_digitChar : ∀ digit < 16,
    hexDigit? (CodePoint.ofChar (Nat.digitChar digit)) = some digit := by
  decide

/-- Four hexadecimal digits give back the number that they write. -/
theorem fourDigits?_hexDigits {number : Nat} (small : number < 0x10000) (rest : Text) :
    fourDigits? ((hexDigits 4 number).map CodePoint.ofChar ++ rest) = some (number, rest) := by
  have digit (place : Nat) : hexDigit? (CodePoint.ofChar (Nat.digitChar (place % 16))) =
      some (place % 16) := by
    apply hexDigit?_digitChar
    exact Nat.mod_lt place (by decide)
  have sum : (number / 16 / 16 / 16 % 16 * 16 + number / 16 / 16 % 16) * 256 +
      (number / 16 % 16 * 16 + number % 16) = number := by
    omega
  simp only [hexDigits, List.nil_append, List.cons_append, List.map_cons, List.map_nil, fourDigits?,
    digit, Option.bind_eq_bind, Option.bind_some, sum]
  rfl

/-- A string that is read behind a first code point. -/
def consPoint (point : CodePoint) (read : Text × Text) : Text × Text :=
  (point :: read.1, read.2)

theorem readStringRest_letter {letter point : CodePoint} (notNumber : letter ≠ CodePoint.ofChar 'u')
    (escapes : letterEscape? letter = some point) (fuel : Nat) (rest : Text) :
    readStringRest (fuel + 1) (CodePoint.ofChar '\\' :: letter :: rest) =
      (readStringRest fuel rest).map (consPoint point) := by
  have backslash : CodePoint.ofChar '\\' ≠ CodePoint.ofChar '"' := by decide
  have printable : ¬ (CodePoint.ofChar '\\').value < 0x20 := by decide
  simp only [readStringRest, if_neg backslash, if_neg printable, if_true, if_neg notNumber, escapes]
  cases readStringRest fuel rest <;> rfl

theorem readStringRest_number {point : CodePoint} (small : point.value < 0x20) (fuel : Nat)
    (rest : Text) :
    readStringRest (fuel + 1) (CodePoint.ofChar '\\' :: CodePoint.ofChar 'u' ::
        ((hexDigits 4 point.value).map CodePoint.ofChar ++ rest)) =
      (readStringRest fuel rest).map (consPoint point) := by
  have backslash : CodePoint.ofChar '\\' ≠ CodePoint.ofChar '"' := by decide
  have printable : ¬ (CodePoint.ofChar '\\').value < 0x20 := by decide
  have number : fourDigits? ((hexDigits 4 point.value).map CodePoint.ofChar ++ rest) =
      some (point.value, rest) := fourDigits?_hexDigits (by omega) rest
  have alone : joinPair point.value rest = (point.value, rest) := by
    rw [joinPair, if_neg (by omega)]
  have inRange : CodePoint.ofNat? point.value = some point := by
    rw [CodePoint.ofNat?, dif_pos point.inRange]
  simp only [readStringRest, if_neg backslash, if_neg printable, if_true, number,
    Option.bind_eq_bind, Option.bind_some, alone, inRange]
  cases readStringRest fuel rest <;> rfl

theorem readStringRest_plain {point : CodePoint} (notQuote : point ≠ CodePoint.ofChar '"')
    (notBackslash : point ≠ CodePoint.ofChar '\\') (printable : ¬ point.value < 0x20) (fuel : Nat)
    (rest : Text) :
    readStringRest (fuel + 1) (point :: rest) = (readStringRest fuel rest).map (consPoint point) := by
  simp only [readStringRest, if_neg notQuote, if_neg printable, if_neg notBackslash]
  cases readStringRest fuel rest <;> rfl

/-- Each printed code point is read back by one step. -/
theorem readStringRest_printPoint (point : CodePoint) (fuel : Nat) (rest : Text) :
    readStringRest (fuel + 1) (printPoint point ++ rest) =
      (readStringRest fuel rest).map (consPoint point) := by
  unfold printPoint
  split
  next same => subst same; exact readStringRest_letter (by decide) rfl fuel rest
  next notQuote =>
  split
  next same => subst same; exact readStringRest_letter (by decide) rfl fuel rest
  next notBackslash =>
  split
  next same => subst same; exact readStringRest_letter (by decide) rfl fuel rest
  split
  next same => subst same; exact readStringRest_letter (by decide) rfl fuel rest
  split
  next same => subst same; exact readStringRest_letter (by decide) rfl fuel rest
  split
  next same => subst same; exact readStringRest_letter (by decide) rfl fuel rest
  split
  next same => subst same; exact readStringRest_letter (by decide) rfl fuel rest
  split
  next small =>
    rw [Text.ofString, String.toList_ofList]
    exact readStringRest_number small fuel rest
  next printable => exact readStringRest_plain notQuote notBackslash printable fuel rest

theorem length_printPoint_pos (point : CodePoint) : 0 < (printPoint point).length := by
  unfold printPoint
  repeat' split
  all_goals simp [Text.ofString]

/-- The rest of a printed string is read back, if there are enough steps. -/
theorem readStringRest_flatMap (value rest : Text) {fuel : Nat}
    (enough : (value.flatMap printPoint).length < fuel) :
    readStringRest fuel (value.flatMap printPoint ++ CodePoint.ofChar '"' :: rest) =
      some (value, rest) := by
  induction value generalizing fuel with
  | nil =>
    cases fuel with
    | zero => exact absurd enough (Nat.not_lt_zero _)
    | succ fuel => rfl
  | cons point others ih =>
    cases fuel with
    | zero => exact absurd enough (Nat.not_lt_zero _)
    | succ fuel =>
      have written := length_printPoint_pos point
      rw [List.flatMap_cons, List.length_append] at enough
      rw [List.flatMap_cons, List.append_assoc, readStringRest_printPoint, ih (by omega)]
      rfl

/-- A printed string is read back. -/
theorem readString?_printString (value rest : Text) :
    readString? (printString value ++ rest) = some (value, rest) := by
  have spelled : printString value ++ rest =
      CodePoint.ofChar '"' :: (value.flatMap printPoint ++ CodePoint.ofChar '"' :: rest) := by
    simp only [printString, Text.concat, List.flatten_cons, List.flatten_nil, List.append_assoc,
      List.append_nil]
    rfl
  have opens : expect? "\"" (CodePoint.ofChar '"' ::
      (value.flatMap printPoint ++ CodePoint.ofChar '"' :: rest)) =
        some (value.flatMap printPoint ++ CodePoint.ofChar '"' :: rest) :=
    expect?_append "\"" _
  rw [spelled, readString?, opens]
  apply readStringRest_flatMap
  simp only [List.length_cons, List.length_append]
  omega

end ModuleFence.Json
