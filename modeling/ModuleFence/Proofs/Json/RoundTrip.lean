import ModuleFence.Proofs.Json.Front

set_option autoImplicit false

namespace ModuleFence.Json

variable {limits : Limits}

/-- The text of a value is read back at every level, if there are enough steps. -/
def ReadsBack (limits : Limits) (value : Json) : Prop :=
  ∀ (level fuel : Nat) (rest : Text), EndsNumber rest →
    2 * (printAt level value).length ≤ fuel →
      readValue limits fuel (printAt level value ++ rest) = .ok (value, rest)

theorem endsNumber_newLine (level : Nat) (rest : Text) : EndsNumber (newLine level ++ rest) := by
  intro point first
  exact Or.inr (Option.some.inj first).symm

theorem endsNumber_comma (rest : Text) : EndsNumber (CodePoint.ofChar ',' :: rest) := by
  intro point first
  exact Or.inl (Option.some.inj first).symm

theorem skipSpaces_comma (rest : Text) :
    skipSpaces (CodePoint.ofChar ',' :: rest) = CodePoint.ofChar ',' :: rest :=
  skipSpaces_cons (by decide) rest

theorem expect?_comma (rest : Text) : expect? "," (CodePoint.ofChar ',' :: rest) = some rest :=
  expect?_append "," rest

theorem printItems_cons (level : Nat) (item : Json) (items : List Json) :
    printItems level (item :: items) =
      CodePoint.ofChar ',' :: (newLine level ++ (printAt level item ++ printItems level items)) := by
  rw [printItems]
  simp only [Text.concat, List.flatten_cons, List.flatten_nil, List.append_nil]
  rfl

theorem printMembers_cons (level : Nat) (key : Text) (value : Json) (members : List (Text × Json)) :
    printMembers level ((key, value) :: members) =
      CodePoint.ofChar ',' :: (newLine level ++ (printString key ++ (Text.ofString ": " ++
        (printAt level value ++ printMembers level members)))) := by
  rw [printMembers]
  simp only [Text.concat, List.flatten_cons, List.flatten_nil, List.append_nil]
  rfl

theorem printAt_array_cons (level : Nat) (item : Json) (items : List Json) :
    printAt level (.array (item :: items)) =
      CodePoint.ofChar '[' :: (newLine (level + 1) ++ (printAt (level + 1) item ++
        (printItems (level + 1) items ++ (newLine level ++ [CodePoint.ofChar ']'])))) := by
  rw [printAt]
  simp only [Text.concat, List.flatten_cons, List.flatten_nil, List.append_nil]
  rfl

theorem printAt_object_cons (level : Nat) (key : Text) (value : Json)
    (members : List (Text × Json)) :
    printAt level (.object ((key, value) :: members)) =
      CodePoint.ofChar '\x7b' :: (newLine (level + 1) ++ (printString key ++ (Text.ofString ": " ++
        (printAt (level + 1) value ++ (printMembers (level + 1) members ++
          (newLine level ++ [CodePoint.ofChar '\x7d'])))))) := by
  rw [printAt]
  simp only [Text.concat, List.flatten_cons, List.flatten_nil, List.append_nil]
  rfl

/-- The items of a printed array are read back up to its end. -/
theorem readItems_printItems {item : Json} {items : List Json}
    (plain : ∀ other ∈ item :: items, Plain limits other)
    (each : ∀ other ∈ item :: items, ReadsBack limits other) (level below fuel : Nat)
    (rest : Text)
    (enough : 2 * ((printAt level item).length + (printItems level items).length) < fuel) :
    readItems limits fuel (printAt level item ++
        (printItems level items ++ (newLine below ++ CodePoint.ofChar ']' :: rest))) =
      .ok (item :: items, rest) := by
  induction items generalizing item fuel with
  | nil =>
    obtain ⟨fuel, rfl⟩ : ∃ less, fuel = less + 1 := ⟨fuel - 1, by omega⟩
    have read := each item List.mem_cons_self level fuel _
      (endsNumber_newLine below (CodePoint.ofChar ']' :: rest)) (by omega)
    have closes : skipSpaces (newLine below ++ CodePoint.ofChar ']' :: rest) =
        CodePoint.ofChar ']' :: rest := by
      rw [skipSpaces_newLine, skipSpaces_cons (by decide)]
    have noComma : expect? "," (CodePoint.ofChar ']' :: rest) = none :=
      expect?_cons_of_ne (rfl : ",".toList = [',']) (by decide) rest
    have bracket : expect? "]" (CodePoint.ofChar ']' :: rest) = some rest :=
      expect?_append "]" rest
    rw [printItems, List.nil_append, readItems, read]
    simp only [ok_bind, closes, noComma, bracket, orFault_some]
    rfl
  | cons next items ih =>
    obtain ⟨fuel, rfl⟩ : ∃ less, fuel = less + 1 := ⟨fuel - 1, by omega⟩
    have behind := printItems_cons level next items
    have size := congrArg List.length behind
    simp only [List.length_cons, List.length_append] at size
    have read := each item List.mem_cons_self level fuel _ (endsNumber_comma (newLine level ++
      (printAt level next ++ (printItems level items ++
        (newLine below ++ CodePoint.ofChar ']' :: rest))))) (by omega)
    have others := ih (fun other member => plain other (List.mem_cons_of_mem _ member))
      (fun other member => each other (List.mem_cons_of_mem _ member)) fuel (by omega)
    have nextPlain := plain next (List.mem_cons_of_mem _ List.mem_cons_self)
    rw [behind, List.cons_append, List.append_assoc, List.append_assoc, readItems, read]
    simp only [ok_bind, skipSpaces_comma, expect?_comma, skipSpaces_newLine,
      skipSpaces_printAt nextPlain, others]
    rfl

/-- A member is read as its key and its value. -/
theorem readMembers_member {value : Json} (plain : Plain limits value) {level fuel : Nat}
    {behind : Text} (read : readValue limits fuel (printAt level value ++ behind) = .ok (value, behind))
    (key : Text) :
    readMembers limits (fuel + 1)
        (printString key ++ (Text.ofString ": " ++ (printAt level value ++ behind))) =
      match expect? "," (skipSpaces behind) with
      | some further =>
        (readMembers limits fuel (skipSpaces further)).map fun found =>
          ((key, value) :: found.1, found.2)
      | none => (orFault limits.complaint (expect? "\x7d" (skipSpaces behind))).map fun out =>
        ([(key, value)], out) := by
  have colon : skipSpaces (Text.ofString ": " ++ (printAt level value ++ behind)) =
      Text.ofString ":" ++ (CodePoint.ofChar ' ' :: (printAt level value ++ behind)) :=
    skipSpaces_cons (by decide) _
  have blank : skipSpaces (CodePoint.ofChar ' ' :: (printAt level value ++ behind)) =
      printAt level value ++ behind := by
    have gap : isSpace (CodePoint.ofChar ' ') = true := by decide
    rw [skipSpaces, List.dropWhile_cons_of_pos gap]
    exact skipSpaces_printAt plain level behind
  simp only [readMembers, readString?_printString, orFault_some, ok_bind, colon, expect?_append,
    blank, read]
  cases expect? "," (skipSpaces behind) with
  | none =>
    dsimp only
    cases expect? "\x7d" (skipSpaces behind) <;> rfl
  | some further =>
    dsimp only
    cases readMembers limits fuel (skipSpaces further) <;> rfl

/-- The members of a printed object are read back up to its end. -/
theorem readMembers_printMembers {key : Text} {value : Json} {members : List (Text × Json)}
    (plain : ∀ other ∈ (key, value) :: members, Plain limits other.2)
    (each : ∀ other ∈ (key, value) :: members, ReadsBack limits other.2) (level below fuel : Nat)
    (rest : Text)
    (enough : 2 * ((printAt level value).length + (printMembers level members).length) < fuel) :
    readMembers limits fuel (printString key ++ (Text.ofString ": " ++ (printAt level value ++
        (printMembers level members ++ (newLine below ++ CodePoint.ofChar '\x7d' :: rest))))) =
      .ok ((key, value) :: members, rest) := by
  induction members generalizing key value fuel with
  | nil =>
    obtain ⟨fuel, rfl⟩ : ∃ less, fuel = less + 1 := ⟨fuel - 1, by omega⟩
    have valueBack : ReadsBack limits value := each (key, value) List.mem_cons_self
    have read := valueBack level fuel _
      (endsNumber_newLine below (CodePoint.ofChar '\x7d' :: rest)) (by omega)
    have closes : skipSpaces (newLine below ++ CodePoint.ofChar '\x7d' :: rest) =
        CodePoint.ofChar '\x7d' :: rest := by
      rw [skipSpaces_newLine, skipSpaces_cons (by decide)]
    have noComma : expect? "," (CodePoint.ofChar '\x7d' :: rest) = none :=
      expect?_cons_of_ne (rfl : ",".toList = [',']) (by decide) rest
    have brace : expect? "\x7d" (CodePoint.ofChar '\x7d' :: rest) = some rest :=
      expect?_append "\x7d" rest
    rw [printMembers, List.nil_append,
      readMembers_member (plain (key, value) List.mem_cons_self) read, closes, noComma, brace]
    rfl
  | cons next members ih =>
    obtain ⟨nextKey, nextValue⟩ := next
    obtain ⟨fuel, rfl⟩ : ∃ less, fuel = less + 1 := ⟨fuel - 1, by omega⟩
    have behind := printMembers_cons level nextKey nextValue members
    have size := congrArg List.length behind
    simp only [List.length_cons, List.length_append] at size
    have valueBack : ReadsBack limits value := each (key, value) List.mem_cons_self
    have read := valueBack level fuel _
      (endsNumber_comma (newLine level ++ (printString nextKey ++ (Text.ofString ": " ++
        (printAt level nextValue ++ (printMembers level members ++
          (newLine below ++ CodePoint.ofChar '\x7d' :: rest))))))) (by omega)
    have others := ih (fun other member => plain other (List.mem_cons_of_mem _ member))
      (fun other member => each other (List.mem_cons_of_mem _ member)) fuel (by omega)
    rw [behind]
    simp only [List.cons_append, List.append_assoc]
    rw [readMembers_member (plain (key, value) List.mem_cons_self) read]
    simp only [skipSpaces_comma, expect?_comma, skipSpaces_newLine, skipSpaces_printString, others,
      Except.map]

theorem readsBack_integer {number : Int} (short : limits.Allows number) :
    ReadsBack limits (.integer number) := by
  intro level fuel rest ends enough
  have read := readNumber?_ofInt short ends
  obtain ⟨point, others, spelled, begun, signed⟩ := exists_head_ofInt number
  rw [spelled, List.cons_append] at read
  rw [printAt, spelled] at enough
  rw [List.length_cons] at enough
  rw [printAt, spelled, List.cons_append]
  obtain ⟨fuel, rfl⟩ : ∃ less, fuel = less + 1 := ⟨fuel - 1, by omega⟩
  have other {character : Char} (outside : beginsInteger (CodePoint.ofChar character) = false) :=
    ne_of_beginsInteger begun outside
  have noWord : readWord? (point :: (others ++ rest)) = none := by
    apply readWord?_of_other
    · have outside : (wordStarts.map CodePoint.ofChar).any beginsInteger = false := by
        decide
      exact fun member => List.any_eq_false.mp outside point member begun
    · intro sign
      obtain ⟨digit, behind, rfl, decimal⟩ := signed sign
      exact ⟨digit, behind ++ rest, rfl, decimal⟩
  rw [readValue, noWord]
  simp only [if_neg (other (by decide : beginsInteger (CodePoint.ofChar '"') = false)),
    if_neg (other (by decide : beginsInteger (CodePoint.ofChar '[') = false)),
    if_neg (other (by decide : beginsInteger (CodePoint.ofChar '\x7b') = false)), read, orFault_some]

theorem readsBack_string (value : Text) : ReadsBack limits (.string value) := by
  intro level fuel rest ends enough
  have spelled : printAt level (.string value) ++ rest = CodePoint.ofChar '"' ::
      ((value.flatMap printPoint ++ [CodePoint.ofChar '"']) ++ rest) := rfl
  have read : readString? (CodePoint.ofChar '"' ::
      ((value.flatMap printPoint ++ [CodePoint.ofChar '"']) ++ rest)) = some (value, rest) :=
    readString?_printString value rest
  obtain ⟨fuel, rfl⟩ : ∃ less, fuel = less + 1 := by
    have written : 0 < (printAt level (.string value)).length := Nat.succ_pos _
    exact ⟨fuel - 1, by omega⟩
  rw [spelled, readValue, readWord?_quote]
  simp only [if_true, read, orFault_some, ok_bind]
  rfl

theorem readsBack_array {inner : Limits} {items : List Json}
    (enters : limits.enter "array" = .ok inner) (plain : ∀ item ∈ items, Plain inner item)
    (each : ∀ item ∈ items, ReadsBack inner item) : ReadsBack limits (.array items) := by
  intro level fuel rest ends enough
  have noQuote : CodePoint.ofChar '[' ≠ CodePoint.ofChar '"' := by decide
  cases items with
  | nil =>
    obtain ⟨fuel, rfl⟩ : ∃ less, fuel = less + 1 := by
      have written : 0 < (printAt level (.array [])).length := by
        rw [printAt]
        decide
      exact ⟨fuel - 1, by omega⟩
    have spelled : printAt level (.array []) ++ rest =
        CodePoint.ofChar '[' :: CodePoint.ofChar ']' :: rest := by
      rw [printAt]
      rfl
    have closed : expect? "]" (skipSpaces (CodePoint.ofChar ']' :: rest)) = some rest := by
      rw [skipSpaces_cons (by decide)]
      exact expect?_append "]" rest
    rw [spelled, readValue, readWord?_bracket]
    simp only [if_neg noQuote, if_true, enters, ok_bind, closed]
  | cons item items =>
    have spelled := printAt_array_cons level item items
    have size := congrArg List.length spelled
    simp only [List.length_cons, List.length_append] at size
    obtain ⟨fuel, rfl⟩ : ∃ less, fuel = less + 1 := ⟨fuel - 1, by omega⟩
    have itemPlain := plain item List.mem_cons_self
    have read := readItems_printItems plain each (level + 1) level fuel rest (by omega)
    rw [spelled]
    simp only [List.cons_append, List.append_assoc, List.nil_append]
    rw [readValue, readWord?_bracket]
    simp only [if_neg noQuote, if_true, enters, ok_bind, skipSpaces_newLine,
      skipSpaces_printAt itemPlain, expect?_close_printAt itemPlain, read]
    rfl

theorem readsBack_object {inner : Limits} {members : List (Text × Json)}
    (enters : limits.enter "object" = .ok inner) (plain : ∀ member ∈ members, Plain inner member.2)
    (each : ∀ member ∈ members, ReadsBack inner member.2) : ReadsBack limits (.object members) := by
  intro level fuel rest ends enough
  have noQuote : CodePoint.ofChar '\x7b' ≠ CodePoint.ofChar '"' := by decide
  have noBracket : CodePoint.ofChar '\x7b' ≠ CodePoint.ofChar '[' := by decide
  cases members with
  | nil =>
    obtain ⟨fuel, rfl⟩ : ∃ less, fuel = less + 1 := by
      have written : 0 < (printAt level (.object [])).length := by
        rw [printAt]
        decide
      exact ⟨fuel - 1, by omega⟩
    have spelled : printAt level (.object []) ++ rest =
        CodePoint.ofChar '\x7b' :: CodePoint.ofChar '\x7d' :: rest := by
      rw [printAt]
      rfl
    have closed : expect? "\x7d" (skipSpaces (CodePoint.ofChar '\x7d' :: rest)) = some rest := by
      rw [skipSpaces_cons (by decide)]
      exact expect?_append "\x7d" rest
    rw [spelled, readValue, readWord?_brace]
    simp only [if_neg noQuote, if_neg noBracket, if_true, enters, ok_bind, closed]
  | cons member members =>
    obtain ⟨key, value⟩ := member
    have spelled := printAt_object_cons level key value members
    have size := congrArg List.length spelled
    simp only [List.length_cons, List.length_append] at size
    obtain ⟨fuel, rfl⟩ : ∃ less, fuel = less + 1 := ⟨fuel - 1, by omega⟩
    have read := readMembers_printMembers plain each (level + 1) level fuel rest (by omega)
    have noBrace (behind : Text) : expect? "\x7d" (printString key ++ behind) = none :=
      expect?_cons_of_ne (rfl : "\x7d".toList = ['\x7d']) (by decide) _
    rw [spelled]
    simp only [List.cons_append, List.append_assoc, List.nil_append]
    rw [readValue, readWord?_brace]
    simp only [if_neg noQuote, if_neg noBracket, if_true, enters, ok_bind, skipSpaces_newLine,
      skipSpaces_printString, noBrace, read]
    rfl

theorem readsBack_word {value : Json} (word : String)
    (spelled : ∀ level, printAt level value = Text.ofString word)
    (read : ∀ rest, readWord? (Text.ofString word ++ rest) = some (value, rest))
    (written : 0 < word.length) : ReadsBack limits value := by
  intro level fuel rest ends enough
  have size : (Text.ofString word).length = word.length := by
    rw [Text.ofString, List.length_map, String.length_toList]
  rw [spelled, size] at enough
  obtain ⟨fuel, rfl⟩ : ∃ less, fuel = less + 1 := ⟨fuel - 1, by omega⟩
  rw [spelled, readValue.eq_def]
  simp only [read]

/-- Of two words that begin with different characters, neither is read for the other. -/
theorem expect?_other {token word : String} {first start : Char} {others behind : List Char}
    (spelled : token.toList = first :: others) (written : word.toList = start :: behind)
    (different : CodePoint.ofChar start ≠ CodePoint.ofChar first) (rest : Text) :
    expect? token (Text.ofString word ++ rest) = none := by
  rw [Text.ofString, written, List.map_cons, List.cons_append]
  exact expect?_cons_of_ne spelled different _

/-- Every plain value is read back. -/
theorem readsBack_of_plain {value : Json} (plain : Plain limits value) : ReadsBack limits value := by
  induction plain with
  | null =>
    refine readsBack_word "null" (fun level => rfl) (fun rest => ?_) (by decide)
    rw [readWord?, expect?_append]
    rfl
  | bool value =>
    cases value with
    | true =>
      refine readsBack_word "true" (fun level => rfl) (fun rest => ?_) (by decide)
      rw [readWord?, expect?_other rfl rfl (by decide), expect?_append]
      rfl
    | false =>
      refine readsBack_word "false" (fun level => rfl) (fun rest => ?_) (by decide)
      rw [readWord?, expect?_other rfl rfl (by decide), expect?_other rfl rfl (by decide),
        expect?_append]
      rfl
  | integer number short => exact readsBack_integer short
  | notFinite =>
    refine readsBack_word "NaN" (fun level => rfl) (fun rest => ?_) (by decide)
    rw [readWord?, expect?_other rfl rfl (by decide), expect?_other rfl rfl (by decide),
      expect?_other rfl rfl (by decide), expect?_append]
    rfl
  | string value => exact readsBack_string value
  | array items enters each ih => exact readsBack_array enters each ih
  | object members enters each ih => exact readsBack_object enters each ih

/-- A plain value that is laid out is read back, with blanks behind it. -/
theorem readWithin_layOut_append {value : Json} (plain : Plain limits value) {tail : Text}
    (ends : EndsNumber tail) (blank : skipSpaces tail = []) :
    readWithin limits (value.layOut ++ tail) = .ok value := by
  have read := readsBack_of_plain plain 0 (2 * (value.layOut ++ tail).length + 2) tail ends (by
    rw [List.length_append]
    change 2 * value.layOut.length ≤ _
    omega)
  have front : skipSpaces (value.layOut ++ tail) = printAt 0 value ++ tail :=
    skipSpaces_printAt plain 0 tail
  rw [readWithin, front, read]
  simp only [ok_bind, blank, if_true]
  rfl

end ModuleFence.Json
