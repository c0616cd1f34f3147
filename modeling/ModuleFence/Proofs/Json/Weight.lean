import ModuleFence.Proofs.Json.Token
import ModuleFence.Proofs.Text.Entries

/-!
The weight of JSON texts, which counts the points that are neither blank nor a comma. A text for a list
of strings weighs more than the strings, because of its quotes and brackets.
-/

set_option autoImplicit false

namespace ModuleFence.Json

open Text (isSolid)

/-- The number of points that are neither blank nor a comma. -/
def weight (text : Text) : Nat :=
  text.countP isSolid

@[simp] theorem weight_nil : weight [] = 0 := rfl

@[simp] theorem weight_cons (point : CodePoint) (rest : Text) :
    weight (point :: rest) = weight rest + if isSolid point then 1 else 0 :=
  List.countP_cons

@[simp] theorem weight_append (first second : Text) :
    weight (first ++ second) = weight first + weight second :=
  List.countP_append

theorem weight_le_of_suffix {text whole : Text} (suffix : text <:+ whole) :
    weight text ≤ weight whole :=
  suffix.sublist.countP_le

theorem weight_skipSpaces_le (text : Text) : weight (skipSpaces text) ≤ weight text :=
  weight_le_of_suffix (List.dropWhile_suffix _)

theorem weight_expect? {token : String} {text rest : Text} (found : expect? token text = some rest) :
    weight text = weight (Text.ofString token) + weight rest := by
  simp only [expect?] at found
  split at found
  · rename_i begins
    obtain ⟨behind, rfl⟩ := List.isPrefixOf_iff_prefix.mp begins
    rw [List.drop_left] at found
    rw [Option.some.inj found, weight_append]
  · cases found

theorem weight_fourDigits?_le {text rest : Text} {number : Nat}
    (read : fourDigits? text = some (number, rest)) : weight rest ≤ weight text := by
  unfold fourDigits? at read
  split at read
  · simp only [Option.bind_eq_bind, Option.bind_eq_some_iff] at read
    obtain ⟨_, -, _, -, _, -, _, -, same⟩ := read
    cases same
    simp only [weight_cons]
    omega
  · cases read

theorem weight_joinPair_le (number : Nat) (rest : Text) :
    weight (joinPair number rest).2 ≤ weight rest := by
  unfold joinPair
  split
  · cases read : (expect? "\\u" rest).bind fourDigits? with
    | none => exact Nat.le_refl _
    | some pair =>
      obtain ⟨second, behind⟩ := pair
      obtain ⟨between, found, digits⟩ := Option.bind_eq_some_iff.mp read
      have whole := weight_expect? found
      have part := weight_fourDigits?_le digits
      dsimp only
      split
      · dsimp only
        omega
      · exact Nat.le_refl _
  · exact Nat.le_refl _

/-- A point of a string weighs no more than what it is read from. -/
theorem readStringRest_cases {fuel : Nat} {text value out : Text}
    (read : readStringRest (fuel + 1) text = some (value, out)) :
    (text = CodePoint.ofChar '"' :: out ∧ value = []) ∨
      ∃ first others behind, value = first :: others ∧
        readStringRest fuel behind = some (others, out) ∧
        weight [first] + weight behind ≤ weight text := by
  have light (point : CodePoint) : weight [point] ≤ 1 := by
    rw [weight_cons]
    split <;> simp
  have backslash : isSolid (CodePoint.ofChar '\\') = true := by decide
  cases text with
  | nil => cases read
  | cons point rest =>
    simp only [readStringRest] at read
    split at read
    · rename_i closing
      cases read
      exact .inl ⟨congrArg (· :: _) closing, rfl⟩
    · split at read
      · cases read
      · right
        split at read
        · rename_i escapes
          have heavy : weight (point :: rest) = weight rest + 1 := by
            rw [weight_cons, escapes, if_pos backslash]
          cases rest with
          | nil => cases read
          | cons letter behind =>
            have shorter : weight behind ≤ weight (letter :: behind) :=
              weight_le_of_suffix (List.suffix_cons _ _)
            dsimp only at read
            split at read
            · simp only [Option.bind_eq_bind, Option.bind_eq_some_iff] at read
              obtain ⟨⟨number, after⟩, digits, ⟨others, _⟩, later, first, joined, same⟩ := read
              cases same
              have part := weight_fourDigits?_le digits
              have pair := weight_joinPair_le number after
              refine ⟨first, others, (joinPair number after).2, rfl, later, ?_⟩
              have single := light first
              omega
            · simp only [Option.bind_eq_bind, Option.bind_eq_some_iff] at read
              obtain ⟨first, escaped, ⟨others, _⟩, later, same⟩ := read
              cases same
              refine ⟨first, others, _, rfl, later, ?_⟩
              have single := light first
              omega
        · simp only [Option.bind_eq_bind, Option.bind_eq_some_iff] at read
          obtain ⟨⟨others, _⟩, later, same⟩ := read
          cases same
          refine ⟨point, others, rest, rfl, later, ?_⟩
          rw [← weight_append]
          exact Nat.le_refl _

/-- The rest of a string weighs more than what is read from it, by its closing quote. -/
theorem weight_readStringRest_le {fuel : Nat} {text value out : Text}
    (read : readStringRest fuel text = some (value, out)) :
    weight value + 1 + weight out ≤ weight text := by
  induction fuel generalizing text value with
  | zero => cases read
  | succ fuel ih =>
    rcases readStringRest_cases read with ⟨rfl, rfl⟩ | ⟨first, others, behind, rfl, later, step⟩
    · have quote : isSolid (CodePoint.ofChar '"') = true := by decide
      rw [weight_cons, if_pos quote, weight_nil]
      omega
    · have rest := ih later
      have whole : weight (first :: others) = weight [first] + weight others :=
        weight_append [first] others
      omega

/-- A string weighs more than its value, by its two quotes. -/
theorem weight_readString?_le {text value out : Text} (read : readString? text = some (value, out)) :
    weight value + 2 + weight out ≤ weight text := by
  rw [readString?, Option.bind_eq_bind, Option.bind_eq_some_iff] at read
  obtain ⟨rest, opened, read⟩ := read
  have quote : weight (Text.ofString "\"") = 1 := by decide
  have whole := weight_expect? opened
  have inside := weight_readStringRest_le read
  omega

/-- A value that is neither a string nor made of others. -/
def isScalar : Json → Bool
  | string _ | array _ | object _ => false
  | _ => true

theorem isScalar_of_readWord? {text out : Text} {value : Json}
    (read : readWord? text = some (value, out)) : value.isScalar = true := by
  simp only [readWord?, Option.orElse_eq_orElse, Option.orElse_eq_or, Option.or_eq_some_iff,
    Option.map_eq_some_iff] at read
  rcases read with ⟨_, -, same⟩ | ⟨-, ⟨_, -, same⟩ | ⟨-, ⟨_, -, same⟩ | ⟨-, ⟨_, -, same⟩ |
    ⟨-, ⟨_, -, same⟩ | ⟨-, _, -, same⟩⟩⟩⟩⟩
  all_goals
    cases same
    rfl

theorem isScalar_scaled (mantissa scale : Int) : (scaled mantissa scale).isScalar = true := by
  unfold scaled
  repeat' split
  all_goals rfl

theorem isScalar_of_readNumber? {limit : Option Nat} {text out : Text} {value : Json}
    (read : readNumber? limit text = some (value, out)) : value.isScalar = true := by
  unfold readNumber? at read
  extract_lets negative body digits whole sign at read
  repeat' split at read
  all_goals cases read
  · rfl
  · exact isScalar_scaled _ _

/-- What a value at the front can be. -/
theorem readValue_cases {limits : Limits} {fuel : Nat} {text out : Text} {value : Json}
    (read : readValue limits (fuel + 1) text = .ok (value, out)) :
    value.isScalar = true ∨
    (∃ string, value = .string string ∧ readString? text = some (string, out)) ∨
    (∃ inner items rest, value = .array items ∧ text = CodePoint.ofChar '[' :: rest ∧
      (items = [] ∧ expect? "]" (skipSpaces rest) = some out ∨
        readItems inner fuel (skipSpaces rest) = .ok (items, out))) ∨
    ∃ members, value = .object members := by
  simp only [readValue] at read
  split at read
  · rename_i word
    cases read
    exact .inl (isScalar_of_readWord? word)
  · cases text with
    | nil => cases read
    | cons point rest =>
      dsimp only at read
      split at read
      · obtain ⟨⟨string, _⟩, found, same⟩ := (bind_eq_ok_iff _ _ _).mp read
        cases same
        exact .inr (.inl ⟨string, rfl, (orFault_eq_ok_iff _ _ _).mp found⟩)
      · split at read
        · rename_i opened
          refine .inr (.inr (.inl ?_))
          obtain ⟨inner, -, read⟩ := (bind_eq_ok_iff _ _ _).mp read
          split at read
          · rename_i closed
            cases read
            exact ⟨inner, [], rest, rfl, congrArg (· :: rest) opened, .inl ⟨rfl, closed⟩⟩
          · obtain ⟨⟨items, _⟩, found, same⟩ := (bind_eq_ok_iff _ _ _).mp read
            cases same
            exact ⟨inner, items, rest, rfl, congrArg (· :: rest) opened, .inr found⟩
        · split at read
          · refine .inr (.inr (.inr ?_))
            obtain ⟨inner, -, read⟩ := (bind_eq_ok_iff _ _ _).mp read
            split at read
            · cases read
              exact ⟨[], rfl⟩
            · obtain ⟨⟨members, _⟩, -, same⟩ := (bind_eq_ok_iff _ _ _).mp read
              cases same
              exact ⟨members, rfl⟩
          · exact .inl (isScalar_of_readNumber? ((orFault_eq_ok_iff _ _ _).mp read))

theorem weight_readValue_string {limits : Limits} {fuel : Nat} {text value out : Text}
    (read : readValue limits fuel text = .ok (.string value, out)) :
    weight value + 2 + weight out ≤ weight text := by
  cases fuel with
  | zero => simp [readValue] at read
  | succ fuel =>
    rcases readValue_cases read with scalar | ⟨string, same, found⟩ | ⟨inner, items, rest, same, -⟩ |
      ⟨members, same⟩
    · cases scalar
    · cases same
      exact weight_readString?_le found
    · cases same
    · cases same

/-- Strings in a list weigh less than the rest of the list, by its closing bracket. -/
theorem weight_readItems_strings {limits : Limits} {fuel : Nat} {text out : Text}
    {names : List Text} (read : readItems limits fuel text = .ok (names.map .string, out)) :
    weight names.flatten + 1 + weight out ≤ weight text := by
  induction fuel generalizing text names with
  | zero => simp [readItems] at read
  | succ fuel ih =>
    rw [readItems, bind_eq_ok_iff] at read
    obtain ⟨⟨item, rest⟩, first, read⟩ := read
    have spaced := weight_skipSpaces_le rest
    dsimp only at read
    split at read
    · rename_i behind comma
      obtain ⟨⟨items, _⟩, later, same⟩ := (bind_eq_ok_iff _ _ _).mp read
      cases names with
      | nil => cases same
      | cons name others =>
        obtain ⟨listed, rfl⟩ := Prod.mk.inj (Except.ok.inj same)
        obtain ⟨rfl, rfl⟩ := List.cons.inj listed
        have here := weight_readValue_string first
        have there := ih later
        have passed := weight_expect? comma
        have skipped := weight_skipSpaces_le behind
        rw [List.flatten_cons, weight_append]
        omega
    · obtain ⟨_, closed, same⟩ := (bind_eq_ok_iff _ _ _).mp read
      cases names with
      | nil => cases same
      | cons name others =>
        obtain ⟨listed, rfl⟩ := Prod.mk.inj (Except.ok.inj same)
        obtain ⟨rfl, nothing⟩ := List.cons.inj listed
        have here := weight_readValue_string first
        have bracket : weight (Text.ofString "]") = 1 := by decide
        have passed := weight_expect? ((orFault_eq_ok_iff _ _ _).mp closed)
        rw [List.map_eq_nil_iff.mp nothing.symm, List.flatten_cons, List.flatten_nil, List.append_nil]
        omega

/-- A text for a list begins with a bracket, behind blanks, and weighs more than its strings. -/
theorem readWithin_strings {limits : Limits} {text : Text} {names : List Text}
    (read : readWithin limits text = .ok (.array (names.map .string))) :
    CodePoint.ofChar '[' ∈ text ∧ weight names.flatten + 2 ≤ weight text := by
  rw [readWithin, bind_eq_ok_iff] at read
  obtain ⟨⟨value, out⟩, found, read⟩ := read
  dsimp only at read
  split at read
  · obtain rfl := Except.ok.inj read
    rcases readValue_cases found with scalar | ⟨string, same, -⟩ |
      ⟨inner, items, rest, same, opened, inside⟩ | ⟨members, same⟩
    · cases scalar
    · cases same
    · cases same
      have bracket : isSolid (CodePoint.ofChar '[') = true := by decide
      have spaced := weight_skipSpaces_le text
      have skipped := weight_skipSpaces_le rest
      have member : CodePoint.ofChar '[' ∈ skipSpaces text := by
        rw [opened]
        exact List.mem_cons_self
      refine ⟨(List.dropWhile_suffix _).mem member, ?_⟩
      rw [opened, weight_cons, if_pos bracket] at spaced
      rcases inside with ⟨nothing, closed⟩ | listed
      · have closing : weight (Text.ofString "]") = 1 := by decide
        have passed := weight_expect? closed
        rw [List.map_eq_nil_iff.mp nothing, List.flatten_nil, weight_nil]
        omega
      · have strings := weight_readItems_strings listed
        omega
    · cases same
  · cases read

end ModuleFence.Json
