import ModuleFence.Proofs.Json.Numeral
import ModuleFence.Proofs.Text.Entries
import ModuleFence.Text.Quoted
import ModuleFence.Text.Utf8

set_option autoImplicit false

namespace ModuleFence

namespace Text

theorem splitAt_of_not_mem {separator : CodePoint} {text : Text} (absent : separator ∉ text) :
    text.splitAt separator = [text] := by
  rw [splitAt_eq_splitOn]
  exact List.splitOn_eq_singleton absent

/-- Every separator begins a further piece. -/
theorem length_splitAt (separator : CodePoint) (text : Text) :
    (text.splitAt separator).length = text.count separator + 1 := by
  induction text with
  | nil => rfl
  | cons point rest ih =>
    rw [splitAt, List.count_cons]
    by_cases same : point = separator
    · rw [if_pos same, if_pos (beq_iff_eq.mpr same), List.length_cons, ih]
    · rw [if_neg same, if_neg (mt beq_iff_eq.mp same), Nat.add_zero, ← ih]
      cases split : splitAt separator rest with
      | nil =>
        rw [split] at ih
        cases ih
      | cons piece pieces => rfl

theorem length_flatMap_splitAt (separator : CodePoint) (texts : List Text) :
    (texts.flatMap fun text => text.splitAt separator).length =
      texts.length + texts.flatten.count separator := by
  induction texts with
  | nil => rfl
  | cons text rest ih =>
    rw [List.flatMap_cons, List.length_append, ih, length_splitAt, List.length_cons,
      List.flatten_cons, List.count_append]
    omega

def newLine : CodePoint := '\n'

def OneLine (text : Text) : Prop :=
  newLine ∉ text

instance (text : Text) : Decidable text.OneLine :=
  inferInstanceAs (Decidable (_ ∉ text))

theorem oneLine_append {first second : Text} :
    (first ++ second : Text).OneLine ↔ first.OneLine ∧ second.OneLine := by
  rw [OneLine, List.mem_append, not_or]
  rfl

@[simp] theorem oneLine_concat_nil : (concat []).OneLine := by
  decide

/-- A message is on one line exactly if all its pieces are. -/
@[simp] theorem oneLine_concat_cons (piece : Text) (pieces : List Text) :
    (concat (piece :: pieces)).OneLine ↔ piece.OneLine ∧ (concat pieces).OneLine := by
  rw [concat, List.flatten_cons, oneLine_append]
  rfl

theorem oneLine_concat {pieces : List Text} :
    (concat pieces).OneLine ↔ ∀ piece ∈ pieces, piece.OneLine := by
  induction pieces with
  | nil => simp
  | cons piece rest ih => rw [oneLine_concat_cons, ih, List.forall_mem_cons]

theorem oneLine_map {characters : List Char} :
    OneLine (characters.map CodePoint.ofChar) ↔ '\n' ∉ characters := by
  rw [OneLine, newLine, List.mem_map_of_injective fun _ _ => CodePoint.ofChar_injective]

theorem oneLine_ofString_append {first second : String} :
    (ofString (first ++ second)).OneLine ↔ (ofString first).OneLine ∧ (ofString second).OneLine := by
  rw [ofString, String.toList_append, List.map_append, oneLine_append]
  rfl

theorem oneLine_numeral (number : Nat) : (Json.numeral number).OneLine := fun member =>
  absurd (Json.isDigit_of_mem_numeral member) (by decide)

@[simp] theorem oneLine_ofInt (number : Int) : (ofInt number).OneLine := by
  rw [Json.ofInt_eq, oneLine_append]
  refine ⟨?_, oneLine_numeral _⟩
  split <;> decide

theorem oneLine_toString (number : Nat) : (ofString (toString number)).OneLine := by
  have digits : ofString (toString number) = Json.numeral number := by
    rw [ofString, Nat.toString_eq_repr, Nat.repr_eq_ofList_toDigits, String.toList_ofList]
    rfl
  rw [digits]
  exact oneLine_numeral number

end Text

theorem newLine_not_mem_hexDigits (width number : Nat) : '\n' ∉ hexDigits width number := by
  have digit : ∀ digit < 16, Nat.digitChar digit ≠ '\n' := by decide
  induction width generalizing number with
  | zero => exact List.not_mem_nil
  | succ width ih =>
    rw [hexDigits, List.mem_append, List.mem_singleton, not_or]
    exact ⟨ih _, Ne.symm (digit _ (Nat.mod_lt _ (by decide)))⟩

theorem newLine_not_mem_numericEscape (point : Nat) : '\n' ∉ numericEscape point := by
  rw [numericEscape]
  split_ifs <;> simp [newLine_not_mem_hexDigits]

namespace Text

theorem oneLine_quotePoint {quote : Char} (visible : quote ≠ '\n') (point : CodePoint) :
    (quotePoint quote point).OneLine := by
  have other : newLine ≠ CodePoint.ofChar quote := fun same =>
    visible (CodePoint.ofChar_injective same).symm
  rw [quotePoint]
  split_ifs with special tab newline return_ printable
  · rcases special with rfl | rfl
    · rw [OneLine, List.mem_cons, List.mem_singleton, not_or]
      exact ⟨by decide, other⟩
    · decide
  · decide
  · decide
  · decide
  · rw [OneLine, List.mem_singleton]
    exact Ne.symm newline
  · exact oneLine_map.mpr (newLine_not_mem_numericEscape _)

/-- Line ends in a quoted text are escaped. -/
@[simp] theorem oneLine_quoted (text : Text) : text.quoted.OneLine := by
  have visible : text.quoteFor ≠ '\n' := by
    rw [quoteFor]
    split <;> decide
  have ends : OneLine [CodePoint.ofChar text.quoteFor] := by
    rw [OneLine, List.mem_singleton]
    exact fun same => visible (CodePoint.ofChar_injective same).symm
  rw [quoted, oneLine_append, oneLine_append]
  refine ⟨⟨ends, fun member => ?_⟩, ends⟩
  obtain ⟨point, -, inside⟩ := List.mem_flatMap.mp member
  exact oneLine_quotePoint visible point inside

end Text

theorem Utf8.Fault.oneLine_message (fault : Fault) : fault.message.OneLine := by
  have byte : (Text.ofString (String.ofList (hexDigits 2 fault.byte.toNat))).OneLine := by
    rw [Text.ofString, String.toList_ofList]
    exact Text.oneLine_map.mpr (newLine_not_mem_hexDigits _ _)
  have reason : (Text.ofString fault.reason.wording).OneLine := by
    cases fault.reason <;> decide
  rw [message]
  simp only [Text.oneLine_ofString_append]
  refine ⟨⟨⟨by decide, ?_⟩, by decide⟩, reason⟩
  split
  · simp only [Text.oneLine_ofString_append]
    exact ⟨⟨⟨by decide, byte⟩, by decide⟩, Text.oneLine_toString _⟩
  · simp only [Text.oneLine_ofString_append]
    exact ⟨⟨⟨by decide, Text.oneLine_toString _⟩, by decide⟩, Text.oneLine_toString _⟩

end ModuleFence
