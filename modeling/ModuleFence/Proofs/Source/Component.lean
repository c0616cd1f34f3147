import Mathlib.Data.List.Forall2
import ModuleFence.Proofs.Source.Extraction
import ModuleFence.Proofs.Source.Language

set_option autoImplicit false

namespace ModuleFence.Vue

/-- Some characters spell a word, each letter of it in any case. -/
def Spells (word characters : List Char) : Prop :=
  List.Forall₂ (fun letter character => matchesLetter letter character = true) word characters

theorem behindWord?_append {word spelling : List Char} (spells : Spells word spelling)
    (rest : List Char) : behindWord? word (spelling ++ rest) = some rest := by
  induction spells with
  | nil => rfl
  | cons matching _ ih => rw [List.cons_append, behindWord?, if_pos matching, ih]

theorem exists_of_behindWord? {word characters rest : List Char}
    (found : behindWord? word characters = some rest) :
    ∃ spelling, characters = spelling ++ rest ∧ Spells word spelling := by
  induction word generalizing characters with
  | nil =>
    cases found
    exact ⟨[], rfl, List.Forall₂.nil⟩
  | cons letter letters ih =>
    cases characters with
    | nil => cases found
    | cons character behind =>
      rw [behindWord?] at found
      split at found
      · rename_i matching
        obtain ⟨spelling, rfl, spells⟩ := ih found
        exact ⟨character :: spelling, rfl, List.Forall₂.cons matching spells⟩
      · cases found

/-- The bracket of a tag is no letter of a word. -/
theorem not_mem_of_spells {word spelling : List Char} (spells : Spells word spelling)
    (absent : '<' ∉ word) : '<' ∉ spelling := by
  induction spells with
  | nil => exact absent
  | @cons letter character letters characters matching _ ih =>
    rw [List.mem_cons, not_or] at absent ⊢
    refine ⟨?_, ih absent.2⟩
    rintro rfl
    have lower : ('<').toLower = '<' := rfl
    simp only [matchesLetter, lower, Bool.or_eq_true, Bool.and_eq_true, beq_iff_eq] at matching
    rcases matching with (same | ⟨-, same⟩) | ⟨-, same | same⟩
    · exact absent.1 same
    · exact absurd same (by decide)
    · exact absurd same (by decide)
    · exact absurd same (by decide)

theorem eq_bracket_of_toLower {character : Char} (same : character.toLower = '<') :
    character = '<' := by
  delta Char.toLower at same
  split at same
  · rename_i upper
    have low : 65 ≤ character.toNat := UInt32.le_iff_toNat_le.mp upper.1
    have high : character.toNat ≤ 90 := UInt32.le_iff_toNat_le.mp upper.2
    have lowered : (character.toNat + 32) % 4294967296 = 60 :=
      congrArg Char.toNat same
    omega
  · exact same

/-- Only the bracket itself stands for the bracket of a tag. -/
theorem eq_bracket_of_matches {character : Char} (matching : matchesLetter '<' character = true) :
    character = '<' := by
  simp only [matchesLetter, Bool.or_eq_true, Bool.and_eq_true, beq_iff_eq] at matching
  rcases matching with (same | ⟨impossible, -⟩) | ⟨impossible, -⟩
  · exact eq_bracket_of_toLower same
  · exact absurd impossible (by decide)
  · exact absurd impossible (by decide)

theorem exists_bracket {letters spelling : List Char} (spells : Spells ('<' :: letters) spelling) :
    ∃ behind, spelling = '<' :: behind := by
  cases spells with
  | cons matching _ => exact ⟨_, by rw [eq_bracket_of_matches matching]⟩

/-- A mark that stands behind the front of a text and within no other part of what is found at the
beginning of the text stands behind what is found. -/
theorem exists_append_of_mark {mark : Char} {found rest front behind : List Char}
    (unmarked : mark ∉ found.tail) (nonempty : front ≠ [])
    (same : found ++ rest = front ++ mark :: behind) :
    ∃ between, front = found ++ between ∧ rest = between ++ mark :: behind := by
  rcases List.append_eq_append_iff.mp same with ⟨between, front_eq, rest_eq⟩ | ⟨between, found_eq, mark_eq⟩
  · exact ⟨between, front_eq, rest_eq⟩
  · cases between with
    | nil =>
      rw [List.append_nil] at found_eq
      exact ⟨[], by rw [found_eq, List.append_nil], mark_eq.symm⟩
    | cons first others =>
      obtain ⟨character, characters, rfl⟩ := List.exists_cons_of_ne_nil nonempty
      rw [List.cons_append, List.cons.injEq] at mark_eq
      obtain ⟨rfl, -⟩ := mark_eq
      rw [found_eq, List.cons_append, List.tail_cons] at unmarked
      exact absurd (List.mem_append_right _ List.mem_cons_self) unmarked

/-- Some characters begin with the word of an opening tag, and it does not go on behind it. -/
def BeginsOpening (characters : List Char) : Prop :=
  ∃ spelling behind, characters = spelling ++ behind ∧ Spells openingWord spelling ∧
    beginsInWord behind = false

def BeginsClosing (characters : List Char) : Prop :=
  ∃ spelling gap behind, characters = spelling ++ (gap ++ '>' :: behind) ∧
    Spells closingWord spelling ∧ AllBlank gap

theorem behindClosingTag?_append {spelling gap : List Char} (spells : Spells closingWord spelling)
    (blank : AllBlank gap) (rest : List Char) :
    behindClosingTag? (spelling ++ (gap ++ '>' :: rest)) = some rest := by
  have dropped : (gap ++ '>' :: rest).dropWhile isBlankCharacter = '>' :: rest := by
    apply dropWhile_blank_append blank
    intro character member
    cases member
    decide
  rw [behindClosingTag?, behindWord?_append spells]
  simp only [dropped]

theorem beginsClosing_of_isSome {characters : List Char}
    (closes : (behindClosingTag? characters).isSome = true) : BeginsClosing characters := by
  rw [behindClosingTag?] at closes
  split at closes
  · cases closes
  rename_i behind word
  obtain ⟨spelling, rfl, spells⟩ := exists_of_behindWord? word
  split at closes
  · rename_i rest dropped
    refine ⟨spelling, behind.takeWhile isBlankCharacter, rest, ?_, spells, allBlank_takeWhile _⟩
    rw [← dropped, List.takeWhile_append_dropWhile]
  · cases closes

/-- A script element as a component may spell it. -/
structure Element where
  opening : List Char
  attributes : List Char
  body : List Char
  closing : List Char
  gap : List Char
  spells_opening : Spells openingWord opening
  attributes_apart : beginsInWord attributes = false
  attributes_open : '>' ∉ attributes
  body_open : ∀ front rest, body = front ++ rest → ¬ BeginsClosing rest
  spells_closing : Spells closingWord closing
  gap_blank : AllBlank gap

namespace Element

def openingTag (element : Element) : List Char :=
  element.opening ++ (element.attributes ++ ['>'])

def closingTag (element : Element) : List Char :=
  element.closing ++ (element.gap ++ ['>'])

def text (element : Element) : List Char :=
  element.openingTag ++ (element.body ++ element.closingTag)

/-- What extraction is to leave of the element. -/
def shown (element : Element) : List Char :=
  element.openingTag.map blanked ++
    ((if NamesLinted element.attributes then element.body else element.body.map blanked) ++
      element.closingTag.map blanked)

/-- An element begins with a bracket. -/
theorem exists_text_eq (element : Element) : ∃ behind, element.text = '<' :: behind := by
  obtain ⟨behind, spelled⟩ := exists_bracket element.spells_opening
  rw [text, openingTag, spelled]
  exact ⟨_, rfl⟩

variable (element : Element) (rest : List Char)

theorem openingTag?_text :
    openingTag? (element.text ++ rest) =
      some (element.attributes, element.body ++ (element.closingTag ++ rest)) := by
  have apart : beginsInWord (element.attributes ++
      '>' :: (element.body ++ (element.closingTag ++ rest))) = false := by
    have apart := element.attributes_apart
    cases spelled : element.attributes with
    | nil =>
      have free : isWordCharacter '>' = false := by decide +kernel
      exact free
    | cons first others =>
      rw [spelled] at apart
      exact apart
  have inside : ∀ character ∈ element.attributes, (decide (character ≠ '>')) = true := by
    intro character member
    rw [decide_eq_true_eq]
    rintro rfl
    exact element.attributes_open member
  have dropped : (element.attributes ++ '>' :: (element.body ++ (element.closingTag ++ rest))).dropWhile
      (· ≠ '>') = '>' :: (element.body ++ (element.closingTag ++ rest)) := by
    rw [List.dropWhile_append_of_pos inside]
    rfl
  have taken : (element.attributes ++ '>' :: (element.body ++ (element.closingTag ++ rest))).takeWhile
      (· ≠ '>') = element.attributes := by
    rw [List.takeWhile_append_of_pos inside]
    exact List.append_nil _
  have spelled : element.text ++ rest = element.opening ++
      (element.attributes ++ '>' :: (element.body ++ (element.closingTag ++ rest))) := by
    simp only [text, openingTag, List.append_assoc, List.cons_append, List.nil_append]
  rw [spelled, openingTag?, behindWord?_append element.spells_opening]
  simp only [apart, dropped, taken, Bool.false_eq_true, if_false]

theorem behindClosingTag?_closingTag :
    behindClosingTag? (element.closingTag ++ rest) = some rest := by
  have spelled : element.closingTag ++ rest = element.closing ++ (element.gap ++ '>' :: rest) := by
    simp only [closingTag, List.append_assoc, List.cons_append, List.nil_append]
  rw [spelled]
  exact behindClosingTag?_append element.spells_closing element.gap_blank rest

end Element

/-- A closing tag that is found before another one lies before it as a whole. -/
theorem exists_append_of_beginsClosing {front behind : List Char} (nonempty : front ≠ [])
    (begins : BeginsClosing (front ++ '<' :: behind)) : BeginsClosing front := by
  obtain ⟨spelling, gap, rest, same, spells, blank⟩ := begins
  have unmarked : '<' ∉ (spelling ++ (gap ++ ['>'])).tail := by
    cases spells with
    | @cons letter character letters characters matching others =>
      rw [List.cons_append, List.tail_cons, List.mem_append, List.mem_append, not_or, not_or]
      refine ⟨not_mem_of_spells others (by decide), ?_, by decide⟩
      intro member
      exact absurd (blank _ member) (by decide)
  have regrouped : (spelling ++ (gap ++ ['>'])) ++ rest = front ++ '<' :: behind := by
    rw [same]
    simp only [List.append_assoc, List.cons_append, List.nil_append]
  obtain ⟨between, front_eq, -⟩ := exists_append_of_mark unmarked nonempty regrouped
  refine ⟨spelling, gap, between, ?_, spells, blank⟩
  rw [front_eq]
  simp only [List.append_assoc, List.cons_append, List.nil_append]

/-- A body that holds no closing tag ends at the first one behind it. -/
theorem body?_append {body closing : List Char}
    (body_open : ∀ front rest, body = front ++ rest → ¬ BeginsClosing rest)
    (begins : ∃ behind, closing = '<' :: behind)
    (closes : (behindClosingTag? closing).isSome = true) :
    body? (body ++ closing) = some body := by
  obtain ⟨behind, rfl⟩ := begins
  induction body with
  | nil =>
    rw [List.nil_append, body?, if_pos closes]
  | cons character body ih =>
    have unclosed : ¬ (behindClosingTag? (character :: (body ++ '<' :: behind))).isSome = true := by
      intro found
      have whole : BeginsClosing ((character :: body) ++ '<' :: behind) :=
        beginsClosing_of_isSome found
      exact body_open [] _ rfl (exists_append_of_beginsClosing (List.cons_ne_nil _ _) whole)
    have shorter : ∀ front rest, body = front ++ rest → ¬ BeginsClosing rest := by
      rintro front rest rfl
      exact body_open (character :: front) rest rfl
    rw [List.cons_append, body?, if_neg unclosed, ih shorter]
    rfl

theorem before_append (front rest : List Char) : before (front ++ rest) rest = front := by
  rw [before, List.length_append, Nat.add_sub_cancel, List.take_left]

/-- The block that is found at an element is the element. -/
theorem block?_text (element : Element) (rest : List Char) :
    block? (element.text ++ rest) =
      some ⟨element.openingTag, element.attributes, element.body, element.closingTag, rest⟩ := by
  have closed := element.behindClosingTag?_closingTag rest
  have begins : ∃ behind, element.closingTag ++ rest = '<' :: behind := by
    obtain ⟨behind, spelled⟩ := exists_bracket element.spells_closing
    rw [Element.closingTag, spelled]
    exact ⟨_, rfl⟩
  have bodied : body? (element.body ++ (element.closingTag ++ rest)) = some element.body := by
    apply body?_append element.body_open begins
    rw [closed]
    rfl
  have opening : before (element.text ++ rest) (element.body ++ (element.closingTag ++ rest)) =
      element.openingTag := by
    rw [Element.text, List.append_assoc, List.append_assoc, before_append]
  rw [block?, element.openingTag?_text]
  simp only [bodied, List.drop_left, closed, opening, before_append]

theorem extractScript_of_block {characters : List Char} {block : Block}
    (found : block? characters = some block) :
    extractScript characters = block.extracted ++ extractScript block.rest := by
  cases characters with
  | nil => cases found
  | cons character rest =>
    rw [extractScript]
    split
    · rename_i absent
      rw [found] at absent
      cases absent
    · rename_i other again
      rw [found] at again
      cases again
      rfl

theorem extractScript_of_none {character : Char} {rest : List Char}
    (absent : block? (character :: rest) = none) :
    extractScript (character :: rest) = blanked character :: extractScript rest := by
  rw [extractScript]
  split
  · rfl
  · rename_i other found
    rw [absent] at found
    cases found

theorem extractScript_text (element : Element) (rest : List Char) :
    extractScript (element.text ++ rest) = element.shown ++ extractScript rest := by
  rw [extractScript_of_block (block?_text element rest), Block.extracted, Element.shown]
  simp only [isLinted_iff, List.append_assoc]

/-- Text that opens no script: what it has of opening tags goes on as another word. -/
def Plain (filler : List Char) : Prop :=
  ∀ front rest, filler = front ++ rest → ¬ BeginsOpening rest

theorem Plain.of_cons {character : Char} {filler : List Char} (plain : Plain (character :: filler)) :
    Plain filler := by
  rintro front rest rfl
  exact plain (character :: front) rest rfl

/-- An element does not complete an opening tag that plain text begins. -/
theorem block?_of_plain {character : Char} {filler rest : List Char}
    (plain : Plain (character :: filler)) (begins : rest = [] ∨ ∃ behind, rest = '<' :: behind) :
    block? (character :: filler ++ rest) = none := by
  have unopened : openingTag? (character :: filler ++ rest) = none := by
    cases word : behindWord? openingWord (character :: filler ++ rest) with
    | none => rw [openingTag?, word]
    | some behind =>
      cases free : beginsInWord behind with
      | true =>
        rw [openingTag?, word]
        simp only [free, if_true]
      | false =>
        obtain ⟨spelling, same, spells⟩ := exists_of_behindWord? word
        refine absurd ?_ (plain [] _ rfl)
        rcases begins with rfl | ⟨others, rfl⟩
        · rw [List.append_nil] at same
          exact ⟨spelling, behind, same, spells, free⟩
        · have unmarked : '<' ∉ spelling.tail := by
            cases spells with
            | cons _ letters => exact not_mem_of_spells letters (by decide)
          obtain ⟨between, front_eq, rfl⟩ :=
            exists_append_of_mark unmarked (List.cons_ne_nil _ _) same.symm
          refine ⟨spelling, between, front_eq, spells, ?_⟩
          cases between with
          | nil => rfl
          | cons first further => exact free
  rw [block?, unopened]

theorem extractScript_plain_append {filler rest : List Char} (plain : Plain filler)
    (begins : rest = [] ∨ ∃ behind, rest = '<' :: behind) :
    extractScript (filler ++ rest) = filler.map blanked ++ extractScript rest := by
  induction filler with
  | nil => rfl
  | cons character filler ih =>
    have absent := block?_of_plain plain begins
    rw [List.cons_append] at absent
    rw [List.cons_append, extractScript_of_none absent, ih plain.of_cons]
    rfl

/-- A component as it may be written: plain text, and elements with plain text behind each. -/
structure Component where
  lead : List Char
  parts : List (Element × List Char)
  lead_plain : Plain lead
  parts_plain : ∀ part ∈ parts, Plain part.2

namespace Component

/-- Elements, with what stands behind each, as they are written. -/
def textOf (parts : List (Element × List Char)) : List Char :=
  parts.flatMap fun part => part.1.text ++ part.2

/-- What extraction is to leave of elements and what stands behind each. -/
def shownOf (parts : List (Element × List Char)) : List Char :=
  parts.flatMap fun part => part.1.shown ++ part.2.map blanked

def text (component : Component) : List Char :=
  component.lead ++ textOf component.parts

/-- What extraction is to leave of the component. -/
def shown (component : Component) : List Char :=
  component.lead.map blanked ++ shownOf component.parts

theorem textOf_begins (parts : List (Element × List Char)) :
    textOf parts = [] ∨ ∃ behind, textOf parts = '<' :: behind := by
  cases parts with
  | nil => exact Or.inl rfl
  | cons part rest =>
    obtain ⟨behind, spelled⟩ := part.1.exists_text_eq
    rw [textOf, List.flatMap_cons, spelled]
    exact Or.inr ⟨_, rfl⟩

theorem extractScript_textOf {parts : List (Element × List Char)}
    (plain : ∀ part ∈ parts, Plain part.2) :
    extractScript (textOf parts) = shownOf parts := by
  induction parts with
  | nil =>
    rw [textOf, List.flatMap_nil, extractScript]
    rfl
  | cons part rest ih =>
    rw [List.forall_mem_cons] at plain
    have later : extractScript (textOf rest) = shownOf rest := ih plain.2
    have spelled : textOf (part :: rest) = part.1.text ++ (part.2 ++ textOf rest) := by
      rw [textOf, List.flatMap_cons, List.append_assoc]
      rfl
    rw [spelled, extractScript_text, extractScript_plain_append plain.1 (textOf_begins rest), later,
      ← List.append_assoc]
    rfl

end Component

/-- Extraction changes characters one by one, and leaves every end of a line. -/
theorem getElem?_extractScript {text : List Char} {index : Nat} {character : Char}
    (here : text[index]? = some character) :
    ∃ shown, (extractScript text)[index]? = some shown ∧
      (shown = '\n' ↔ character = '\n') ∧ (shown = character ∨ shown = ' ') := by
  rw [← map_character_marked text, List.getElem?_map, Option.map_eq_some_iff] at here
  obtain ⟨mark, marked_here, rfl⟩ := here
  refine ⟨mark.shown, ?_, mark.shown_eq_newline_iff, mark.shown_eq_or_blank⟩
  rw [← map_shown_marked, List.getElem?_map, marked_here]
  rfl

theorem length_extractScript (text : List Char) : (extractScript text).length = text.length := by
  calc (extractScript text).length
      = (marked text).length := by rw [← map_shown_marked, List.length_map]
    _ = ((marked text).map Marked.character).length := (List.length_map _).symm
    _ = text.length := by rw [map_character_marked]

/-- Of a component extraction leaves exactly the bodies of the elements that are linted; of any text
it leaves the length, and each character as it was or as a blank, with the ends of lines where they
were. -/
theorem extractScript_keeps_scripts :
    (∀ component : Component, extractScript component.text = component.shown) ∧
    ∀ text : List Char, (extractScript text).length = text.length ∧
      ∀ (index : Nat) (character : Char), text[index]? = some character →
        ∃ shown, (extractScript text)[index]? = some shown ∧
          (shown = '\n' ↔ character = '\n') ∧ (shown = character ∨ shown = ' ') := by
  refine ⟨fun component => ?_, fun text => ⟨length_extractScript text,
    fun index character here => getElem?_extractScript here⟩⟩
  have begins := Component.textOf_begins component.parts
  rw [Component.text, extractScript_plain_append component.lead_plain begins,
    Component.extractScript_textOf component.parts_plain]
  rfl

end ModuleFence.Vue
