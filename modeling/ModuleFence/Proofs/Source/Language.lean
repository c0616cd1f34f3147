import Mathlib.Data.List.TakeWhile
import ModuleFence.Source.Vue

/-!
The language of a script. Attributes name a language where the name of the attribute, which does not
go on a word, is followed by an equals sign, perhaps a quote, and characters of a language. The
first such place counts, with all the characters that follow it there.
-/

set_option autoImplicit false

namespace ModuleFence.Vue

def blankPoints : List Nat :=
  List.range' 9 5 ++ List.range' 28 5 ++ [0x85, 0xA0, 0x1680] ++ List.range' 0x2000 11 ++
    [0x2028, 0x2029, 0x202F, 0x205F, 0x3000]

theorem mem_blankPoints {point : Nat} (blank : isBlankPoint point = true) :
    point ∈ blankPoints := by
  simp only [isBlankPoint, Bool.or_eq_true, Bool.and_eq_true, decide_eq_true_eq, beq_iff_eq] at blank
  simp only [blankPoints, List.mem_append, List.mem_range'_1, List.mem_cons, List.not_mem_nil,
    or_false]
  omega

theorem forall_blankPoints : ∀ point ∈ blankPoints, isWordPoint point = false := by
  decide +kernel

/-- No blank belongs to a word. -/
theorem isBlankCharacter_of_word {character : Char} (word : isWordCharacter character = true) :
    isBlankCharacter character = false := by
  cases blank : isBlankCharacter character with
  | false => rfl
  | true =>
    have outside := forall_blankPoints _ (mem_blankPoints blank)
    rw [isWordCharacter, outside] at word
    cases word

/-- Whether a character can stand in the name of a language. -/
def isLanguageCharacter (character : Char) : Bool :=
  isWordCharacter character || character == '-'

theorem isBlankCharacter_of_language {character : Char}
    (inside : isLanguageCharacter character = true) : isBlankCharacter character = false := by
  rw [isLanguageCharacter, Bool.or_eq_true, beq_iff_eq] at inside
  rcases inside with word | rfl
  · exact isBlankCharacter_of_word word
  · decide

/-- The quotes that may stand before the name of a language, the absent one included. -/
def openingQuotes : List (List Char) :=
  [[], ['"'], ['\'']]

/-- A character that opens a quotation. -/
def IsQuote (character : Char) : Prop :=
  character = '"' ∨ character = '\''

theorem not_isQuote_of_language {character : Char}
    (inside : isLanguageCharacter character = true) : ¬ IsQuote character := by
  rintro (rfl | rfl)
  · exact absurd inside (by decide +kernel)
  · exact absurd inside (by decide +kernel)

def AllBlank (characters : List Char) : Prop :=
  ∀ character ∈ characters, isBlankCharacter character = true

theorem allBlank_takeWhile (characters : List Char) :
    AllBlank (characters.takeWhile isBlankCharacter) :=
  fun _ member => List.mem_takeWhile_imp member

theorem dropWhile_blank_append {gap rest : List Char} (blank : AllBlank gap)
    (stops : ∀ character ∈ rest.head?, isBlankCharacter character = false) :
    (gap ++ rest).dropWhile isBlankCharacter = rest := by
  rw [List.dropWhile_append_of_pos blank]
  cases rest with
  | nil => rfl
  | cons character behind =>
    have stop := stops character rfl
    rw [List.dropWhile_cons, stop, if_neg Bool.false_ne_true]

/-- What a value looks like behind the equals sign and its blanks: a quote, unless there is none to
take, and the rest. -/
theorem exists_quote (value : List Char) :
    ∃ quote unquoted, value = quote ++ unquoted ∧ quote ∈ openingQuotes ∧
      (quote = [] → ∀ character ∈ unquoted.head?, ¬ IsQuote character) := by
  cases value with
  | nil => exact ⟨[], [], rfl, by decide, by simp⟩
  | cons character rest =>
    by_cases double : character = '"'
    · exact ⟨['"'], rest, by rw [double]; rfl, by decide, by simp⟩
    · by_cases single : character = '\''
      · exact ⟨['\''], rest, by rw [single]; rfl, by decide, by simp⟩
      · refine ⟨[], character :: rest, rfl, by decide, ?_⟩
        intro _ first member
        cases member
        rintro (same | same)
        · exact double same
        · exact single same

theorem languageValue?_eq {behind value quote unquoted : List Char}
    (equals : behind.dropWhile isBlankCharacter = '=' :: value)
    (quoted : value.dropWhile isBlankCharacter = quote ++ unquoted)
    (allowed : quote ∈ openingQuotes)
    (taken : quote = [] → ∀ character ∈ unquoted.head?, ¬ IsQuote character) :
    languageValue? behind =
      if unquoted.takeWhile isLanguageCharacter = [] then none
      else some (unquoted.takeWhile isLanguageCharacter) := by
  rw [languageValue?, equals]
  simp only [quoted]
  simp only [openingQuotes, List.mem_cons, List.not_mem_nil, or_false] at allowed
  rcases allowed with rfl | rfl | rfl
  · cases unquoted with
    | nil => rfl
    | cons character rest =>
      have bare := taken rfl character rfl
      rw [List.nil_append]
      split
      · rename_i same
        cases same
        exact absurd (Or.inl rfl) bare
      · rename_i same
        cases same
        exact absurd (Or.inr rfl) bare
      · rfl
  · rfl
  · rfl

/-- What stands behind the name of the attribute gives it a language, and perhaps goes on. -/
def GivesLanguage (behind language : List Char) : Prop :=
  ∃ left right quote rest, behind = left ++ '=' :: (right ++ (quote ++ (language ++ rest))) ∧
    AllBlank left ∧ AllBlank right ∧ quote ∈ openingQuotes ∧ language ≠ [] ∧
    ∀ character ∈ language, isLanguageCharacter character = true

theorem givesLanguage_of_languageValue? {behind language : List Char}
    (found : languageValue? behind = some language) : GivesLanguage behind language := by
  cases equals : behind.dropWhile isBlankCharacter with
  | nil =>
    rw [languageValue?, equals] at found
    cases found
  | cons sign value =>
    by_cases assigns : sign = '='
    · subst assigns
      obtain ⟨quote, unquoted, quoted, allowed, taken⟩ :=
        exists_quote (value.dropWhile isBlankCharacter)
      rw [languageValue?_eq equals quoted allowed taken] at found
      split at found
      · cases found
      rename_i nonempty
      cases found
      refine ⟨behind.takeWhile isBlankCharacter, value.takeWhile isBlankCharacter, quote,
        unquoted.dropWhile isLanguageCharacter, ?_, allBlank_takeWhile _, allBlank_takeWhile _,
        allowed, nonempty, fun _ member => List.mem_takeWhile_imp member⟩
      rw [List.takeWhile_append_dropWhile, ← quoted, List.takeWhile_append_dropWhile, ← equals,
        List.takeWhile_append_dropWhile]
    · rw [languageValue?, equals] at found
      split at found
      · rename_i same
        cases same
        exact absurd rfl assigns
      · cases found

/-- Of the languages that may be read behind the name, the longest one counts. -/
theorem exists_longest_of_givesLanguage {behind language : List Char}
    (gives : GivesLanguage behind language) :
    ∃ longest, languageValue? behind = some longest ∧ language <+: longest := by
  obtain ⟨left, right, quote, rest, rfl, blank_left, blank_right, allowed, nonempty, inside⟩ := gives
  obtain ⟨first, others, rfl⟩ := List.exists_cons_of_ne_nil nonempty
  have first_inside := inside first List.mem_cons_self
  have equals : (left ++ '=' :: (right ++ (quote ++ (first :: others ++ rest)))).dropWhile
      isBlankCharacter = '=' :: (right ++ (quote ++ (first :: others ++ rest))) := by
    apply dropWhile_blank_append blank_left
    intro character member
    cases member
    decide
  have quoted : (right ++ (quote ++ (first :: others ++ rest))).dropWhile isBlankCharacter =
      quote ++ (first :: others ++ rest) := by
    apply dropWhile_blank_append blank_right
    simp only [openingQuotes, List.mem_cons, List.not_mem_nil, or_false] at allowed
    rcases allowed with rfl | rfl | rfl
    · intro character member
      cases member
      exact isBlankCharacter_of_language first_inside
    · intro character member
      cases member
      decide
    · intro character member
      cases member
      decide
  have taken : quote = [] → ∀ character ∈ (first :: others ++ rest).head?, ¬ IsQuote character := by
    intro _ character member
    cases member
    exact not_isQuote_of_language first_inside
  have long : (first :: others ++ rest).takeWhile isLanguageCharacter =
      first :: others ++ rest.takeWhile isLanguageCharacter :=
    List.takeWhile_append_of_pos inside
  refine ⟨first :: others ++ rest.takeWhile isLanguageCharacter, ?_, List.prefix_append _ _⟩
  rw [languageValue?_eq equals quoted allowed taken, long]
  rfl

/-- Whether some characters end within a word; what stands before them decides if there are none. -/
def endsInWord (inWord : Bool) (characters : List Char) : Bool :=
  (characters.getLast?.map isWordCharacter).getD inWord

@[simp] theorem endsInWord_nil (inWord : Bool) : endsInWord inWord [] = inWord := rfl

@[simp] theorem endsInWord_cons (inWord : Bool) (character : Char) (rest : List Char) :
    endsInWord inWord (character :: rest) = endsInWord (isWordCharacter character) rest := by
  rw [endsInWord, endsInWord, List.getLast?_cons]
  cases rest.getLast? <;> rfl

/-- Attributes name a language behind some of their characters, where a word may begin. -/
def NamesLanguage (inWord : Bool) (attributes front language : List Char) : Prop :=
  endsInWord inWord front = false ∧
    ∃ behind, attributes = front ++ (languageName ++ behind) ∧ GivesLanguage behind language

theorem namesLanguage_cons_iff {inWord : Bool} {character first : Char}
    {rest front language : List Char} :
    NamesLanguage inWord (character :: rest) (first :: front) language ↔
      first = character ∧ NamesLanguage (isWordCharacter character) rest front language := by
  constructor
  · rintro ⟨free, behind, same, gives⟩
    rw [List.cons_append, List.cons.injEq] at same
    obtain ⟨rfl, same⟩ := same
    rw [endsInWord_cons] at free
    exact ⟨rfl, free, behind, same, gives⟩
  · rintro ⟨rfl, free, behind, rfl, gives⟩
    refine ⟨?_, behind, rfl, gives⟩
    rw [endsInWord_cons, free]

theorem not_namesLanguage_nil {inWord : Bool} {front language : List Char} :
    ¬ NamesLanguage inWord [] front language := by
  rintro ⟨-, behind, same, -⟩
  have absent := (List.append_eq_nil_iff.mp same.symm).2
  cases absent

/-- The language that a name at the front gives, if one stands there. -/
def languageHere? (inWord : Bool) (characters : List Char) : Option (List Char) :=
  if !inWord && languageName.isPrefixOf characters then
    languageValue? (characters.drop languageName.length)
  else none

theorem namesLanguage_of_languageHere? {inWord : Bool} {characters language : List Char}
    (found : languageHere? inWord characters = some language) :
    NamesLanguage inWord characters [] language := by
  rw [languageHere?] at found
  split at found
  · rename_i here
    rw [Bool.and_eq_true, Bool.not_eq_true', List.isPrefixOf_iff_prefix] at here
    obtain ⟨free, behind, rfl⟩ := here
    rw [List.drop_left] at found
    exact ⟨free, behind, rfl, givesLanguage_of_languageValue? found⟩
  · cases found

theorem exists_languageHere? {inWord : Bool} {characters language : List Char}
    (names : NamesLanguage inWord characters [] language) :
    ∃ longest, languageHere? inWord characters = some longest ∧ language <+: longest := by
  obtain ⟨free, behind, rfl, gives⟩ := names
  rw [endsInWord_nil] at free
  subst free
  have here : languageName.isPrefixOf (languageName ++ behind) = true :=
    List.isPrefixOf_iff_prefix.mpr (List.prefix_append _ _)
  rw [List.nil_append, languageHere?, here, Bool.not_false, Bool.true_and, if_pos rfl, List.drop_left]
  exact exists_longest_of_givesLanguage gives

/-- No place before a first one names a language, and none there names a longer one. -/
def IsFirst (inWord : Bool) (attributes front language : List Char) : Prop :=
  NamesLanguage inWord attributes front language ∧
    ∀ other further, NamesLanguage inWord attributes other further →
      front.length ≤ other.length ∧ (other = front → further.length ≤ language.length)

/-- The search finds the first language, or there is none to find. -/
theorem languageFrom?_cases (inWord : Bool) (characters : List Char) :
    (languageFrom? inWord characters = none ∧
        ∀ front language, ¬ NamesLanguage inWord characters front language) ∨
      ∃ front language, languageFrom? inWord characters = some language ∧
        IsFirst inWord characters front language := by
  induction characters generalizing inWord with
  | nil => exact Or.inl ⟨rfl, fun _ _ => not_namesLanguage_nil⟩
  | cons character rest ih =>
    have unfolded : languageFrom? inWord (character :: rest) =
        (languageHere? inWord (character :: rest) <|>
          languageFrom? (isWordCharacter character) rest) := rfl
    cases here : languageHere? inWord (character :: rest) with
    | some language =>
      refine Or.inr ⟨[], language, by rw [unfolded, here]; rfl,
        namesLanguage_of_languageHere? here, ?_⟩
      intro other further names
      refine ⟨Nat.zero_le _, ?_⟩
      rintro rfl
      obtain ⟨longest, found, shorter⟩ := exists_languageHere? names
      rw [here] at found
      cases found
      exact shorter.length_le
    | none =>
      have absent (language : List Char) :
          ¬ NamesLanguage inWord (character :: rest) [] language := by
        intro names
        obtain ⟨longest, found, -⟩ := exists_languageHere? names
        rw [here] at found
        cases found
      have onward : languageFrom? inWord (character :: rest) =
          languageFrom? (isWordCharacter character) rest := by
        rw [unfolded, here]
        rfl
      rw [onward]
      rcases ih (isWordCharacter character) with ⟨nothing, never⟩ | ⟨front, language, found, names, least⟩
      · refine Or.inl ⟨nothing, ?_⟩
        rintro (_ | ⟨first, front⟩) language names
        · exact absent language names
        · exact never front language (namesLanguage_cons_iff.mp names).2
      · refine Or.inr ⟨character :: front, language, found,
          namesLanguage_cons_iff.mpr ⟨rfl, names⟩, ?_⟩
        rintro (_ | ⟨first, other⟩) further names
        · exact absurd names (absent further)
        · obtain ⟨rfl, names⟩ := namesLanguage_cons_iff.mp names
          obtain ⟨shorter, longest⟩ := least other further names
          refine ⟨Nat.succ_le_succ shorter, ?_⟩
          rintro ⟨⟩
          exact longest rfl

/-- The language that attributes name first. -/
def FirstLanguage (attributes language : List Char) : Prop :=
  ∃ front, IsFirst false attributes front language

/-- Attributes of a script that is linted: they name no language, or first one that is linted, in
any case. -/
def NamesLinted (attributes : List Char) : Prop :=
  (∀ front language, ¬ NamesLanguage false attributes front language) ∨
    ∃ language, FirstLanguage attributes language ∧ language.map Char.toLower ∈ lintedLanguages

/-- Languages of one length that are named at one place are the same. -/
theorem NamesLanguage.eq_of_length {inWord : Bool} {attributes front language other : List Char}
    (names : NamesLanguage inWord attributes front language)
    (again : NamesLanguage inWord attributes front other)
    (length : language.length = other.length) : language = other := by
  obtain ⟨-, behind, rfl, gives⟩ := names
  obtain ⟨-, rest, spelled, gives_other⟩ := again
  have same : behind = rest := List.append_cancel_left (List.append_cancel_left spelled)
  subst same
  obtain ⟨longest, found, shorter⟩ := exists_longest_of_givesLanguage gives
  obtain ⟨longest', found', shorter'⟩ := exists_longest_of_givesLanguage gives_other
  rw [found] at found'
  cases found'
  exact (List.prefix_of_prefix_length_le shorter shorter' length.le).eq_of_length length

theorem FirstLanguage.unique {attributes language other : List Char}
    (first : FirstLanguage attributes language) (second : FirstLanguage attributes other) :
    language = other := by
  obtain ⟨front, names, least⟩ := first
  obtain ⟨place, again, earliest⟩ := second
  have fronts : front.length = place.length :=
    Nat.le_antisymm (least place other again).1 (earliest front language names).1
  have same_front : front = place := by
    obtain ⟨-, behind, spelled, -⟩ := names
    obtain ⟨-, rest, respelled, -⟩ := again
    exact (List.append_inj (spelled.symm.trans respelled) fronts).1
  subst same_front
  have lengths : language.length = other.length :=
    Nat.le_antisymm ((earliest front language names).2 rfl) ((least front other again).2 rfl)
  exact names.eq_of_length again lengths

theorem isLinted_iff (attributes : List Char) :
    isLinted attributes = true ↔ NamesLinted attributes := by
  rw [isLinted, language?, NamesLinted]
  rcases languageFrom?_cases false attributes with ⟨nothing, never⟩ | ⟨front, language, found, first⟩
  · rw [nothing]
    exact iff_of_true rfl (Or.inl never)
  · rw [found]
    simp only [List.contains_iff_mem]
    constructor
    · intro linted
      exact Or.inr ⟨language, ⟨front, first⟩, linted⟩
    · rintro (never | ⟨other, second, linted⟩)
      · exact absurd first.1 (never front language)
      · rwa [FirstLanguage.unique ⟨front, first⟩ second]

instance (attributes : List Char) : Decidable (NamesLinted attributes) :=
  decidable_of_iff _ (isLinted_iff attributes)

end ModuleFence.Vue
