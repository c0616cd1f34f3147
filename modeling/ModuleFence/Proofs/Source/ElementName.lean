import ModuleFence.Proofs.Source.Component

/-!
Names of elements. The name in an opening tag ends at a blank, a slash or the closing bracket, but
extraction only looks for the end of a word there: an element whose name merely begins with the word
opens a block as well, as soon as a closing tag of a script follows. The blocks that extraction finds
are those of the script elements exactly when no such tag stands outside of them.
-/

set_option autoImplicit false

namespace ModuleFence.Vue

/-- Whether the name of an element ends in front of some characters. -/
def endsName : List Char → Bool
  | [] => false
  | character :: _ => isBlankCharacter character || character == '/' || character == '>'

/-- Whether some characters begin with an opening tag whose name is that of a script. -/
def namesScript (characters : List Char) : Bool :=
  (behindWord? openingWord characters).any endsName

/-- The script block at the front, if its opening tag is accepted. -/
def blockBy? (accepts : List Char → Bool) (characters : List Char) : Option Block :=
  if accepts characters then block? characters else none

theorem block?_of_blockBy? {accepts : List Char → Bool} {characters : List Char} {block : Block}
    (found : blockBy? accepts characters = some block) :
    accepts characters = true ∧ block? characters = some block := by
  rw [blockBy?] at found
  split at found
  · rename_i accepted
    exact ⟨accepted, found⟩
  · cases found

/-- The script of a Vue file when only accepted opening tags open blocks. -/
def extractBy (accepts : List Char → Bool) : List Char → List Char
  | [] => []
  | character :: rest =>
    match found : blockBy? accepts (character :: rest) with
    | none => blanked character :: extractBy accepts rest
    | some block =>
      have := length_block? (block?_of_blockBy? found).2
      block.extracted ++ extractBy accepts block.rest
termination_by characters => characters.length
decreasing_by
  · exact Nat.lt_succ_self rest.length
  · assumption

/-- A scan of a text for blocks with accepted opening tags comes to some characters outside of all
blocks, and has shown something for what lies before them. -/
inductive Scans (accepts : List Char → Bool) (text : List Char) : List Char → List Char → Prop where
  | start : Scans accepts text [] text
  | pass {shown rest : List Char} {character : Char}
      (scanned : Scans accepts text shown (character :: rest))
      (absent : blockBy? accepts (character :: rest) = none) :
      Scans accepts text (shown ++ [blanked character]) rest
  | leave {shown characters : List Char} {block : Block}
      (scanned : Scans accepts text shown characters)
      (found : blockBy? accepts characters = some block) :
      Scans accepts text (shown ++ block.extracted) block.rest

/-- What extraction accepts as an opening tag: whatever begins with the word. -/
def anyTag (_characters : List Char) : Bool := true

theorem blockBy?_anyTag (characters : List Char) : blockBy? anyTag characters = block? characters :=
  if_pos rfl

section Scan

variable {accepts : List Char → Bool}

theorem extractBy_of_block {characters : List Char} {block : Block}
    (found : blockBy? accepts characters = some block) :
    extractBy accepts characters = block.extracted ++ extractBy accepts block.rest := by
  cases characters with
  | nil => cases (block?_of_blockBy? found).2
  | cons character rest =>
    rw [extractBy]
    split
    · rename_i absent
      rw [found] at absent
      cases absent
    · rename_i other again
      rw [found] at again
      cases again
      rfl

theorem extractBy_of_none {character : Char} {rest : List Char}
    (absent : blockBy? accepts (character :: rest) = none) :
    extractBy accepts (character :: rest) = blanked character :: extractBy accepts rest := by
  rw [extractBy]
  split
  · rfl
  · rename_i other found
    rw [absent] at found
    cases found

/-- What a scan has shown is the beginning of what it shows of the text. -/
theorem Scans.extractBy_eq {text shown characters : List Char}
    (scanned : Scans accepts text shown characters) :
    extractBy accepts text = shown ++ extractBy accepts characters := by
  induction scanned with
  | start => rfl
  | pass _ absent ih =>
    rw [ih, extractBy_of_none absent, List.append_assoc, List.singleton_append]
  | leave _ found ih => rw [ih, extractBy_of_block found, List.append_assoc]

/-- What a scan has shown stands in the place of what it has passed. -/
theorem Scans.exists_front {text shown characters : List Char}
    (scanned : Scans accepts text shown characters) :
    ∃ front, text = front ++ characters ∧ front.length = shown.length := by
  induction scanned with
  | start => exact ⟨[], rfl, rfl⟩
  | @pass shown rest character _ _ ih =>
    obtain ⟨front, rfl, length_eq⟩ := ih
    refine ⟨front ++ [character], ?_, ?_⟩
    · rw [List.append_assoc, List.singleton_append]
    · rw [List.length_append, List.length_append, length_eq]
      rfl
  | @leave shown characters block _ found ih =>
    obtain ⟨front, rfl, length_eq⟩ := ih
    have parts := block_append_rest (block?_of_blockBy? found).2
    refine ⟨front ++ (block.opening ++ (block.body ++ block.closing)), ?_, ?_⟩
    · simp only [List.append_assoc, parts]
    · rw [← Block.map_character_marked, ← Block.map_shown_marked, List.length_append,
        List.length_append, List.length_map, List.length_map, length_eq]

theorem Scans.trans {text before shown middle characters : List Char}
    (first : Scans accepts text before middle) (second : Scans accepts middle shown characters) :
    Scans accepts text (before ++ shown) characters := by
  induction second with
  | start => rwa [List.append_nil]
  | pass _ absent ih =>
    rw [← List.append_assoc]
    exact ih.pass absent
  | leave _ found ih =>
    rw [← List.append_assoc]
    exact ih.leave found

/-- Scans that find the same blocks wherever one of them comes show the same. -/
theorem extractBy_congr {others : List Char → Bool} {text : List Char}
    (agree : ∀ shown characters, Scans accepts text shown characters →
      blockBy? accepts characters = blockBy? others characters) :
    extractBy accepts text = extractBy others text := by
  fun_induction extractBy accepts text with
  | case1 => rw [extractBy]
  | case2 character rest absent ih =>
    have here := (agree _ _ .start).symm.trans absent
    rw [extractBy_of_none here, ih fun shown characters scanned =>
      agree _ characters ((Scans.start.pass absent).trans scanned)]
  | case3 character rest block found _ ih =>
    have here := (agree _ _ .start).symm.trans found
    rw [extractBy_of_block here, ih fun shown characters scanned =>
      agree _ characters ((Scans.start.leave found).trans scanned)]

end Scan

/-- Extraction lets any opening tag open a block. -/
theorem extractBy_anyTag (text : List Char) : extractBy anyTag text = extractScript text := by
  fun_induction extractScript text with
  | case1 => rw [extractBy]
  | case2 character rest absent ih =>
    rw [extractBy_of_none ((blockBy?_anyTag _).trans absent), ih]
  | case3 character rest block found _ ih =>
    rw [extractBy_of_block ((blockBy?_anyTag _).trans found), ih]

/-- Behind some characters the tag that they belong to ends, and after it a script is closed. -/
def ClosesLater (characters : List Char) : Prop :=
  ∃ attributes body rest, characters = attributes ++ '>' :: (body ++ rest) ∧ '>' ∉ attributes ∧
    BeginsClosing rest

theorem isSome_behindClosingTag?_iff (characters : List Char) :
    (behindClosingTag? characters).isSome = true ↔ BeginsClosing characters := by
  refine ⟨beginsClosing_of_isSome, ?_⟩
  rintro ⟨spelling, gap, behind, rfl, spells, blank⟩
  rw [behindClosingTag?_append spells blank]
  rfl

/-- A body is found when a closing tag follows it. -/
theorem isSome_body?_iff (content : List Char) :
    (body? content).isSome = true ↔ ∃ body rest, content = body ++ rest ∧ BeginsClosing rest := by
  induction content with
  | nil =>
    refine iff_of_false Bool.false_ne_true ?_
    rintro ⟨body, rest, same, closing⟩
    obtain ⟨-, rfl⟩ := List.append_eq_nil_iff.mp same.symm
    rw [← isSome_behindClosingTag?_iff] at closing
    cases closing
  | cons character content ih =>
    rw [body?]
    by_cases closes : (behindClosingTag? (character :: content)).isSome = true
    · rw [if_pos closes]
      exact iff_of_true rfl ⟨[], _, rfl, (isSome_behindClosingTag?_iff _).mp closes⟩
    · rw [if_neg closes, Option.isSome_map, ih]
      constructor
      · rintro ⟨body, rest, rfl, closing⟩
        exact ⟨character :: body, rest, rfl, closing⟩
      · rintro ⟨body, rest, same, closing⟩
        cases body with
        | nil =>
          cases same
          exact absurd ((isSome_behindClosingTag?_iff _).mpr closing) closes
        | cons first others =>
          cases same
          exact ⟨others, rest, rfl, closing⟩

theorem isSome_closing_of_body? {content body : List Char} (found : body? content = some body) :
    (behindClosingTag? (content.drop body.length)).isSome = true := by
  induction content generalizing body with
  | nil => cases found
  | cons character content ih =>
    rw [body?] at found
    split at found
    · rename_i closes
      cases found
      exact closes
    · obtain ⟨shorter, within, rfl⟩ := Option.map_eq_some_iff.mp found
      exact ih within

/-- An opening tag is the word, which does not go on as a word, and all up to the first bracket. -/
theorem openingTag?_eq_some_iff {characters attributes content : List Char} :
    openingTag? characters = some (attributes, content) ↔
      ∃ word, characters = word ++ (attributes ++ '>' :: content) ∧ Spells openingWord word ∧
        beginsInWord (attributes ++ '>' :: content) = false ∧ '>' ∉ attributes := by
  constructor
  · intro opened
    unfold openingTag? at opened
    split at opened
    · cases opened
    rename_i behind worded
    split at opened
    · cases opened
    rename_i apart
    obtain ⟨word, rfl, spells⟩ := exists_of_behindWord? worded
    split at opened
    · cases opened
    rename_i closer rest dropped
    cases opened
    obtain rfl : closer = '>' := by
      have stops := List.head?_dropWhile_not (· ≠ '>') behind
      rw [dropped] at stops
      simpa using stops
    have behind_eq : behind.takeWhile (· ≠ '>') ++ '>' :: content = behind := by
      rw [← dropped, List.takeWhile_append_dropWhile]
    refine ⟨word, by rw [behind_eq], spells, ?_, fun member => ?_⟩
    · rw [behind_eq]
      exact Bool.eq_false_iff.mpr apart
    · have passed := List.mem_takeWhile_imp member
      simp at passed
  · rintro ⟨word, rfl, spells, apart, unclosed⟩
    have inside : ∀ character ∈ attributes, decide (character ≠ '>') = true :=
      fun character member => decide_eq_true fun same => unclosed (same ▸ member)
    have dropped : (attributes ++ '>' :: content).dropWhile (· ≠ '>') = '>' :: content := by
      rw [List.dropWhile_append_of_pos inside]
      rfl
    have taken : (attributes ++ '>' :: content).takeWhile (· ≠ '>') = attributes := by
      rw [List.takeWhile_append_of_pos inside]
      exact List.append_nil _
    rw [openingTag?, behindWord?_append spells]
    simp only [apart, dropped, taken, Bool.false_eq_true, if_false]

/-- A block is found where an opening tag stands and a closing tag follows. -/
theorem isSome_block?_iff_tags (characters : List Char) :
    (block? characters).isSome = true ↔ ∃ attributes content,
      openingTag? characters = some (attributes, content) ∧ (body? content).isSome = true := by
  cases opened : openingTag? characters with
  | none =>
    rw [block?, opened]
    simp
  | some tag =>
    obtain ⟨attributes, content⟩ := tag
    rw [block?, opened]
    simp only [Option.some.injEq, Prod.mk.injEq]
    cases bodied : body? content with
    | none => simp [bodied]
    | some body =>
      obtain ⟨rest, closed⟩ := Option.isSome_iff_exists.mp (isSome_closing_of_body? bodied)
      simp [bodied, closed]

/-- A block is found where the word of an opening tag stands that does not go on as a word, and where
the tag and then a script are closed. -/
theorem isSome_block?_iff (characters : List Char) :
    (block? characters).isSome = true ↔ ∃ word behind, characters = word ++ behind ∧
      Spells openingWord word ∧ beginsInWord behind = false ∧ ClosesLater behind := by
  simp only [isSome_block?_iff_tags, openingTag?_eq_some_iff, isSome_body?_iff, ClosesLater]
  constructor
  · rintro ⟨attributes, _, ⟨word, rfl, spells, apart, unclosed⟩, body, rest, rfl, closing⟩
    exact ⟨word, _, rfl, spells, apart, attributes, body, rest, rfl, unclosed, closing⟩
  · rintro ⟨word, _, rfl, spells, apart, attributes, body, rest, rfl, unclosed, closing⟩
    exact ⟨attributes, _, ⟨word, rfl, spells, apart, unclosed⟩, body, rest, rfl, closing⟩

/-- Some characters begin with the opening tag of an element whose name is longer than that of a
script, but does not go on as a word; and the tag and then a script are closed. -/
def OpensLonger (characters : List Char) : Prop :=
  ∃ word behind, characters = word ++ behind ∧ Spells openingWord word ∧
    beginsInWord behind = false ∧ endsName behind = false ∧ ClosesLater behind

theorem namesScript_append {word : List Char} (spells : Spells openingWord word)
    (behind : List Char) : namesScript (word ++ behind) = endsName behind := by
  rw [namesScript, behindWord?_append spells]
  rfl

/-- The blocks of elements with longer names are those that are found and are no scripts. -/
theorem opensLonger_iff (characters : List Char) :
    OpensLonger characters ↔ (block? characters).isSome = true ∧ namesScript characters = false := by
  rw [isSome_block?_iff]
  constructor
  · rintro ⟨word, behind, rfl, spells, apart, further, closes⟩
    exact ⟨⟨word, behind, rfl, spells, apart, closes⟩, by rw [namesScript_append spells, further]⟩
  · rintro ⟨⟨word, behind, rfl, spells, apart, closes⟩, further⟩
    rw [namesScript_append spells] at further
    exact ⟨word, behind, rfl, spells, apart, further, closes⟩

/-- Where no element with a longer name opens a block, the blocks are those of scripts. -/
theorem blockBy?_namesScript {characters : List Char} (apart : ¬ OpensLonger characters) :
    blockBy? namesScript characters = block? characters := by
  rw [blockBy?]
  cases named : namesScript characters with
  | true => rw [if_pos rfl]
  | false =>
    rw [if_neg Bool.false_ne_true]
    cases found : block? characters with
    | none => rfl
    | some block => exact absurd ((opensLonger_iff characters).mpr ⟨by rw [found]; rfl, named⟩) apart

/-- Extraction comes to wherever a scan for scripts comes, unless it has met an element with a longer
name before. -/
theorem Scans.any_or_longer {text shown characters : List Char}
    (scanned : Scans namesScript text shown characters) :
    Scans anyTag text shown characters ∨ ∃ before longer, Scans namesScript text before longer ∧
      Scans anyTag text before longer ∧ OpensLonger longer := by
  induction scanned with
  | start => exact .inl .start
  | @pass _ rest character named absent ih =>
    rcases ih with any | earlier
    · by_cases longer : OpensLonger (character :: rest)
      · exact .inr ⟨_, _, named, any, longer⟩
      · rw [blockBy?_namesScript longer, ← blockBy?_anyTag] at absent
        exact .inl (any.pass absent)
    · exact .inr earlier
  | @leave _ characters _ named found ih =>
    rcases ih with any | earlier
    · by_cases longer : OpensLonger characters
      · exact .inr ⟨_, _, named, any, longer⟩
      · rw [blockBy?_namesScript longer, ← blockBy?_anyTag] at found
        exact .inl (any.leave found)
    · exact .inr earlier

/-- A scan for scripts comes to wherever extraction comes, if it meets no element with a longer
name. -/
theorem Scans.named_of_any {text shown characters : List Char}
    (scanned : Scans anyTag text shown characters)
    (apart : ∀ before others, Scans namesScript text before others → ¬ OpensLonger others) :
    Scans namesScript text shown characters := by
  induction scanned with
  | start => exact .start
  | pass _ absent ih =>
    rw [blockBy?_anyTag, ← blockBy?_namesScript (apart _ _ ih)] at absent
    exact ih.pass absent
  | leave _ found ih =>
    rw [blockBy?_anyTag, ← blockBy?_namesScript (apart _ _ ih)] at found
    exact ih.leave found

/-- A bracket and a closing tag after it close a tag and then a script. -/
theorem closesLater_of_bracket (front middle : List Char) {rest : List Char}
    (closing : BeginsClosing rest) : ClosesLater (front ++ '>' :: (middle ++ rest)) := by
  induction front with
  | nil => exact ⟨[], middle, rest, rfl, List.not_mem_nil, closing⟩
  | cons character front ih =>
    by_cases bracket : character = '>'
    · subst bracket
      exact ⟨[], front ++ '>' :: middle, rest, by simp, List.not_mem_nil, closing⟩
    · obtain ⟨attributes, body, last, same, unclosed, closes⟩ := ih
      refine ⟨character :: attributes, body, last, ?_, ?_, closes⟩
      · rw [List.cons_append, same, List.cons_append]
      · rw [List.mem_cons, not_or]
        exact ⟨Ne.symm bracket, unclosed⟩

theorem closesLater_of_element (front : List Char) (element : Element) (rest : List Char) :
    ClosesLater (front ++ (element.text ++ rest)) := by
  have closing : BeginsClosing (element.closingTag ++ rest) :=
    beginsClosing_of_isSome (by rw [element.behindClosingTag?_closingTag]; rfl)
  have spelled : front ++ (element.text ++ rest) =
      (front ++ (element.opening ++ element.attributes)) ++
        '>' :: (element.body ++ (element.closingTag ++ rest)) := by
    simp only [Element.text, Element.openingTag, List.append_assoc, List.cons_append,
      List.nil_append]
  rw [spelled]
  exact closesLater_of_bracket _ _ closing

/-- All blocks that extraction finds in a text are scripts exactly when no element with a longer name
opens one outside of the scripts; what is extracted is then what the scripts hold. Otherwise the first
such element opens a block, which reaches up to the next closing tag. An element with a longer name
opens a block whenever a script element stands somewhere behind it. -/
theorem extractScript_opens_iff (text : List Char) :
    ((∀ shown characters, Scans anyTag text shown characters → (block? characters).isSome = true →
        namesScript characters = true) ↔
      ∀ shown characters, Scans namesScript text shown characters → ¬ OpensLonger characters) ∧
    ((∀ shown characters, Scans namesScript text shown characters → ¬ OpensLonger characters) →
      extractScript text = extractBy namesScript text) ∧
    ((∃ shown characters, Scans namesScript text shown characters ∧ OpensLonger characters) →
      ∃ front shown characters block, text = front ++ characters ∧ front.length = shown.length ∧
        OpensLonger characters ∧ block? characters = some block ∧
        extractBy namesScript text = shown ++ extractBy namesScript characters ∧
        extractScript text = shown ++ (block.extracted ++ extractScript block.rest)) ∧
    ∀ (word behind : List Char) (element : Element) (rest : List Char),
      Spells openingWord word → beginsInWord (behind ++ (element.text ++ rest)) = false →
        endsName (behind ++ (element.text ++ rest)) = false →
          OpensLonger (word ++ (behind ++ (element.text ++ rest))) := by
  have first_longer {shown characters : List Char}
      (scanned : Scans namesScript text shown characters) (longer : OpensLonger characters) :
      ∃ before others, Scans namesScript text before others ∧ Scans anyTag text before others ∧
        OpensLonger others := by
    rcases scanned.any_or_longer with any | earlier
    · exact ⟨shown, characters, scanned, any, longer⟩
    · exact earlier
  refine ⟨⟨?_, ?_⟩, ?_, ?_, ?_⟩
  · intro scripts shown characters scanned longer
    obtain ⟨before, others, -, any, opens⟩ := first_longer scanned longer
    obtain ⟨found, further⟩ := (opensLonger_iff others).mp opens
    rw [scripts before others any found] at further
    cases further
  · intro apart shown characters any found
    have unopened := apart _ _ (any.named_of_any apart)
    cases named : namesScript characters with
    | true => rfl
    | false => exact absurd ((opensLonger_iff characters).mpr ⟨found, named⟩) unopened
  · intro apart
    rw [← extractBy_anyTag]
    refine (extractBy_congr fun shown characters scanned => ?_).symm
    rw [blockBy?_namesScript (apart _ _ scanned), blockBy?_anyTag]
  · rintro ⟨shown, characters, scanned, longer⟩
    obtain ⟨before, others, named, any, opens⟩ := first_longer scanned longer
    obtain ⟨block, found⟩ := Option.isSome_iff_exists.mp ((opensLonger_iff others).mp opens).1
    obtain ⟨front, text_eq, length_eq⟩ := named.exists_front
    refine ⟨front, before, others, block, text_eq, length_eq, opens, found, named.extractBy_eq, ?_⟩
    rw [← extractBy_anyTag, any.extractBy_eq, extractBy_of_block ((blockBy?_anyTag _).trans found),
      extractBy_anyTag]
  · intro word behind element rest spells apart further
    exact ⟨word, _, rfl, spells, apart, further, closesLater_of_element behind element rest⟩

/-- An element with a longer name before a script in another language. -/
def longerSource : List Char :=
  "<script-editor/><script lang=\"ts\">let a: b;</script>".toList

/-- The element opens a block, although no script begins there. -/
theorem extractScript_opens_iff_of_editor :
    Scans namesScript longerSource [] longerSource ∧ OpensLonger longerSource ∧
      ¬ ∀ shown characters, Scans anyTag longerSource shown characters →
        (block? characters).isSome = true → namesScript characters = true := by
  have longer : OpensLonger longerSource := (opensLonger_iff longerSource).mpr (by decide +kernel)
  obtain ⟨opens_iff, -⟩ := extractScript_opens_iff longerSource
  exact ⟨.start, longer, fun scripts => opens_iff.mp scripts [] longerSource .start longer⟩

/-- The script in another language is extracted, although no script is to be linted. -/
theorem extractScript_of_editor :
    extractScript longerSource =
        "                <script lang=\"ts\">let a: b;         ".toList ∧
      extractBy namesScript longerSource = List.replicate 52 ' ' := by
  decide +kernel

end ModuleFence.Vue
