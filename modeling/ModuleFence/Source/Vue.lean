import ModuleFence.Text.Blank
import ModuleFence.Text.WordCharacter

/-!
Scripts of Vue files. All that stands outside of the bodies of script blocks in a language that is
linted becomes blank, newlines excepted, so that what remains keeps its line and its place in it.
-/

set_option autoImplicit false

namespace ModuleFence.Vue

/-- The characters that a lower-case letter of a tag stands for. -/
def matchesLetter (letter character : Char) : Bool :=
  character.toLower == letter || (letter == 's' && character == '\u017f')
    || (letter == 'i' && (character == '\u0130' || character == '\u0131'))

def behindWord? : (word : List Char) → List Char → Option (List Char)
  | [], rest => some rest
  | _ :: _, [] => none
  | letter :: letters, character :: rest =>
    if matchesLetter letter character then behindWord? letters rest else none

def openingWord : List Char := "<script".toList

def closingWord : List Char := "</script".toList

def isWordCharacter (character : Char) : Bool :=
  isWordPoint character.toNat

/-- Whether some characters begin within a word. -/
def beginsInWord : List Char → Bool
  | [] => false
  | character :: _ => isWordCharacter character

def isBlankCharacter (character : Char) : Bool :=
  isBlankPoint character.toNat

/-- The attributes of an opening tag and the characters behind the tag. -/
def openingTag? (characters : List Char) : Option (List Char × List Char) :=
  match behindWord? openingWord characters with
  | none => none
  | some behind =>
    if beginsInWord behind then none
    else
      match behind.dropWhile (· ≠ '>') with
      | [] => none
      | _ :: rest => some (behind.takeWhile (· ≠ '>'), rest)

def behindClosingTag? (characters : List Char) : Option (List Char) :=
  match behindWord? closingWord characters with
  | none => none
  | some behind =>
    match behind.dropWhile isBlankCharacter with
    | '>' :: rest => some rest
    | _ => none

/-- The characters before the first closing tag. -/
def body? : List Char → Option (List Char)
  | [] => none
  | character :: rest =>
    if (behindClosingTag? (character :: rest)).isSome then some []
    else (body? rest).map (character :: ·)

/-- The value of a language attribute behind its name. -/
def languageValue? (behind : List Char) : Option (List Char) :=
  match behind.dropWhile isBlankCharacter with
  | '=' :: value =>
    let value := value.dropWhile isBlankCharacter
    let unquoted :=
      match value with
      | '"' :: rest | '\'' :: rest => rest
      | _ => value
    let language := unquoted.takeWhile fun character => isWordCharacter character || character == '-'
    if language = [] then none else some language
  | _ => none

def languageName : List Char := "lang".toList

/-- The first language among attributes; a name must not go on a word that stands before it. -/
def languageFrom? (inWord : Bool) : List Char → Option (List Char)
  | [] => none
  | character :: rest =>
    let here :=
      if !inWord && languageName.isPrefixOf (character :: rest) then
        languageValue? ((character :: rest).drop languageName.length)
      else none
    here <|> languageFrom? (isWordCharacter character) rest

def language? (attributes : List Char) : Option (List Char) :=
  languageFrom? false attributes

def lintedLanguages : List (List Char) :=
  ["js".toList, "javascript".toList, "jsx".toList]

/-- Whether attributes are those of a block that is linted; without a language it is. -/
def isLinted (attributes : List Char) : Bool :=
  match language? attributes with
  | none => true
  | some language => lintedLanguages.contains (language.map Char.toLower)

/-- What a character becomes outside of a script; newlines stay. -/
def blanked (character : Char) : Char :=
  if character = '\n' then '\n' else ' '

/-- A script block: its tags, its body, and what stands behind it. -/
structure Block where
  opening : List Char
  attributes : List Char
  body : List Char
  closing : List Char
  rest : List Char

def before (characters suffix : List Char) : List Char :=
  characters.take (characters.length - suffix.length)

def block? (characters : List Char) : Option Block :=
  match openingTag? characters with
  | none => none
  | some (attributes, content) =>
    match body? content with
    | none => none
    | some body =>
      let closing := content.drop body.length
      match behindClosingTag? closing with
      | none => none
      | some rest => some ⟨before characters content, attributes, body, before closing rest, rest⟩

/-- A block with all but a linted body blanked. -/
def Block.extracted (block : Block) : List Char :=
  block.opening.map blanked ++ (if isLinted block.attributes then block.body else block.body.map blanked)
    ++ block.closing.map blanked

theorem length_behindWord? {word characters rest : List Char}
    (found : behindWord? word characters = some rest) :
    rest.length + word.length = characters.length := by
  induction word generalizing characters with
  | nil =>
    simp only [behindWord?, Option.some.injEq] at found
    simp [found]
  | cons letter letters hypothesis =>
    cases characters with
    | nil => simp [behindWord?] at found
    | cons character behind =>
      simp only [behindWord?] at found
      split at found
      · have := hypothesis found
        simp only [List.length_cons]
        omega
      · contradiction

theorem length_dropWhile_le (test : Char → Bool) (characters : List Char) :
    (characters.dropWhile test).length ≤ characters.length :=
  (List.dropWhile_suffix test).length_le

theorem length_openingTag? {characters attributes content : List Char}
    (found : openingTag? characters = some (attributes, content)) :
    content.length < characters.length := by
  unfold openingTag? at found
  split at found
  · contradiction
  · rename_i behind word
    split at found
    · contradiction
    · split at found
      · contradiction
      · rename_i shorter
        obtain ⟨-, rfl⟩ := Prod.mk.inj (Option.some.inj found)
        have := length_behindWord? word
        have := length_dropWhile_le (· ≠ '>') behind
        rw [shorter, List.length_cons] at this
        omega

theorem length_behindClosingTag? {characters rest : List Char}
    (found : behindClosingTag? characters = some rest) : rest.length < characters.length := by
  unfold behindClosingTag? at found
  split at found
  · contradiction
  · rename_i behind word
    split at found
    · rename_i shorter
      cases found
      have := length_behindWord? word
      have := length_dropWhile_le isBlankCharacter behind
      rw [shorter, List.length_cons] at this
      omega
    · contradiction

/-- What stands behind a block is shorter than what begins with the block. -/
theorem length_block? {characters : List Char} {block : Block}
    (found : block? characters = some block) : block.rest.length < characters.length := by
  unfold block? at found
  split at found
  · contradiction
  · rename_i opening
    split at found
    · contradiction
    · rename_i body _
      dsimp only at found
      split at found
      · contradiction
      · rename_i closing
        cases found
        have := length_openingTag? opening
        have := length_behindClosingTag? closing
        rw [List.length_drop] at this
        dsimp only
        omega

/-- The script of a Vue file, at the places that it has in the file. -/
def extractScript : List Char → List Char
  | [] => []
  | character :: rest =>
    match found : block? (character :: rest) with
    | none => blanked character :: extractScript rest
    | some block =>
      have := length_block? found
      block.extracted ++ extractScript block.rest
termination_by characters => characters.length
decreasing_by
  · exact Nat.lt_succ_self rest.length
  · assumption

end ModuleFence.Vue
