import ModuleFence.Source.Vue

/-!
What extraction does to each character of a Vue file. A block is a part of the file, in the order of
its tags and its body, so that the characters of a file can be marked as kept or not; extraction
shows the kept ones as they are and blanks the others, each at its own place.
-/

set_option autoImplicit false

namespace ModuleFence.Vue

theorem before_append_of_suffix {characters suffix : List Char} (is_suffix : suffix <:+ characters) :
    before characters suffix ++ suffix = characters := by
  obtain ⟨front, rfl⟩ := is_suffix
  rw [before, List.length_append, Nat.add_sub_cancel, List.take_left]

theorem suffix_of_behindWord? {word characters rest : List Char}
    (found : behindWord? word characters = some rest) : rest <:+ characters := by
  induction word generalizing characters with
  | nil =>
    cases found
    exact List.suffix_rfl
  | cons letter letters ih =>
    cases characters with
    | nil => cases found
    | cons character behind =>
      rw [behindWord?] at found
      split at found
      · exact (ih found).trans (List.suffix_cons character behind)
      · cases found

theorem suffix_of_openingTag? {characters attributes content : List Char}
    (found : openingTag? characters = some (attributes, content)) : content <:+ characters := by
  unfold openingTag? at found
  split at found
  · cases found
  rename_i behind word
  split at found
  · cases found
  split at found
  · cases found
  rename_i closer rest dropped
  cases found
  have shorter : closer :: content <:+ behind := dropped ▸ List.dropWhile_suffix _
  exact ((List.suffix_cons closer content).trans shorter).trans (suffix_of_behindWord? word)

theorem suffix_of_behindClosingTag? {characters rest : List Char}
    (found : behindClosingTag? characters = some rest) : rest <:+ characters := by
  unfold behindClosingTag? at found
  split at found
  · cases found
  rename_i behind word
  split at found
  · rename_i dropped
    cases found
    have shorter : '>' :: rest <:+ behind := dropped ▸ List.dropWhile_suffix _
    exact ((List.suffix_cons '>' rest).trans shorter).trans (suffix_of_behindWord? word)
  · cases found

theorem body_append_drop {content body : List Char} (found : body? content = some body) :
    body ++ content.drop body.length = content := by
  induction content generalizing body with
  | nil => cases found
  | cons character rest ih =>
    rw [body?] at found
    split at found
    · cases found
      rfl
    · obtain ⟨shorter, within, rfl⟩ := Option.map_eq_some_iff.mp found
      rw [List.length_cons, List.drop_succ_cons, List.cons_append, ih within]

/-- A block and what stands behind it are the characters at whose front the block was found. -/
theorem block_append_rest {characters : List Char} {block : Block}
    (found : block? characters = some block) :
    block.opening ++ (block.body ++ (block.closing ++ block.rest)) = characters := by
  unfold block? at found
  split at found
  · cases found
  rename_i attributes content opened
  split at found
  · cases found
  rename_i body bodied
  dsimp only at found
  split at found
  · cases found
  rename_i rest closed
  cases found
  rw [before_append_of_suffix (suffix_of_behindClosingTag? closed), body_append_drop bodied,
    before_append_of_suffix (suffix_of_openingTag? opened)]

/-- A character of a file, and whether it belongs to a script that is linted. -/
structure Marked where
  character : Char
  kept : Bool
deriving DecidableEq

namespace Marked

/-- What extraction shows in the place of a character. -/
def shown (mark : Marked) : Char :=
  if mark.kept then mark.character else blanked mark.character

theorem shown_eq_newline_iff (mark : Marked) : mark.shown = '\n' ↔ mark.character = '\n' := by
  rw [shown]
  split
  · rfl
  · rw [blanked]
    split
    · rename_i ends
      exact iff_of_true rfl ends
    · rename_i inside
      exact iff_of_false (by decide) inside

theorem shown_eq_or_blank (mark : Marked) : mark.shown = mark.character ∨ mark.shown = ' ' := by
  rw [shown]
  split
  · exact Or.inl rfl
  · rw [blanked]
    split
    · rename_i ends
      exact Or.inl ends.symm
    · exact Or.inr rfl

end Marked

/-- Some characters, all of them kept or none. -/
def markAll (kept : Bool) (characters : List Char) : List Marked :=
  characters.map (⟨·, kept⟩)

theorem map_character_markAll (kept : Bool) (characters : List Char) :
    (markAll kept characters).map Marked.character = characters := by
  rw [markAll, List.map_map]
  exact List.map_id characters

theorem map_shown_markAll (kept : Bool) (characters : List Char) :
    (markAll kept characters).map Marked.shown =
      if kept then characters else characters.map blanked := by
  rw [markAll, List.map_map]
  cases kept with
  | false => rfl
  | true => exact List.map_id characters

/-- The characters of a block: those of the body are kept if the block is linted. -/
def Block.marked (block : Block) : List Marked :=
  markAll false block.opening ++ (markAll (isLinted block.attributes) block.body ++
    markAll false block.closing)

theorem Block.map_character_marked (block : Block) :
    block.marked.map Marked.character = block.opening ++ (block.body ++ block.closing) := by
  simp only [marked, List.map_append, map_character_markAll]

theorem Block.map_shown_marked (block : Block) :
    block.marked.map Marked.shown = block.extracted := by
  simp only [marked, extracted, List.map_append, map_shown_markAll, Bool.false_eq_true, if_false,
    List.append_assoc]

/-- The characters of a file; those in the bodies of linted blocks are kept. -/
def marked : List Char → List Marked
  | [] => []
  | character :: rest =>
    match found : block? (character :: rest) with
    | none => ⟨character, false⟩ :: marked rest
    | some block =>
      have := length_block? found
      block.marked ++ marked block.rest
termination_by characters => characters.length
decreasing_by
  · exact Nat.lt_succ_self rest.length
  · assumption

theorem map_character_marked (text : List Char) : (marked text).map Marked.character = text := by
  fun_induction marked text with
  | case1 => rfl
  | case2 character rest _ ih => rw [List.map_cons, ih]
  | case3 character rest block found _ ih =>
    rw [List.map_append, Block.map_character_marked, ih, List.append_assoc, List.append_assoc,
      block_append_rest found]

/-- Extraction shows each character of a file on its own. -/
theorem map_shown_marked (text : List Char) : (marked text).map Marked.shown = extractScript text := by
  fun_induction marked text with
  | case1 => rw [extractScript]; rfl
  | case2 character rest absent ih =>
    rw [extractScript, List.map_cons, ih]
    split
    · rfl
    · rename_i block found
      rw [absent] at found
      cases found
  | case3 character rest block found _ ih =>
    rw [extractScript, List.map_append, ih, Block.map_shown_marked]
    split
    · rename_i absent
      rw [found] at absent
      cases absent
    · rename_i other again
      rw [found] at again
      cases again
      rfl

end ModuleFence.Vue
