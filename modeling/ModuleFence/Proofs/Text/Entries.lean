import Mathlib.Data.List.DropRight
import ModuleFence.Text.Blank

/-!
Entries of comma-separated lists. Lists that are joined by commas have the entries of each of them, so
that it does not matter how entries are grouped, and the entries that are taken from a list make the
same list again.
-/

set_option autoImplicit false

namespace ModuleFence.Text

/-- What a text keeps when the blanks at its ends go are all its points that are not blank. -/
theorem filter_strip (text : Text) :
    text.strip.filter (fun point => !isBlankPoint point.value) =
      text.filter (fun point => !isBlankPoint point.value) := by
  have front (points : Text) : (points.dropWhile fun point => isBlankPoint point.value).filter
      (fun point => !isBlankPoint point.value) =
        points.filter (fun point => !isBlankPoint point.value) := by
    induction points with
    | nil => rfl
    | cons point rest ih =>
      rw [List.dropWhile_cons]
      split
      · rename_i blank
        rw [ih, List.filter_cons_of_neg (by simp [blank])]
      · rfl
  rw [strip, trimBy, dropWhileEnd, List.filter_reverse, front, ← List.filter_reverse,
    List.reverse_reverse, front]

/-- A text that was stripped has no blanks at its ends. -/
theorem strip_strip (text : Text) : text.strip.strip = text.strip := by
  let blank (point : CodePoint) : Bool := isBlankPoint point.value
  have begins : (text.strip).dropWhile blank = text.strip := by
    rw [List.dropWhile_eq_self_iff]
    intro some_ blankFirst
    have front : text.strip <+: text.dropWhile blank := List.rdropWhile_prefix blank _
    have longer : 0 < (text.dropWhile blank).length :=
      Nat.lt_of_lt_of_le some_ front.length_le
    have first : (text.strip)[0] = (text.dropWhile blank)[0] := front.getElem some_
    have stays := List.dropWhile_eq_self_iff.mp (List.dropWhile_idempotent blank text) longer
    rw [first] at blankFirst
    exact stays blankFirst
  calc text.strip.strip = List.rdropWhile blank (text.strip.dropWhile blank) := rfl
    _ = List.rdropWhile blank (List.rdropWhile blank (text.dropWhile blank)) := by
      rw [begins]
      rfl
    _ = text.strip := List.rdropWhile_idempotent blank _

theorem mem_of_mem_strip {text : Text} {point : CodePoint} (member : point ∈ text.strip) :
    point ∈ text :=
  (List.dropWhile_suffix _).mem ((List.rdropWhile_prefix _ _).mem member)

/-- A text is split at a separator as lists are. -/
theorem splitAt_eq_splitOn (separator : CodePoint) (text : Text) :
    text.splitAt separator = text.splitOn separator := by
  induction text with
  | nil => exact (List.splitOn_nil separator).symm
  | cons point rest ih =>
    rw [List.splitOn_cons_eq_if_modifyHead, splitAt, ih]
    by_cases same : point = separator
    · rw [if_pos same, if_pos (beq_iff_eq.mpr same)]
    · rw [if_neg same, if_neg (mt beq_iff_eq.mp same)]
      cases split : rest.splitOn separator with
      | nil => exact absurd split (List.splitOn_ne_nil separator rest)
      | cons piece pieces => rfl

theorem not_mem_of_mem_splitAt {separator : CodePoint} {text piece : Text}
    (member : piece ∈ text.splitAt separator) : separator ∉ piece := by
  induction text generalizing piece with
  | nil =>
    rw [List.mem_singleton.mp member]
    exact List.not_mem_nil
  | cons point rest ih =>
    rw [splitAt] at member
    split at member
    · rcases List.mem_cons.mp member with rfl | later
      · exact List.not_mem_nil
      · exact ih later
    · rename_i other
      cases split : Text.splitAt separator rest with
      | nil =>
        rw [split] at member
        rw [List.mem_singleton.mp member, List.mem_singleton]
        exact Ne.symm other
      | cons first pieces =>
        rw [split] at member
        rw [split] at ih
        rcases List.mem_cons.mp member with rfl | later
        · rw [List.mem_cons, not_or]
          exact ⟨Ne.symm other, ih List.mem_cons_self⟩
        · exact ih (List.mem_cons_of_mem _ later)

theorem joinWith_cons_cons (separator first second : Text) (rest : List Text) :
    joinWith separator (first :: second :: rest) =
      first ++ (separator ++ joinWith separator (second :: rest)) := by
  rw [joinWith, joinWith, List.intercalate_cons_cons, List.append_assoc]

/-- Texts that are joined by a separator are split into the pieces of each. -/
theorem splitAt_joinWith (separator : CodePoint) {texts : List Text} (some_ : texts ≠ []) :
    (joinWith [separator] texts).splitAt separator =
      texts.flatMap fun text => text.splitAt separator := by
  induction texts with
  | nil => exact absurd rfl some_
  | cons text rest ih =>
    cases rest with
    | nil =>
      rw [List.flatMap_singleton, joinWith]
      exact congrArg _ List.intercalate_singleton
    | cons next others =>
      rw [joinWith_cons_cons, List.flatMap_cons, ← ih (List.cons_ne_nil _ _), splitAt_eq_splitOn,
        splitAt_eq_splitOn, splitAt_eq_splitOn, List.singleton_append,
        List.splitOn_append_cons_self]

/-- Lists joined by commas have the entries of each, in order. -/
theorem commaEntries_joinWith (texts : List Text) :
    commaEntries (joinWith "," texts) = texts.flatMap commaEntries := by
  cases texts with
  | nil => rfl
  | cons text rest =>
    have split : splitAt ',' (joinWith "," (text :: rest)) = _ :=
      splitAt_joinWith ',' (List.cons_ne_nil text rest)
    rw [commaEntries, split, List.map_flatMap, List.filter_flatMap]
    rfl

theorem ofString_intercalate (separator : String) (strings : List String) :
    ofString (separator.intercalate strings) =
      joinWith (ofString separator) (strings.map ofString) := by
  have mapped (texts : List (List Char)) :
      (separator.toList.intercalate texts).map CodePoint.ofChar =
        joinWith (ofString separator) (texts.map (List.map CodePoint.ofChar)) := by
    induction texts with
    | nil => rfl
    | cons text rest ih =>
      cases rest with
      | nil => exact (congrArg _ List.intercalate_singleton).trans List.intercalate_singleton.symm
      | cons next others =>
        rw [List.intercalate_cons_cons, List.append_assoc, List.map_append, List.map_append, ih]
        exact (joinWith_cons_cons (ofString separator) _ _ _).symm
  rw [ofString, String.toList_intercalate, mapped, List.map_map]
  rfl

/-- The points that no list loses: neither blanks nor commas. -/
def isSolid (point : CodePoint) : Bool :=
  !isBlankPoint point.value && point ≠ (',' : CodePoint)

theorem filter_flatten_splitAt (text : Text) :
    (splitAt ',' text).flatten.filter isSolid = text.filter isSolid := by
  induction text with
  | nil => rfl
  | cons point rest ih =>
    rw [splitAt]
    split
    · rename_i comma
      have light : ¬ isSolid point = true := by simp [isSolid, comma]
      rw [List.flatten_cons, List.nil_append, ih, List.filter_cons_of_neg light]
    · cases split : splitAt ',' rest with
      | nil =>
        rw [splitAt_eq_splitOn] at split
        exact absurd split (List.splitOn_ne_nil _ _)
      | cons piece pieces =>
        rw [split] at ih
        rw [List.flatten_cons, List.cons_append, List.filter_cons, List.filter_cons]
        rw [List.flatten_cons] at ih
        rw [ih]

theorem filter_isSolid_strip (text : Text) : text.strip.filter isSolid = text.filter isSolid := by
  have parts (points : Text) : points.filter isSolid =
      (points.filter fun point => !isBlankPoint point.value).filter (· ≠ (',' : CodePoint)) := by
    rw [List.filter_filter]
    exact List.filter_congr fun point _ => Bool.and_comm _ _
  rw [parts, filter_strip, ← parts]

/-- The entries of a list have all its points but blanks and commas. -/
theorem filter_flatten_commaEntries (text : Text) :
    (commaEntries text).flatten.filter isSolid = text.filter isSolid := by
  have stripped (pieces : List Text) :
      (pieces.map strip).flatten.filter isSolid = pieces.flatten.filter isSolid := by
    rw [List.filter_flatten, List.filter_flatten, List.map_map]
    exact congrArg List.flatten (List.map_congr_left fun piece _ => filter_isSolid_strip piece)
  rw [commaEntries, List.flatten_filter_ne_nil, stripped, filter_flatten_splitAt]

/-- A name as an entry of a list can be: not empty, without blanks at its ends and without commas. -/
structure IsEntry (name : Text) : Prop where
  strip_eq : name.strip = name
  ne_nil : name ≠ []
  comma_not_mem : (',' : CodePoint) ∉ name

theorem isEntry_of_mem_commaEntries {text entry : Text} (member : entry ∈ commaEntries text) :
    IsEntry entry := by
  obtain ⟨stripped, some_⟩ := List.mem_filter.mp member
  obtain ⟨piece, split, rfl⟩ := List.mem_map.mp stripped
  refine ⟨strip_strip piece, of_decide_eq_true some_, fun comma => ?_⟩
  exact not_mem_of_mem_splitAt split (mem_of_mem_strip comma)

theorem IsEntry.commaEntries {name : Text} (entry : IsEntry name) : name.commaEntries = [name] := by
  rw [Text.commaEntries, splitAt_eq_splitOn, List.splitOn_eq_singleton entry.comma_not_mem,
    List.map_singleton, entry.strip_eq, List.filter_singleton, decide_eq_true entry.ne_nil]
  rfl

/-- Entries joined by commas are what the joined list has. -/
theorem commaEntries_joinWith_of_isEntry {names : List Text} (entries : ∀ name ∈ names, IsEntry name) :
    commaEntries (joinWith "," names) = names := by
  rw [commaEntries_joinWith]
  calc names.flatMap Text.commaEntries = names.flatMap (fun name => [name]) :=
      List.flatMap_congr fun name member => (entries name member).commaEntries
    _ = names := List.flatMap_singleton' names

end ModuleFence.Text
