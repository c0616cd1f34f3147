import ModuleFence.Proofs.FileSystem.Ordering

set_option autoImplicit false

namespace ModuleFence.Path

/-- Paths as they are read: each part is a segment without slashes that counts as a part. -/
def IsNormal (path : Path) : Prop :=
  ∀ part ∈ path.parts, '/' ∉ part.toList ∧ isPart part.toList = true

/-- The segments of a spelling are what the slashes split it into. -/
theorem segments_eq_splitOn (characters : List Char) :
    segments characters = characters.splitOn '/' := by
  induction characters with
  | nil => exact (List.splitOn_nil '/').symm
  | cons character rest ih =>
    rw [List.splitOn_cons_eq_if_modifyHead]
    by_cases slash : character = '/'
    · rw [if_pos (beq_iff_eq.mpr slash), slash, segments, ih]
    · rw [if_neg (mt beq_iff_eq.mp slash), segments, ih]
      · cases split : rest.splitOn '/' with
        | nil => exact absurd split (List.splitOn_ne_nil '/' rest)
        | cons segment others => rfl
      · exact slash

theorem rootOf_spelling_append (root : PathRoot) {rest : List Char}
    (start : ∀ others, rest ≠ '/' :: others) : rootOf (root.spelling.toList ++ rest) = root := by
  cases root with
  | relative =>
    change rootOf rest = .relative
    rw [rootOf] <;> intro others same <;> exact start _ same
  | slash =>
    change rootOf ('/' :: rest) = .slash
    rw [rootOf] <;> intro others same <;> exact start _ same
  | doubleSlash =>
    change rootOf ('/' :: '/' :: rest) = .doubleSlash
    rw [rootOf]
    intro others same
    exact start _ same

/-- Slashes in front of a spelling add no parts. -/
theorem filter_segments_spelling_append (root : PathRoot) (rest : List Char) :
    (segments (root.spelling.toList ++ rest)).filter isPart = (segments rest).filter isPart := by
  cases root with
  | relative => rfl
  | slash => rfl
  | doubleSlash => rfl

/-- A normal path is read back from its spelling. -/
theorem ofString_toString {path : Path} (normal : path.IsNormal) :
    ofString path.toString = path := by
  obtain ⟨root, parts⟩ := path
  have written : (PathRoot.spelling root ++ "/".intercalate parts).toList =
      root.spelling.toList ++ ['/'].intercalate (parts.map String.toList) := by
    rw [String.toList_append, String.toList_intercalate]
    rfl
  cases parts with
  | nil => cases root <;> decide
  | cons part parts =>
    have plain : ∀ piece ∈ (part :: parts).map String.toList, '/' ∉ piece := by
      intro piece member
      obtain ⟨name, inside, rfl⟩ := List.mem_map.mp member
      exact (normal name inside).1
    have split : segments (['/'].intercalate ((part :: parts).map String.toList)) =
        (part :: parts).map String.toList := by
      rw [segments_eq_splitOn]
      exact List.splitOn_intercalate '/' plain (List.cons_ne_nil _ _)
    have start (others : List Char) :
        ['/'].intercalate ((part :: parts).map String.toList) ≠ '/' :: others := by
      intro same
      rw [same, segments] at split
      have empty := (List.cons.inj split).1
      have counts := (normal part List.mem_cons_self).2
      rw [← empty] at counts
      exact absurd counts (by decide)
    have kept : ((part :: parts).map String.toList).filter isPart =
        (part :: parts).map String.toList := by
      rw [List.filter_eq_self]
      intro piece member
      obtain ⟨name, inside, rfl⟩ := List.mem_map.mp member
      exact (normal name inside).2
    have names : ((part :: parts).map String.toList).map String.ofList = part :: parts := by
      rw [List.map_map]
      exact (List.map_congr_left fun name _ => String.ofList_toList).trans (List.map_id _)
    have notCurrent : ¬ (root = .relative ∧ part :: parts = []) :=
      fun both => List.cons_ne_nil part parts both.2
    rw [toString, if_neg notCurrent, ofString, written, rootOf_spelling_append root start,
      filter_segments_spelling_append, split, kept, names]

/-- Normal paths are told apart by their spellings. -/
theorem toText_injective {path other : Path} (normal : path.IsNormal) (too : other.IsNormal)
    (same : path.toText = other.toText) : path = other := by
  rw [← ofString_toString normal, Text.ofString_injective same, ofString_toString too]

end ModuleFence.Path
