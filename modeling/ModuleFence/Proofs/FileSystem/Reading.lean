import ModuleFence.FileSystem.Basic

/-!
Reading of files. A path that holds a null character is refused outright; any other path leads to a
text, or to an error that reading is expected to have.
-/

set_option autoImplicit false

namespace ModuleFence

theorem ReadError.isExpected_iff (error : ReadError) :
    error.isExpected = true ↔ error ≠ .embeddedNull := by
  cases error <;> simp [isExpected]

namespace Path

/-- A character other than the separator stands in a spelling when it stands in a segment of it. -/
theorem mem_segments_iff {character : Char} (plain : character ≠ '/') (spelling : List Char) :
    (∃ segment ∈ segments spelling, character ∈ segment) ↔ character ∈ spelling := by
  induction spelling with
  | nil => simp [segments]
  | cons first rest ih =>
    rw [List.mem_cons, ← ih]
    by_cases slash : first = '/'
    · subst slash
      simp [segments, plain]
    · rw [segments]
      · cases segments rest with
        | nil => simp
        | cons segment others => simp [or_assoc]
      · exact slash

end Path

namespace FileSystem

/-- Normalizing a path neither adds a null character nor drops one. -/
theorem hasNull_ofString_iff (spelling : String) :
    hasNull (Path.ofString spelling) = true ↔ '\x00' ∈ spelling.toList := by
  have isPart_of_mem {segment : List Char} (null : '\x00' ∈ segment) :
      Path.isPart segment = true := by
    rw [Path.isPart, Bool.and_eq_true, bne_iff_ne, bne_iff_ne]
    constructor
    · rintro rfl
      cases null
    · rintro rfl
      exact absurd null (by decide)
  rw [← Path.mem_segments_iff (by decide), hasNull, Path.ofString, List.any_map, List.any_filter,
    List.any_eq_true]
  refine exists_congr fun segment => and_congr_right fun _ => ?_
  rw [Bool.and_eq_true, Function.comp_apply, String.contains_char_eq, decide_eq_true_iff,
    String.toList_ofList]
  exact ⟨And.right, fun null => ⟨isPart_of_mem null, null⟩⟩

/-- Reading is refused outright exactly for paths with a null character. -/
theorem readText_eq_embeddedNull_iff (files : FileSystem) (path : Path) :
    files.readText path = .error .embeddedNull ↔ hasNull path = true := by
  rw [readText, readBytes]
  by_cases null : hasNull path = true
  · rw [if_pos null]
    exact iff_of_true rfl null
  · rw [if_neg null]
    refine iff_of_false ?_ null
    cases files.locate path with
    | error fault => simp [bind, Except.bind]
    | ok found =>
      obtain ⟨location, entry⟩ := found
      cases entry with
      | directory => simp [bind, Except.bind]
      | link target => simp [bind, Except.bind]
      | file bytes =>
        simp only [bind, Except.bind]
        cases Utf8.decode bytes <;> simp [pure, Except.pure, throw, throwThe, MonadExceptOf.throw]

/-- A path that leads to a file has the text of the file. -/
theorem readText_of_file {files : FileSystem} {path : Path} {location : Location}
    {bytes : List UInt8} {characters : List Char} (allowed : hasNull path = false)
    (found : files.locate path = .ok (location, .file bytes))
    (decoded : Utf8.decode bytes = .ok characters) :
    files.readText path = .ok (Lines.normalize characters) := by
  rw [readText, readBytes, allowed, found]
  simp only [bind, Except.bind, Bool.false_eq_true, if_false, decoded]
  rfl

/-- A path that leads nowhere has no text. -/
theorem readText_of_fault {files : FileSystem} {path : Path} {fault : PathFault}
    (allowed : hasNull path = false) (lost : files.locate path = .error fault) :
    files.readText path = .error (.path fault path) := by
  rw [readText, readBytes, allowed, lost]
  rfl

end FileSystem

end ModuleFence
