import ModuleFence.Proofs.Rule.Cleaning
import ModuleFence.Proofs.Settings.Values
import ModuleFence.Proofs.Text.Entries

set_option autoImplicit false

namespace ModuleFence

theorem isBlankPoint_moduleSeparator : isBlankPoint moduleSeparator.value = false := by
  decide

/-- Separators are not lost with the blanks at the ends of a name. -/
theorem moduleSeparator_mem_strip_iff (name : Text) :
    moduleSeparator ∈ name.strip ↔ moduleSeparator ∈ name := by
  refine ⟨Text.mem_of_mem_strip, fun member => ?_⟩
  have solid : moduleSeparator ∈ name.filter fun point => !isBlankPoint point.value :=
    List.mem_filter.mpr ⟨member, by rw [isBlankPoint_moduleSeparator]; rfl⟩
  rw [← Text.filter_strip] at solid
  exact (List.mem_filter.mp solid).1

namespace ModuleOptions

theorem canForbid_iff (name : Text) :
    CanForbid name ↔ name.strip ≠ [] ∧ moduleSeparator ∉ name := by
  rw [CanForbid, moduleSeparator_mem_strip_iff]

theorem canForbid_strip {name : Text} (fine : CanForbid name) : CanForbid name.strip := by
  rwa [CanForbid, Text.strip_strip]

/-- Stripped names without repetitions are held as they are, and there is nothing to record. -/
theorem ofNames_of_cleaned {names : List Text} (valid : ∀ name ∈ names, CanForbid name)
    (clean : ∀ name ∈ names, name.strip = name) (once : names.Nodup) (store : Option Path) :
    ofNames store names = (.ok ⟨store, names⟩, []) := by
  have same : names.map Text.strip = names := by
    rw [List.map_congr_left clean]
    exact List.map_id _
  rw [ofNames_of_canForbid valid, same, eraseDups_of_nodup once, (repeated_eq_nil_iff names).mpr once]
  rfl

/-- Options and records as names make them: the names without blanks at their ends, each where it
comes first, and a warning that lists the others. -/
structure Cleans (names : List Text) (options : ModuleOptions) (records : List LogRecord) : Prop where
  forbiddenModules_eq : options.forbiddenModules = (names.map Text.strip).eraseDups
  valid : ∀ name ∈ options.forbiddenModules,
    name.strip = name ∧ name ≠ [] ∧ moduleSeparator ∉ name
  nodup : options.forbiddenModules.Nodup
  mem_iff : ∀ name, name ∈ options.forbiddenModules ↔ ∃ entry ∈ names, entry.strip = name
  records_eq : records =
    if repeated (names.map Text.strip) = [] then []
    else [⟨.warning, .configuration, Text.concat ["Duplicate forbidden modules ignored: ",
      Text.commaList (repeated (names.map Text.strip))]⟩]
  warned_iff : records ≠ [] ↔ options.forbiddenModules.length < names.length
  again : ofNames options.storeFilePath options.forbiddenModules = (.ok options, [])

theorem cleans_of_canForbid {names : List Text} (fine : ∀ name ∈ names, CanForbid name)
    (store : Option Path) :
    Cleans names ⟨store, (names.map Text.strip).eraseDups⟩
      (droppedRecords (repeated (names.map Text.strip))) := by
  have member (name : Text) :
      name ∈ (names.map Text.strip).eraseDups ↔ ∃ entry ∈ names, entry.strip = name := by
    rw [List.mem_eraseDups, List.mem_map]
  have still : ∀ name ∈ (names.map Text.strip).eraseDups, CanForbid name ∧ name.strip = name := by
    intro name kept
    obtain ⟨entry, inside, rfl⟩ := (member name).mp kept
    exact ⟨canForbid_strip (fine entry inside), Text.strip_strip entry⟩
  have once := nodup_eraseDups (names.map Text.strip)
  refine ⟨rfl, fun name kept => ?_, once, member, rfl, ?_, ?_⟩
  · obtain ⟨⟨some_, plain⟩, same⟩ := still name kept
    rw [same] at some_ plain
    exact ⟨same, some_, plain⟩
  · have lengths := (eraseDups_append_repeated_perm (names.map Text.strip)).length_eq
    rw [List.length_append, List.length_map] at lengths
    have dropped : droppedRecords (repeated (names.map Text.strip)) ≠ [] ↔
        0 < (repeated (names.map Text.strip)).length := by
      rw [droppedRecords, List.length_pos_iff]
      split <;> simp_all
    rw [dropped]
    simp only
    omega
  · exact ofNames_of_cleaned (fun name kept => (still name kept).1)
      (fun name kept => (still name kept).2) once store

/-- An object with a list of strings for the forbidden modules makes the options of these names. -/
theorem ofJson_of_names {values : Json} {store : Option Path} {names : List Text}
    (path : Field.optionalPath storeField (values.member? storeField) = .ok store)
    (modules : values.member? modulesField = some (.array (names.map .string))) :
    ofJson values = ofNames store names := by
  have given : givenNames (values.member? modulesField) = .ok names := by
    rw [modules]
    exact Field.stringsFrom_strings modulesField 0 names
  simp only [ofJson, ofNames, path, given]
  show (Validated.forModel modelName (Validated.apply (.ok (withNames store)) (cleanField names)),
    cleaningRecords (cleanField names)) = _
  cases cleanField names <;> rfl

/-- Validation of the options. They are made exactly if every name has something between its blanks
and no separator; otherwise the first name at fault is complained about, without a warning. Options
that are made hold the stripped names, each where it comes first, with a warning that lists all the
others if there are any, and they are made again, silently, from the names that they hold. -/
theorem ofNames_validates (store : Option Path) (names : List Text) :
    (Succeeds (ofNames store names).1 ↔
      ∀ entry ∈ names, entry.strip ≠ [] ∧ moduleSeparator ∉ entry) ∧
    (∀ before entry behind, names = before ++ entry :: behind →
      (∀ earlier ∈ before, earlier.strip ≠ [] ∧ moduleSeparator ∉ earlier) →
      (entry.strip = [] ∨ moduleSeparator ∈ entry) →
      ofNames store names = (.error ⟨"DisallowModuleOptions", [⟨"forbidden_modules", none, .rejected
        (if entry.strip = [] then "forbidden module names must be non-empty"
          else Text.concat ["forbidden module name ", entry.strip.quoted, " must not contain ",
            Text.quoted "/"])⟩]⟩, [])) ∧
    (∀ options records, ofNames store names = (.ok options, records) →
      options.storeFilePath = store ∧ Cleans names options records) ∧
    ∀ values : Json, Field.optionalPath storeField (values.member? storeField) = .ok store →
      values.member? modulesField = some (.array (names.map .string)) →
      ofJson values = ofNames store names := by
  have made (fine : ∀ entry ∈ names, CanForbid entry) := ofNames_of_canForbid fine store
  have fine_iff : (∀ entry ∈ names, entry.strip ≠ [] ∧ moduleSeparator ∉ entry) ↔
      ∀ entry ∈ names, CanForbid entry :=
    forall₂_congr fun entry _ => (canForbid_iff entry).symm
  have succeeds_iff : Succeeds (ofNames store names).1 ↔ ∀ entry ∈ names, CanForbid entry := by
    refine ⟨?_, fun fine => by rw [made fine]; exact succeeds_ok _⟩
    rintro ⟨options, valid⟩ entry member
    by_contra bad
    obtain ⟨error, invalid⟩ := ofNames_of_not_canForbid member bad store
    rw [invalid] at valid
    cases valid
  refine ⟨succeeds_iff.trans fine_iff.symm, ?_, ?_, fun values => ofJson_of_names⟩
  · rintro before entry behind rfl early bad
    have valid : ∀ earlier ∈ before, CanForbid earlier := fun earlier member =>
      (canForbid_iff earlier).mpr (early earlier member)
    have fault : ¬ CanForbid entry := fun fine => by
      rcases bad with empty | slashed
      · exact fine.1 empty
      · exact ((canForbid_iff entry).mp fine).2 slashed
    rw [ofNames_at_fault valid fault, faultOf, apply_ite NameFault.wording]
    rfl
  · intro options records success
    have fine := succeeds_iff.mp ⟨options, congrArg Prod.fst success⟩
    rw [made fine] at success
    cases success
    exact ⟨rfl, cleans_of_canForbid fine store⟩

/-- Names with blanks around them are repeated without these; a name with a separator behind a repeated
one is all that is complained about. -/
theorem ofNames_validates_of_blanks :
    (∃ options records, ofNames none [" a", "b", "a", "b ", "a"] = (.ok options, records) ∧
      options = ⟨none, ["a", "b"]⟩ ∧
      records = [⟨.warning, .configuration, "Duplicate forbidden modules ignored: a, b, a"⟩] ∧
      ofNames none options.forbiddenModules = (.ok options, [])) ∧
    ofNames none ["a", "a ", " b/", ""] =
      (.error ⟨"DisallowModuleOptions", [⟨"forbidden_modules", none,
        .rejected "forbidden module name 'b/' must not contain '/'"⟩]⟩, []) := by
  constructor
  · obtain ⟨succeeds_iff, -, made, -⟩ := ofNames_validates none [" a", "b", "a", "b ", "a"]
    obtain ⟨options, success⟩ := succeeds_iff.mpr (by decide +kernel)
    obtain ⟨store, cleans⟩ := made options _ (Prod.ext success rfl)
    have names := cleans.forbiddenModules_eq
    refine ⟨options, _, Prod.ext success rfl, ?_, ?_, store ▸ cleans.again⟩
    · cases options
      simp only at store names
      rw [store, names]
      decide +kernel
    · exact cleans.records_eq.trans (by decide +kernel)
  · obtain ⟨-, first, -⟩ := ofNames_validates none ["a", "a ", " b/", ""]
    refine (first ["a", "a "] " b/" [""] rfl (by decide +kernel) (by decide +kernel)).trans ?_
    decide +kernel

end ModuleOptions

end ModuleFence
