import ModuleFence.Proofs.CommandLine.Values
import ModuleFence.Proofs.Rule.Cleaning
import ModuleFence.Proofs.Text.Entries

set_option autoImplicit false

namespace ModuleFence.CommandLine

open Settings (MadeApart)

/-- The names that values for the forbidden modules hold between their commas. -/
def pieces (values : List String) : List Text :=
  values.flatMap fun value => Text.commaEntries (Text.ofString value)

theorem commaEntries_values (values : List String) :
    Text.commaEntries (",".intercalate values) = pieces values := by
  rw [Text.ofString_intercalate]
  show Text.commaEntries (Text.joinWith (Text.ofString ",") _) = _
  rw [Text.commaEntries_joinWith, List.flatMap_map]
  rfl

theorem isEntry_of_mem_pieces {values : List String} {piece : Text} (member : piece ∈ pieces values) :
    piece.IsEntry := by
  obtain ⟨value, -, inside⟩ := List.mem_flatMap.mp member
  exact Text.isEntry_of_mem_commaEntries inside

theorem map_strip_pieces (values : List String) : (pieces values).map Text.strip = pieces values := by
  rw [List.map_congr_left fun piece member => (isEntry_of_mem_pieces member).strip_eq]
  exact List.map_id _

theorem canForbid_iff_of_mem_pieces {values : List String} {piece : Text}
    (member : piece ∈ pieces values) :
    ModuleOptions.CanForbid piece ↔ moduleSeparator ∉ piece := by
  have entry := isEntry_of_mem_pieces member
  rw [ModuleOptions.CanForbid, entry.strip_eq]
  exact and_iff_right entry.ne_nil

namespace LintArguments

variable {arguments : LintArguments} {files : FileSystem} {environment : Environment}
  {others : Settings}

/-- Settings of a run that are made apart from the forbidden modules are made with those of the
arguments, whatever the environment forbids. -/
theorem settings_of_flags
    (apart : MadeApart .forbiddenModules files environment (.object arguments.settingsMembers) others)
    (flags : arguments.forbidden ≠ []) :
    arguments.settings files environment =
      .ok { others with forbiddenModules := pieces arguments.forbidden } := by
  obtain ⟨surrounding, read, reads⟩ := apart
  rw [behind_settingsMembers] at reads
  have value : arguments.allGiven surrounding .forbiddenModules =
      some (.string (",".intercalate arguments.forbidden)) := by
    simp only [allGiven, given, if_neg flags]
    rfl
  rw [settings_eq_ok_iff, ← commaEntries_values]
  exact ⟨surrounding, read, reads.with_modules value⟩

/-- The settings that are made apart from the forbidden modules do not depend on what arguments
forbid. -/
theorem madeApart_of_flags
    (apart : MadeApart .forbiddenModules files environment (.object arguments.settingsMembers) others)
    (values : List String) :
    MadeApart .forbiddenModules files environment
      (.object { arguments with forbidden := values }.settingsMembers) others := by
  obtain ⟨surrounding, read, reads⟩ := apart
  refine ⟨surrounding, read, ?_⟩
  rw [behind_settingsMembers] at reads ⊢
  have same : ({ arguments with forbidden := values }.allGiven surrounding).without
      .forbiddenModules = (arguments.allGiven surrounding).without .forbiddenModules := by
    funext key
    cases key <;> rfl
  rw [same]
  exact reads

/-- Pieces without a slash make rules, with each of the pieces once. -/
theorem create_of_plain (settings : Settings) {values : List String}
    (forbids : settings.forbiddenModules = pieces values)
    (plain : ∀ piece ∈ pieces values, moduleSeparator ∉ piece) :
    (Rule.create settings none).1 = .ok (settings.enabledRules.map (Rule.start settings)) ∧
      settings.moduleOptions = ⟨settings.storeFilePath, (pieces values).eraseDups⟩ := by
  have fine : ∀ piece ∈ settings.forbiddenModules, ModuleOptions.CanForbid piece := by
    intro piece member
    rw [forbids] at member
    exact (canForbid_iff_of_mem_pieces member).mpr (plain piece member)
  have valid := congrArg Prod.fst
    (ModuleOptions.ofNames_of_canForbid fine settings.storeFilePath)
  refine ⟨Rule.create_of_valid fun _ => ⟨_, valid⟩, ?_⟩
  rw [Settings.moduleOptions, valid, forbids, map_strip_pieces]

/-- A piece with a slash refuses the rules. -/
theorem create_of_slashed (settings : Settings) {values : List String}
    (enabled : .someModule ∈ settings.enabledRules)
    (forbids : settings.forbiddenModules = pieces values)
    {piece : Text} (member : piece ∈ pieces values) (slashed : moduleSeparator ∈ piece) :
    ∃ error, (Rule.create settings none).1 = .error error := by
  have bad : ¬ ModuleOptions.CanForbid piece :=
    fun fine => (canForbid_iff_of_mem_pieces member).mp fine slashed
  rw [← forbids] at member
  obtain ⟨error, invalid⟩ := ModuleOptions.ofNames_of_not_canForbid member bad settings.storeFilePath
  exact ⟨_, Rule.create_of_invalid enabled invalid⟩

/-- Modules that are forbidden on the command line. With the other settings valid and the rule against
forbidden modules enabled, the names between the commas of all values are forbidden, each once and in
the order in which they come first, unless one of them holds a slash, which refuses the rules.
Values with the same names give the same settings, and the names that are forbidden are those that
their list gives. -/
theorem forbidden_of_flags (apart : MadeApart .forbiddenModules files environment
      (.object arguments.settingsMembers) others)
    (enabled : .someModule ∈ others.enabledRules) (flags : arguments.forbidden ≠ []) :
    ∃ settings, arguments.settings files environment = .ok settings ∧
      settings = { others with forbiddenModules := pieces arguments.forbidden } ∧
      ((∃ error, (Rule.create settings none).1 = .error error) ↔
        ∃ piece ∈ pieces arguments.forbidden, moduleSeparator ∈ piece) ∧
      (∀ rules, (Rule.create settings none).1 = .ok rules →
        (∃ rule, .someModule rule ∈ rules) ∧
        ∀ rule, .someModule rule ∈ rules →
          rule.options = ⟨others.storeFilePath, (pieces arguments.forbidden).eraseDups⟩ ∧
          Text.commaEntries (Text.joinWith "," rule.options.forbiddenModules) =
            rule.options.forbiddenModules) ∧
      ∀ values : List String, values ≠ [] →
        Text.commaEntries (",".intercalate values) =
          Text.commaEntries (",".intercalate arguments.forbidden) →
        { arguments with forbidden := values }.settings files environment = .ok settings := by
  refine ⟨_, settings_of_flags apart flags, rfl, ⟨?_, ?_⟩, ?_, ?_⟩
  · rintro ⟨error, failed⟩
    by_contra plain
    obtain ⟨made, -⟩ := create_of_plain
      { others with forbiddenModules := pieces arguments.forbidden } rfl
      fun piece member slashed => plain ⟨piece, member, slashed⟩
    rw [made] at failed
    cases failed
  · rintro ⟨piece, member, slashed⟩
    exact create_of_slashed _ enabled rfl member slashed
  · intro rules success
    have plain : ∀ piece ∈ pieces arguments.forbidden, moduleSeparator ∉ piece := by
      intro piece member slashed
      obtain ⟨error, failed⟩ := create_of_slashed
        { others with forbiddenModules := pieces arguments.forbidden } enabled rfl member slashed
      rw [failed] at success
      cases success
    obtain ⟨made, options_eq⟩ := create_of_plain
      { others with forbiddenModules := pieces arguments.forbidden } rfl plain
    obtain rfl := Except.ok.inj (made.symm.trans success)
    refine ⟨⟨_, List.mem_map.mpr ⟨.someModule, enabled, rfl⟩⟩, fun rule member => ?_⟩
    obtain ⟨id, -, same⟩ := List.mem_map.mp member
    cases id with
    | emptyCatch => cases same
    | someModule =>
      cases same
      refine ⟨options_eq, Text.commaEntries_joinWith_of_isEntry fun name inside => ?_⟩
      rw [ModuleRule.sharing, ModuleRule.unasked, options_eq, List.mem_eraseDups] at inside
      exact isEntry_of_mem_pieces inside
  · intro values some_ same
    rw [commaEntries_values, commaEntries_values] at same
    rw [settings_of_flags (madeApart_of_flags apart values) some_, same]

/-- Names in several groups, in an environment that forbids what cannot be forbidden. -/
theorem forbidden_of_flags_grouped :
    let arguments : LintArguments := { paths := ["a.js"], forbidden := [" b ,a", "b,,"] }
    let environment : Environment := { bindings := [("STORELINT_FORBIDDEN_MODULES", "x/y")] }
    MadeApart .forbiddenModules (.empty []) environment (.object arguments.settingsMembers) {} ∧
      arguments.forbidden ≠ [] ∧
      ∃ settings rules rule, arguments.settings (.empty []) environment = .ok settings ∧
        (Rule.create settings none).1 = .ok rules ∧ .someModule rule ∈ rules ∧
        rule.options = ⟨none, ["b", "a"]⟩ := by
  intro arguments environment
  have read := Settings.surroundings_of_single "STORELINT_FORBIDDEN_MODULES" "x/y" .forbiddenModules
    (by decide +kernel) (by decide)
  have apart : MadeApart .forbiddenModules (.empty []) environment
      (.object arguments.settingsMembers) {} :=
    ⟨_, read, rfl, rfl, rfl, rfl, rfl, rfl⟩
  have flags : arguments.forbidden ≠ [] := List.cons_ne_nil _ _
  have names : pieces arguments.forbidden = ["b", "a", "b"].map Text.ofString := by
    decide +kernel
  have plain : ∀ piece ∈ pieces arguments.forbidden, moduleSeparator ∉ piece := by
    rw [names]
    decide +kernel
  obtain ⟨settings, set, -, refused, made, -⟩ := forbidden_of_flags apart (by decide) flags
  cases created : (Rule.create settings none).1 with
  | error error =>
    obtain ⟨piece, member, slashed⟩ := refused.mp ⟨error, created⟩
    exact absurd slashed (plain piece member)
  | ok rules =>
    obtain ⟨⟨rule, member⟩, each⟩ := made rules created
    refine ⟨apart, flags, settings, rules, rule, set, created, member, ?_⟩
    rw [(each rule member).1, names]
    decide

end LintArguments

end ModuleFence.CommandLine
