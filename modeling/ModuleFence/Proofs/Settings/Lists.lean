import ModuleFence.Proofs.Json.Weight
import ModuleFence.Proofs.Settings.Values

set_option autoImplicit false

namespace ModuleFence

namespace Json

/-- The strings of a list that holds nothing else. -/
def strings? : Json → Option (List Text)
  | array items => items.mapM text?
  | _ => none

theorem eq_of_mapM_text? {items : List Json} {names : List Text}
    (listed : items.mapM text? = some names) : items = names.map .string := by
  induction items generalizing names with
  | nil =>
    cases listed
    rfl
  | cons item rest ih =>
    rw [List.mapM_cons, Option.bind_eq_bind, Option.bind_eq_some_iff] at listed
    obtain ⟨name, first, later⟩ := listed
    obtain ⟨others, found, same⟩ := Option.bind_eq_some_iff.mp later
    cases same
    rw [List.map_cons, ← ih found]
    cases item with
    | string value =>
      cases first
      rfl
    | _ => cases first

theorem eq_array_of_strings? {value : Json} {names : List Text}
    (listed : value.strings? = some names) : value = .array (names.map .string) := by
  cases value with
  | array items => rw [eq_of_mapM_text? listed]
  | _ => cases listed

theorem readWithin_of_strings? {limits : Limits} {text : Text} {names : List Text}
    (listed : (readWithin limits text).toOption.bind strings? = some names) :
    readWithin limits text = .ok (.array (names.map .string)) := by
  cases read : readWithin limits text with
  | error fault =>
    rw [read] at listed
    cases listed
  | ok value =>
    rw [read] at listed
    rw [eq_array_of_strings? listed]

end Json

namespace Text

/-- A JSON text for some names has other entries. -/
theorem commaEntries_ne_of_json {limits : Json.Limits} {text : Text} {names : List Text}
    (read : Json.readWithin limits text = .ok (.array (names.map .string))) : commaEntries text ≠ names := by
  intro same
  obtain ⟨-, heavier⟩ := Json.readWithin_strings read
  have kept := congrArg List.length (filter_flatten_commaEntries text)
  rw [same, ← List.countP_eq_length_filter, ← List.countP_eq_length_filter] at kept
  rw [Json.weight, Json.weight, kept] at heavier
  omega

/-- The bracket of a JSON text for some names is in one of its entries. -/
theorem exists_bracket_of_json {limits : Json.Limits} {text : Text} {names : List Text}
    (read : Json.readWithin limits text = .ok (.array (names.map .string))) :
    ∃ entry ∈ commaEntries text, CodePoint.ofChar '[' ∈ entry := by
  obtain ⟨bracket, -⟩ := Json.readWithin_strings read
  have solid : CodePoint.ofChar '[' ∈ text.filter isSolid :=
    List.mem_filter.mpr ⟨bracket, by decide⟩
  rw [← filter_flatten_commaEntries] at solid
  exact List.mem_flatten.mp (List.mem_filter.mp solid).1

end Text

namespace Settings

variable {files : FileSystem} {environment : Environment} {values : Json} {others : Settings}
  {raw : String}

/-- The names of rules have no bracket. -/
theorem not_bracket_of_rule (id : RuleId) : CodePoint.ofChar '[' ∉ Text.ofString id.name := by
  cases id <;> decide

theorem isEntry_of_rule (id : RuleId) : (Text.ofString id.name).IsEntry := by
  cases id <;> exact ⟨by decide, by decide, by decide⟩

/-- The value that a variable of the environment gives to a field that is not given directly. -/
theorem behind_of_variable {key : Key} (listed : key ≠ .skipDirectories) {given : Given}
    (read : surroundings files environment = .ok given) (direct : values.member? key.name = none)
    (variable_ : rawValue key (bindingsOf environment) = some (some raw)) :
    given.behind values key = some (.string (Text.ofString raw)) := by
  rw [Given.behind, direct, given_of_environment read listed variable_]
  rfl

theorem load_of_modules_variable
    (apart : MadeApart .forbiddenModules files environment values others)
    (direct : values.member? Key.forbiddenModules.name = none)
    (variable_ : rawValue .forbiddenModules (bindingsOf environment) = some (some raw)) :
    load files environment values =
      .ok { others with forbiddenModules := Text.commaEntries (Text.ofString raw) } := by
  obtain ⟨given, read, reads⟩ := apart
  rw [load_eq_ok_iff]
  exact ⟨given, read, reads.with_modules (behind_of_variable (by decide) read direct variable_)⟩

/-- Rules are enabled by a variable if its entries are their names. -/
theorem load_of_rules_variable {ids : List RuleId}
    (apart : MadeApart .enabledRules files environment values others)
    (direct : values.member? Key.enabledRules.name = none)
    (variable_ : rawValue .enabledRules (bindingsOf environment) = some (some raw))
    (names : Text.commaEntries (Text.ofString raw) = ids.map fun id => Text.ofString id.name) :
    load files environment values = .ok { others with enabledRules := ids } := by
  obtain ⟨given, read, reads⟩ := apart
  rw [load_eq_ok_iff]
  exact ⟨given, read, reads.with_rules (behind_of_variable (by decide) read direct variable_)
    (commaStrings_string _ _) ((rulesOf_eq_ok_iff _ _).mpr names)⟩

/-- An entry that no rule has as its name refuses the settings. -/
theorem load_of_unknown_rule {entry : Text}
    (apart : MadeApart .enabledRules files environment values others)
    (direct : values.member? Key.enabledRules.name = none)
    (variable_ : rawValue .enabledRules (bindingsOf environment) = some (some raw))
    (member : entry ∈ Text.commaEntries (Text.ofString raw))
    (unknown : ∀ id : RuleId, Text.ofString id.name ≠ entry) :
    ∃ error, load files environment values = .error (.invalid error) := by
  obtain ⟨given, read, -⟩ := apart
  have value := behind_of_variable (by decide) read direct variable_
  have loaded : load files environment values = validated (given.behind values) := by
    rw [load_eq, read]
    rfl
  rw [loaded]
  cases made : validated (given.behind values) with
  | ok settings =>
    have rules := ((validated_eq_ok_iff _ _).mp made).enabledRules
    rw [value, valueOr, commaStrings_string] at rules
    have names := (rulesOf_eq_ok_iff _ _).mp rules
    rw [names] at member
    obtain ⟨id, -, same⟩ := List.mem_map.mp member
    exact absurd same (unknown id)
  | error failure =>
    rw [validated] at made
    split at made
    · cases made
    · exact ⟨_, made.symm⟩

/-- Variables for lists are split at their commas. Names joined by commas, each without blanks at its
ends, not empty and without commas, are what the variable means. A JSON text for a list of names means
another list of modules, and as a list of rules it refuses the settings. -/
theorem list_variables_split_at_commas (files : FileSystem) (environment : Environment)
    (values : Json) (others : Settings) (raw : String) :
    (MadeApart .forbiddenModules files environment values others →
      values.member? Key.forbiddenModules.name = none →
      rawValue .forbiddenModules (bindingsOf environment) = some (some raw) →
      ∃ modules, load files environment values = .ok { others with forbiddenModules := modules } ∧
        (∀ names : List Text, (∀ name ∈ names, name.IsEntry) →
          Text.ofString raw = Text.joinWith "," names → modules = names) ∧
        ∀ (limits : Json.Limits) (names : List Text),
          Json.readWithin limits raw = .ok (.array (names.map .string)) → modules ≠ names) ∧
    (MadeApart .enabledRules files environment values others →
      values.member? Key.enabledRules.name = none →
      rawValue .enabledRules (bindingsOf environment) = some (some raw) →
      (∀ ids : List RuleId,
        Text.ofString raw = Text.joinWith "," (ids.map fun id => Text.ofString id.name) →
        load files environment values = .ok { others with enabledRules := ids }) ∧
      ∀ (limits : Json.Limits) (names : List Text),
        Json.readWithin limits raw = .ok (.array (names.map .string)) →
        ∃ error, load files environment values = .error (.invalid error)) := by
  refine ⟨fun apart direct variable_ => ?_, fun apart direct variable_ => ⟨?_, ?_⟩⟩
  · refine ⟨_, load_of_modules_variable apart direct variable_, ?_, ?_⟩
    · intro names entries joined
      rw [joined]
      exact Text.commaEntries_joinWith_of_isEntry entries
    · intro limits names read
      exact Text.commaEntries_ne_of_json read
  · intro ids joined
    apply load_of_rules_variable apart direct variable_
    rw [joined]
    apply Text.commaEntries_joinWith_of_isEntry
    intro name member
    obtain ⟨id, -, rfl⟩ := List.mem_map.mp member
    exact isEntry_of_rule id
  · intro limits names read
    obtain ⟨entry, member, bracket⟩ := Text.exists_bracket_of_json read
    apply load_of_unknown_rule apart direct variable_ member
    rintro id rfl
    exact not_bracket_of_rule id bracket

/-- Modules joined by commas, and a rule in a JSON text, in an empty directory. -/
theorem list_variables_split_at_commas_of_single :
    load (.empty []) { bindings := [("STORELINT_FORBIDDEN_MODULES", "b,a")] } (.object []) =
        .ok { forbiddenModules := ["b", "a"].map Text.ofString } ∧
      ∃ error, load (.empty [])
        { bindings := [("STORELINT_ENABLED_RULES", "[\"disallow-empty-catch\"]")] } (.object []) =
          .error (.invalid error) := by
  have modules := surroundings_of_single "STORELINT_FORBIDDEN_MODULES" "b,a" .forbiddenModules
    (by decide +kernel) (by decide)
  have rules := surroundings_of_single "STORELINT_ENABLED_RULES" "[\"disallow-empty-catch\"]"
    .enabledRules (by decide +kernel) (by decide)
  constructor
  · obtain ⟨names, loaded, joined, -⟩ := (list_variables_split_at_commas (.empty [])
      { bindings := [("STORELINT_FORBIDDEN_MODULES", "b,a")] } (.object []) {} "b,a").1
      ⟨_, modules, rfl, rfl, rfl, rfl, rfl, rfl⟩ rfl (by decide +kernel)
    rw [loaded, joined (["b", "a"].map Text.ofString) ?_ (by decide)]
    intro name member
    simp only [List.map_cons, List.map_nil, List.mem_cons, List.not_mem_nil, or_false] at member
    rcases member with rfl | rfl
    · exact ⟨by decide, by decide, by decide⟩
    · exact ⟨by decide, by decide, by decide⟩
  · exact ((list_variables_split_at_commas (.empty [])
      { bindings := [("STORELINT_ENABLED_RULES", "[\"disallow-empty-catch\"]")] } (.object []) {}
      "[\"disallow-empty-catch\"]").2
      ⟨_, rules, rfl, rfl, rfl, rfl, rfl, rfl⟩ rfl (by decide +kernel)).2
      (.standard 1) [Text.ofString "disallow-empty-catch"]
      (Json.readWithin_of_strings? (by decide +kernel))

/-- A JSON text for one module is read as one module with brackets and quotes. -/
theorem load_of_json_list :
    Json.readWithin (.standard 1) "[\"a\"]" = .ok (.array [.string "a"]) ∧
      load (.empty []) { bindings := [("STORELINT_FORBIDDEN_MODULES", "[\"a\"]")] } (.object []) =
        .ok { forbiddenModules := [Text.ofString "[\"a\"]"] } ∧
      Text.ofString "[\"a\"]" ≠ Text.ofString "a" := by
  have read := surroundings_of_single "STORELINT_FORBIDDEN_MODULES" "[\"a\"]" .forbiddenModules
    (by decide +kernel) (by decide)
  have listed : (Json.readWithin (.standard 1) "[\"a\"]").toOption.bind Json.strings? =
      some [Text.ofString "a"] := by
    decide +kernel
  have apart : MadeApart .forbiddenModules (.empty [])
      { bindings := [("STORELINT_FORBIDDEN_MODULES", "[\"a\"]")] } (.object []) {} :=
    ⟨_, read, rfl, rfl, rfl, rfl, rfl, rfl⟩
  have variable_ : rawValue .forbiddenModules
      (bindingsOf { bindings := [("STORELINT_FORBIDDEN_MODULES", "[\"a\"]")] }) = some (some "[\"a\"]") := by
    decide +kernel
  refine ⟨Json.readWithin_of_strings? listed, ?_, by decide⟩
  rw [load_of_modules_variable apart rfl variable_]
  have split : Text.commaEntries (Text.ofString "[\"a\"]") = [Text.ofString "[\"a\"]"] := by
    decide +kernel
  rw [split]

end Settings

end ModuleFence
