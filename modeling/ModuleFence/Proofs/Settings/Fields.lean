import ModuleFence.Settings.Basic

set_option autoImplicit false

namespace ModuleFence

namespace Validated

variable {α β : Type} {fields others : List Text}

/-- Issues stand against a value if it is refused, and each of them names one of some fields. -/
def About (fields : List Text) (value : Validated α) : Prop :=
  ∀ issues, value = .error issues → issues ≠ [] ∧ ∀ issue ∈ issues, issue.field ∈ fields

theorem about_ok (fields : List Text) (value : α) : About fields (.ok value : Validated α) := by
  rintro issues ⟨⟩

theorem about_error {issue : Issue} (named : issue.field ∈ fields) :
    About fields (.error [issue] : Validated α) := by
  rintro issues ⟨⟩
  exact ⟨List.cons_ne_nil _ _, List.forall_mem_singleton.mpr named⟩

theorem About.mono {value : Validated α} (about : About fields value) (wider : fields ⊆ others) :
    About others value := by
  intro issues refused
  obtain ⟨some_, each⟩ := about issues refused
  exact ⟨some_, fun issue member => wider (each issue member)⟩

theorem About.map {value : Validated α} (about : About fields value) (function : α → β) :
    About fields (Except.map function value) := by
  cases value with
  | ok value => exact about_ok fields _
  | error issues =>
    intro all same
    exact about all (congrArg Except.error (Except.error.inj same))

theorem About.bind {value : Validated α} (about : About fields value) {next : α → Validated β}
    (later : ∀ value, About fields (next value)) : About fields (Except.bind value next) := by
  cases value with
  | ok value => exact later value
  | error issues =>
    intro all same
    exact about all (congrArg Except.error (Except.error.inj same))

/-- The issues of a function and of its argument are kept together. -/
theorem About.apply {function : Validated (α → β)} {argument : Validated α}
    (first : About fields function) (second : About others argument) :
    About (fields ++ others) (Validated.apply function argument) := by
  have left : fields ⊆ fields ++ others := List.subset_append_left fields others
  have right : others ⊆ fields ++ others := List.subset_append_right fields others
  cases function with
  | ok function =>
    cases argument with
    | ok argument => exact about_ok _ _
    | error issues =>
      intro all same
      exact second.mono right all (congrArg Except.error (Except.error.inj same))
  | error issues =>
    cases argument with
    | ok argument =>
      intro all same
      exact first.mono left all (congrArg Except.error (Except.error.inj same))
    | error further =>
      rintro all ⟨⟩
      obtain ⟨some_, each⟩ := first issues rfl
      obtain ⟨-, alsoEach⟩ := second further rfl
      refine ⟨List.append_ne_nil_of_left_ne_nil some_ further, fun issue member => ?_⟩
      rcases List.mem_append.mp member with here | there
      · exact left (each issue here)
      · exact right (alsoEach issue there)

theorem About.forModel {value : Validated α} (about : About fields value) {model : String}
    {error : ValidationError} (refused : Validated.forModel model value = .error error) :
    error.model = model ∧ error.issues ≠ [] ∧ ∀ issue ∈ error.issues, issue.field ∈ fields := by
  cases value with
  | ok value => cases refused
  | error issues =>
    obtain rfl := Except.error.inj refused
    exact ⟨rfl, about issues rfl⟩

end Validated

open Validated (About about_ok about_error)

namespace Field

variable {α : Type}

theorem about_refuse (field : Text) (complaint : Complaint) :
    About [field] (refuse field complaint : Validated α) :=
  about_error (List.mem_singleton.mpr rfl)

theorem about_optionalPath (field : Text) (given : Option Json) :
    About [field] (optionalPath field given) := by
  unfold optionalPath
  repeat' split
  all_goals first | exact about_ok _ _ | exact about_refuse _ _

theorem about_stringsFrom (field : Text) (index : Nat) (items : List Json) :
    About [field] (stringsFrom field index items) := by
  induction items generalizing index with
  | nil => exact about_ok _ _
  | cons item rest ih =>
    have whole : [field] ++ [field] ⊆ [field] :=
      List.append_subset.mpr ⟨List.Subset.refl _, List.Subset.refl _⟩
    unfold stringsFrom
    refine (About.apply (About.map ?_ List.cons) (ih (index + 1))).mono whole
    split
    · exact about_ok _ _
    · exact about_error (List.mem_singleton.mpr rfl)

theorem about_strings (field : Text) (otherwise : Complaint) (value : Json) :
    About [field] (strings field otherwise value) := by
  unfold strings
  split
  · exact about_stringsFrom field 0 _
  · exact about_refuse _ _

end Field

namespace RuleId

theorem ofName?_name (id : RuleId) : ofName? (Text.ofString id.name) = some id := by
  cases id <;> decide

theorem eq_name_of_ofName? {name : Text} {id : RuleId} (found : ofName? name = some id) :
    name = Text.ofString id.name := by
  rw [ofName?] at found
  have same := List.find?_some found
  exact (of_decide_eq_true same).symm

end RuleId

namespace Settings

variable {α : Type}

/-- The names of rules are read as these rules, and other names are refused. -/
theorem rulesOf_eq_ok_iff (names : List Text) (ids : List RuleId) :
    rulesOf names = .ok ids ↔ names = ids.map fun id => Text.ofString id.name := by
  simp only [rulesOf]
  constructor
  · intro read
    split at read
    · rename_i known
      rw [← Except.ok.inj read]
      clear read
      induction names with
      | nil => rfl
      | cons name rest ih =>
        rw [List.filter_cons] at known
        cases found : RuleId.ofName? name with
        | none =>
          rw [found] at known
          cases known
        | some id =>
          rw [found] at known
          rw [List.filterMap_cons, found, List.map_cons, ← ih known,
            RuleId.eq_name_of_ofName? found]
    · cases read
  · rintro rfl
    have known : (ids.map fun id => Text.ofString id.name).filter
        (fun name => (RuleId.ofName? name).isNone) = [] := by
      simp [RuleId.ofName?_name]
    have each : (RuleId.ofName? ∘ fun id => Text.ofString id.name) = some :=
      funext RuleId.ofName?_name
    rw [if_pos known, List.filterMap_map, each, List.filterMap_some]

theorem about_valueOr (field : Text) (default : α) {read : Json → Validated α}
    (each : ∀ value, About [field] (read value)) (given : Option Json) :
    About [field] (valueOr default read given) := by
  cases given with
  | none => exact about_ok _ _
  | some value => exact each value

theorem about_policyOf (value : Json) : About [(Key.failurePolicy.name : Text)] (policyOf value) := by
  unfold policyOf
  split
  · exact about_ok _ _
  · exact Field.about_refuse _ _

theorem about_levelOf (value : Json) : About [(Key.logLevel.name : Text)] (levelOf value) := by
  unfold levelOf
  split
  · exact about_ok _ _
  · exact Field.about_refuse _ _

theorem about_rulesOf (names : List Text) :
    About [(Key.enabledRules.name : Text)] (rulesOf names) := by
  simp only [rulesOf]
  split
  · exact about_ok _ _
  · exact Field.about_refuse _ _

/-- Values that make no settings are refused by issues, each against a field of settings. -/
theorem issues_of_ofGiven {given : Given} {error : ValidationError}
    (refused : ofGiven given = .error error) :
    error.model = modelName ∧ error.issues ≠ [] ∧
      ∀ issue ∈ error.issues, ∃ key : Key, issue.field = Text.ofString key.name := by
  have modules := about_valueOr _ ([] : List Text)
    (fun value => Field.about_strings Key.forbiddenModules.name .notAList (Field.splitCommas value))
    (given .forbiddenModules)
  have policy := about_valueOr _ FailurePolicy.open about_policyOf (given .failurePolicy)
  have rules := about_valueOr _ RuleId.all
    (fun value => (Field.about_strings Key.enabledRules.name .notAList
      (Field.splitCommas value)).bind about_rulesOf) (given .enabledRules)
  have level := about_valueOr _ LogLevel.warning about_levelOf (given .logLevel)
  have skipped := about_valueOr _ ({} : Settings).skipDirectories
    (Field.about_strings Key.skipDirectories.name .notAList) (given .skipDirectories)
  have path := (Field.about_optionalPath Key.storeFilePath.name (given .storeFilePath)).map
    Settings.mk
  have all := ((((path.apply modules).apply policy).apply rules).apply level).apply skipped
  obtain ⟨named, some_, each⟩ := all.forModel refused
  refine ⟨named, some_, fun issue member => ?_⟩
  have listed := each issue member
  simp only [List.cons_append, List.nil_append, List.mem_cons, List.not_mem_nil, or_false] at listed
  rcases listed with same | same | same | same | same | same <;> exact ⟨_, same⟩

end Settings

end ModuleFence
