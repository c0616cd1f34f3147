import ModuleFence.Proofs.Settings.Fields
import ModuleFence.Proofs.Success
import ModuleFence.Rule.Basic

set_option autoImplicit false

namespace ModuleFence

/-- A rule as a run with some options begins with it. -/
def Rule.Fresh (options : ModuleOptions) (rule : Rule) : Prop :=
  rule = .emptyCatch ∨ rule = .someModule (.sharing options)

theorem ModuleOptions.storeFilePath_of_ofNames {store : Option Path} {names : List Text}
    {options : ModuleOptions} (valid : (ofNames store names).1 = .ok options) :
    options.storeFilePath = store := by
  simp only [ofNames] at valid
  cases cleaned : cleanField names with
  | error issues =>
    rw [cleaned] at valid
    cases valid
  | ok cleaning =>
    rw [cleaned] at valid
    cases valid
    rfl

namespace Settings

/-- The options that settings make for the rule against forbidden modules, if they are valid. -/
def moduleOptions (settings : Settings) : ModuleOptions :=
  match (ModuleOptions.ofNames settings.storeFilePath settings.forbiddenModules).1 with
  | .ok options => options
  | .error _ => { storeFilePath := settings.storeFilePath }

theorem storeFilePath_moduleOptions (settings : Settings) :
    settings.moduleOptions.storeFilePath = settings.storeFilePath := by
  rw [moduleOptions]
  cases valid : (ModuleOptions.ofNames settings.storeFilePath settings.forbiddenModules).1 with
  | error error => rfl
  | ok options => exact ModuleOptions.storeFilePath_of_ofNames valid

end Settings

namespace Rule

theorem fresh_of_make {settings : Settings} {id : RuleId} {rule : Rule} {records : List LogRecord}
    (made : make settings id = (.ok rule, records)) : rule.Fresh settings.moduleOptions := by
  cases id with
  | emptyCatch =>
    cases made
    exact .inl rfl
  | someModule =>
    rw [Fresh, Settings.moduleOptions]
    simp only [make] at made
    cases valid : (ModuleOptions.ofNames settings.storeFilePath settings.forbiddenModules).1 with
    | error error =>
      simp only [valid] at made
      cases made
    | ok options =>
      simp only [valid] at made
      cases made
      exact .inr rfl

theorem fresh_of_makeAll {settings : Settings} {names : List Text} {rules : List Rule}
    {records : List LogRecord} (made : makeAll settings names = (.ok rules, records)) :
    ∀ rule ∈ rules, rule.Fresh settings.moduleOptions := by
  induction names generalizing rules records with
  | nil =>
    cases made
    exact fun _ impossible => absurd impossible List.not_mem_nil
  | cons name rest ih =>
    rw [makeAll] at made
    split at made
    · cases made
    · split at made
      · cases made
      · rename_i first _ here
        cases later : makeAll settings rest with
        | mk others further =>
          rw [later] at made
          cases others with
          | error error => cases made
          | ok others =>
            cases made
            exact List.forall_mem_cons.mpr ⟨fresh_of_make here, ih later⟩

/-- The rule that settings make under an identifier if its options are valid. -/
def start (settings : Settings) : RuleId → Rule
  | .emptyCatch => emptyCatch
  | .someModule => someModule (.sharing settings.moduleOptions)

theorem id_start (settings : Settings) (id : RuleId) : (start settings id).id = id := by
  cases id <;> rfl

theorem map_id_start (settings : Settings) (ids : List RuleId) :
    (ids.map (start settings)).map Rule.id = ids := by
  rw [List.map_map]
  exact (List.map_congr_left fun id _ => id_start settings id).trans (List.map_id _)

theorem fresh_start (settings : Settings) (id : RuleId) :
    (start settings id).Fresh settings.moduleOptions := by
  cases id with
  | emptyCatch => exact .inl rfl
  | someModule => exact .inr rfl

theorem make_fst_of_valid {settings : Settings} {id : RuleId}
    (valid : id = .someModule →
      Succeeds (ModuleOptions.ofNames settings.storeFilePath settings.forbiddenModules).1) :
    (make settings id).1 = .ok (start settings id) := by
  cases id with
  | emptyCatch => rfl
  | someModule =>
    obtain ⟨options, made⟩ := valid rfl
    simp only [make, start, Settings.moduleOptions, made]

theorem make_fst_of_invalid {settings : Settings} {error : ValidationError}
    (invalid : (ModuleOptions.ofNames settings.storeFilePath settings.forbiddenModules).1 =
      .error error) :
    (make settings .someModule).1 = .error (.invalidOptions error) := by
  simp only [make, invalid]

/-- The rules of settings are made one after the other, as they are enabled. -/
theorem create_fst (settings : Settings) :
    (create settings none).1 = settings.enabledRules.mapM fun id => (make settings id).1 := by
  rw [create, Option.getD_none, enabledNames]
  induction settings.enabledRules with
  | nil => rfl
  | cons id rest ih =>
    rw [List.map_cons, makeAll, RuleId.ofName?_name, List.mapM_cons, ← ih]
    cases made : make settings id with
    | mk result records =>
      cases result with
      | error error =>
        simp only [made]
        rfl
      | ok rule =>
        simp only [made]
        cases (makeAll settings (rest.map fun id => Text.ofString id.name)).1 <;> rfl

theorem create_of_valid {settings : Settings}
    (valid : .someModule ∈ settings.enabledRules →
      Succeeds (ModuleOptions.ofNames settings.storeFilePath settings.forbiddenModules).1) :
    (create settings none).1 = .ok (settings.enabledRules.map (start settings)) := by
  rw [create_fst, mapM_eq_ok_iff, List.forall₂_map_right_iff, List.forall₂_same]
  intro id member
  apply make_fst_of_valid
  rintro rfl
  exact valid member

/-- Invalid options keep the rule against forbidden modules from being made, and so all rules. -/
theorem create_of_invalid {settings : Settings} {error : ValidationError}
    (enabled : .someModule ∈ settings.enabledRules)
    (invalid : (ModuleOptions.ofNames settings.storeFilePath settings.forbiddenModules).1 =
      .error error) :
    (create settings none).1 = .error (.invalidOptions error) := by
  have refused := make_fst_of_invalid invalid
  rw [create_fst]
  cases made : settings.enabledRules.mapM fun id => (make settings id).1 with
  | ok rules =>
    obtain ⟨rule, success⟩ := (succeeds_mapM_iff _ _).mp ⟨rules, made⟩ _ enabled
    rw [refused] at success
    cases success
  | error failure =>
    obtain ⟨id, -, failed⟩ := exists_error_of_mapM made
    cases id with
    | emptyCatch => cases failed
    | someModule => rw [Except.error.inj (failed.symm.trans refused)]

/-- Settings name no rule that there is not, so that only invalid options keep rules from being made. -/
theorem exists_invalid_of_create {settings : Settings} {error : RuleConfigError}
    (failed : (create settings none).1 = .error error) :
    ∃ refused, error = .invalidOptions refused := by
  rw [create_fst] at failed
  obtain ⟨id, -, unmade⟩ := exists_error_of_mapM failed
  cases id with
  | emptyCatch => cases unmade
  | someModule =>
    simp only [make] at unmade
    cases made : (ModuleOptions.ofNames settings.storeFilePath settings.forbiddenModules).1 with
    | error refused =>
      simp only [made] at unmade
      exact ⟨refused, (Except.error.inj unmade).symm⟩
    | ok options =>
      simp only [made] at unmade
      cases unmade

/-- All rules that settings make are fresh, with the same options. -/
theorem fresh_of_create {settings : Settings} {names : Option (List Text)} {rules : List Rule}
    {records : List LogRecord} (made : create settings names = (.ok rules, records)) :
    ∀ rule ∈ rules, rule.Fresh settings.moduleOptions :=
  fresh_of_makeAll made

end Rule

end ModuleFence
