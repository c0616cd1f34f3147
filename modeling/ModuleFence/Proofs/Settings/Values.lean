import ModuleFence.Proofs.Settings.Reading

/-!
The values that settings are made from. Settings are made exactly if each field can be read from the
value that is given for it, and the value of a field that is given directly hides those that its
variable has elsewhere.
-/

set_option autoImplicit false

namespace ModuleFence

namespace Validated

variable {α β : Type}

theorem apply_eq_ok_iff (function : Validated (α → β)) (argument : Validated α) (value : β) :
    Validated.apply function argument = .ok value ↔
      ∃ f inner, function = .ok f ∧ argument = .ok inner ∧ f inner = value := by
  cases function <;> cases argument <;> simp [Validated.apply]

theorem forModel_eq_ok_iff (model : String) (result : Validated α) (value : α) :
    Validated.forModel model result = .ok value ↔ result = .ok value := by
  cases result <;> simp [Validated.forModel]

end Validated

namespace Field

/-- A list of strings is read as it is. -/
theorem stringsFrom_strings (field : Text) (index : Nat) (names : List Text) :
    stringsFrom field index (names.map Json.string) = .ok names := by
  induction names generalizing index with
  | nil => rfl
  | cons name rest ih =>
    rw [List.map_cons, stringsFrom, ih]
    rfl

end Field

namespace Settings

/-- Each field of settings is read from the value that is given for it. -/
structure Reads (given : Given) (settings : Settings) : Prop where
  storeFilePath : Field.optionalPath Key.storeFilePath.name (given .storeFilePath) =
    .ok settings.storeFilePath
  forbiddenModules : valueOr ({} : Settings).forbiddenModules (commaStrings .forbiddenModules)
    (given .forbiddenModules) = .ok settings.forbiddenModules
  failurePolicy : valueOr ({} : Settings).failurePolicy policyOf (given .failurePolicy) =
    .ok settings.failurePolicy
  enabledRules : valueOr ({} : Settings).enabledRules
    (fun value => (commaStrings .enabledRules value).bind rulesOf) (given .enabledRules) =
      .ok settings.enabledRules
  logLevel : valueOr ({} : Settings).logLevel levelOf (given .logLevel) = .ok settings.logLevel
  skipDirectories : valueOr ({} : Settings).skipDirectories
    (Field.strings Key.skipDirectories.name .notAList) (given .skipDirectories) =
      .ok settings.skipDirectories

theorem ofGiven_eq_ok_iff (given : Given) (settings : Settings) :
    ofGiven given = .ok settings ↔ Reads given settings := by
  simp only [ofGiven, Validated.forModel_eq_ok_iff, Validated.apply_eq_ok_iff]
  constructor
  · rintro ⟨_, skipped, ⟨_, level, ⟨_, rules, ⟨_, policy, ⟨_, modules, built, read, rfl⟩, also, rfl⟩,
      further, rfl⟩, later, rfl⟩, last, rfl⟩
    obtain ⟨path, first, rfl⟩ := (map_eq_ok_iff _ _ _).mp built
    exact ⟨first, read, also, further, later, last⟩
  · intro reads
    have built : Settings.mk <$> Field.optionalPath Key.storeFilePath.name (given .storeFilePath) =
        .ok (Settings.mk settings.storeFilePath) :=
      (map_eq_ok_iff _ _ _).mpr ⟨_, reads.storeFilePath, rfl⟩
    exact ⟨_, _, ⟨_, _, ⟨_, _, ⟨_, _, ⟨_, _, built, reads.forbiddenModules, rfl⟩,
      reads.failurePolicy, rfl⟩, reads.enabledRules, rfl⟩, reads.logLevel, rfl⟩,
      reads.skipDirectories, rfl⟩

theorem commaStrings_string (key : Key) (text : Text) :
    commaStrings key (.string text) = .ok text.commaEntries :=
  Field.stringsFrom_strings _ _ _

theorem commaStrings_array (key : Key) (names : List Text) :
    commaStrings key (.array (names.map .string)) = .ok names :=
  Field.stringsFrom_strings _ _ _

def surroundings (files : FileSystem) (environment : Environment) : Except Failure Given := do
  let fromFile ← fileVariables files environment
  let inEnvironment ← valuesIn environment.limits .environment (bindingsOf environment) Key.all
  let inFile ← valuesIn environment.limits .environmentFile fromFile Key.all
  return fun key => inEnvironment.lookup key <|> inFile.lookup key

/-- Values given directly, and behind them those that are given elsewhere. -/
def Given.behind (values : Json) (given : Given) : Given :=
  fun key => values.member? key.name <|> given key

/-- Settings from given values, or the failure to make them. -/
def validated (given : Given) : Except Failure Settings :=
  match ofGiven given with
  | .ok settings => .ok settings
  | .error error => .error (.invalid error)

theorem load_eq (files : FileSystem) (environment : Environment) (values : Json) :
    load files environment values =
      surroundings files environment >>= fun given => validated (given.behind values) := by
  rw [load, surroundings, bind_assoc]
  refine bind_congr fun fromFile => ?_
  rw [bind_assoc]
  refine bind_congr fun inEnvironment => ?_
  rw [bind_assoc]
  refine bind_congr fun inFile => ?_
  rw [pure_bind, validated]
  rfl

theorem validated_eq_ok_iff (given : Given) (settings : Settings) :
    validated given = .ok settings ↔ Reads given settings := by
  rw [← ofGiven_eq_ok_iff, validated]
  cases ofGiven given <;> simp

theorem load_eq_ok_iff (files : FileSystem) (environment : Environment) (values : Json)
    (settings : Settings) :
    load files environment values = .ok settings ↔
      ∃ given, surroundings files environment = .ok given ∧
        Reads (given.behind values) settings := by
  rw [load_eq, bind_eq_ok_iff]
  exact exists_congr fun given => and_congr_right fun _ => validated_eq_ok_iff _ _

def Given.without (key : Key) (given : Given) : Given :=
  fun other => if other = key then none else given other

/-- The settings of a run are these, if the value of one field is left aside. -/
def MadeApart (key : Key) (files : FileSystem) (environment : Environment) (values : Json)
    (others : Settings) : Prop :=
  ∃ given, surroundings files environment = .ok given ∧
    Reads ((given.behind values).without key) others

section Reads

variable {given : Given} {others : Settings}

theorem Reads.with_modules (reads : Reads (given.without .forbiddenModules) others) {text : Text}
    (value : given .forbiddenModules = some (.string text)) :
    Reads given { others with forbiddenModules := text.commaEntries } := by
  refine ⟨reads.storeFilePath, ?_, reads.failurePolicy, reads.enabledRules, reads.logLevel,
    reads.skipDirectories⟩
  rw [value]
  exact commaStrings_string _ text

theorem Reads.with_rules (reads : Reads (given.without .enabledRules) others) {value : Json}
    (given_eq : given .enabledRules = some value) {names : List Text} {ids : List RuleId}
    (listed : commaStrings .enabledRules value = .ok names) (known : rulesOf names = .ok ids) :
    Reads given { others with enabledRules := ids } := by
  refine ⟨reads.storeFilePath, reads.forbiddenModules, reads.failurePolicy, ?_, reads.logLevel,
    reads.skipDirectories⟩
  rw [given_eq, valueOr, listed]
  exact known

end Reads

/-- What a source gives for a field is found under the field. -/
theorem lookup_valuesIn {limits : Json.Limits} {source : SettingsSource} {bindings : List EnvironmentFile.Binding}
    {keys : List Key} {values : List (Key × Json)} (once : keys.Nodup)
    (read : valuesIn limits source bindings keys = .ok values) (key : Key) :
    (key ∈ keys → valueIn limits source bindings key = .ok (values.lookup key)) ∧
      (key ∉ keys → values.lookup key = none) := by
  induction keys generalizing values with
  | nil =>
    cases read
    exact ⟨fun member => absurd member List.not_mem_nil, fun _ => rfl⟩
  | cons first rest ih =>
    rw [valuesIn, bind_eq_ok_iff] at read
    obtain ⟨value, here, read⟩ := read
    obtain ⟨others, later, same⟩ := (bind_eq_ok_iff _ _ _).mp read
    cases same
    obtain ⟨absent, onceLater⟩ := List.nodup_cons.mp once
    have behind := ih onceLater later
    by_cases same : key = first
    · subst same
      refine ⟨fun _ => ?_, fun outside => absurd List.mem_cons_self outside⟩
      rw [here]
      cases value with
      | none => exact congrArg Except.ok (behind.2 absent).symm
      | some found => simp
    · have passed : ((value.toList.map fun found => (first, found)) ++ others).lookup key =
          others.lookup key := by
        cases value with
        | none => rfl
        | some found =>
          have other : (key == first) = false := beq_eq_false_iff_ne.mpr same
          simp [List.lookup_cons, other]
      rw [passed, List.mem_cons]
      exact ⟨fun member => behind.1 (member.resolve_left same),
        fun outside => behind.2 fun member => outside (.inr member)⟩

/-- What the environment has for a field comes before what the environment file has. -/
theorem given_of_environment {files : FileSystem} {environment : Environment} {given : Given}
    (read : surroundings files environment = .ok given) {key : Key} (listed : key ≠ .skipDirectories)
    {raw : String} (found : rawValue key (bindingsOf environment) = some (some raw)) :
    given key = some (.string (Text.ofString raw)) := by
  rw [surroundings, bind_eq_ok_iff] at read
  obtain ⟨fromFile, -, read⟩ := read
  obtain ⟨inEnvironment, here, read⟩ := (bind_eq_ok_iff _ _ _).mp read
  obtain ⟨inFile, -, same⟩ := (bind_eq_ok_iff _ _ _).mp read
  cases same
  have member : key ∈ Key.all := by cases key <;> decide
  have value := (lookup_valuesIn (by decide) here key).1 member
  rw [valueIn, found] at value
  simp only [decode, if_neg listed] at value
  simp only [← Except.ok.inj value]
  rfl

theorem Key.variable_injective {key other : Key} (same : key.variable = other.variable) :
    key = other := by
  revert same
  cases key <;> cases other <;> decide +kernel

theorem valueIn_of_single {name raw : String} {key : Key} (named : foldName name = key.variable)
    (listed : key ≠ .skipDirectories) (limits : Json.Limits) (source : SettingsSource) (other : Key) :
    valueIn limits source [(name, some raw)] other =
      .ok (if other = key then some (.string (Text.ofString raw)) else none) := by
  rw [valueIn, rawValue, List.reverse_singleton, List.find?_singleton, named]
  by_cases same : other = key
  · subst same
    simp [decode, listed]
  · have apart : key.variable ≠ other.variable := fun also => same (Key.variable_injective also).symm
    simp [apart, same]

/-- Without an environment file, an environment with one variable gives the value of its field. -/
theorem surroundings_of_variable {files : FileSystem} (name raw : String) (key : Key)
    (alone : fileVariables files { bindings := [(name, raw)] } = .ok [])
    (named : foldName name = key.variable) (listed : key ≠ .skipDirectories) :
    surroundings files { bindings := [(name, raw)] } =
      .ok fun other => if other = key then some (.string (Text.ofString raw)) else none := by
  have environment (limits : Json.Limits) :
      valuesIn limits .environment (bindingsOf { bindings := [(name, raw)] }) Key.all =
        .ok [(key, .string (Text.ofString raw))] := by
    show valuesIn limits .environment [(name, some raw)] Key.all = _
    simp only [Key.all, valuesIn, valueIn_of_single named listed]
    cases key <;> rfl
  have file (limits : Json.Limits) : valuesIn limits .environmentFile [] Key.all = .ok [] := rfl
  rw [surroundings, alone]
  simp only [bind, Except.bind, environment, file]
  refine congrArg Except.ok (funext fun other => ?_)
  by_cases same : other = key
  · simp [same]
  · have apart : (other == key) = false := beq_eq_false_iff_ne.mpr same
    simp [List.lookup_cons, apart, same]

theorem surroundings_of_single (name raw : String) (key : Key)
    (named : foldName name = key.variable) (listed : key ≠ .skipDirectories) :
    surroundings (.empty []) { bindings := [(name, raw)] } =
      .ok fun other => if other = key then some (.string (Text.ofString raw)) else none :=
  surroundings_of_variable name raw key (fileVariables_empty _) named listed

end Settings

end ModuleFence
