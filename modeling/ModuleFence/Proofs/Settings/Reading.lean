import ModuleFence.Proofs.FileSystem.Reading
import ModuleFence.Proofs.Settings.Fields
import ModuleFence.Proofs.Success
import ModuleFence.Settings.Sources

/-!
Reading of the sources of settings. Two things keep a source from being read: an environment file
that is no text, and a value of the skipped directories that the reader of JSON does not take, because
it is no JSON or is nested too deeply. All other sources give settings, or values that are refused.
-/

set_option autoImplicit false

namespace ModuleFence.Settings

/-- The variables of an environment as a source has them. -/
def bindingsOf (environment : Environment) : List EnvironmentFile.Binding :=
  environment.bindings.map fun (name, value) => (name, some value)

/-- The last value of the skipped directories in a source is not read as JSON. -/
def Faults (limits : Json.Limits) (bindings : List EnvironmentFile.Binding)
    (fault : Json.ReadFault) : Prop :=
  ∃ raw, rawValue .skipDirectories bindings = some (some raw) ∧
    Json.readWithin limits (Text.ofString raw) = .error fault

/-- What ends the reading of the sources of settings: first the environment file is read, then the
values are, those of the environment before those of the file. -/
inductive Unreadable (files : FileSystem) (environment : Environment) : Failure → Prop where
  | file {location : Location} {bytes : List UInt8} {error : ReadError}
      (present : files.find? environmentFilePath = .ok (some (location, .file bytes)))
      (undecodable : files.readText environmentFilePath = .error error) :
      Unreadable files environment (.read error)
  | environment {bindings : List EnvironmentFile.Binding} {fault : Json.ReadFault}
      (read : fileVariables files environment = .ok bindings)
      (faults : Faults environment.limits (bindingsOf environment) fault) :
      Unreadable files environment (failureOf .environment .skipDirectories fault)
  | environmentFile {bindings : List EnvironmentFile.Binding} {fault : Json.ReadFault}
      (read : fileVariables files environment = .ok bindings)
      (sound : ∀ other, ¬ Faults environment.limits (bindingsOf environment) other)
      (faults : Faults environment.limits bindings fault) :
      Unreadable files environment (failureOf .environmentFile .skipDirectories fault)

variable {files : FileSystem} {environment : Environment} {limits : Json.Limits}
  {source : SettingsSource} {bindings : List EnvironmentFile.Binding} {fault : Json.ReadFault}
  {failure : Failure}

/-- Only the value of the skipped directories can keep a source from being read. -/
theorem valueIn_eq_error_iff {key : Key} :
    valueIn limits source bindings key = .error failure ↔
      key = .skipDirectories ∧ ∃ fault, Faults limits bindings fault ∧
        failure = failureOf source .skipDirectories fault := by
  rw [valueIn]
  by_cases skipped : key = .skipDirectories
  · subst skipped
    simp only [Faults, true_and]
    cases found : rawValue .skipDirectories bindings with
    | none => simp
    | some value =>
      cases value with
      | none => simp
      | some raw =>
        simp only [decode, if_true]
        cases read : Json.readWithin limits (Text.ofString raw) with
        | error fault => simp [read, eq_comm]
        | ok value => cases value <;> simp [read]
  · cases found : rawValue key bindings with
    | none => simp [skipped]
    | some value => cases value <;> simp [decode, skipped]

theorem valuesIn_eq_error_iff {keys : List Key} :
    valuesIn limits source bindings keys = .error failure ↔
      .skipDirectories ∈ keys ∧ ∃ fault, Faults limits bindings fault ∧
        failure = failureOf source .skipDirectories fault := by
  induction keys with
  | nil => simp [valuesIn]
  | cons key rest ih =>
    have further (value : Option Json) : (do
        let others ← valuesIn limits source bindings rest
        return (value.toList.map fun found => (key, found)) ++ others) = Except.error failure ↔
          valuesIn limits source bindings rest = .error failure := by
      cases valuesIn limits source bindings rest <;> simp [bind, Except.bind, pure, Except.pure]
    rw [valuesIn, bind_eq_error_iff, valueIn_eq_error_iff, List.mem_cons]
    simp only [further, ih]
    constructor
    · rintro (⟨rfl, faulty⟩ | ⟨-, -, member, faulty⟩)
      · exact ⟨Or.inl rfl, faulty⟩
      · exact ⟨Or.inr member, faulty⟩
    · rintro ⟨member, faulty⟩
      by_cases skipped : key = .skipDirectories
      · exact Or.inl ⟨skipped, faulty⟩
      · have later := member.resolve_left (Ne.symm skipped)
        cases here : valueIn limits source bindings key with
        | error other => exact absurd (valueIn_eq_error_iff.mp here).1 skipped
        | ok value => exact Or.inr ⟨value, rfl, later, faulty⟩

theorem valuesIn_of_faults (faults : Faults limits bindings fault) (source : SettingsSource) :
    valuesIn limits source bindings Key.all = .error (failureOf source .skipDirectories fault) :=
  valuesIn_eq_error_iff.mpr ⟨by decide, fault, faults, rfl⟩

theorem exists_valuesIn (sound : ∀ fault, ¬ Faults limits bindings fault) (source : SettingsSource) :
    ∃ values, valuesIn limits source bindings Key.all = .ok values := by
  cases read : valuesIn limits source bindings Key.all with
  | ok values => exact ⟨values, rfl⟩
  | error failure =>
    obtain ⟨-, fault, faults, -⟩ := valuesIn_eq_error_iff.mp read
    exact absurd faults (sound fault)

theorem fileVariables_eq_error_iff :
    fileVariables files environment = .error failure ↔
      ∃ location bytes error, files.find? environmentFilePath = .ok (some (location, .file bytes)) ∧
        files.readText environmentFilePath = .error error ∧ failure = .read error := by
  rw [fileVariables]
  cases found : files.find? environmentFilePath with
  | error fault => simp
  | ok entry =>
    cases entry with
    | none => simp
    | some placed =>
      obtain ⟨location, entry⟩ := placed
      cases entry with
      | file bytes =>
        cases read : files.readText environmentFilePath with
        | ok characters => simp
        | error error => simp [eq_comm]
      | directory => simp
      | link target => simp

/-- An empty directory has no environment file. -/
theorem fileVariables_empty (environment : Environment) :
    fileVariables (.empty []) environment = .ok [] := by
  have allowed : FileSystem.hasNull environmentFilePath = false := by
    rw [← Bool.not_eq_true, environmentFilePath, FileSystem.hasNull_ofString_iff]
    decide
  have absent : (FileSystem.empty []).locate environmentFilePath = .error .notFound := by
    decide +kernel
  rw [fileVariables, FileSystem.find?, allowed, absent]
  rfl

/-- What keeps a source of settings from being read ends their reading. -/
theorem load_of_unreadable (unreadable : Unreadable files environment failure) (values : Json) :
    load files environment values = .error failure := by
  rw [load, bind_eq_error_iff]
  cases unreadable with
  | file present undecodable =>
    exact Or.inl (fileVariables_eq_error_iff.mpr ⟨_, _, _, present, undecodable, rfl⟩)
  | environment read faults =>
    refine Or.inr ⟨_, read, ?_⟩
    rw [bind_eq_error_iff]
    exact Or.inl (valuesIn_of_faults faults .environment)
  | environmentFile read sound faults =>
    obtain ⟨inEnvironment, fine⟩ := exists_valuesIn sound .environment
    refine Or.inr ⟨_, read, ?_⟩
    rw [bind_eq_error_iff]
    refine Or.inr ⟨inEnvironment, fine, ?_⟩
    rw [bind_eq_error_iff]
    exact Or.inl (valuesIn_of_faults faults .environmentFile)

/-- In an empty directory only the environment can keep settings from being read. -/
theorem readable_of_empty
    (sound : ∀ fault, ¬ Faults environment.limits (bindingsOf environment) fault)
    (failure : Failure) : ¬ Unreadable (.empty []) environment failure := by
  intro unreadable
  cases unreadable with
  | file present undecodable =>
    have failed : fileVariables (.empty []) environment = .error (.read _) :=
      fileVariables_eq_error_iff.mpr ⟨_, _, _, present, undecodable, rfl⟩
    rw [fileVariables_empty] at failed
    cases failed
  | environment read faults => exact sound _ faults
  | environmentFile read _ faults =>
    rw [fileVariables_empty] at read
    cases read
    obtain ⟨raw, given, -⟩ := faults
    cases given

theorem Unreadable.ne_invalid (unreadable : Unreadable files environment failure)
    (error : ValidationError) : failure ≠ .invalid error := by
  have notRefused (source : SettingsSource) (fault : Json.ReadFault) :
      failureOf source .skipDirectories fault ≠ .invalid error := by
    cases fault <;> exact nofun
  cases unreadable with
  | file present undecodable => exact nofun
  | environment read faults => exact notRefused _ _
  | environmentFile read sound faults => exact notRefused _ _

/-- Settings fail because a source cannot be read, or because of values that are refused. -/
theorem unreadable_of_load {values : Json} (failed : load files environment values = .error failure) :
    Unreadable files environment failure ∨
      ∃ error : ValidationError, failure = .invalid error ∧ error.model = modelName ∧
        error.issues ≠ [] ∧
        ∀ issue ∈ error.issues, ∃ key : Key, issue.field = Text.ofString key.name := by
  rw [load, bind_eq_error_iff] at failed
  rcases failed with unread | ⟨bindings, read, failed⟩
  · obtain ⟨location, bytes, error, present, undecodable, rfl⟩ := fileVariables_eq_error_iff.mp unread
    exact Or.inl (.file present undecodable)
  · rw [bind_eq_error_iff] at failed
    rcases failed with unread | ⟨inEnvironment, fine, failed⟩
    · obtain ⟨-, fault, faults, rfl⟩ := valuesIn_eq_error_iff.mp unread
      exact Or.inl (.environment read faults)
    · have sound (fault : Json.ReadFault) :
          ¬ Faults environment.limits (bindingsOf environment) fault := by
        intro faults
        have refused := valuesIn_of_faults faults .environment
        rw [bindingsOf, fine] at refused
        cases refused
      rw [bind_eq_error_iff] at failed
      rcases failed with unread | ⟨inFile, alsoFine, failed⟩
      · obtain ⟨-, fault, faults, rfl⟩ := valuesIn_eq_error_iff.mp unread
        exact Or.inl (.environmentFile read sound faults)
      · right
        dsimp only at failed
        split at failed
        · cases failed
        · rename_i error refused
          cases failed
          exact ⟨error, rfl, issues_of_ofGiven refused⟩

end ModuleFence.Settings
