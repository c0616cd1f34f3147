import ModuleFence.Proofs.CommandLine.Stages
import ModuleFence.Proofs.Json.Depth
import ModuleFence.Proofs.Rule.Making

set_option autoImplicit false

namespace ModuleFence

/-- The level of valid settings is one that logging can be set up with. -/
theorem Logging.setUp_name (level : LogLevel) (logging : Logging) :
    (setUp level.name logging).1 = none := by
  have known : ∀ level : LogLevel,
      (levelNumber? (Text.ofString level.name).upper).isSome = true := by
    intro level
    cases level <;> decide +kernel
  obtain ⟨number, found⟩ := Option.isSome_iff_exists.mp (known level)
  simp only [setUp, found]

namespace CommandLine

variable {words : List String} {arguments : LintArguments} {files : FileSystem}
  {environment : Environment}

theorem run_of_lint (accepted : Invocation.ofWords words = .lint arguments) :
    run files environment words = arguments.run files environment := by
  rw [run, accepted]

namespace LintArguments

/-- The settings of a run cannot be made, or all its paths lead somewhere and its rules cannot be
made. -/
def Misconfigured (arguments : LintArguments) (files : FileSystem) (environment : Environment) :
    Prop :=
  (∃ failure, arguments.settings files environment = .error failure) ∨
    ∃ settings error records, arguments.settings files environment = .ok settings ∧
      (∀ spelling ∈ arguments.paths, IsPresent files spelling) ∧
      Rule.create settings none = (.error error, records)

theorem Misconfigured.of_ok {settings : Settings}
    (wrong : arguments.Misconfigured files environment)
    (set : arguments.settings files environment = .ok settings) :
    (∀ spelling ∈ arguments.paths, IsPresent files spelling) ∧
      ∃ error records, Rule.create settings none = (.error error, records) := by
  rcases wrong with ⟨failure, failed⟩ | ⟨other, error, records, also, present, unmade⟩
  · rw [set] at failed
    cases failed
  · rw [set] at also
    cases also
    exact ⟨present, error, records, unmade⟩

theorem sight_of_invalid {error : ValidationError}
    (refused : arguments.settings files environment = .error (.invalid error)) :
    (arguments.run files environment).sight =
      .refused (Text.concat ["invalid configuration: ", error.message]) := by
  rw [run, refused]
  rfl

theorem sight_of_unmade {settings : Settings} {error : RuleConfigError} {records : List LogRecord}
    (set : arguments.settings files environment = .ok settings)
    (present : ∀ spelling ∈ arguments.paths, IsPresent files spelling)
    (unmade : Rule.create settings none = (.error error, records)) :
    (arguments.run files environment).sight = .refused error.message := by
  rw [sight_run_of_ok set, runWith, missingPaths_of_present present, unmade]
  rfl

/-- A run that is misconfigured tells an error, unless a source of its settings cannot be read. -/
theorem Misconfigured.sight_eq (wrong : arguments.Misconfigured files environment)
    (readable : ∀ failure, ¬ Settings.Unreadable files environment failure) :
    ∃ message, (arguments.run files environment).sight = .refused message := by
  have ended := arguments.course files environment
  generalize (arguments.run files environment).sight = seen at ended ⊢
  cases ended with
  | unreadable unreadable => exact absurd unreadable (readable _)
  | invalid refused => exact ⟨_, rfl⟩
  | missing set looked some_ => exact ⟨_, rfl⟩
  | unmade set present unmade => exact ⟨_, rfl⟩
  | unreachable set member failed =>
    obtain ⟨found, here⟩ := (wrong.of_ok set).1 _ member
    rw [failed] at here
    cases here
  | undiscovered set present made failed =>
    obtain ⟨-, error, records, unmade⟩ := wrong.of_ok set
    rw [made] at unmade
    cases unmade
  | linted set present made discovered =>
    obtain ⟨-, error, records, unmade⟩ := wrong.of_ok set
    rw [made] at unmade
    cases unmade

/-- A source that cannot be read ends a run by a failure, and nothing is printed. -/
theorem failed_of_unreadable (accepted : Invocation.ofWords words = .lint arguments)
    {failure : Failure} (unreadable : Settings.Unreadable files environment failure) :
    let outcome := CommandLine.run files environment words
    arguments.Misconfigured files environment ∧ outcome.ending = .failed failure ∧
      outcome.output = [] ∧ outcome.errors = [] := by
  have broken : (arguments.run files environment).sight = .broken failure :=
    sight_of_unreadable unreadable
  rw [run_of_lint accepted]
  exact ⟨Or.inl ⟨failure, Settings.load_of_unreadable unreadable _⟩, congrArg Sight.ending broken,
    congrArg Sight.output broken, congrArg Sight.errors broken⟩

end LintArguments

/-- A run that is misconfigured ends with the code for errors, prints a message that begins with
`Error:`, and nothing else, exactly if the sources of its settings can be read; otherwise it ends by
a failure that nothing handles. The message on settings names the fields whose values are refused,
and logging is set up with the level of any settings that are made. -/
theorem run_misconfigured_iff (accepted : Invocation.ofWords words = .lint arguments)
    (files : FileSystem) (environment : Environment) :
    let outcome := run files environment words
    (arguments.Misconfigured files environment →
      (outcome.ending = .exit 2 ∧ outcome.output = [] ∧
          (∃ message, outcome.errors = Text.concat ["Error: ", message, "\n"]) ↔
        ∀ failure, ¬ Settings.Unreadable files environment failure)) ∧
    (∀ failure, Settings.Unreadable files environment failure →
      arguments.Misconfigured files environment ∧ outcome.ending = .failed failure ∧
        outcome.output = [] ∧ outcome.errors = []) ∧
    (∀ error, arguments.settings files environment = .error (.invalid error) →
      (∃ detail, outcome.errors = Text.concat ["Error: ", "invalid configuration: ", detail, "\n"]) ∧
      error.model = "Settings" ∧ error.issues ≠ [] ∧
      ∀ issue ∈ error.issues, ∃ key : Settings.Key, issue.field = Text.ofString key.name) ∧
    (∀ settings error records, arguments.settings files environment = .ok settings →
      (∀ spelling ∈ arguments.paths, LintArguments.IsPresent files spelling) →
      Rule.create settings none = (.error error, records) →
        ∃ detail, outcome.errors =
          Text.concat ["Error: ", "Invalid options for disallow-some-module: ", detail, "\n"]) ∧
    ∀ settings, arguments.settings files environment = .ok settings → ∀ logging,
      (Logging.setUp (arguments.logLevel settings).name logging).1 = none := by
  intro outcome
  have same : outcome = arguments.run files environment := run_of_lint accepted
  refine ⟨fun wrong => ⟨?_, fun readable => ?_⟩, fun failure unreadable => ?_, ?_, ?_, ?_⟩
  · rintro ⟨ended, -, -⟩ failure unreadable
    have failed : outcome.ending = .failed failure :=
      (LintArguments.failed_of_unreadable accepted unreadable).2.1
    rw [ended] at failed
    cases failed
  · obtain ⟨message, refused⟩ := wrong.sight_eq readable
    rw [same]
    exact ⟨congrArg Sight.ending refused, congrArg Sight.output refused, message,
      congrArg Sight.errors refused⟩
  · exact LintArguments.failed_of_unreadable accepted unreadable
  · intro error refused
    rw [same]
    have told := congrArg Sight.errors (LintArguments.sight_of_invalid refused)
    rw [Sight.errors_refused] at told
    refine ⟨⟨error.message, told⟩, ?_⟩
    rcases Settings.unreadable_of_load refused with unreadable | ⟨other, named, about⟩
    · exact absurd rfl (unreadable.ne_invalid error)
    · cases named
      exact about
  · intro settings error records set present unmade
    obtain ⟨refused, rfl⟩ := Rule.exists_invalid_of_create (congrArg Prod.fst unmade)
    have head : RuleConfigError.message (.invalidOptions refused) =
        Text.concat ["Invalid options for disallow-some-module: ", refused.message] := by
      simp only [RuleConfigError.message, Text.concat, List.flatten_cons, List.flatten_nil,
        List.append_nil]
      rfl
    have told := congrArg Sight.errors (LintArguments.sight_of_unmade set present unmade)
    rw [head, Sight.errors_refused] at told
    rw [same]
    exact ⟨refused.message, told⟩
  · intro settings _ logging
    exact Logging.setUp_name _ logging

theorem ofWords_lint : Invocation.ofWords ["lint", "a.js"] = .lint { paths := ["a.js"] } := by
  decide +kernel

/-- A level that there is not, in an empty directory. -/
theorem run_misconfigured_iff_of_unknown_level :
    let environment : Environment := { bindings := [("STORELINT_LOG_LEVEL", "verbose")] }
    Invocation.ofWords ["lint", "a.js"] = .lint { paths := ["a.js"] } ∧
      LintArguments.Misconfigured { paths := ["a.js"] } (.empty []) environment ∧
      (∀ failure, ¬ Settings.Unreadable (.empty []) environment failure) ∧
      (run (.empty []) environment ["lint", "a.js"]).ending = .exit 2 := by
  intro environment
  have sound (fault : Json.ReadFault) :
      ¬ Settings.Faults environment.limits (Settings.bindingsOf environment) fault := by
    rintro ⟨raw, given, -⟩
    have absent : Settings.rawValue .skipDirectories (Settings.bindingsOf environment) = none := by
      decide +kernel
    rw [absent] at given
    cases given
  have readable := Settings.readable_of_empty sound
  have failed : ∃ failure, ({ paths := ["a.js"] } : LintArguments).settings (.empty []) environment =
      .error failure := by
    have unset : ¬ Succeeds (({ paths := ["a.js"] } : LintArguments).settings (.empty [])
        environment) := by
      rw [LintArguments.settings, Settings.load, Settings.fileVariables_empty]
      decide +kernel
    cases set : ({ paths := ["a.js"] } : LintArguments).settings (.empty []) environment with
    | error failure => exact ⟨failure, rfl⟩
    | ok settings => exact absurd ⟨settings, set⟩ unset
  have wrong : LintArguments.Misconfigured { paths := ["a.js"] } (.empty []) environment :=
    Or.inl failed
  have iff_ := (run_misconfigured_iff ofWords_lint (.empty []) environment).1 wrong
  exact ⟨ofWords_lint, wrong, readable, (iff_.mpr readable).1⟩

/-- A list of directories that is no JSON, in an empty directory: the run ends by a failure. -/
theorem run_fails_of_malformed_variable :
    let environment : Environment := { bindings := [("STORELINT_SKIP_DIRECTORIES", "node_modules")] }
    Invocation.ofWords ["lint", "a.js"] = .lint { paths := ["a.js"] } ∧
      LintArguments.Misconfigured { paths := ["a.js"] } (.empty []) environment ∧
      (run (.empty []) environment ["lint", "a.js"]).ending =
        .failed (.unreadableSetting .skipDirectories .environment) ∧
      (run (.empty []) environment ["lint", "a.js"]).ending ≠ .exit 2 := by
  intro environment
  have malformed : Settings.Faults environment.limits (Settings.bindingsOf environment) .malformed :=
    ⟨"node_modules", by decide +kernel, by rfl⟩
  have unreadable : Settings.Unreadable (.empty []) environment
      (.unreadableSetting .skipDirectories .environment) :=
    .environment (Settings.fileVariables_empty environment) malformed
  obtain ⟨wrong, ended, -⟩ := LintArguments.failed_of_unreadable ofWords_lint unreadable
  refine ⟨ofWords_lint, wrong, ended, ?_⟩
  rw [ended]
  exact nofun

/-- A list of directories with one bracket more than there are calls left for, in an empty directory:
whatever stands behind the brackets, the run ends by a failure too. -/
theorem run_of_deep_variable (room : Nat) (rest : String) :
    let brackets := String.ofList (List.replicate (room + 1) '[') ++ rest
    let environment : Environment := ⟨[("STORELINT_SKIP_DIRECTORIES", brackets)], room⟩
    LintArguments.Misconfigured { paths := ["a.js"] } (.empty []) environment ∧
      (run (.empty []) environment ["lint", "a.js"]).ending =
        .failed (.recursion " while decoding a JSON array from a unicode string") := by
  intro brackets environment
  have raw : Text.ofString brackets =
      List.replicate (room + 1) (CodePoint.ofChar '[') ++ Text.ofString rest := by
    simp only [brackets, Text.ofString, String.toList_append, String.toList_ofList, List.map_append,
      List.map_replicate]
  have named : Settings.foldName "STORELINT_SKIP_DIRECTORIES" =
      Settings.Key.skipDirectories.variable := by
    decide +kernel
  have given : Settings.rawValue .skipDirectories (Settings.bindingsOf environment) =
      some (some brackets) := by
    show ([("STORELINT_SKIP_DIRECTORIES", some brackets)].find? _).map _ = _
    rw [List.find?_singleton, named, decide_eq_true rfl]
    rfl
  have faults : Settings.Faults environment.limits (Settings.bindingsOf environment) Json.deepList := by
    refine ⟨brackets, given, ?_⟩
    rw [raw]
    exact Json.readWithin_of_deep room _
  have unreadable := Settings.Unreadable.environment (Settings.fileVariables_empty environment) faults
  obtain ⟨wrong, ended, -⟩ :=
    (LintArguments.failed_of_unreadable ofWords_lint unreadable)
  exact ⟨wrong, ended⟩

end CommandLine

end ModuleFence
