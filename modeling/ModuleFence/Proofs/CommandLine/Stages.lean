import ModuleFence.CommandLine.Run
import ModuleFence.Proofs.Settings.Reading

/-!
The stages of a run that lints. Settings are made, the given paths are looked up, rules are made,
sources are discovered, and files are linted into a report; what ends a run at a stage decides how it
ends.
-/

set_option autoImplicit false

namespace ModuleFence.CommandLine

/-- What is seen of a run besides its log. -/
structure Sight where
  ending : Ending
  output : Text := []
  errors : Text := []
deriving DecidableEq

namespace Outcome

/-- What is seen of a run. -/
def sight (outcome : Outcome) : Sight :=
  ⟨outcome.ending, outcome.output, outcome.errors⟩

end Outcome

namespace Sight

/-- A run that is ended by an error which is told. -/
def refused (message : Text) : Sight where
  ending := .exit 2
  errors := Text.concat ["Error: ", message, "\n"]

theorem errors_refused (head detail : Text) :
    (refused (Text.concat [head, detail])).errors = Text.concat ["Error: ", head, detail, "\n"] := by
  simp only [refused, Text.concat, List.flatten_cons, List.flatten_nil, List.append_nil,
    List.append_assoc]

/-- A run that is ended by a failure which nothing handles. -/
def broken (failure : Failure) : Sight where
  ending := .failed failure

end Sight

namespace LintArguments

variable {arguments : LintArguments} {files : FileSystem} {environment : Environment}

/-- A path on the command line leads to something. -/
def IsPresent (files : FileSystem) (spelling : String) : Prop :=
  ∃ found, Discovery.lookUp files (Path.ofString spelling) = .ok (some found)

/-- A path on the command line leads nowhere. -/
def IsMissing (files : FileSystem) (spelling : String) : Prop :=
  Discovery.lookUp files (Path.ofString spelling) = .ok none

theorem missingPaths_eq_error {spellings : List String} {failure : Failure}
    (failed : missingPaths files spellings = .error failure) :
    ∃ spelling ∈ spellings, Discovery.lookUp files (Path.ofString spelling) = .error failure := by
  induction spellings with
  | nil => cases failed
  | cons spelling rest ih =>
    rw [missingPaths, bind_eq_error_iff] at failed
    rcases failed with here | ⟨found, -, later⟩
    · exact ⟨spelling, List.mem_cons_self, here⟩
    · rw [bind_eq_error_iff] at later
      rcases later with there | ⟨others, -, impossible⟩
      · obtain ⟨other, member, failed⟩ := ih there
        exact ⟨other, List.mem_cons_of_mem _ member, failed⟩
      · cases impossible

/-- The paths that are told to be missing are those that lead nowhere; all others lead somewhere. -/
theorem missingPaths_eq_ok {spellings missing : List String}
    (looked : missingPaths files spellings = .ok missing) :
    (∀ spelling, spelling ∈ missing ↔ spelling ∈ spellings ∧ IsMissing files spelling) ∧
      ∀ spelling ∈ spellings, spelling ∉ missing → IsPresent files spelling := by
  induction spellings generalizing missing with
  | nil =>
    cases looked
    simp
  | cons spelling rest ih =>
    rw [missingPaths, bind_eq_ok_iff] at looked
    obtain ⟨found, here, looked⟩ := looked
    rw [bind_eq_ok_iff] at looked
    obtain ⟨others, later, rest_eq⟩ := looked
    obtain ⟨members, present⟩ := ih later
    cases found with
    | none =>
      obtain rfl : spelling :: others = missing := Except.ok.inj rest_eq
      refine ⟨fun other => ?_, ?_⟩
      · rw [List.mem_cons, List.mem_cons, members]
        constructor
        · rintro (rfl | ⟨member, lost⟩)
          · exact ⟨Or.inl rfl, here⟩
          · exact ⟨Or.inr member, lost⟩
        · rintro ⟨rfl | member, lost⟩
          · exact Or.inl rfl
          · exact Or.inr ⟨member, lost⟩
      · intro other member absent
        rw [List.mem_cons, not_or] at absent
        rcases List.mem_cons.mp member with rfl | inRest
        · exact absurd rfl absent.1
        · exact present other inRest absent.2
    | some entry =>
      obtain rfl : others = missing := Except.ok.inj rest_eq
      refine ⟨fun other => ?_, ?_⟩
      · rw [members, List.mem_cons]
        constructor
        · rintro ⟨member, lost⟩
          exact ⟨Or.inr member, lost⟩
        · rintro ⟨rfl | member, lost⟩
          · rw [IsMissing, here] at lost
            cases lost
          · exact ⟨member, lost⟩
      · intro other member absent
        rcases List.mem_cons.mp member with rfl | inRest
        · exact ⟨entry, here⟩
        · exact present other inRest absent

theorem missingPaths_of_present {spellings : List String}
    (present : ∀ spelling ∈ spellings, IsPresent files spelling) :
    missingPaths files spellings = .ok [] := by
  cases looked : missingPaths files spellings with
  | error failure =>
    obtain ⟨spelling, member, failed⟩ := missingPaths_eq_error looked
    obtain ⟨found, here⟩ := present spelling member
    rw [failed] at here
    cases here
  | ok missing =>
    have none_ : ∀ spelling, spelling ∉ missing := by
      intro spelling absent
      obtain ⟨member, lost⟩ := ((missingPaths_eq_ok looked).1 spelling).mp absent
      obtain ⟨found, here⟩ := present spelling member
      rw [lost] at here
      cases here
    rw [List.eq_nil_iff_forall_not_mem.mpr none_]

/-- The linter of a run, with rules that are made from settings. -/
def linterOf (settings : Settings) (rules : List Rule) : Linter :=
  ⟨rules, { resolver := { policy := settings.failurePolicy } }⟩

/-- How a run can go: it ends at the first stage that does not succeed, or with a report. -/
inductive Course (arguments : LintArguments) (files : FileSystem) (environment : Environment) :
    Sight → Prop where
  | unreadable {failure : Failure} (unreadable : Settings.Unreadable files environment failure) :
      Course arguments files environment (.broken failure)
  | invalid {error : ValidationError}
      (refused : arguments.settings files environment = .error (.invalid error)) :
      Course arguments files environment
        (.refused (Text.concat ["invalid configuration: ", error.message]))
  | unreachable {settings : Settings} {spelling : String} {failure : Failure}
      (set : arguments.settings files environment = .ok settings)
      (member : spelling ∈ arguments.paths)
      (failed : Discovery.lookUp files (Path.ofString spelling) = .error failure) :
      Course arguments files environment (.broken failure)
  | missing {settings : Settings} {missing : List String}
      (set : arguments.settings files environment = .ok settings)
      (looked : missingPaths files arguments.paths = .ok missing) (some_ : missing ≠ []) :
      Course arguments files environment
        (.refused (Text.concat ["no such file or directory: ", ", ".intercalate missing]))
  | unmade {settings : Settings} {error : RuleConfigError} {records : List LogRecord}
      (set : arguments.settings files environment = .ok settings)
      (present : ∀ spelling ∈ arguments.paths, IsPresent files spelling)
      (unmade : Rule.create settings none = (.error error, records)) :
      Course arguments files environment (.refused error.message)
  | undiscovered {settings : Settings} {rules : List Rule} {records : List LogRecord}
      {failure : Failure} (set : arguments.settings files environment = .ok settings)
      (present : ∀ spelling ∈ arguments.paths, IsPresent files spelling)
      (made : Rule.create settings none = (.ok rules, records))
      (failed : (Discovery.discover files settings.skipDirectories
        (arguments.paths.map Path.ofString)).1 = .error failure) :
      Course arguments files environment (.broken failure)
  | linted {settings : Settings} {rules : List Rule} {records : List LogRecord}
      {targets : List Path} (set : arguments.settings files environment = .ok settings)
      (present : ∀ spelling ∈ arguments.paths, IsPresent files spelling)
      (made : Rule.create settings none = (.ok rules, records))
      (discovered : (Discovery.discover files settings.skipDirectories
        (arguments.paths.map Path.ofString)).1 = .ok targets) :
      Course arguments files environment
        (arguments.finish [] (Linter.lintFiles files targets {} (linterOf settings rules))).sight

/-- What is seen at the end of linting does not hang on the log. -/
theorem sight_finish (arguments : LintArguments) (records : List LogRecord)
    (progress : Linter.Progress) :
    (arguments.finish records progress).sight = (arguments.finish [] progress).sight := by
  simp only [finish]
  cases progress.failure with
  | none => rfl
  | some failure => cases failure <;> rfl

theorem sight_run_of_ok {settings : Settings}
    (set : arguments.settings files environment = .ok settings) :
    (arguments.run files environment).sight = (arguments.runWith files settings).sight := by
  rw [run, set]
  rfl

/-- Only refused values are told as an error of the configuration. -/
theorem sight_of_unreadable {failure : Failure}
    (unreadable : Settings.Unreadable files environment failure) :
    (arguments.run files environment).sight = .broken failure := by
  have failed : arguments.settings files environment = .error failure :=
    Settings.load_of_unreadable unreadable _
  rw [run, failed]
  split
  · rename_i error same
    exact absurd (Except.error.inj same) (unreadable.ne_invalid error)
  · rename_i other same
    rw [Except.error.inj same]
    rfl
  · cases ‹Except.error failure = .ok _›

/-- Every run goes in one of these ways. -/
theorem course (arguments : LintArguments) (files : FileSystem) (environment : Environment) :
    Course arguments files environment (arguments.run files environment).sight := by
  cases set : arguments.settings files environment with
  | error failure =>
    rcases Settings.unreadable_of_load set with unreadable | ⟨error, rfl, -⟩
    · rw [sight_of_unreadable unreadable]
      exact .unreadable unreadable
    · have ended : (arguments.run files environment).sight =
          .refused (Text.concat ["invalid configuration: ", error.message]) := by
        rw [run, set]
        rfl
      rw [ended]
      exact .invalid set
  | ok settings =>
    rw [sight_run_of_ok set]
    cases looked : missingPaths files arguments.paths with
    | error failure =>
      obtain ⟨spelling, member, failed⟩ := missingPaths_eq_error looked
      rw [runWith, looked]
      exact .unreachable set member failed
    | ok missing =>
      cases missing with
      | cons first others =>
        rw [runWith, looked]
        exact .missing set looked (List.cons_ne_nil _ _)
      | nil =>
        have present : ∀ spelling ∈ arguments.paths, IsPresent files spelling :=
          fun spelling member => (missingPaths_eq_ok looked).2 spelling member List.not_mem_nil
        cases made : Rule.create settings none with
        | mk result records =>
          cases result with
          | error error =>
            rw [runWith, looked, made]
            exact .unmade set present made
          | ok rules =>
            cases found : Discovery.discover files settings.skipDirectories
                (arguments.paths.map Path.ofString) with
            | mk targets discovered =>
              rw [runWith, looked, made]
              simp only [lintWith, found]
              cases targets with
              | error failure => exact .undiscovered set present made (by rw [found])
              | ok targets =>
                simp only [sight_finish arguments (records ++ discovered ++ _)]
                exact .linted set present made (by rw [found])

end LintArguments

end ModuleFence.CommandLine
