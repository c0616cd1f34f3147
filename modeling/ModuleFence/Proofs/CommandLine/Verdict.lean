import Mathlib
import ModuleFence.Proofs.CommandLine.Configuration
import ModuleFence.Proofs.CommandLine.Output
import ModuleFence.Proofs.CommandLine.Request
import ModuleFence.Proofs.Lint.Clean
import ModuleFence.Proofs.Text.Encoding

set_option autoImplicit false

namespace ModuleFence

namespace CommandLine

namespace LintArguments

variable {arguments : LintArguments} {files : FileSystem} {environment : Environment}
  {settings : Settings} {rules : List Rule} {targets : List Path} {progress : Linter.Progress}
  {code : Nat}

/-- A run comes to lint the files that are discovered. -/
structure Lints (arguments : LintArguments) (files : FileSystem) (environment : Environment)
    (settings : Settings) (rules : List Rule) (targets : List Path)
    (progress : Linter.Progress) : Prop where
  set : arguments.settings files environment = .ok settings
  present : ∀ spelling ∈ arguments.paths, IsPresent files spelling
  made : ∃ records, Rule.create settings none = (.ok rules, records)
  discovered : (Discovery.discover files settings.skipDirectories
    (arguments.paths.map Path.ofString)).1 = .ok targets
  linted : progress = Linter.lintFiles files targets {} (linterOf settings rules)

/-- What keeps a run from a report: settings or rules that are refused, a path that leads nowhere, or
an error about the store while files are linted. -/
inductive IsPrevented (arguments : LintArguments) (files : FileSystem)
    (environment : Environment) : Prop where
  | settings {failure : Failure} (refused : arguments.settings files environment = .error failure)
  | rules {settings : Settings} {error : RuleConfigError} {records : List LogRecord}
      (set : arguments.settings files environment = .ok settings)
      (refused : Rule.create settings none = (.error error, records))
  | path {spelling : String} (member : spelling ∈ arguments.paths)
      (missing : IsMissing files spelling)
  | store {settings : Settings} {rules : List Rule} {targets : List Path}
      {progress : Linter.Progress} {error : StoreError}
      (lints : arguments.Lints files environment settings rules targets progress)
      (failed : progress.failure = some (.store error))

namespace Lints

theorem settings_eq {other : Settings}
    (lints : arguments.Lints files environment settings rules targets progress)
    (set : arguments.settings files environment = .ok other) : other = settings :=
  Except.ok.inj (set.symm.trans lints.set)

/-- A run comes to lint in one way only. -/
theorem progress_eq {settings' : Settings} {rules' : List Rule} {targets' : List Path}
    {progress' : Linter.Progress}
    (lints : arguments.Lints files environment settings rules targets progress)
    (also : arguments.Lints files environment settings' rules' targets' progress') :
    progress' = progress := by
  obtain rfl := lints.settings_eq also.set
  obtain ⟨records, made⟩ := lints.made
  obtain ⟨records', made'⟩ := also.made
  rw [made] at made'
  obtain rfl : rules = rules' := Except.ok.inj (Prod.mk.inj made').1
  obtain rfl : targets = targets' := Except.ok.inj (lints.discovered.symm.trans also.discovered)
  rw [lints.linted, also.linted]

/-- A run that lints to the end is not kept from its report. -/
theorem not_isPrevented (lints : arguments.Lints files environment settings rules targets progress)
    (completed : progress.failure = none) : ¬ arguments.IsPrevented files environment := by
  intro prevented
  cases prevented with
  | settings refused =>
    rw [lints.set] at refused
    cases refused
  | rules set refused =>
    obtain rfl := lints.settings_eq set
    obtain ⟨records, made⟩ := lints.made
    rw [made] at refused
    cases refused
  | path member missing =>
    obtain ⟨found, present⟩ := lints.present _ member
    rw [IsMissing, present] at missing
    cases missing
  | store also failed =>
    rw [lints.progress_eq also, completed] at failed
    cases failed

/-- The rules of a run are made for the resolver that they ask. -/
theorem coherent (lints : arguments.Lints files environment settings rules targets progress) :
    Linter.Coherent settings.moduleOptions (rules.map Rule.id) (linterOf settings rules) := by
  obtain ⟨records, made⟩ := lints.made
  exact Linter.coherent_of_fresh (Rule.fresh_of_create made)
    { resolver := { policy := settings.failurePolicy } }

/-- A run that lints to the end is clean exactly if all its files are read and parsed, and no rule
reports anything. -/
theorem clean_iff (lints : arguments.Lints files environment settings rules targets progress)
    (completed : progress.failure = none) :
    progress.report.diagnostics = [] ↔
      (∀ target ∈ targets, Linter.ReadsAndParses Script.parse files target) ∧
        ∀ diagnostic ∈ progress.report.diagnostics, ¬ diagnostic.IsOfRule := by
  have coherent := lints.coherent
  rw [lints.linted] at completed ⊢
  exact coherent.clean_iff completed

end Lints

/-- Linting that ends with an exit code ends by an error about the store, or prints the report. -/
theorem finish_cases (ended : (arguments.finish [] progress).sight.ending = .exit code) :
    (code = 2 ∧ (arguments.finish [] progress).sight.output = [] ∧
        ∃ error, progress.failure = some (.store error)) ∨
      progress.failure = none ∧ code = (if progress.report.isClean then 0 else 1) ∧
        (arguments.finish [] progress).sight.output = arguments.render progress.report := by
  rw [finish] at ended ⊢
  cases failed : progress.failure with
  | none =>
    rw [failed] at ended
    exact Or.inr ⟨rfl, (Ending.exit.inj ended).symm, rfl⟩
  | some failure =>
    rw [failed] at ended
    cases failure with
    | store error =>
      cases ended
      exact Or.inl ⟨rfl, rfl, error, rfl⟩
    | _ => cases ended

theorem Lints.sight_eq (lints : arguments.Lints files environment settings rules targets progress) :
    (arguments.run files environment).sight = (arguments.finish [] progress).sight := by
  obtain ⟨records, made⟩ := lints.made
  have discovered := lints.discovered
  rcases found : Discovery.discover files settings.skipDirectories
    (arguments.paths.map Path.ofString) with ⟨targets', logged⟩
  rw [found] at discovered
  obtain rfl : targets' = .ok targets := discovered
  rw [sight_run_of_ok lints.set, runWith, missingPaths_of_present lints.present, made, lints.linted]
  simp only [lintWith, found]
  exact sight_finish arguments _ _

/-- A run that lints to the end ends with the verdict of its report. -/
theorem Lints.ending_eq (lints : arguments.Lints files environment settings rules targets progress)
    (completed : progress.failure = none) :
    (arguments.run files environment).ending =
      .exit (if progress.report.isClean then 0 else 1) := by
  have ending := congrArg Sight.ending lints.sight_eq
  rw [finish, completed] at ending
  exact ending

/-- A run that ends with an exit code is kept from its report, or prints it. -/
theorem exit_cases (ended : (arguments.run files environment).sight.ending = .exit code) :
    code = 2 ∧ (arguments.run files environment).sight.output = [] ∧
        arguments.IsPrevented files environment ∨
      ∃ settings rules targets progress,
        arguments.Lints files environment settings rules targets progress ∧
        progress.failure = none ∧ code = (if progress.report.isClean then 0 else 1) ∧
        (arguments.run files environment).sight.output = arguments.render progress.report := by
  have course := arguments.course files environment
  -- The stages at which a failure ends the run have no exit code.
  generalize (arguments.run files environment).sight = seen at ended course ⊢
  cases course with
  | unreadable _ => cases ended
  | invalid refused =>
    cases ended
    exact Or.inl ⟨rfl, rfl, .settings refused⟩
  | unreachable _ _ _ => cases ended
  | missing set looked some_ =>
    cases ended
    obtain ⟨spelling, others, rfl⟩ := List.exists_cons_of_ne_nil some_
    obtain ⟨member, missing⟩ := ((missingPaths_eq_ok looked).1 spelling).mp List.mem_cons_self
    exact Or.inl ⟨rfl, rfl, .path member missing⟩
  | unmade set present unmade =>
    cases ended
    exact Or.inl ⟨rfl, rfl, .rules set unmade⟩
  | undiscovered _ _ _ _ => cases ended
  | linted set present made discovered =>
    have lints : arguments.Lints files environment _ _ _ _ :=
      ⟨set, present, ⟨_, made⟩, discovered, rfl⟩
    rcases finish_cases ended with ⟨coded, silent, error, failed⟩ | ⟨completed, coded, printed⟩
    · exact Or.inl ⟨coded, silent, .store lints failed⟩
    · exact Or.inr ⟨_, _, _, _, lints, completed, coded, printed⟩

theorem verdict_of_code {report : Report} (coded : code = if report.isClean then 0 else 1) :
    code ≠ 2 ∧ (code = 0 ↔ report.diagnostics = []) ∧ (code = 1 ↔ report.diagnostics ≠ []) := by
  simp only [ne_eq, ← List.isEmpty_iff, coded]
  change _ ∧ (_ ↔ report.isClean = true) ∧ (_ ↔ ¬ report.isClean = true)
  cases report.isClean <;> simp

/-- The presentation changes neither the end of a run nor what is told of errors. -/
theorem sight_request (arguments : LintArguments) (files : FileSystem) (environment : Environment) :
    (arguments.run files environment).ending = (arguments.request.run files environment).ending ∧
      (arguments.run files environment).errors =
        (arguments.request.run files environment).errors := by
  have same : arguments.request.settings files environment = arguments.settings files environment :=
    rfl
  rw [run, run, same]
  cases arguments.settings files environment with
  | error failure => cases failure <;> exact ⟨rfl, rfl⟩
  | ok settings =>
    change (arguments.runWith files settings).ending =
        (arguments.request.runWith files settings).ending ∧
      (arguments.runWith files settings).errors =
        (arguments.request.runWith files settings).errors
    have paths : arguments.request.paths = arguments.paths := rfl
    rw [runWith, runWith, paths]
    cases missingPaths files arguments.paths with
    | error failure => exact ⟨rfl, rfl⟩
    | ok missing =>
      cases missing with
      | cons first others => exact ⟨rfl, rfl⟩
      | nil =>
        rcases Rule.create settings none with ⟨error | rules, records⟩
        · exact ⟨rfl, rfl⟩
        · simp only [lintWith, paths]
          rcases Discovery.discover files settings.skipDirectories
            (arguments.paths.map Path.ofString) with ⟨failure | targets, discovered⟩
          · exact ⟨rfl, rfl⟩
          · simp only [finish]
            cases (Linter.lintFiles files targets {} _).failure with
            | none => exact ⟨rfl, rfl⟩
            | some failure => cases failure <;> exact ⟨rfl, rfl⟩

theorem lints_request {given changed : LintArguments} (same : changed.request = given.request) :
    changed.Lints files environment settings rules targets progress ↔
      given.Lints files environment settings rules targets progress := by
  have settings_eq : changed.request.settings files environment =
      given.request.settings files environment := by
    rw [same]
  have paths_eq : changed.request.paths = given.request.paths := by
    rw [same]
  constructor
  · rintro ⟨set, present, made, discovered, linted⟩
    exact ⟨settings_eq.symm.trans set, paths_eq ▸ present, made, paths_eq ▸ discovered, linted⟩
  · rintro ⟨set, present, made, discovered, linted⟩
    exact ⟨settings_eq.trans set, paths_eq.symm ▸ present, made, paths_eq.symm ▸ discovered, linted⟩

end LintArguments

/-- The exit code of a run is the one for errors exactly if something keeps it from a report; it is
otherwise the one for clean runs exactly if all files are read and parsed and no rule reports anything,
and the one for diagnostics exactly if there are some. What is printed tells the same. Options about
the presentation can be taken out of a command line, and as long as it is accepted they can be added
and changed: neither the end of the run nor its report changes. -/
theorem run_verdict (files : FileSystem) (environment : Environment) :
    (∀ words arguments code, Invocation.ofWords words = .lint arguments →
      (run files environment words).ending = .exit code →
        let output := (run files environment words).output
        (code = 2 ↔ arguments.IsPrevented files environment) ∧
        (code = 2 → output = []) ∧
        (code ≠ 2 → ∃ settings rules targets progress,
          arguments.Lints files environment settings rules targets progress ∧
          progress.failure = none ∧ output = arguments.render progress.report ∧
          (code = 0 ↔ (∀ target ∈ targets, Linter.ReadsAndParses Script.parse files target) ∧
            ∀ diagnostic ∈ progress.report.diagnostics, ¬ diagnostic.IsOfRule) ∧
          (code = 1 ↔ progress.report.diagnostics ≠ [])) ∧
        (arguments.inJson = false → (output = [] ↔ code = 0 ∨ code = 2)) ∧
        (arguments.inJson = true → code ≠ 2 → ∃ (json : Json) (count : Nat),
          Json.readWithin ⟨none, none⟩ output = .ok json ∧
          json.member? "diagnostic_count" = some (.integer count) ∧ (count = 0 ↔ code = 0))) ∧
    ∀ front option back arguments, ArePresentation option → "--" ∉ front →
      Invocation.ofWords (front ++ (option ++ back)) = .lint arguments →
        (∃ bare, Invocation.ofWords (front ++ back) = .lint bare) ∧
        ∀ other changed, ArePresentation other →
          Invocation.ofWords (front ++ (other ++ back)) = .lint changed →
            let outcome := run files environment (front ++ (option ++ back))
            let also := run files environment (front ++ (other ++ back))
            also.ending = outcome.ending ∧ also.errors = outcome.errors ∧
            ∀ settings rules targets progress,
              changed.Lints files environment settings rules targets progress ↔
                arguments.Lints files environment settings rules targets progress := by
  refine ⟨?_, ?_⟩
  · intro words arguments code accepted ended output
    have same : run files environment words = arguments.run files environment :=
      run_of_lint accepted
    rw [same] at ended
    have printed : output = (arguments.run files environment).output :=
      congrArg Outcome.output same
    rcases LintArguments.exit_cases ended with
      ⟨rfl, silent, prevented⟩ | ⟨settings, rules, targets, progress, lints, completed, coded, shown⟩
    · have silent : output = [] := printed.trans silent
      exact ⟨iff_of_true rfl prevented, fun _ => silent, fun coded => absurd rfl coded,
        fun _ => iff_of_true silent (Or.inr rfl), fun _ coded => absurd rfl coded⟩
    · have shown : output = arguments.render progress.report := printed.trans shown
      obtain ⟨notErrors, clean_iff, found_iff⟩ := LintArguments.verdict_of_code coded
      refine ⟨iff_of_false notErrors (lints.not_isPrevented completed),
        fun impossible => absurd impossible notErrors, fun _ => ?_, fun asText => ?_,
        fun asJson _ => ?_⟩
      · exact ⟨settings, rules, targets, progress, lints, completed, shown,
          clean_iff.trans (lints.clean_iff completed), found_iff⟩
      · rw [shown, LintArguments.render_eq_nil_iff asText, ← clean_iff]
        exact ⟨Or.inl, fun either => either.resolve_right notErrors⟩
      · refine ⟨progress.report.toJson, progress.report.diagnostics.length, ?_,
          progress.report.member?_diagnosticCount, ?_⟩
        · rw [shown]
          exact LintArguments.readWithin_render asJson progress.report
        · rw [clean_iff]
          exact List.length_eq_zero_iff
  · intro front option back arguments presentation early accepted
    refine ⟨?_, ?_⟩
    · obtain ⟨bare, without, -⟩ := Invocation.accepted_without presentation early accepted
      exact ⟨bare, without⟩
    · intro other changed others also_ outcome also
      have same := Invocation.request_eq presentation others early accepted also_
      obtain ⟨ending, errors⟩ := LintArguments.sight_request arguments files environment
      obtain ⟨ending', errors'⟩ := LintArguments.sight_request changed files environment
      have outcome_eq : outcome = arguments.run files environment := run_of_lint accepted
      have also_eq : also = changed.run files environment := run_of_lint also_
      rw [outcome_eq, also_eq, ending, errors, ending', errors', same]
      exact ⟨rfl, rfl, fun settings rules targets progress => LintArguments.lints_request same⟩

/-- A directory with one source. -/
def withSource (source : String) : FileSystem :=
  (FileSystem.empty []).put ["a.js"] (.file source.toUTF8.toList)

theorem fileVariables_withSource (source : String) (environment : Environment) :
    Settings.fileVariables (withSource source) environment = .ok [] := by
  have allowed : FileSystem.hasNull Settings.environmentFilePath = false := by
    rw [← Bool.not_eq_true, Settings.environmentFilePath, FileSystem.hasNull_ofString_iff]
    decide
  have absent : (withSource source).locate Settings.environmentFilePath = .error .notFound := by
    rfl
  rw [Settings.fileVariables, FileSystem.find?, allowed, absent]
  rfl

theorem settings_withSource (source : String) {arguments : LintArguments}
    (bare : arguments.settingsMembers = []) : arguments.settings (withSource source) {} = .ok {} := by
  rw [LintArguments.settings, Settings.load, fileVariables_withSource, bare]
  rfl

/-- An empty catch block. -/
def emptyCatchSource : String := "try {} catch (e) {}"

/-- Both rules, the second one without a module to forbid. -/
def unforbiddingRules : List Rule :=
  [.emptyCatch, .someModule (.sharing ⟨none, []⟩)]

/-- A directory with one source is linted as this source is. -/
theorem lintFiles_withSource {source : String} {linter : Linter} {diagnostics : List Diagnostic}
    (kept : SourceFile.content ⟨.relative, ["a.js"]⟩ (Lines.normalize source.toList) = source.toList)
    (found : (Linter.lintTree (withSource source) (some ⟨.relative, ["a.js"]⟩)
      (Script.parse source.toList) linter).result = .ok diagnostics) :
    (Linter.lintFiles (withSource source) [⟨.relative, ["a.js"]⟩] {} linter).failure = none ∧
      (Linter.lintFiles (withSource source) [⟨.relative, ["a.js"]⟩] {} linter).report =
        ⟨diagnostics, 1⟩ := by
  have loaded : SourceFile.load (withSource source) ⟨.relative, ["a.js"]⟩ =
      .ok ⟨⟨.relative, ["a.js"]⟩, source.toList⟩ :=
    SourceFile.load_of_file (by simp [FileSystem.hasNull]) rfl (Utf8.decode_encode source) kept
  have linted : Linter.Linted Script.parse (withSource source) linter [⟨.relative, ["a.js"]⟩] _ 1 _ :=
    .checked loaded (Linter.Answer.eq_mk found) (.nil _)
  rw [Linter.lintFiles_eq_lintFilesWith, linted.run]
  refine ⟨rfl, ?_⟩
  simp [Linter.grown]

theorem content_emptyCatchSource :
    SourceFile.content ⟨.relative, ["a.js"]⟩ (Lines.normalize emptyCatchSource.toList) =
      emptyCatchSource.toList := by
  decide +kernel

theorem lintFiles_emptyCatchSource :
    let path : Path := ⟨.relative, ["a.js"]⟩
    let progress := Linter.lintFiles (withSource emptyCatchSource) [path] {}
      (LintArguments.linterOf {} unforbiddingRules)
    progress.failure = none ∧ progress.report.isClean = false := by
  intro path progress
  have counted : (Linter.lintTree (withSource emptyCatchSource) (some path)
      (Script.parse emptyCatchSource.toList) (LintArguments.linterOf {} unforbiddingRules)).result.map
      List.length = .ok 1 := by
    decide +kernel
  obtain ⟨diagnostics, found, length⟩ := (map_eq_ok_iff _ _ _).mp counted
  obtain ⟨completed, report⟩ :=
    lintFiles_withSource content_emptyCatchSource found
  refine ⟨completed, ?_⟩
  rw [report, Report.isClean, List.isEmpty_eq_false_iff]
  rintro rfl
  cases length

/-- A run that finds an empty catch block ends with one, and does so in either form. -/
theorem run_verdict_of_empty_catch :
    Invocation.ofWords ["lint", "a.js", "--format", "json"] =
        .lint { paths := ["a.js"], inJson := true } ∧
      (run (withSource emptyCatchSource) {} ["lint", "a.js", "--format", "json"]).ending = .exit 1 ∧
      ¬ LintArguments.IsPrevented { paths := ["a.js"], inJson := true }
        (withSource emptyCatchSource) {} ∧
      ArePresentation ["--format", "json"] ∧ ArePresentation ["--verbose"] ∧
      Invocation.ofWords ["lint", "a.js", "--verbose"] =
        .lint { paths := ["a.js"], isVerbose := true } ∧
      (run (withSource emptyCatchSource) {} ["lint", "a.js", "--verbose"]).ending = .exit 1 := by
  let arguments : LintArguments := { paths := ["a.js"], inJson := true }
  let files := withSource emptyCatchSource
  have accepted : Invocation.ofWords ["lint", "a.js", "--format", "json"] = .lint arguments := by
    decide +kernel
  have also : Invocation.ofWords ["lint", "a.js", "--verbose"] =
      .lint { paths := ["a.js"], isVerbose := true } := by
    decide +kernel
  let progress := Linter.lintFiles files [⟨.relative, ["a.js"]⟩] {}
    (LintArguments.linterOf {} unforbiddingRules)
  have lints : arguments.Lints files {} {} unforbiddingRules [⟨.relative, ["a.js"]⟩] progress := by
    refine ⟨settings_withSource _ rfl, ?_, ⟨_, rfl⟩, ?_, rfl⟩
    · exact List.forall_mem_singleton.mpr ⟨_, by cbv⟩
    · cbv
  obtain ⟨completed, found⟩ := lintFiles_emptyCatchSource
  have ended : (run files {} ["lint", "a.js", "--format", "json"]).ending = .exit 1 := by
    rw [run_of_lint accepted, lints.ending_eq completed, found]
    rfl
  have format : ArePresentation ["--format", "json"] := .format (by decide)
  obtain ⟨single, edited⟩ := run_verdict files {}
  have verdict := single _ arguments 1 accepted ended
  obtain ⟨-, changed⟩ := edited ["lint", "a.js"] ["--format", "json"] [] arguments format (by decide)
    accepted
  have same := changed ["--verbose"] _ .verbose also
  exact ⟨accepted, ended, fun prevented => absurd (verdict.1.mpr prevented) (by decide), format,
    .verbose, also, same.1.trans ended⟩

end CommandLine

end ModuleFence
