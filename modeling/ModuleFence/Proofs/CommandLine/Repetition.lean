import ModuleFence.Proofs.CommandLine.Values
import ModuleFence.Proofs.CommandLine.Verdict
import ModuleFence.Proofs.Lint.Places

set_option autoImplicit false

namespace ModuleFence

namespace Linter

variable {files : FileSystem} {options : ModuleOptions} {ids : List RuleId}

/-- The diagnostics of some files come file by file, and in none of them a node is reported twice by
the same rule. -/
def ReportsOnce (files : FileSystem) (paths : List Path) (diagnostics : List Diagnostic) : Prop :=
  ∃ groups, diagnostics = groups.flatten ∧ List.Forall₂ (fun path group =>
    ∀ source, SourceFile.load files path = .ok source → ∀ id : RuleId,
      (Script.parse source.characters).ReportsOnce id
        (group.filter fun diagnostic => diagnostic.ruleId = Text.ofString id.name)) paths groups

theorem Linted.reportsOnce {start last : Linter} {paths : List Path}
    {groups : List (List Diagnostic)} {checked : Nat}
    (linted : Linted Script.parse files start paths groups checked last)
    (coherent : start.Coherent options ids) (once : ids.Nodup) :
    ReportsOnce files paths groups.flatten := by
  refine ⟨groups, rfl, (linted.forall₂_of_coherent coherent).imp fun path group each => ?_⟩
  intro source loaded id
  obtain ⟨linter, agreeing, success⟩ := each source loaded
  exact agreeing.reportsOnce once success id

end Linter

namespace Rule

/-- Whether rules can be made does not hang on their repetitions. -/
theorem create_of_repeated (settings : Settings) (ids : List RuleId) :
    (∃ error, (create { settings with enabledRules := ids } none).1 = .error error ∧
        (create { settings with enabledRules := ids.eraseDups } none).1 = .error error) ∨
      (create { settings with enabledRules := ids } none).1 = .ok (ids.map (start settings)) ∧
        (create { settings with enabledRules := ids.eraseDups } none).1 =
          .ok (ids.eraseDups.map (start settings)) := by
  by_cases enabled : .someModule ∈ ids
  · cases valid : (ModuleOptions.ofNames settings.storeFilePath settings.forbiddenModules).1 with
    | error error =>
      exact .inl ⟨_, create_of_invalid enabled valid,
        create_of_invalid (List.mem_eraseDups.mpr enabled) valid⟩
    | ok options =>
      exact .inr ⟨create_of_valid fun _ => ⟨options, valid⟩, create_of_valid fun _ => ⟨options, valid⟩⟩
  · have disabled : .someModule ∉ ids.eraseDups := fun member => enabled (List.mem_eraseDups.mp member)
    exact .inr ⟨create_of_valid fun member => absurd member enabled,
      create_of_valid fun member => absurd member disabled⟩

end Rule

namespace CommandLine

/-- A run ends as another one, with the same errors told. -/
def Outcome.EndsAs (outcome other : Outcome) : Prop :=
  outcome.ending = other.ending ∧ outcome.errors = other.errors

namespace LintArguments

variable {arguments : LintArguments} {files : FileSystem} {environment single : Environment}
  {settings others : Settings} {ids : List RuleId} {progress once : Linter.Progress}

theorem settingsMembers_of_first_rules (arguments : LintArguments) :
    { arguments with rules := arguments.rules.eraseDups }.settingsMembers =
      arguments.settingsMembers := by
  have unruled_iff : arguments.rules.eraseDups = [] ↔ arguments.rules = [] := by
    simp only [List.eq_nil_iff_forall_not_mem, List.mem_eraseDups]
  simp only [settingsMembers, eraseDups_of_nodup (nodup_eraseDups _), unruled_iff]

/-- A rule that is named again on the command line changes nothing. -/
theorem run_of_first_rules (arguments : LintArguments) (files : FileSystem)
    (environment : Environment) :
    { arguments with rules := arguments.rules.eraseDups }.run files environment =
      arguments.run files environment := by
  have same : { arguments with rules := arguments.rules.eraseDups }.settings files environment =
      arguments.settings files environment := by
    rw [LintArguments.settings, LintArguments.settings, settingsMembers_of_first_rules]
  rw [run, run, same]
  rfl

/-- Rules that are named on the command line are enabled once each. -/
theorem nodup_enabledRules (named : arguments.rules ≠ [])
    (set : arguments.settings files environment = .ok settings) : settings.enabledRules.Nodup := by
  obtain ⟨surrounding, -, reads⟩ := (settings_eq_ok_iff _ _ _ _).mp set
  have value : arguments.allGiven surrounding .enabledRules =
      some (.array ((arguments.rules.eraseDups.map Text.ofString).map .string)) := by
    simp only [allGiven, given, if_neg named, List.map_map]
    rfl
  have rules := reads.enabledRules
  rw [value, Settings.valueOr, Settings.commaStrings_array] at rules
  have names := (Settings.rulesOf_eq_ok_iff _ _).mp rules
  have once : (arguments.rules.eraseDups.map Text.ofString).Nodup :=
    (nodup_eraseDups _).map fun _ _ => Text.ofString_injective
  rw [names] at once
  exact once.of_map _

/-- The rules of a run are those that are enabled, each as often. -/
theorem Lints.ids_eq {rules : List Rule} {targets : List Path}
    (lints : arguments.Lints files environment settings rules targets progress) :
    rules.map Rule.id = settings.enabledRules := by
  obtain ⟨records, made⟩ := lints.made
  rcases Rule.create_of_repeated settings settings.enabledRules with ⟨error, refused, -⟩ | ⟨whole, -⟩
  · rw [made] at refused
    cases refused
  · rw [made] at whole
    rw [Except.ok.inj whole, Rule.map_id_start]

theorem Lints.reportsOnce {rules : List Rule} {targets : List Path}
    (lints : arguments.Lints files environment settings rules targets progress)
    (completed : progress.failure = none) (single : settings.enabledRules.Nodup) :
    Linter.ReportsOnce files targets progress.report.diagnostics := by
  obtain ⟨before, groups, checked, last, linted, ended⟩ :=
    Linter.exists_linted Script.parse files targets (linterOf settings rules)
  have coherent := lints.coherent
  rw [lints.ids_eq] at coherent
  have progress_eq := lints.linted
  rw [Linter.lintFiles_eq_lintFilesWith] at progress_eq
  rcases ended with rfl | ⟨path, behind, failure, after, rfl, stops⟩
  · rw [linted.run] at progress_eq
    rw [progress_eq]
    exact linted.reportsOnce coherent single
  · rw [linted.run_of_stops stops] at progress_eq
    rw [progress_eq] at completed
    cases completed

/-- Rules are enabled by a setting of the surroundings, beside other settings of a run. -/
structure Enables (arguments : LintArguments) (files : FileSystem) (environment : Environment)
    (others : Settings) (ids : List RuleId) : Prop where
  unnamed : arguments.rules = []
  given : ∃ given text, Settings.surroundings files environment = .ok given ∧
    given .enabledRules = some (.string text) ∧
    Text.commaEntries text = ids.map (fun id => Text.ofString id.name) ∧
    Settings.Reads ((arguments.allGiven given).without .enabledRules) others

theorem Enables.settings_eq (enables : arguments.Enables files environment others ids) :
    arguments.settings files environment = .ok { others with enabledRules := ids } := by
  obtain ⟨unnamed, given, text, read, value, names, reads⟩ := enables
  have hidden : arguments.allGiven given .enabledRules = some (.string text) := by
    rw [allGiven, LintArguments.given, if_pos unnamed]
    exact value
  rw [settings_eq_ok_iff]
  exact ⟨given, read, reads.with_rules hidden (Settings.commaStrings_string _ _)
    ((Settings.rulesOf_eq_ok_iff _ _).mpr names)⟩

/-- The linters of settings that differ in repetitions of rules are paired. -/
theorem paired_linterOf (settings : Settings) (ids : List RuleId) :
    Linter.Paired settings.moduleOptions ids
      (linterOf { settings with enabledRules := ids } (ids.map (Rule.start settings)))
      (linterOf { settings with enabledRules := ids.eraseDups }
        (ids.eraseDups.map (Rule.start settings))) := by
  have coherent (ids : List RuleId) (shared : Shared) :
      Linter.Coherent settings.moduleOptions ids ⟨ids.map (Rule.start settings), shared⟩ := by
    have fresh : ∀ rule ∈ ids.map (Rule.start settings), rule.Fresh settings.moduleOptions := by
      intro rule member
      obtain ⟨id, -, rfl⟩ := List.mem_map.mp member
      exact Rule.fresh_start settings id
    have made := Linter.coherent_of_fresh fresh shared
    rwa [Rule.map_id_start] at made
  exact ⟨coherent ids _, coherent ids.eraseDups _, rfl⟩

/-- Files are linted alike with settings that differ in repetitions of rules. -/
theorem paired_lintFiles (settings : Settings) (ids : List RuleId) (files : FileSystem)
    (paths : List Path) :
    Linter.ProgressPaired settings.moduleOptions ids
      (Linter.lintFiles files paths {}
        (linterOf { settings with enabledRules := ids } (ids.map (Rule.start settings))))
      (Linter.lintFiles files paths {}
        (linterOf { settings with enabledRules := ids.eraseDups }
          (ids.eraseDups.map (Rule.start settings)))) :=
  (paired_linterOf settings ids).lintFiles files paths rfl (.nil ids)

theorem endsAs_finish {options : ModuleOptions}
    (paired : Linter.ProgressPaired options ids progress once) (records further : List LogRecord) :
    (arguments.finish further once).EndsAs (arguments.finish records progress) := by
  have clean : once.report.isClean = progress.report.isClean := by
    rw [Report.isClean, Report.isClean, Bool.eq_iff_iff, List.isEmpty_iff, List.isEmpty_iff]
    exact paired.repeats.eq_nil_iff.symm
  rw [finish, finish, paired.failure_eq, clean]
  cases once.failure with
  | none => exact ⟨rfl, rfl⟩
  | some failure => cases failure <;> exact ⟨rfl, rfl⟩

/-- Runs with settings that differ in repetitions of rules end alike. -/
theorem endsAs_runWith (arguments : LintArguments) (files : FileSystem) (settings : Settings)
    (ids : List RuleId) :
    (arguments.runWith files { settings with enabledRules := ids.eraseDups }).EndsAs
      (arguments.runWith files { settings with enabledRules := ids }) := by
  rw [runWith, runWith]
  cases missingPaths files arguments.paths with
  | error failure => exact ⟨rfl, rfl⟩
  | ok missing =>
    cases missing with
    | cons first rest => exact ⟨rfl, rfl⟩
    | nil =>
      have made := Rule.create_of_repeated settings ids
      generalize Rule.create { settings with enabledRules := ids } none = whole at made ⊢
      generalize Rule.create { settings with enabledRules := ids.eraseDups } none = part at made ⊢
      obtain ⟨rules, records⟩ := whole
      obtain ⟨others, further⟩ := part
      rcases made with ⟨error, refused, also⟩ | ⟨made, also⟩
      · obtain rfl : rules = .error error := refused
        obtain rfl : others = .error error := also
        exact ⟨rfl, rfl⟩
      · obtain rfl : rules = .ok (ids.map (Rule.start settings)) := made
        obtain rfl : others = .ok (ids.eraseDups.map (Rule.start settings)) := also
        simp only [lintWith]
        rcases Discovery.discover files settings.skipDirectories
          (arguments.paths.map Path.ofString) with ⟨failure | targets, discovered⟩
        · exact ⟨rfl, rfl⟩
        · exact endsAs_finish (paired_lintFiles settings ids files targets) _ _

theorem Enables.endsAs (enables : arguments.Enables files environment others ids)
    (also : arguments.Enables files single others ids.eraseDups) :
    (arguments.run files single).EndsAs (arguments.run files environment) := by
  have alike := endsAs_runWith arguments files others ids
  rw [run, run, enables.settings_eq, also.settings_eq]
  exact alike

/-- A run that comes to lint with repeated rules comes to lint without repetitions as well. -/
theorem Enables.lints (enables : arguments.Enables files environment others ids)
    (also : arguments.Enables files single others ids.eraseDups) {rules : List Rule}
    {targets : List Path}
    (lints : arguments.Lints files environment settings rules targets progress) :
    ∃ reduced once, arguments.Lints files single { others with enabledRules := ids.eraseDups } reduced
        targets once ∧ Linter.ProgressPaired others.moduleOptions ids progress once := by
  obtain rfl := lints.settings_eq enables.settings_eq
  obtain ⟨records, made⟩ := lints.made
  rcases Rule.create_of_repeated others ids with ⟨error, refused, -⟩ | ⟨whole, part⟩
  · rw [made] at refused
    cases refused
  · rw [made] at whole
    obtain rfl := Except.ok.inj whole
    rw [lints.linted]
    exact ⟨_, _, ⟨also.settings_eq, lints.present, ⟨_, Prod.ext part rfl⟩, lints.discovered, rfl⟩,
      paired_lintFiles others ids files targets⟩

/-- Rules that are named more than once. On the command line, the first mentions of rules make the
same run, and a run with rules that are named there, or else enabled once each, reports no node of a
file twice by the same rule. Where the surroundings enable rules, a run with all mentions ends as the
one with first mentions only, and checks the same files; but it reports each finding as often as its
rule is mentioned, so that both report the same exactly if no rule with a finding is repeated. -/
theorem run_of_repeated_rules (arguments : LintArguments) (files : FileSystem) :
    (∀ environment, { arguments with rules := arguments.rules.eraseDups }.run files environment =
      arguments.run files environment) ∧
    (∀ environment settings rules targets progress,
      arguments.Lints files environment settings rules targets progress → progress.failure = none →
      arguments.rules ≠ [] ∨ settings.enabledRules.Nodup →
      Linter.ReportsOnce files targets progress.report.diagnostics) ∧
    ∀ environment single others ids, arguments.Enables files environment others ids →
      arguments.Enables files single others ids.eraseDups →
      (arguments.run files single).EndsAs (arguments.run files environment) ∧
      ∀ settings rules targets progress,
        arguments.Lints files environment settings rules targets progress →
        ∃ reduced once, arguments.Lints files single { others with enabledRules := ids.eraseDups }
            reduced targets once ∧
          once.failure = progress.failure ∧
          once.report.filesChecked = progress.report.filesChecked ∧
          Repeats ids progress.report.diagnostics once.report.diagnostics ∧
          (once.report.diagnostics = progress.report.diagnostics ↔
            ∀ diagnostic ∈ once.report.diagnostics, multiplicity ids diagnostic = 1) := by
  refine ⟨arguments.run_of_first_rules files, ?_, ?_⟩
  · intro environment settings rules targets progress lints completed single
    exact lints.reportsOnce completed (single.elim (nodup_enabledRules · lints.set) id)
  · intro environment single others ids enables also
    refine ⟨enables.endsAs also, fun settings rules targets progress lints => ?_⟩
    obtain ⟨reduced, once, alsoLints, paired⟩ := enables.lints also lints
    exact ⟨reduced, once, alsoLints, paired.failure_eq.symm, paired.filesChecked_eq.symm,
      paired.repeats, paired.repeats.eq_iff⟩

/-- The arguments for linting the only source of a directory. -/
def onSource : LintArguments := { paths := ["a.js"] }

/-- Beside a source, a variable enables rules whatever they are. -/
theorem enables_withSource {source raw : String} {ids : List RuleId}
    (names : Text.commaEntries (Text.ofString raw) = ids.map fun id => Text.ofString id.name) :
    onSource.Enables (withSource source) { bindings := [("STORELINT_ENABLED_RULES", raw)] } {} ids := by
  have read := Settings.surroundings_of_variable "STORELINT_ENABLED_RULES" raw .enabledRules
    (fileVariables_withSource source _) (by decide +kernel) (by decide)
  exact ⟨rfl, _, _, read, rfl, names, ⟨rfl, rfl, rfl, rfl, rfl, rfl⟩⟩

/-- With any rules that a variable enables, a directory with an empty catch block comes to be linted. -/
theorem lints_emptyCatchSource {environment : Environment} {ids : List RuleId}
    (enables : onSource.Enables (withSource emptyCatchSource) environment {} ids) :
    onSource.Lints (withSource emptyCatchSource) environment { enabledRules := ids }
      (ids.map (Rule.start {})) [⟨.relative, ["a.js"]⟩]
      (Linter.lintFiles (withSource emptyCatchSource) [⟨.relative, ["a.js"]⟩] {}
        (linterOf {} (ids.map (Rule.start {})))) := by
  have made : (Rule.create { enabledRules := ids } none).1 = .ok (ids.map (Rule.start {})) :=
    Rule.create_of_valid fun _ => succeeds_ok _
  refine ⟨enables.settings_eq, ?_, ⟨_, Prod.ext made rfl⟩, ?_, rfl⟩
  · exact List.forall_mem_singleton.mpr ⟨_, by cbv⟩
  · cbv

/-- The source with an empty catch block is linted with as many diagnostics as rules look at it. -/
theorem lintFiles_of_count (ids : List RuleId) (count : Nat)
    (counted : (Linter.lintTree (withSource emptyCatchSource) (some ⟨.relative, ["a.js"]⟩)
      (Script.parse emptyCatchSource.toList) (linterOf {} (ids.map (Rule.start {})))).result.map
        List.length = .ok count) :
    let progress := Linter.lintFiles (withSource emptyCatchSource) [⟨.relative, ["a.js"]⟩] {}
      (linterOf {} (ids.map (Rule.start {})))
    progress.failure = none ∧ progress.report.diagnostics.length = count := by
  intro progress
  obtain ⟨diagnostics, found, length⟩ := (map_eq_ok_iff _ _ _).mp counted
  obtain ⟨completed, report⟩ :=
    lintFiles_withSource content_emptyCatchSource found
  refine ⟨completed, ?_⟩
  rw [report]
  exact length

/-- A rule that is named twice in a variable, and once for comparison. -/
theorem run_of_repeated_rules_of_variable :
    let files := withSource emptyCatchSource
    let twice : Environment :=
      { bindings := [("STORELINT_ENABLED_RULES", "disallow-empty-catch,disallow-empty-catch")] }
    let once : Environment := { bindings := [("STORELINT_ENABLED_RULES", "disallow-empty-catch")] }
    onSource.Enables files twice {} [.emptyCatch, .emptyCatch] ∧
      onSource.Enables files once {} [.emptyCatch] ∧
      ∃ progress reduced : Linter.Progress, progress.failure = none ∧
        onSource.Lints files twice { enabledRules := [.emptyCatch, .emptyCatch] }
          [.emptyCatch, .emptyCatch] [⟨.relative, ["a.js"]⟩] progress ∧
        Repeats [.emptyCatch, .emptyCatch] progress.report.diagnostics
          reduced.report.diagnostics ∧
        Linter.ReportsOnce files [⟨.relative, ["a.js"]⟩] reduced.report.diagnostics := by
  intro files twice once
  have enables : onSource.Enables files twice {} [.emptyCatch, .emptyCatch] :=
    enables_withSource (by decide +kernel)
  have also : onSource.Enables files once {} [.emptyCatch] := enables_withSource (by decide +kernel)
  have lints := lints_emptyCatchSource enables
  have completed := (lintFiles_of_count [.emptyCatch, .emptyCatch] 2
    (by decide +kernel)).1
  obtain ⟨-, reports, repeated⟩ := run_of_repeated_rules onSource files
  obtain ⟨-, reduces⟩ := repeated twice once {} [.emptyCatch, .emptyCatch] enables also
  obtain ⟨rules, reduced, alsoLints, failure_eq, -, repeats, -⟩ := reduces _ _ _ _ lints
  exact ⟨enables, also, _, reduced, completed, lints, repeats,
    reports once _ _ _ _ alsoLints (failure_eq.trans completed) (.inr (by decide))⟩

/-- A rule that is named twice in a variable reports an empty catch block twice. -/
theorem run_of_repeated_variable :
    let files := withSource emptyCatchSource
    let twice : Environment :=
      { bindings := [("STORELINT_ENABLED_RULES", "disallow-empty-catch,disallow-empty-catch")] }
    let once : Environment := { bindings := [("STORELINT_ENABLED_RULES", "disallow-empty-catch")] }
    Invocation.ofWords ["lint", "a.js"] = .lint onSource ∧
      ∃ settings rules progress others reduced also,
        onSource.Lints files twice settings rules [⟨.relative, ["a.js"]⟩] progress ∧
        onSource.Lints files once others reduced [⟨.relative, ["a.js"]⟩] also ∧
        progress.failure = none ∧ also.failure = none ∧
        progress.report.diagnostics.length = 2 ∧ also.report.diagnostics.length = 1 := by
  intro files twice once
  have enables : onSource.Enables files twice {} [.emptyCatch, .emptyCatch] :=
    enables_withSource (by decide +kernel)
  have also : onSource.Enables files once {} [.emptyCatch] := enables_withSource (by decide +kernel)
  obtain ⟨completed, two⟩ := lintFiles_of_count [.emptyCatch, .emptyCatch] 2
    (by decide +kernel)
  obtain ⟨alsoCompleted, one⟩ := lintFiles_of_count [.emptyCatch] 1
    (by decide +kernel)
  exact ⟨by decide +kernel, _, _, _, _, _, _, lints_emptyCatchSource enables,
    lints_emptyCatchSource also, completed, alsoCompleted, two, one⟩

end LintArguments

end CommandLine

end ModuleFence
