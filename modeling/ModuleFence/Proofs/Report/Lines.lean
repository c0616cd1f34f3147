import ModuleFence.Proofs.Lint.Files
import ModuleFence.Proofs.Text.Encoding
import ModuleFence.Proofs.Text.OneLine
import ModuleFence.Report.Render

set_option autoImplicit false

namespace ModuleFence

/-- A diagnostic that linting the file at a path can report. -/
inductive Diagnostic.ReportedAt (path : Path) : Diagnostic → Prop where
  | found {diagnostic : Diagnostic} (found : diagnostic.FoundAt (some path)) :
      ReportedAt path diagnostic
  | unreadable (error : ReadError) : ReportedAt path (Linter.unreadable path error)

namespace Linter

variable {parser : SourceParser} {files : FileSystem}

theorem Linted.reportedAt {start last : Linter} {paths : List Path}
    {groups : List (List Diagnostic)} {checked : Nat}
    (linted : Linted parser files start paths groups checked last) :
    ∀ diagnostic ∈ groups.flatten, ∃ path, diagnostic.ReportedAt path := by
  induction linted with
  | nil linter => exact fun _ impossible => by cases impossible
  | @unreadable _ _ path _ error _ _ unread expected _ ih =>
    rw [List.flatten_cons, List.forall_mem_append, List.forall_mem_singleton]
    exact ⟨⟨path, .unreadable error⟩, ih⟩
  | @checked linter _ _ path _ source diagnostics _ _ _ linted _ ih =>
    have from_path := allFrom_lintTree files (some path) (parser source.characters) linter
    rw [linted] at from_path
    rw [List.flatten_cons, List.forall_mem_append]
    exact ⟨fun diagnostic member => ⟨path, .found (from_path diagnostics rfl diagnostic member)⟩, ih⟩

/-- A run over files adds to a report what linting the files can report. -/
theorem exists_reported (paths : List Path) (report : Report) (linter : Linter) :
    ∃ further, (lintFilesWith parser files paths report linter).report.diagnostics =
        report.diagnostics ++ further ∧
      ∀ diagnostic ∈ further, ∃ path, diagnostic.ReportedAt path := by
  obtain ⟨before, groups, checked, last, linted, ended⟩ := exists_linted parser files paths linter
  refine ⟨groups.flatten, ?_, linted.reportedAt⟩
  rcases ended with rfl | ⟨path, behind, failure, after, rfl, stops⟩
  · rw [linted.run]
    rfl
  · rw [linted.run_of_stops stops]
    rfl

end Linter

/-- The reports that runs over files make of the empty one, whatever parses the files and whatever the
rules and their state are. -/
inductive Report.Produced : Report → Prop where
  | empty : Produced {}
  | linted {report : Report} (before : Produced report) (parser : SourceParser) (files : FileSystem)
      (paths : List Path) (linter : Linter) :
      Produced (Linter.lintFilesWith parser files paths report linter).report

namespace Report

variable {report : Report}

theorem Produced.lintFiles (produced : report.Produced) (files : FileSystem) (paths : List Path)
    (linter : Linter) : (Linter.lintFiles files paths report linter).report.Produced := by
  rw [Linter.lintFiles_eq_lintFilesWith]
  exact .linted produced _ files paths linter

theorem Produced.reportedAt (produced : report.Produced) :
    ∀ diagnostic ∈ report.diagnostics, ∃ path, diagnostic.ReportedAt path := by
  induction produced with
  | empty => exact fun _ impossible => by cases impossible
  | linted _ parser files paths linter ih =>
    obtain ⟨further, diagnostics_eq, reported⟩ := Linter.exists_reported paths _ linter
    rw [diagnostics_eq, List.forall_mem_append]
    exact ⟨ih, reported⟩

end Report

theorem ModuleRule.caller_of_mem_uses {call : Call} {use : Use} (used : use ∈ uses call) :
    use.caller = gettersName ∨ use.caller = actionsName := by
  rw [uses] at used
  split at used
  · split_ifs at used
    · rw [getterUses.eq_def] at used
      split at used
      · obtain rfl := List.mem_singleton.mp used
        exact .inl rfl
      · cases used
    · rw [actionUses.eq_def] at used
      split at used
      · obtain ⟨member, -, taken⟩ := List.mem_filterMap.mp used
        rw [actionUse?.eq_def] at taken
        split at taken
        · obtain ⟨module, -, rfl⟩ := Option.map_eq_some_iff.mp taken
          exact .inr rfl
        · cases taken
      · cases used
    · cases used
  · cases used

namespace Diagnostic

theorem oneLine_render_iff (diagnostic : Diagnostic) :
    diagnostic.render.OneLine ↔
      diagnostic.place.OneLine ∧ diagnostic.message.OneLine ∧ diagnostic.ruleId.OneLine := by
  have severity : (Text.ofString diagnostic.severity.name).OneLine := by
    cases diagnostic.severity <;> decide
  have mark : (Text.ofString ":").OneLine ∧ (Text.ofString "  ").OneLine := by decide
  simp [render, severity, mark]

/-- A diagnostic with nothing in it that could bring a line end along: neither the path of its file
nor a module that it names has one. -/
def Plain (diagnostic : Diagnostic) : Prop :=
  diagnostic.place.OneLine ∧
    ∀ use, diagnostic = ModuleRule.finding diagnostic.filePath use → use.module.OneLine

theorem oneLine_message_finding_iff (path : Option Path) (use : ModuleRule.Use) :
    (ModuleRule.finding path use).message.OneLine ↔
      (Text.ofString use.caller).OneLine ∧ use.module.OneLine := by
  have middle : (Text.ofString ": not allowed to use ").OneLine := by decide
  simp [ModuleRule.finding, middle]

theorem oneLine_message_unparsable {path : Path} {error : SyntaxError}
    (named : error.path = some path.toText) (plain : path.toText.OneLine) :
    (Linter.unparsable (some path) error).message.OneLine := by
  have words : (Text.ofString "Parsing error: ").OneLine ∧
      (Text.ofString "Syntax error in ").OneLine ∧ (Text.ofString ":").OneLine := by
    decide
  have source : (SyntaxError.sourceName error.path).OneLine := by
    rw [named]
    exact plain
  have place : error.place.OneLine := by
    rw [SyntaxError.place]
    split
    · exact source
    · simp [source, words]
  simp [Linter.unparsable, SyntaxError.message, place, words]

theorem oneLine_message_unreadable (path : Path) (error : ReadError) :
    (Linter.unreadable path error).message.OneLine := by
  have words : (Text.ofString "Cannot read file: ").OneLine ∧ (Text.ofString ": ").OneLine := by
    decide
  have reason : error.message.OneLine := by
    cases error with
    | path fault place =>
      have wording : (Text.ofString fault.wording).OneLine := by cases fault <;> decide
      simp [ReadError.message, wording, words]
    | undecodable fault => exact fault.oneLine_message
    | embeddedNull => decide
  simp [Linter.unreadable, words, reason]

theorem ReportedAt.filePath_eq {path : Path} {diagnostic : Diagnostic}
    (reported : diagnostic.ReportedAt path) : diagnostic.filePath = some path := by
  cases reported with
  | found found => exact found.filePath_eq
  | unreadable error => rfl

/-- Nothing but the path of a file and the name of a module brings line ends along. -/
theorem ReportedAt.oneLine_render_iff {path : Path} {diagnostic : Diagnostic}
    (reported : diagnostic.ReportedAt path) : diagnostic.render.OneLine ↔ diagnostic.Plain := by
  have place_eq : diagnostic.place = path.toText := by rw [place, reported.filePath_eq]
  rw [diagnostic.oneLine_render_iff, Plain]
  refine ⟨fun ⟨place, message, _⟩ => ⟨place, fun use same => ?_⟩, fun ⟨place, modules⟩ => ⟨place, ?_⟩⟩
  · rw [same, oneLine_message_finding_iff] at message
    exact message.2
  · rw [place_eq] at place
    cases reported with
    | found found =>
      cases found with
      | damage error named =>
        exact ⟨oneLine_message_unparsable named place, (by decide : Linter.parseErrorRule.OneLine)⟩
      | @misuse call use used =>
        have caller : (Text.ofString use.caller).OneLine := by
          rcases ModuleRule.caller_of_mem_uses used with named | named <;> rw [named] <;> decide
        exact ⟨(oneLine_message_finding_iff _ use).mpr ⟨caller, modules use rfl⟩,
          (by decide : (Text.ofString RuleId.someModule.name).OneLine)⟩
      | emptyCatch found =>
        rw [EmptyCatch.eq_of_mem_findings found]
        exact ⟨(by decide : EmptyCatch.message.OneLine),
          (by decide : (Text.ofString RuleId.emptyCatch.name).OneLine)⟩
    | unreadable error =>
      exact ⟨oneLine_message_unreadable path error, (by decide : Linter.parseErrorRule.OneLine)⟩

end Diagnostic

namespace Report

variable {report : Report}

theorem oneLine_summary (report : Report) : report.summary.OneLine := by
  have words : (Text.ofString " problem in ").OneLine ∧ (Text.ofString " problems in ").OneLine ∧
      (Text.ofString " file(s) checked").OneLine := by
    decide
  rw [summary]
  split <;> simp [words]

/-- The lines of a printed report with diagnostics. -/
theorem splitAt_renderText (some_ : report.diagnostics ≠ []) :
    report.renderText.splitAt Text.newLine =
      ((report.diagnostics.map Diagnostic.render).flatMap fun line => line.splitAt Text.newLine) ++
        [[], report.summary] := by
  have rendered : report.diagnostics.map Diagnostic.render ++ [[], report.summary] ≠ [] := by simp
  have split : Text.splitAt Text.newLine (Text.joinWith "\n" _) = _ :=
    Text.splitAt_joinWith Text.newLine rendered
  rw [renderText, if_neg some_, split, List.flatMap_append]
  simp only [List.flatMap_cons, List.flatMap_nil, Text.splitAt_of_not_mem report.oneLine_summary]
  rfl

/-- The lines of reports. A printed report that linting made has the lines of each diagnostic, an
empty line and the summary, so as many more than there are diagnostics as line ends came along. There
are no more lines than that exactly if each diagnostic has its own, and exactly if neither the path of
a file nor the name of a module in a diagnostic has a line end. -/
theorem renderText_lines (produced : report.Produced) (some_ : report.diagnostics ≠ []) :
    let lines := report.renderText.splitAt Text.newLine
    let count := report.diagnostics.length
    (∀ diagnostic ∈ report.diagnostics, ∃ path, diagnostic.filePath = some path ∧
      diagnostic.render = Text.concat [path.toText, ":", Text.ofInt diagnostic.span.startLine, ":",
        Text.ofInt diagnostic.span.startColumn, "  ", diagnostic.severity.name, "  ",
        diagnostic.message, "  ", diagnostic.ruleId]) ∧
    lines = ((report.diagnostics.map Diagnostic.render).flatMap fun line =>
      line.splitAt Text.newLine) ++ [[], report.summary] ∧
    lines.length =
      count + 2 + (report.diagnostics.map Diagnostic.render).flatten.count Text.newLine ∧
    (lines.length = count + 2 ↔
      lines = report.diagnostics.map Diagnostic.render ++ [[], report.summary]) ∧
    (lines.length = count + 2 ↔ ∀ diagnostic ∈ report.diagnostics, diagnostic.Plain) := by
  intro lines count
  have lines_eq : lines = _ := splitAt_renderText some_
  have length_eq : lines.length =
      count + 2 + (report.diagnostics.map Diagnostic.render).flatten.count Text.newLine := by
    rw [lines_eq, List.length_append, Text.length_flatMap_splitAt, List.length_map]
    exact Nat.add_right_comm _ _ _
  have single_iff : lines.length = count + 2 ↔
      ∀ line ∈ report.diagnostics.map Diagnostic.render, line.OneLine := by
    rw [length_eq, Nat.add_eq_left, List.count_eq_zero, ← Text.concat]
    exact Text.oneLine_concat
  refine ⟨fun diagnostic member => ?_, lines_eq, length_eq, ⟨fun single => ?_, fun same => ?_⟩, ?_⟩
  · obtain ⟨path, reported⟩ := produced.reportedAt diagnostic member
    refine ⟨path, reported.filePath_eq, ?_⟩
    rw [Diagnostic.render, Diagnostic.place, reported.filePath_eq]
    rfl
  · rw [lines_eq, List.flatMap_congr fun line member =>
      Text.splitAt_of_not_mem (single_iff.mp single line member), List.flatMap_singleton']
  · rw [same, List.length_append, List.length_map]
    rfl
  · rw [single_iff, List.forall_mem_map]
    refine forall₂_congr fun diagnostic member => ?_
    obtain ⟨path, reported⟩ := produced.reportedAt diagnostic member
    exact reported.oneLine_render_iff

/-- A misuse in a file and a file that is missing are reported on a line each. -/
theorem renderText_lines_of_missing :
    let source := "mapGetters('a');"
    let files := (FileSystem.empty []).put ["a.js"] (.file source.toUTF8.toList)
    let report := (Linter.lintFiles files [⟨.relative, ["a.js"]⟩, ⟨.relative, ["b.js"]⟩] {}
      ⟨[.emptyCatch, .someModule (.sharing ⟨none, ["a"]⟩)], ⟨{}, []⟩⟩).report
    report.Produced ∧ report.diagnostics ≠ [] ∧
      report.renderText.splitAt Text.newLine = ([
        "a.js:1:12  error  mapGetters: not allowed to use a  disallow-some-module",
        "b.js:1:1  error  Cannot read file: [Errno 2] No such file or directory: 'b.js'  parse-error",
        "", "2 problems in 1 file(s) checked"] : List Text) ∧
      ∀ diagnostic ∈ report.diagnostics, diagnostic.Plain := by
  intro source files report
  have first : SourceFile.load files ⟨.relative, ["a.js"]⟩ =
      .ok ⟨⟨.relative, ["a.js"]⟩, source.toList⟩ :=
    SourceFile.load_of_file (by simp [FileSystem.hasNull]) rfl (Utf8.decode_encode source)
      (by decide +kernel)
  have second : SourceFile.load files ⟨.relative, ["b.js"]⟩ =
      .error (.path .notFound ⟨.relative, ["b.js"]⟩) :=
    SourceFile.load_of_fault (by simp [FileSystem.hasNull]) rfl
  have lints : (Linter.lintTree files (some ⟨.relative, ["a.js"]⟩) (Script.parse source.toList)
      ⟨[.emptyCatch, .someModule (.sharing ⟨none, ["a"]⟩)], ⟨{}, []⟩⟩).result = .ok [
        { ruleId := "disallow-some-module"
          message := "mapGetters: not allowed to use a"
          span := ⟨1, 12, 1, 15, 11, 14⟩
          nodeKind := "string"
          filePath := some ⟨.relative, ["a.js"]⟩ }] := by
    decide +kernel
  have linted : Linter.Linted Script.parse files _
      [⟨.relative, ["a.js"]⟩, ⟨.relative, ["b.js"]⟩] _ 1 _ :=
    .checked first (Linter.Answer.eq_mk lints) (.unreadable second (by decide) (.nil _))
  have report_eq : report = _ :=
    congrArg Linter.Progress.report ((Linter.lintFiles_eq_lintFilesWith _ _ _ _).trans (linted.run {}))
  have produced : report.Produced := Produced.empty.lintFiles files _ _
  have some_ : report.diagnostics ≠ [] := by
    rw [report_eq]
    exact List.cons_ne_nil _ _
  obtain ⟨-, -, length_eq, lines_iff, plain_iff⟩ := renderText_lines produced some_
  have single : (report.renderText.splitAt Text.newLine).length = report.diagnostics.length + 2 := by
    rw [length_eq, Nat.add_eq_left, report_eq]
    decide +kernel
  refine ⟨produced, some_, (lines_iff.mp single).trans ?_, plain_iff.mp single⟩
  rw [report_eq]
  decide +kernel

/-- The name of a module with a line end in it, which is a valid name to forbid: of the single
diagnostic in `a.js` there are two lines, and the second one reads as a diagnostic in `b.js`. -/
theorem renderText_of_forged_line :
    let module : Text :=
      "x  disallow-some-module\nb.js:1:1  error  mapGetters: not allowed to use y"
    let source :=
      "mapGetters('x  disallow-some-module\\nb.js:1:1  error  mapGetters: not allowed to use y');"
    let files := (FileSystem.empty []).put ["a.js"] (.file source.toUTF8.toList)
    let report := (Linter.lintFiles files [⟨.relative, ["a.js"]⟩] {}
      ⟨[.someModule (.sharing ⟨none, [module]⟩)], ⟨{}, []⟩⟩).report
    ModuleOptions.ofNames none [module] = (.ok ⟨none, [module]⟩, []) ∧
      report.diagnostics.map Diagnostic.filePath = [some ⟨.relative, ["a.js"]⟩] ∧
      report.renderText.splitAt Text.newLine = ([
        "a.js:1:12  error  mapGetters: not allowed to use x  disallow-some-module",
        "b.js:1:1  error  mapGetters: not allowed to use y  disallow-some-module",
        "", "1 problem in 1 file(s) checked"] : List Text) := by
  intro module source files report
  have loaded : SourceFile.load files ⟨.relative, ["a.js"]⟩ =
      .ok ⟨⟨.relative, ["a.js"]⟩, source.toList⟩ :=
    SourceFile.load_of_file (by simp [FileSystem.hasNull]) rfl (Utf8.decode_encode source)
      (by decide +kernel)
  have lints : (Linter.lintTree files (some ⟨.relative, ["a.js"]⟩) (Script.parse source.toList)
      ⟨[.someModule (.sharing ⟨none, [module]⟩)], ⟨{}, []⟩⟩).result = .ok [
        { ruleId := "disallow-some-module"
          message := Text.concat ["mapGetters: not allowed to use ", module]
          span := ⟨1, 12, 1, 88, 11, 87⟩
          nodeKind := "string"
          filePath := some ⟨.relative, ["a.js"]⟩ }] := by
    decide +kernel
  have linted : Linter.Linted Script.parse files _ [⟨.relative, ["a.js"]⟩] _ 1 _ :=
    .checked loaded (Linter.Answer.eq_mk lints) (.nil _)
  have report_eq : report = _ :=
    congrArg Linter.Progress.report ((Linter.lintFiles_eq_lintFilesWith _ _ _ _).trans (linted.run {}))
  refine ⟨by decide +kernel, ?_, ?_⟩
  · rw [report_eq]
    rfl
  · rw [report_eq]
    decide +kernel

end Report

end ModuleFence
