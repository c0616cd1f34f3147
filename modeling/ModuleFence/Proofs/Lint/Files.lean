import Mathlib.Data.List.Forall2
import ModuleFence.Lint.Files
import ModuleFence.Proofs.FileSystem.Reading
import ModuleFence.Proofs.Lint.Origin

set_option autoImplicit false

namespace ModuleFence

namespace SourceFile

/-- A source is loaded with what is linted of the text of its file. -/
theorem load_of_file {files : FileSystem} {path : Path} {location : Location} {bytes : List UInt8}
    {characters source : List Char} (allowed : FileSystem.hasNull path = false)
    (found : files.locate path = .ok (location, .file bytes))
    (decoded : Utf8.decode bytes = .ok characters)
    (kept : content path (Lines.normalize characters) = source) :
    load files path = .ok ⟨path, source⟩ := by
  rw [load, FileSystem.readText_of_file allowed found decoded, ← kept]
  rfl

theorem load_of_fault {files : FileSystem} {path : Path} {fault : PathFault}
    (allowed : FileSystem.hasNull path = false) (lost : files.locate path = .error fault) :
    load files path = .error (.path fault path) := by
  rw [load, FileSystem.readText_of_fault allowed lost]
  rfl

end SourceFile

namespace Linter

/-- Goes on with a report and a linter, unless a failure has ended their growth. -/
def Progress.andThen (progress : Progress) (next : Report → Linter → Progress) : Progress :=
  match progress.failure with
  | some _ => progress
  | none => next progress.report progress.linter

def lintFileWith (parser : SourceParser) (files : FileSystem) (path : Path) (report : Report)
    (linter : Linter) : Progress :=
  match SourceFile.load files path with
  | .error error =>
    if error.isExpected then
      ⟨none, report.extend [unreadable path error], linter.log [unreadableRecord path error]⟩
    else ⟨some (.read error), report, linter⟩
  | .ok source =>
    let answer := lintTree files (some path) (parser source.characters) linter
    match answer.result with
    | .error failure => ⟨some failure, report, answer.linter⟩
    | .ok diagnostics => ⟨none, report.addFile diagnostics, answer.linter⟩

/-- Lints files into a report, in order, by the trees that a parser gives to their sources. -/
def lintFilesWith (parser : SourceParser) (files : FileSystem) :
    List Path → Report → Linter → Progress
  | [], report, linter => ⟨none, report, linter⟩
  | path :: rest, report, linter =>
    (lintFileWith parser files path report linter).andThen (lintFilesWith parser files rest)

/-- Files are linted by the trees of scripts. -/
theorem lintFiles_eq_lintFilesWith (files : FileSystem) (paths : List Path) (report : Report)
    (linter : Linter) :
    lintFiles files paths report linter = lintFilesWith Script.parse files paths report linter := by
  induction paths generalizing report linter with
  | nil => rfl
  | cons path rest ih =>
    have here : lintFile files path report linter =
        lintFileWith Script.parse files path report linter := rfl
    rw [lintFiles, lintFilesWith, Progress.andThen, here]
    cases (lintFileWith Script.parse files path report linter).failure with
    | some failure => rfl
    | none => exact ih _ _

theorem Progress.andThen_assoc (progress : Progress) (first second : Report → Linter → Progress) :
    (progress.andThen first).andThen second =
      progress.andThen fun report linter => (first report linter).andThen second := by
  simp only [andThen]
  cases failed : progress.failure with
  | some failure => simp only [failed]
  | none => rfl

variable {parser : SourceParser} {files : FileSystem}

/-- Linting some paths and then others is linting them in one go. -/
theorem lintFilesWith_append (first second : List Path) (report : Report) (linter : Linter) :
    lintFilesWith parser files (first ++ second) report linter =
      (lintFilesWith parser files first report linter).andThen
        (lintFilesWith parser files second) := by
  induction first generalizing report linter with
  | nil => rfl
  | cons path rest ih =>
    rw [List.cons_append, lintFilesWith, lintFilesWith, Progress.andThen_assoc]
    exact congrArg _ (funext fun report => funext fun linter => ih report linter)

/-- How some paths are linted, each in the state that those before it leave: an unreadable one adds
a single diagnostic that says so, and any other one what linting its source finds. -/
inductive Linted (parser : SourceParser) (files : FileSystem) :
    Linter → List Path → List (List Diagnostic) → Nat → Linter → Prop where
  | nil (linter : Linter) : Linted parser files linter [] [] 0 linter
  | unreadable {linter last : Linter} {path : Path} {rest : List Path} {error : ReadError}
      {groups : List (List Diagnostic)} {checked : Nat}
      (unread : SourceFile.load files path = .error error) (expected : error ≠ .embeddedNull)
      (others : Linted parser files (linter.log [unreadableRecord path error]) rest groups checked
        last) :
      Linted parser files linter (path :: rest)
        ([{ ruleId := "parse-error"
            message := Text.concat ["Cannot read file: ", error.message]
            span := ⟨1, 1, 1, 1, 0, 0⟩
            nodeKind := "file"
            filePath := some path }] :: groups) checked last
  | checked {linter next last : Linter} {path : Path} {rest : List Path} {source : SourceFile}
      {diagnostics : List Diagnostic} {groups : List (List Diagnostic)} {checked : Nat}
      (loaded : SourceFile.load files path = .ok source)
      (linted : lintTree files (some path) (parser source.characters) linter =
        ⟨.ok diagnostics, next⟩)
      (others : Linted parser files next rest groups checked last) :
      Linted parser files linter (path :: rest) (diagnostics :: groups) (checked + 1) last

/-- What ends a run at a path: the path cannot be handed to the file system, or linting its source
fails. -/
inductive Stops (parser : SourceParser) (files : FileSystem) (linter : Linter) (path : Path) :
    Failure → Linter → Prop where
  | refused (null : SourceFile.load files path = .error .embeddedNull) :
      Stops parser files linter path (.read .embeddedNull) linter
  | failed {source : SourceFile} {failure : Failure} {last : Linter}
      (loaded : SourceFile.load files path = .ok source)
      (ended : lintTree files (some path) (parser source.characters) linter =
        ⟨.error failure, last⟩) : Stops parser files linter path failure last

/-- A path is either linted, or ends the run. -/
theorem linted_or_stops (parser : SourceParser) (files : FileSystem) (path : Path)
    (linter : Linter) :
    (∃ group checked last, Linted parser files linter [path] [group] checked last) ∨
      ∃ failure last, Stops parser files linter path failure last := by
  cases loaded : SourceFile.load files path with
  | error error =>
    by_cases refused : error = .embeddedNull
    · subst refused
      exact .inr ⟨_, linter, .refused loaded⟩
    · exact .inl ⟨_, 0, _, .unreadable loaded refused (.nil _)⟩
  | ok source =>
    cases linted : lintTree files (some path) (parser source.characters) linter with
    | mk result last =>
      cases result with
      | error failure => exact .inr ⟨failure, last, .failed loaded linted⟩
      | ok diagnostics => exact .inl ⟨diagnostics, 1, last, .checked loaded linted (.nil last)⟩

theorem Linted.append {start middle last : Linter} {first second : List Path}
    {groups others : List (List Diagnostic)} {checked further : Nat}
    (here : Linted parser files start first groups checked middle)
    (behind : Linted parser files middle second others further last) :
    Linted parser files start (first ++ second) (groups ++ others) (checked + further) last := by
  induction here with
  | nil linter =>
    rw [Nat.zero_add]
    exact behind
  | unreadable unread expected _ ih => exact .unreadable unread expected (ih behind)
  | checked loaded linted _ ih =>
    rw [Nat.add_right_comm]
    exact .checked loaded linted (ih behind)

/-- A report with groups of diagnostics and a number of checked files added to it. -/
def grown (report : Report) (groups : List (List Diagnostic)) (checked : Nat) : Report :=
  ⟨report.diagnostics ++ groups.flatten, report.filesChecked + checked⟩

theorem grown_extend (report : Report) (group : List Diagnostic) (groups : List (List Diagnostic))
    (checked : Nat) : grown (report.extend group) groups checked =
      grown report (group :: groups) checked := by
  rw [grown, grown, Report.extend, List.flatten_cons, List.append_assoc]

theorem grown_addFile (report : Report) (group : List Diagnostic)
    (groups : List (List Diagnostic)) (checked : Nat) :
    grown (report.addFile group) groups checked = grown report (group :: groups) (checked + 1) := by
  rw [grown, grown, Report.addFile, Report.extend, List.flatten_cons, List.append_assoc,
    Report.mk.injEq]
  refine ⟨rfl, ?_⟩
  change report.filesChecked + 1 + (checked : Int) =
    report.filesChecked + ((checked + 1 : Nat) : Int)
  omega

/-- A run over paths that can all be linted adds their groups to the report. -/
theorem Linted.run {start last : Linter} {paths : List Path} {groups : List (List Diagnostic)}
    {checked : Nat} (linted : Linted parser files start paths groups checked last)
    (report : Report) :
    lintFilesWith parser files paths report start = ⟨none, grown report groups checked, last⟩ := by
  induction linted generalizing report with
  | nil linter => simp [lintFilesWith, grown]
  | unreadable unread expected _ ih =>
    rw [lintFilesWith, lintFileWith, unread]
    simp only [if_pos ((ReadError.isExpected_iff _).mpr expected), Progress.andThen, ih,
      grown_extend]
    rfl
  | checked loaded ended _ ih =>
    rw [lintFilesWith, lintFileWith, loaded]
    simp only [ended, Progress.andThen, ih, grown_addFile]

/-- A path that ends a run leaves the report as it was. -/
theorem Stops.run {linter last : Linter} {path : Path} {failure : Failure}
    (stops : Stops parser files linter path failure last) (report : Report) :
    lintFileWith parser files path report linter = ⟨some failure, report, last⟩ := by
  cases stops with
  | refused null =>
    rw [lintFileWith, null]
    rfl
  | failed loaded ended =>
    rw [lintFileWith, loaded]
    simp only [ended]

/-- A run over paths that can be linted up to one that ends it. -/
theorem Linted.run_of_stops {start middle last : Linter} {before : List Path}
    {groups : List (List Diagnostic)} {checked : Nat} {path : Path} {failure : Failure}
    (linted : Linted parser files start before groups checked middle)
    (stops : Stops parser files middle path failure last) (behind : List Path) (report : Report) :
    lintFilesWith parser files (before ++ path :: behind) report start =
      ⟨some failure, grown report groups checked, last⟩ := by
  rw [lintFilesWith_append, linted.run, Progress.andThen, lintFilesWith, stops.run]
  rfl

/-- A run goes through its paths until all are linted or one ends it. -/
theorem exists_linted (parser : SourceParser) (files : FileSystem) (paths : List Path)
    (linter : Linter) :
    ∃ before groups checked last, Linted parser files linter before groups checked last ∧
      (paths = before ∨ ∃ path behind failure after, paths = before ++ path :: behind ∧
        Stops parser files last path failure after) := by
  induction paths generalizing linter with
  | nil => exact ⟨[], [], 0, linter, .nil linter, .inl rfl⟩
  | cons path rest ih =>
    rcases linted_or_stops parser files path linter with
      ⟨group, checked, next, here⟩ | ⟨failure, after, stops⟩
    · obtain ⟨before, groups, further, last, later, ended⟩ := ih next
      refine ⟨path :: before, group :: groups, checked + further, last, here.append later, ?_⟩
      rcases ended with rfl | ⟨other, behind, failure, after, rfl, stops⟩
      · exact .inl rfl
      · exact .inr ⟨other, behind, failure, after, rfl, stops⟩
    · exact ⟨[], [], 0, linter, .nil linter, .inr ⟨path, rest, failure, after, rfl, stops⟩⟩

/-- Each group of diagnostics carries the path that it was found for. -/
theorem Linted.forall₂_filePath {start last : Linter} {paths : List Path}
    {groups : List (List Diagnostic)} {checked : Nat}
    (linted : Linted parser files start paths groups checked last) :
    List.Forall₂ (fun path group => ∀ diagnostic ∈ group, diagnostic.filePath = some path)
      paths groups := by
  induction linted with
  | nil linter => exact .nil
  | unreadable unread expected _ ih =>
    refine .cons (fun diagnostic member => ?_) ih
    obtain rfl := List.mem_singleton.mp member
    rfl
  | @checked linter _ _ path _ source diagnostics _ _ _ linted _ ih =>
    have from_path := allFrom_lintTree files (some path) (parser source.characters) linter
    rw [linted] at from_path
    refine .cons (fun diagnostic member => ?_) ih
    exact (from_path diagnostics rfl diagnostic member).filePath_eq

/-- A run over files accounts for each path: up to the one that ends it, if one does, every path
adds its group of diagnostics, in order, and a path that is read adds to the number of files. The
path that ends a run adds nothing. Linting some paths and then others is linting them in one go. -/
theorem lintFiles_accounts (parser : SourceParser) (files : FileSystem) (paths : List Path)
    (report : Report) (linter : Linter) :
    let progress := lintFilesWith parser files paths report linter
    (∃ before groups checked last, Linted parser files linter before groups checked last ∧
      List.Forall₂ (fun path group => ∀ diagnostic ∈ group, diagnostic.filePath = some path)
        before groups ∧
      progress.report =
        ⟨report.diagnostics ++ groups.flatten, report.filesChecked + checked⟩ ∧
      progress.report = (lintFilesWith parser files before report linter).report ∧
      (progress.failure = none → paths = before ∧ progress.linter = last) ∧
      (∀ failure, progress.failure = some failure → ∃ path behind,
        paths = before ++ path :: behind ∧
          Stops parser files last path failure progress.linter)) ∧
    (∀ before path behind groups checked middle failure last,
      paths = before ++ path :: behind → Linted parser files linter before groups checked middle →
      Stops parser files middle path failure last →
      progress = ⟨some failure, (lintFilesWith parser files before report linter).report, last⟩) ∧
    (∀ first second, paths = first ++ second →
      let middle := lintFilesWith parser files first report linter
      (middle.failure = none →
        progress = lintFilesWith parser files second middle.report middle.linter) ∧
      (middle.failure ≠ none → progress = middle)) ∧
    lintFiles files paths report linter = lintFilesWith Script.parse files paths report linter := by
  intro progress
  refine ⟨?_, ?_, ?_, lintFiles_eq_lintFilesWith files paths report linter⟩
  · obtain ⟨before, groups, checked, last, linted, ended⟩ :=
      exists_linted parser files paths linter
    refine ⟨before, groups, checked, last, linted, linted.forall₂_filePath, ?_⟩
    rcases ended with rfl | ⟨path, behind, failure, after, rfl, stops⟩
    · have progress_eq : progress = ⟨none, grown report groups checked, last⟩ := linted.run report
      rw [progress_eq, linted.run]
      exact ⟨rfl, rfl, fun _ => ⟨rfl, rfl⟩, fun _ impossible => by cases impossible⟩
    · have progress_eq : progress = ⟨some failure, grown report groups checked, after⟩ :=
        linted.run_of_stops stops behind report
      rw [progress_eq, linted.run]
      refine ⟨rfl, rfl, fun impossible => (by cases impossible), ?_⟩
      rintro _ ⟨rfl⟩
      exact ⟨path, behind, rfl, stops⟩
  · rintro before path behind groups checked middle failure last rfl linted stops
    rw [linted.run]
    exact linted.run_of_stops stops behind report
  · rintro first second rfl middle
    have progress_eq : progress = middle.andThen (lintFilesWith parser files second) :=
      lintFilesWith_append first second report linter
    rw [progress_eq, Progress.andThen]
    refine ⟨fun complete => by rw [complete], fun failed => ?_⟩
    obtain ⟨failure, ended⟩ := Option.ne_none_iff_exists'.mp failed
    rw [ended]

theorem Answer.eq_mk {α : Type} {answer : Answer α} {result : Except Failure α}
    (ended : answer.result = result) : answer = ⟨result, answer.linter⟩ := by
  cases ended
  rfl

/-- A missing file, and one in which an empty catch clause stands before a getter whose store is
known to be unusable: the report holds the missing file alone. -/
theorem lintFiles_accounts_of_refused :
    let source := "try { } catch (e) { } mapGetters('a');"
    let files := (FileSystem.empty []).put ["b.js"] (.file source.toUTF8.toList)
    let linter : Linter :=
      ⟨[.emptyCatch, .someModule (.sharing ⟨some ⟨.relative, ["s"]⟩, []⟩)],
        ⟨⟨.closed, some ⟨.relative, ["s"]⟩, some (.error ⟨"s", "missing"⟩), some .readError,
          Script.parse⟩, []⟩⟩
    ∃ last, lintFilesWith Script.parse files
        [⟨.relative, ["a.js"]⟩, ⟨.relative, ["b.js"]⟩, ⟨.relative, ["a.js"]⟩] {} linter =
      ⟨some (.store ⟨"s", "missing"⟩),
        (lintFilesWith Script.parse files [⟨.relative, ["a.js"]⟩] {} linter).report, last⟩ := by
  intro source files linter
  have missing : SourceFile.load files ⟨.relative, ["a.js"]⟩ =
      .error (.path .notFound ⟨.relative, ["a.js"]⟩) :=
    SourceFile.load_of_fault (by simp [FileSystem.hasNull]) rfl
  have decoded : Utf8.decode source.toUTF8.toList = .ok source.toList := by decide +kernel
  have loaded : SourceFile.load files ⟨.relative, ["b.js"]⟩ =
      .ok ⟨⟨.relative, ["b.js"]⟩, source.toList⟩ :=
    SourceFile.load_of_file (by simp [FileSystem.hasNull]) rfl decoded (by decide +kernel)
  let middle := linter.log
    [unreadableRecord ⟨.relative, ["a.js"]⟩ (.path .notFound ⟨.relative, ["a.js"]⟩)]
  have refused : (lintTree files (some ⟨.relative, ["b.js"]⟩) (Script.parse source.toList)
      middle).result = .error (.store ⟨"s", "missing"⟩) := by
    decide +kernel
  have linted : Linted Script.parse files linter [⟨.relative, ["a.js"]⟩] _ 0 middle :=
    .unreadable missing (by decide) (.nil middle)
  have accounts := lintFiles_accounts Script.parse files
    [⟨.relative, ["a.js"]⟩, ⟨.relative, ["b.js"]⟩, ⟨.relative, ["a.js"]⟩] {} linter
  exact ⟨_, accounts.2.1 _ _ _ _ _ _ _ _ rfl linted (.failed loaded (Answer.eq_mk refused))⟩

end Linter

end ModuleFence
