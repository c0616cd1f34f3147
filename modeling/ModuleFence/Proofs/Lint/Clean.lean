import ModuleFence.Proofs.Lint.Files
import ModuleFence.Proofs.Lint.Independence

set_option autoImplicit false

namespace ModuleFence

/-- A diagnostic that a rule has made. -/
def Diagnostic.IsOfRule (diagnostic : Diagnostic) : Prop :=
  ∃ id : RuleId, diagnostic.ruleId = Text.ofString id.name

theorem Node.isOfRule_of_mem_findings {path : Option Path} {ids : List RuleId} {names : List Text}
    {root : Node} {diagnostic : Diagnostic} (found : diagnostic ∈ root.findings path ids names) :
    diagnostic.IsOfRule := by
  obtain ⟨node, -, onNode⟩ := List.mem_flatMap.mp found
  obtain ⟨id, -, byRule⟩ := List.mem_flatMap.mp onNode
  exact ⟨id, ruleId_of_mem_findingsOf byRule⟩

namespace Linter

variable {options : ModuleOptions} {ids : List RuleId} {parser : SourceParser} {files : FileSystem}

/-- A file that is read, and whose source parses without damage. -/
def ReadsAndParses (parser : SourceParser) (files : FileSystem) (path : Path) : Prop :=
  ∃ source, SourceFile.load files path = .ok source ∧
    (parser source.characters).label.hasError = false

theorem Linted.readsAndParses {start last : Linter} {paths : List Path}
    {groups : List (List Diagnostic)} {checked : Nat}
    (linted : Linted parser files start paths groups checked last)
    (clean : groups.flatten = []) : ∀ path ∈ paths, ReadsAndParses parser files path := by
  induction linted with
  | nil linter => exact fun _ impossible => absurd impossible List.not_mem_nil
  | unreadable unread expected _ _ => cases clean
  | @checked linter _ _ path _ source diagnostics _ _ loaded ended _ ih =>
    rw [List.flatten_cons, List.append_eq_nil_iff] at clean
    refine List.forall_mem_cons.mpr ⟨⟨source, loaded, ?_⟩, ih clean.2⟩
    cases damaged : (parser source.characters).label.hasError with
    | false => rfl
    | true =>
      have success : (lintTree files (some path) (parser source.characters) linter).result =
          .ok diagnostics := by
        rw [ended]
      obtain ⟨error, reported⟩ := diagnostics_of_damaged success damaged
      rw [clean.1] at reported
      cases reported

/-- In a run over files, each file that is read is linted with rules that agree with the resolver. -/
theorem Linted.forall₂_of_coherent {start last : Linter} {paths : List Path}
    {groups : List (List Diagnostic)} {checked : Nat}
    (linted : Linted parser files start paths groups checked last)
    (coherent : start.Coherent options ids) :
    List.Forall₂ (fun path group => ∀ source, SourceFile.load files path = .ok source →
      ∃ linter, linter.Coherent options ids ∧
        (lintTree files (some path) (parser source.characters) linter).result = .ok group)
      paths groups := by
  induction linted with
  | nil linter => exact .nil
  | unreadable unread _ _ ih =>
    refine .cons (fun source loaded => ?_) (ih ⟨coherent.ids_eq, coherent.rules⟩)
    rw [unread] at loaded
    cases loaded
  | @checked linter next _ path _ source diagnostics _ _ loaded ended _ ih =>
    have success : (lintTree files (some path) (parser source.characters) linter).result =
        .ok diagnostics := by
      rw [ended]
    obtain ⟨-, after⟩ := coherent.lintTree files (some path) (callsLegible_of_lintTree success)
    rw [ended] at after
    refine .cons (fun other also => ?_) (ih after)
    rw [loaded] at also
    cases also
    exact ⟨linter, coherent, success⟩

/-- Where all files can be read and parse, every diagnostic is made by a rule. -/
theorem Linted.isOfRule {start last : Linter} {paths : List Path} {groups : List (List Diagnostic)}
    {checked : Nat} (linted : Linted parser files start paths groups checked last)
    (coherent : start.Coherent options ids)
    (intact : ∀ path ∈ paths, ReadsAndParses parser files path) :
    ∀ diagnostic ∈ groups.flatten, diagnostic.IsOfRule := by
  have each := linted.forall₂_of_coherent coherent
  clear linted
  induction each with
  | nil => exact fun _ impossible => absurd impossible List.not_mem_nil
  | cons here _ ih =>
    obtain ⟨⟨source, loaded, whole⟩, rest⟩ := List.forall_mem_cons.mp intact
    obtain ⟨linter, agreeing, success⟩ := here source loaded
    intro diagnostic member
    rw [List.flatten_cons, List.mem_append] at member
    rcases member with found | later
    · rw [agreeing.eq_findings success whole] at found
      exact Node.isOfRule_of_mem_findings found
    · exact ih rest diagnostic later

/-- A run over files that ends without a failure has no diagnostics exactly if every file was read and
parsed, and no rule made a diagnostic. -/
theorem Coherent.clean_iff {linter : Linter} (coherent : linter.Coherent options ids)
    {paths : List Path} (completed : (lintFiles files paths {} linter).failure = none) :
    (lintFiles files paths {} linter).report.diagnostics = [] ↔
      (∀ path ∈ paths, ReadsAndParses Script.parse files path) ∧
        ∀ diagnostic ∈ (lintFiles files paths {} linter).report.diagnostics,
          ¬ diagnostic.IsOfRule := by
  rw [lintFiles_eq_lintFilesWith] at completed ⊢
  obtain ⟨before, groups, checked, last, linted, ended⟩ :=
    exists_linted Script.parse files paths linter
  rcases ended with rfl | ⟨path, behind, failure, after, rfl, stops⟩
  · rw [linted.run]
    change [] ++ groups.flatten = [] ↔ _ ∧ ∀ diagnostic ∈ [] ++ groups.flatten, _
    rw [List.nil_append]
    constructor
    · intro clean
      refine ⟨linted.readsAndParses clean, fun diagnostic member => ?_⟩
      rw [clean] at member
      exact absurd member List.not_mem_nil
    · rintro ⟨intact, silent⟩
      have made := linted.isOfRule coherent intact
      exact List.eq_nil_iff_forall_not_mem.mpr fun diagnostic member =>
        silent diagnostic member (made diagnostic member)
  · rw [linted.run_of_stops stops] at completed
    cases completed

end Linter

end ModuleFence
