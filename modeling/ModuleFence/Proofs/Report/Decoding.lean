import ModuleFence.Proofs.FileSystem.Spelling
import ModuleFence.Proofs.Json.RoundTrip
import ModuleFence.Proofs.Success
import ModuleFence.Report.Render

set_option autoImplicit false

namespace ModuleFence

theorem Severity.name_injective {severity other : Severity} (same : severity.name = other.name) :
    severity = other := by
  cases severity <;> cases other <;> first | rfl | exact absurd same (by decide)

/-- A range without its offsets in the source. -/
def Span.withoutOffsets (span : Span) : Span :=
  { span with startByte := 0, endByte := 0 }

namespace Diagnostic

/-- A finding without the offsets of its range. -/
def withoutOffsets (diagnostic : Diagnostic) : Diagnostic :=
  { diagnostic with span := diagnostic.span.withoutOffsets }

/-- The integers that are printed of a finding. -/
def numbers (diagnostic : Diagnostic) : List Int :=
  [diagnostic.span.startLine, diagnostic.span.startColumn, diagnostic.span.endLine,
    diagnostic.span.endColumn]

theorem plain_toJson {limits : Json.Limits} (deep : limits.Admits 1) (diagnostic : Diagnostic)
    (allowed : ∀ number ∈ diagnostic.numbers, limits.Allows number) :
    Json.Plain limits diagnostic.toJson := by
  obtain ⟨startLine, startColumn, endLine, endColumn⟩ : _ ∧ _ ∧ _ ∧ _ := by
    simpa only [numbers, List.forall_mem_cons, List.not_mem_nil, IsEmpty.forall_iff, implies_true,
      and_true] using allowed
  apply Json.Plain.object _ (Json.Limits.enter_of_admits deep "object").1
  simp only [List.forall_mem_cons]
  refine ⟨?_, .string _, .string _, .string _, .string _, .integer _ startLine,
    .integer _ startColumn, .integer _ endLine, .integer _ endColumn,
    fun member absent => absurd absent List.not_mem_nil⟩
  cases diagnostic.filePath with
  | none => exact .null
  | some path => exact .string _

/-- What is printed of a finding is all of it, but for the offsets of its range. -/
theorem withoutOffsets_eq_of_toJson {diagnostic other : Diagnostic}
    (normal : ∀ path ∈ diagnostic.filePath, path.IsNormal)
    (too : ∀ path ∈ other.filePath, path.IsNormal) (same : diagnostic.toJson = other.toJson) :
    diagnostic.withoutOffsets = other.withoutOffsets := by
  obtain ⟨ruleId, message, span, nodeKind, filePath, severity⟩ := diagnostic
  obtain ⟨ruleId', message', span', nodeKind', filePath', severity'⟩ := other
  simp only [toJson, Json.object.injEq, List.cons.injEq, Prod.mk.injEq, true_and,
    Json.string.injEq, Json.integer.injEq, and_true] at same
  obtain ⟨paths, rfl, severities, rfl, rfl, startLine, startColumn, endLine, endColumn⟩ := same
  have sameSeverity := Severity.name_injective (Text.ofString_injective severities)
  have samePath : filePath = filePath' := by
    cases filePath with
    | none =>
      cases filePath' with
      | none => rfl
      | some path => simp only [reduceCtorEq] at paths
    | some path =>
      cases filePath' with
      | none => simp only [reduceCtorEq] at paths
      | some path' =>
        rw [Path.toText_injective (normal path rfl) (too path' rfl) (Json.string.inj paths)]
  simp only [withoutOffsets, Span.withoutOffsets, startLine, startColumn, endLine, endColumn,
    samePath, sameSeverity]

end Diagnostic

namespace Report

/-- A report without the offsets of its ranges. -/
def withoutOffsets (report : Report) : Report :=
  { report with diagnostics := report.diagnostics.map Diagnostic.withoutOffsets }

/-- The integers that are printed of a report. -/
def numbers (report : Report) : List Int :=
  report.filesChecked :: (report.diagnostics.length : Int) ::
    report.diagnostics.flatMap Diagnostic.numbers

theorem forall_mem_numbers_iff {report : Report} {holds : Int → Prop} :
    (∀ number ∈ report.numbers, holds number) ↔
      holds report.filesChecked ∧ holds report.diagnostics.length ∧
        ∀ diagnostic ∈ report.diagnostics, ∀ number ∈ diagnostic.numbers, holds number := by
  rw [numbers, List.forall_mem_cons, List.forall_mem_cons, List.forall_mem_flatMap]

/-- A report is plain where brackets can be nested three deep and its integers are allowed. -/
theorem plain_toJson {limits : Json.Limits} (deep : limits.Admits 3) {report : Report}
    (allowed : ∀ number ∈ report.numbers, limits.Allows number) :
    Json.Plain limits report.toJson := by
  obtain ⟨files, count, each⟩ := forall_mem_numbers_iff.mp allowed
  obtain ⟨enters, deeper⟩ := Json.Limits.enter_of_admits deep "object"
  obtain ⟨entersList, deepest⟩ := Json.Limits.enter_of_admits deeper "array"
  have items : ∀ item ∈ report.diagnostics.map Diagnostic.toJson,
      Json.Plain limits.inside.inside item := by
    intro item member
    obtain ⟨diagnostic, inside, rfl⟩ := List.mem_map.mp member
    exact Diagnostic.plain_toJson deepest diagnostic (each diagnostic inside)
  apply Json.Plain.object _ enters
  simp only [List.forall_mem_cons]
  exact ⟨.string _, .string _, .integer _ files, .integer _ count, .array _ entersList items,
    fun member absent => absurd absent List.not_mem_nil⟩

/-- Reports whose files are named by paths as they are read. -/
def HasNormalPaths (report : Report) : Prop :=
  ∀ diagnostic ∈ report.diagnostics, ∀ path ∈ diagnostic.filePath, path.IsNormal

theorem map_withoutOffsets_eq {diagnostics others : List Diagnostic}
    (normal : ∀ diagnostic ∈ diagnostics, ∀ path ∈ diagnostic.filePath, path.IsNormal)
    (too : ∀ diagnostic ∈ others, ∀ path ∈ diagnostic.filePath, path.IsNormal)
    (same : diagnostics.map Diagnostic.toJson = others.map Diagnostic.toJson) :
    diagnostics.map Diagnostic.withoutOffsets = others.map Diagnostic.withoutOffsets := by
  induction diagnostics generalizing others with
  | nil =>
    rw [List.map_nil, eq_comm, List.map_eq_nil_iff] at same
    rw [same]
  | cons diagnostic diagnostics ih =>
    cases others with
    | nil => exact absurd same (List.cons_ne_nil _ _)
    | cons other others =>
      rw [List.forall_mem_cons] at normal too
      rw [List.map_cons, List.map_cons, List.cons.injEq] at same
      rw [List.map_cons, List.map_cons, ih normal.2 too.2 same.2,
        Diagnostic.withoutOffsets_eq_of_toJson normal.1 too.1 same.1]

theorem withoutOffsets_eq_of_toJson {report other : Report} (normal : report.HasNormalPaths)
    (too : other.HasNormalPaths) (same : report.toJson = other.toJson) :
    report.withoutOffsets = other.withoutOffsets := by
  obtain ⟨diagnostics, filesChecked⟩ := report
  obtain ⟨diagnostics', filesChecked'⟩ := other
  simp only [toJson, Json.object.injEq, List.cons.injEq, Prod.mk.injEq, true_and,
    Json.integer.injEq, Json.array.injEq, and_true] at same
  obtain ⟨rfl, -, items⟩ := same
  rw [withoutOffsets, withoutOffsets, map_withoutOffsets_eq normal too items]

end Report

end ModuleFence
