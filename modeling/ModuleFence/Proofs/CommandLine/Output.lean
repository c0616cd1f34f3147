import ModuleFence.CommandLine.Run
import ModuleFence.Proofs.Report.Decoding

set_option autoImplicit false

namespace ModuleFence

namespace Report

theorem renderText_eq_nil_iff (report : Report) :
    report.renderText = [] ↔ report.diagnostics = [] := by
  rw [renderText]
  by_cases clean : report.diagnostics = []
  · rw [if_pos clean]
    exact iff_of_true rfl clean
  · rw [if_neg clean]
    refine iff_of_false ?_ clean
    obtain ⟨diagnostic, others, found⟩ := List.exists_cons_of_ne_nil clean
    rw [found, List.map_cons, List.cons_append, Text.joinWith,
      List.intercalate_cons_of_ne_nil (List.append_ne_nil_of_right_ne_nil _ (List.cons_ne_nil _ _))]
    intro empty
    rw [List.append_assoc, List.append_eq_nil_iff, List.append_eq_nil_iff] at empty
    exact List.cons_ne_nil _ _ empty.2.1

theorem member?_diagnosticCount (report : Report) :
    report.toJson.member? "diagnostic_count" = some (.integer report.diagnostics.length) := by
  rfl

end Report

namespace CommandLine.LintArguments

variable {arguments : LintArguments}

theorem render_eq_nil_iff (asText : arguments.inJson = false) (report : Report) :
    arguments.render report = [] ↔ report.diagnostics = [] := by
  rw [render, asText, ← Report.renderText_eq_nil_iff]
  simp only [Bool.false_eq_true, if_false]
  split
  · rename_i empty
    exact iff_of_true rfl empty
  · rename_i filled
    refine iff_of_false (fun empty => ?_) filled
    exact filled (List.append_eq_nil_iff.mp empty).1

/-- The line of JSON that is printed decodes to the report. -/
theorem readWithin_render (asJson : arguments.inJson = true) (report : Report) :
    Json.readWithin ⟨none, none⟩ (arguments.render report) = .ok report.toJson := by
  have plain : Json.Plain ⟨none, none⟩ report.toJson :=
    Report.plain_toJson (fun room absent => by cases absent) fun number _ most absent => by cases absent
  rw [render, if_pos asJson]
  apply Json.readWithin_layOut_append plain
  · intro point first
    exact Or.inr (Option.some.inj first).symm
  · rfl

end CommandLine.LintArguments

end ModuleFence
