import ModuleFence.Proofs.Lint.Independence
import ModuleFence.Proofs.Tree.Nesting

set_option autoImplicit false

namespace ModuleFence

open ModuleRule (listOf)

namespace Node

theorem literal_of_getterMention? {argument : Node} {mention : Mention}
    (named : argument.getterMention? = some mention) : mention.literal = argument := by
  obtain ⟨value, -, rfl⟩ := Option.map_eq_some_iff.mp named
  rfl

theorem literal_mem_of_actionMention? {member : Node} {mention : Mention}
    (named : member.actionMention? = some mention) : mention.literal ∈ member.preorder := by
  obtain ⟨value, paired, spelled⟩ := Option.bind_eq_some_iff.mp named
  obtain ⟨text, -, separated⟩ := Option.bind_eq_some_iff.mp spelled
  obtain ⟨module, -, rfl⟩ := Option.map_eq_some_iff.mp separated
  exact mem_preorder_of_mem_children (mem_children_of_pairValue? paired) (unwrap_mem_preorder value)

/-- The literals that a call mentions lie in the call. -/
theorem literal_mem_preorder {call : Node} {mention : Mention} (member : mention ∈ call.mentions) :
    mention.literal ∈ call.preorder := by
  rw [mentions] at member
  split at member
  · exact absurd member List.not_mem_nil
  · rename_i argument first
    have inCall := firstArgument_mem_preorder first
    split at member
    · rw [literal_of_getterMention? (Option.mem_toList.mp member)]
      exact inCall
    · split at member
      · obtain ⟨part, isPart, named⟩ := List.mem_filterMap.mp member
        have inArgument := mem_preorder_of_mem_children (mem_children_of_meaningful isPart)
          (literal_mem_of_actionMention? named)
        exact mem_preorder_trans inArgument inCall
      · exact absurd member List.not_mem_nil

/-- The literals that a call mentions follow one another. -/
theorem IsNested.pairwise_mentions {call : Node} (nested : call.IsNested) :
    call.mentions.Pairwise fun mention later =>
      mention.literal.startByte ≤ later.literal.startByte := by
  rw [mentions]
  split
  · exact List.Pairwise.nil
  · rename_i argument first
    have inner := nested.of_mem (firstArgument_mem_preorder first)
    split
    · cases argument.getterMention? with
      | none => exact List.Pairwise.nil
      | some mention => exact List.pairwise_singleton _ mention
    · split
      · have parts : argument.meaningfulChildren.Pairwise fun part next =>
            part.stopByte ≤ next.startByte :=
          (inner argument (self_mem_preorder argument)).ordered.sublist List.filter_sublist
        rw [List.pairwise_filterMap]
        refine parts.imp_of_mem ?_
        intro part next isPart isNext apart mention named later spelled
        have here := (inner.of_mem_children (mem_children_of_meaningful isPart)).within
          (literal_mem_of_actionMention? named)
        have there := (inner.of_mem_children (mem_children_of_meaningful isNext)).within
          (literal_mem_of_actionMention? spelled)
        omega
      · exact List.Pairwise.nil

/-- What both rules report on a node under a deny-list. -/
def reports (path : Option Path) (names : List Text) (node : Node) : List Diagnostic :=
  node.findingsOf path names .emptyCatch ++ node.findingsOf path names .someModule

variable {path : Option Path} {names : List Text} {node : Node}

theorem reports_of_call (called : node.kind = "call_expression") :
    node.reports path names = node.misuses path names := by
  have notCaught : node.kind ≠ "catch_clause" := by
    rw [called]
    decide
  rw [reports, findingsOf, findingsOf, if_neg notCaught, if_pos called, List.nil_append]

theorem reports_of_catch (caught : node.kind = "catch_clause") :
    node.reports path names = EmptyCatch.findings path node.lowerCatch := by
  have notCalled : node.kind ≠ "call_expression" := by
    rw [caught]
    decide
  rw [reports, findingsOf, findingsOf, if_pos caught, if_neg notCalled, List.append_nil]

theorem reports_of_other (notCaught : node.kind ≠ "catch_clause")
    (notCalled : node.kind ≠ "call_expression") : node.reports path names = [] := by
  rw [reports, findingsOf, findingsOf, if_neg notCaught, if_neg notCalled, List.append_nil]

/-- In whichever order the rules are called, a node has the same reports. -/
theorem flatMap_findingsOf_eq_reports {ids : List RuleId}
    (both : ids.Perm [.emptyCatch, .someModule]) :
    ids.flatMap (node.findingsOf path names) = node.reports path names := by
  have exchange (left right : RuleId) :
      node.findingsOf path names left ++ node.findingsOf path names right =
        node.findingsOf path names right ++ node.findingsOf path names left := by
    by_cases caught : node.kind = "catch_clause"
    · cases left <;> cases right <;> simp [findingsOf, caught]
    · cases left <;> cases right <;> simp [findingsOf, caught]
  rw [flatMap_eq_of_perm exchange both, reports, List.flatMap_cons, List.flatMap_singleton]

/-- Where an empty catch clause is reported. -/
theorem mem_findings_of_catch {diagnostic : Diagnostic}
    (found : diagnostic ∈ EmptyCatch.findings path node.lowerCatch) :
    ∃ body ∈ node.preorder, diagnostic.span = body.span := by
  rw [EmptyCatch.findings] at found
  split at found
  · rw [List.mem_singleton.mp found, lowerCatch]
    cases body : node.child? "body" with
    | none => exact ⟨node, self_mem_preorder node, rfl⟩
    | some block =>
      have inside := mem_preorder_of_mem_children (mem_children_of_child? body)
        (self_mem_preorder block)
      exact ⟨block, inside, rfl⟩
  · exact absurd found List.not_mem_nil

/-- Whatever is reported on a node is placed at a node inside it. -/
theorem exists_place_of_mem_reports {diagnostic : Diagnostic}
    (reported : diagnostic ∈ node.reports path names) :
    ∃ place ∈ node.preorder, diagnostic.span = place.span := by
  by_cases called : node.kind = "call_expression"
  · rw [reports_of_call called] at reported
    obtain ⟨mention, kept, rfl⟩ := List.mem_map.mp reported
    exact ⟨mention.literal, literal_mem_preorder (List.mem_filter.mp kept).1, rfl⟩
  · by_cases caught : node.kind = "catch_clause"
    · rw [reports_of_catch caught] at reported
      exact mem_findings_of_catch reported
    · rw [reports_of_other caught called] at reported
      exact absurd reported List.not_mem_nil

/-- What is reported on one node of a nested tree is in order. -/
theorem IsNested.pairwise_reports (nested : node.IsNested) :
    (node.reports path names).Pairwise fun diagnostic later =>
      diagnostic.span.startByte ≤ later.span.startByte := by
  by_cases called : node.kind = "call_expression"
  · rw [reports_of_call called, misuses, List.pairwise_map]
    have kept := nested.pairwise_mentions.sublist
      (List.filter_sublist : (node.mentions.filter fun mention =>
        names.contains mention.module).Sublist node.mentions)
    exact kept.imp fun ordered => Int.ofNat_le.mpr ordered
  · by_cases caught : node.kind = "catch_clause"
    · rw [reports_of_catch caught, EmptyCatch.findings]
      split
      · exact List.pairwise_singleton _ _
      · exact List.Pairwise.nil
    · rw [reports_of_other caught called]
      exact List.Pairwise.nil

end Node

namespace Linter

variable {options : ModuleOptions} {ids : List RuleId} {linter : Linter}

/-- Linting a tree that succeeds gives what both rules report on its nodes, node by node. -/
theorem Coherent.diagnostics_eq (coherent : linter.Coherent options ids)
    (both : ids.Perm [.emptyCatch, .someModule]) {files : FileSystem} {path : Option Path}
    {root : Node} {diagnostics : List Diagnostic}
    (success : (Linter.lintTree files path root linter).result = .ok diagnostics)
    (intact : root.label.hasError = false) :
    diagnostics = root.preorder.flatMap
      (Node.reports path (listOf files options linter.shared.resolver)) := by
  rw [coherent.eq_findings success intact]
  exact List.flatMap_congr fun node _ => Node.flatMap_findingsOf_eq_reports both

/-- Both rules report on the calls and catch clauses of a nested tree in the order of the source, and
on each of them at places inside it. The diagnostics are in the order of the source exactly when,
besides, nothing below a node is reported at an earlier place than the node is. -/
theorem lintTree_ordered_iff (coherent : linter.Coherent options ids)
    (both : ids.Perm [.emptyCatch, .someModule]) {root : Node} (nested : root.IsNested)
    {files : FileSystem} {path : Option Path} {diagnostics : List Diagnostic}
    (success : (lintTree files path root linter).result = .ok diagnostics) :
    (root.label.hasError = true → diagnostics.length = 1) ∧
    (root.label.hasError = false →
      let reports := Node.reports path (listOf files options linter.shared.resolver)
      diagnostics = root.preorder.flatMap reports ∧
      (root.preorder.Pairwise fun node later => node.startByte ≤ later.startByte) ∧
      (∀ node ∈ root.preorder, ∀ diagnostic ∈ reports node,
        (node.startByte : Int) ≤ diagnostic.span.startByte ∧
          diagnostic.span.startByte ≤ (node.stopByte : Int)) ∧
      ((diagnostics.Pairwise fun diagnostic later =>
          diagnostic.span.startByte ≤ later.span.startByte) ↔
        ∀ node ∈ root.preorder, ∀ inner ∈ node.descendants,
          ∀ diagnostic ∈ reports node, ∀ deeper ∈ reports inner,
            diagnostic.span.startByte ≤ deeper.span.startByte)) := by
  constructor
  · intro damaged
    obtain ⟨error, rfl⟩ := diagnostics_of_damaged success damaged
    rfl
  · intro intact reports
    have reported : diagnostics = root.preorder.flatMap reports :=
      coherent.diagnostics_eq both success intact
    have inside : ∀ node ∈ root.preorder, ∀ diagnostic ∈ reports node,
        (node.startByte : Int) ≤ diagnostic.span.startByte ∧
          diagnostic.span.startByte ≤ (node.stopByte : Int) := by
      intro node member diagnostic owns
      obtain ⟨place, below, placed⟩ := Node.exists_place_of_mem_reports owns
      have within := (nested.of_mem member).within below
      have begins : diagnostic.span.startByte = (place.startByte : Int) := by
        rw [placed]
        rfl
      omega
    refine ⟨reported, ?_, inside, ?_⟩
    · refine nested.pairwise_preorder.imp_of_mem ?_
      intro node later here there apart
      rcases apart with below | behind
      · exact ((nested.of_mem here).within (Node.mem_preorder_of_mem_descendants below)).1
      · have forward := (nested node here).forward
        omega
    · rw [reported]
      exact nested.pairwise_flatMap_iff inside fun node member =>
        (nested.of_mem member).pairwise_reports

/-- Both rules, the second one against the module x. -/
def bothRules : List Rule :=
  [.emptyCatch, .someModule (.sharing ⟨none, ["x"]⟩)]

/-- A getter below an action and behind what the action is reported for: the two findings are in
order. -/
theorem lintTree_ordered_iff_of_later_getter :
    let root := Script.parse "mapActions(\x7b a: 'x/y', b: mapGetters('x') \x7d);".toList
    root.IsNested ∧ Rule.create { forbiddenModules := ["x"] } none = (.ok bothRules, []) ∧
      ∃ diagnostics, (lintTree (.empty []) none root ⟨bothRules, ⟨{}, []⟩⟩).result =
          .ok diagnostics ∧
        diagnostics.length = 2 ∧
        diagnostics.Pairwise fun diagnostic later =>
          diagnostic.span.startByte ≤ later.span.startByte := by
  intro root
  have made : Rule.create { forbiddenModules := ["x"] } none = (.ok bothRules, []) := rfl
  obtain ⟨nested, intact, succeeds, later⟩ : root.IsNested ∧ root.label.hasError = false ∧
      (lintTree (.empty []) none root ⟨bothRules, ⟨{}, []⟩⟩).result.map List.length = .ok 2 ∧
      ∀ node ∈ root.preorder, ∀ inner ∈ node.descendants,
        ∀ diagnostic ∈ node.reports none ["x"], ∀ deeper ∈ inner.reports none ["x"],
          diagnostic.span.startByte ≤ deeper.span.startByte := by
    decide +kernel
  obtain ⟨diagnostics, success, length⟩ := (map_eq_ok_iff _ _ _).mp succeeds
  have coherent := coherent_of_fresh (Rule.fresh_of_create made) ⟨{}, []⟩
  obtain ⟨-, -, -, ordered⟩ :=
    (lintTree_ordered_iff coherent (List.Perm.refl _) nested success).2 intact
  exact ⟨nested, made, diagnostics, success, length, ordered.mpr later⟩

/-- A getter below an action and before what the action is reported for: the finding on the action,
which comes first, is the later one in the source. -/
theorem lintSource_disordered :
    let source := "mapActions(\x7b a: mapGetters('x'), b: 'x/y' \x7d);".toList
    (Script.parse source).IsNested ∧
      Rule.create { forbiddenModules := ["x"] } none = (.ok bothRules, []) ∧
      ∃ diagnostics, (lintSource (.empty []) none source ⟨bothRules, ⟨{}, []⟩⟩).result =
          .ok diagnostics ∧
        ¬ diagnostics.Pairwise fun diagnostic later =>
          diagnostic.span.startByte ≤ later.span.startByte := by
  intro source
  obtain ⟨nested, places⟩ : (Script.parse source).IsNested ∧
      (lintSource (.empty []) none source ⟨bothRules, ⟨{}, []⟩⟩).result.map
        (List.map fun diagnostic => diagnostic.span.startByte) = .ok [36, 27] := by
    decide +kernel
  obtain ⟨diagnostics, success, spans⟩ := (map_eq_ok_iff _ _ _).mp places
  refine ⟨nested, rfl, diagnostics, success, fun ordered => ?_⟩
  have sorted : ([36, 27] : List Int).Pairwise (· ≤ ·) := by
    rw [← spans]
    exact List.pairwise_map.mpr ordered
  exact absurd sorted (by decide)

end Linter

end ModuleFence
