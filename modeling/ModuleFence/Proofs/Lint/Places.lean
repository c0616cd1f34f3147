import ModuleFence.Proofs.Lint.Independence
import ModuleFence.Proofs.Lint.Repetition
import ModuleFence.Proofs.Tree.Territory

/-!
The places of findings. A call mentions modules at literals in its territory, and catch clauses are
looked at one by one; so a rule that is made once reports no node of a tree more than once.
-/

set_option autoImplicit false

namespace ModuleFence

namespace Node

variable {kind : String}

/-- What stands within parentheses is in the crown of their node, if it is of another kind. -/
theorem unwrap_mem_crown (outside : kind ≠ "parenthesized_expression") {node : Node}
    (other : node.unwrap.kind ≠ kind) : node.unwrap ∈ node.crown kind := by
  induction node using induction_children with
  | step node ih =>
    cases within : node.inner? with
    | none =>
      rw [unwrap_of_bare within] at other ⊢
      exact self_mem_crown other
    | some inner =>
      have child := mem_children_of_inner? within
      have parentheses : node.kind ≠ kind := by
        rw [parentheses_of_inner? within]
        exact outside.symm
      rw [unwrap_of_inner? within] at other ⊢
      rw [crown_of_other parentheses]
      exact List.mem_cons_of_mem _ ((crown_sublist_territory child).subset (ih inner child other))

/-- The first argument of a call is in the territory of the call, if it is no call. -/
theorem firstArgument_mem_territory {call argument : Node}
    (first : call.firstArgument? = some argument) (other : argument.kind ≠ "call_expression") :
    argument ∈ call.territory "call_expression" := by
  obtain ⟨passed, head, rfl⟩ := Option.map_eq_some_iff.mp first
  obtain ⟨list, found, listed, member⟩ := mem_argumentNodes_iff.mp (List.mem_of_mem_head? head)
  have inPassed := unwrap_mem_crown (by decide) other
  have inList : passed.unwrap ∈ list.crown "call_expression" := by
    rw [crown_of_other (by rw [listed]; decide)]
    have belongs : (passed.crown "call_expression").Sublist (list.territory "call_expression") :=
      crown_sublist_territory (mem_children_of_meaningful member)
    exact List.mem_cons_of_mem _ (belongs.subset inPassed)
  exact (crown_sublist_territory (mem_children_of_child? found)).subset inList

theorem kind_of_literalValue? {node : Node} {value : Text}
    (literal : node.literalValue? = some value) : node.kind = "string" := by
  rw [literalValue?] at literal
  split at literal
  · assumption
  · cases literal

/-- The literal of a member for an action is in the crown of the member. -/
theorem literal_mem_crown {member : Node} {mention : Mention}
    (mentions : member.actionMention? = some mention) :
    mention.literal.kind = "string" ∧ mention.literal ∈ member.crown "call_expression" := by
  obtain ⟨value, paired, inValue⟩ := Option.bind_eq_some_iff.mp mentions
  obtain ⟨text, literal, named⟩ := Option.bind_eq_some_iff.mp inValue
  obtain ⟨module, -, rfl⟩ := Option.map_eq_some_iff.mp named
  have quoted := kind_of_literalValue? literal
  have pair : member.kind ≠ "call_expression" := by
    rw [pairValue?] at paired
    split at paired
    · rename_i pair
      rw [pair]
      decide
    · cases paired
  have inCrown : value.unwrap ∈ value.crown "call_expression" :=
    unwrap_mem_crown (by decide) (by rw [quoted]; decide)
  refine ⟨quoted, ?_⟩
  rw [crown_of_other pair]
  have belongs : (value.crown "call_expression").Sublist (member.territory "call_expression") :=
    crown_sublist_territory (mem_children_of_pairValue? paired)
  exact List.mem_cons_of_mem _ (belongs.subset inCrown)

/-- The members of an object mention modules at literals of their own. -/
theorem literals_of_members (members : List Node) :
    ((members.filterMap actionMention?).map Mention.literal).Sublist
      (members.flatMap (crown "call_expression")) := by
  induction members with
  | nil => exact List.Sublist.refl _
  | cons member rest ih =>
    rw [List.flatMap_cons]
    cases mentions : member.actionMention? with
    | none =>
      rw [List.filterMap_cons_none mentions]
      exact ih.trans (List.sublist_append_right _ _)
    | some mention =>
      rw [List.filterMap_cons_some mentions, List.map_cons]
      exact (List.singleton_sublist.mpr (literal_mem_crown mentions).2).append ih

/-- A call mentions modules at string literals in its territory, each at one of its own. -/
theorem literals_of_mentions (call : Node) :
    (call.mentions.map Mention.literal).Sublist (call.territory "call_expression") := by
  rw [mentions]
  cases first : call.firstArgument? with
  | none => exact List.nil_sublist _
  | some argument =>
    simp only
    split
    · rw [getterMention?]
      cases literal : argument.literalValue? with
      | none => exact List.nil_sublist _
      | some value =>
        have quoted := kind_of_literalValue? literal
        exact List.singleton_sublist.mpr
          (firstArgument_mem_territory first (by rw [quoted]; decide))
    · split
      · rename_i action
        have braced : argument.kind ≠ "call_expression" := by
          rw [action.2]
          decide
        have within := firstArgument_mem_territory first braced
        obtain ⟨child, member, inChild⟩ := List.mem_flatMap.mp within
        have own : (argument.territory "call_expression").Sublist
            (argument.crown "call_expression") := by
          rw [crown_of_other braced]
          exact List.sublist_cons_self _ _
        have members : (argument.meaningfulChildren.flatMap (crown "call_expression")).Sublist
            (argument.territory "call_expression") :=
          List.Sublist.flatMap List.filter_sublist _
        exact (literals_of_members _).trans (members.trans (own.trans
          ((crown_sublist inChild).trans (crown_sublist_territory member))))
      · exact List.nil_sublist _

theorem kind_of_mem_mentions {call : Node} {mention : Mention} (member : mention ∈ call.mentions) :
    mention.literal.kind = "string" := by
  rw [mentions] at member
  cases first : call.firstArgument? with
  | none =>
    rw [first] at member
    cases member
  | some argument =>
    rw [first] at member
    simp only at member
    split at member
    · rw [getterMention?, Option.mem_toList, Option.map_eq_some_iff] at member
      obtain ⟨value, literal, rfl⟩ := member
      exact kind_of_literalValue? literal
    · split at member
      · obtain ⟨inner, -, mentions⟩ := List.mem_filterMap.mp member
        exact (literal_mem_crown mentions).1
      · cases member

def reportedKind : RuleId → String
  | .emptyCatch => "catch_clause"
  | .someModule => "string"

/-- The place at which a rule reports a node: for a catch clause its body, if it has one. -/
def reportedSpan (node : Node) : RuleId → Span
  | .emptyCatch => ((node.child? "body").getD node).span
  | .someModule => node.span

/-- Some diagnostics of a rule report nodes of a tree, none of them twice. -/
def ReportsOnce (root : Node) (id : RuleId) (diagnostics : List Diagnostic) : Prop :=
  ∃ nodes : List Node, nodes.Subperm root.preorder ∧ (∀ node ∈ nodes, node.kind = reportedKind id) ∧
    diagnostics.map Diagnostic.span = nodes.map (reportedSpan · id)

theorem reportsOnce_nil (root : Node) (id : RuleId) : root.ReportsOnce id [] :=
  ⟨[], List.nil_subperm, List.forall_mem_nil _, rfl⟩

theorem reportsOnce_misuses (root : Node) (path : Option Path) (names : List Text) :
    root.ReportsOnce .someModule (root.calls.flatMap (misuses path names)) := by
  let forbidden (call : Node) : List Mention :=
    call.mentions.filter fun mention => names.contains mention.module
  refine ⟨root.calls.flatMap fun call => (forbidden call).map Mention.literal, ?_, ?_, ?_⟩
  · have each : (root.calls.flatMap fun call => (forbidden call).map Mention.literal).Sublist
        (root.calls.flatMap (territory "call_expression")) :=
      List.Sublist.flatMap_right _ fun call _ =>
        (List.filter_sublist.map Mention.literal).trans (literals_of_mentions call)
    exact each.subperm.trans (territories_subperm "call_expression" root)
  · intro node member
    obtain ⟨call, -, inCall⟩ := List.mem_flatMap.mp member
    obtain ⟨mention, kept, rfl⟩ := List.mem_map.mp inCall
    exact kind_of_mem_mentions (List.mem_filter.mp kept).1
  · rw [List.map_flatMap, List.map_flatMap]
    refine List.flatMap_congr fun call _ => ?_
    rw [misuses, List.map_map, List.map_map]
    rfl

theorem reportsOnce_emptyCatches (root : Node) (path : Option Path) :
    root.ReportsOnce .emptyCatch (root.emptyCatches.map (emptiness path)) := by
  refine ⟨root.emptyCatches, List.filter_sublist.subperm, fun node member => ?_, ?_⟩
  · have caught := (List.mem_filter.mp member).2
    rw [Bool.and_eq_true, decide_eq_true_eq] at caught
    exact caught.1
  · rw [List.map_map]
    rfl

/-- Under any deny-list, a rule reports no node of a tree more than once. -/
theorem reportsOnce_findings (root : Node) (path : Option Path) (names : List Text) (id : RuleId) :
    root.ReportsOnce id (root.findings path [id] names) := by
  cases id with
  | emptyCatch =>
    have found : root.findings path [.emptyCatch] names =
        root.emptyCatches.map (emptiness path) := by
      rw [← findings_emptyCatch path names, findings]
      simp only [List.flatMap_singleton]
    rw [found]
    exact reportsOnce_emptyCatches root path
  | someModule =>
    rw [findings_someModule]
    exact reportsOnce_misuses root path names

end Node

namespace Linter

variable {options : ModuleOptions} {ids : List RuleId} {linter : Linter}

/-- A run in which no rule is made twice does not report a node twice by the same rule. -/
theorem Coherent.reportsOnce (coherent : linter.Coherent options ids) (once : ids.Nodup)
    {files : FileSystem} {path : Option Path} {root : Node} {diagnostics : List Diagnostic}
    (success : (Linter.lintTree files path root linter).result = .ok diagnostics) (id : RuleId) :
    root.ReportsOnce id
      (diagnostics.filter fun diagnostic => diagnostic.ruleId = Text.ofString id.name) := by
  by_cases damaged : root.label.hasError = true
  · obtain ⟨error, rfl⟩ := diagnostics_of_damaged success damaged
    have strange : (unparsable path error).ruleId ≠ Text.ofString id.name := by
      show ("parse-error" : Text) ≠ _
      cases id <;> decide
    rw [List.filter_cons_of_neg (by simpa using strange)]
    exact root.reportsOnce_nil id
  · have intact : root.label.hasError = false := Bool.not_eq_true _ ▸ damaged
    have own (names : List Text) (node : Node) (other : RuleId) (diagnostic : Diagnostic) :
        diagnostic ∈ node.findingsOf path names other →
          diagnostic.ruleId = Text.ofString other.name :=
      Node.ruleId_of_mem_findingsOf
    rw [coherent.eq_findings success intact, Node.findings, List.filter_flatMap]
    by_cases member : id ∈ ids
    · have alone := root.reportsOnce_findings path
        (ModuleRule.listOf files options linter.shared.resolver) id
      rw [Node.findings] at alone
      simp only [List.flatMap_singleton] at alone
      simp only [filter_flatMap_of_mem (own _ _) once member]
      exact alone
    · rw [List.flatMap_eq_nil_iff.mpr fun node _ => filter_flatMap_of_not_mem (own _ node) member]
      exact root.reportsOnce_nil id

end Linter

end ModuleFence
