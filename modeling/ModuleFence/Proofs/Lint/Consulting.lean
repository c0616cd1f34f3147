import ModuleFence.Proofs.Lint.Findings
import ModuleFence.Proofs.Rule.Making

/-!
How linting consults the store. Rules that share a resolver ask it when a call of a tree mentions a
module, and only then; what they find hangs on nothing but the tree and the answer.
-/

set_option autoImplicit false

namespace ModuleFence

open ModuleRule (Consultation consulted denied)

namespace Rule

/-- A rule of a run with some options. -/
def Coherent (options : ModuleOptions) (resolver : Resolver) : Rule → Prop
  | emptyCatch => True
  | someModule rule => rule.Coherent options resolver

theorem Coherent.after {files : FileSystem} {options : ModuleOptions} {asks : Prop}
    {findings : List Text → List Diagnostic} {before after : Resolver}
    {result : Except Failure (List Diagnostic)} {rule : Rule}
    (coherent : rule.Coherent options before)
    (consultation : Consultation files options asks findings before after result) :
    rule.Coherent options after := by
  cases rule with
  | emptyCatch => trivial
  | someModule rule => exact consultation.coherent coherent

/-- Whether a rule that is shown something asks for its deny-list. -/
def Asks (visit : Visit) (rule : Rule) : Prop :=
  rule.id = .someModule ∧ visit.uses ≠ []

theorem Coherent.visit {options : ModuleOptions} {rule : Rule} {shared : Shared}
    (coherent : rule.Coherent options shared.resolver) (files : FileSystem) (path : Option Path)
    (visit : Visit) :
    Consultation files options (rule.Asks visit) (visit.findingsOf path · rule.id) shared.resolver
        (rule.visit files path visit shared).shared.resolver
        (rule.visit files path visit shared).result ∧
      (rule.visit files path visit shared).rules.Coherent options
        (rule.visit files path visit shared).shared.resolver ∧
      (rule.visit files path visit shared).rules.id = rule.id := by
  cases rule with
  | emptyCatch =>
    rw [Visit.visit_emptyCatch files path visit shared []]
    refine ⟨⟨fun _ => ⟨rfl, fun names => ?_⟩, fun asks => by cases asks.1⟩, trivial, rfl⟩
    cases visit <;> rfl
  | someModule rule =>
    rw [Visit.visit_someModule]
    obtain ⟨consultation, after⟩ := ModuleRule.Coherent.checkUses coherent files path visit.uses
    refine ⟨consultation.of_iff ?_ fun _ => rfl, after, rfl⟩
    exact (and_iff_right rfl).symm

/-- The rules of a run consult the store as one: the first one that asks settles the deny-list. -/
theorem coherent_visitAll {options : ModuleOptions} {rules : List Rule} {shared : Shared}
    (coherent : ∀ rule ∈ rules, rule.Coherent options shared.resolver) (files : FileSystem)
    (path : Option Path) (visit : Visit) :
    Consultation files options (∃ rule ∈ rules, rule.Asks visit)
        (fun names => rules.flatMap fun rule => visit.findingsOf path names rule.id)
        shared.resolver (visitAll files path visit rules shared).shared.resolver
        (visitAll files path visit rules shared).result ∧
      (∀ rule ∈ (visitAll files path visit rules shared).rules,
        rule.Coherent options (visitAll files path visit rules shared).shared.resolver) ∧
      (visitAll files path visit rules shared).rules.map id = rules.map id := by
  induction rules generalizing shared with
  | nil =>
    refine ⟨(Consultation.silent files options _).of_iff ?_ fun _ => rfl, coherent, rfl⟩
    simp only [List.not_mem_nil, false_and, exists_false]
  | cons rule rest ih =>
    rw [List.forall_mem_cons] at coherent
    obtain ⟨here, after, id_eq⟩ := coherent.1.visit files path visit
    have asks : rule.Asks visit ∨ (∃ other ∈ rest, other.Asks visit) ↔
        ∃ other ∈ rule :: rest, other.Asks visit := by
      simp only [List.mem_cons, exists_eq_or_imp]
    have others : ∀ other ∈ rest, other.Coherent options
        (rule.visit files path visit shared).shared.resolver :=
      fun other member => (coherent.2 other member).after here
    rw [visitAll]
    cases visited : (rule.visit files path visit shared).result with
    | error failure =>
      rw [visited] at here
      simp only
      refine ⟨(here.stop _ _).of_iff asks fun _ => rfl, ?_, ?_⟩
      · exact List.forall_mem_cons.mpr ⟨after, others⟩
      · rw [List.map_cons, List.map_cons, id_eq]
    | ok diagnostics =>
      rw [visited] at here
      simp only
      obtain ⟨later, last, ids_eq⟩ := ih others
      refine ⟨(here.andThen later).of_iff asks fun _ => rfl, ?_, ?_⟩
      · refine List.forall_mem_cons.mpr ⟨?_, last⟩
        exact after.after later
      · rw [List.map_cons, List.map_cons, id_eq, ids_eq]

end Rule

namespace Node

/-- Whether a call mentions a module to a rule that has a deny-list. -/
def MentionsAny (ids : List RuleId) (node : Node) : Prop :=
  .someModule ∈ ids ∧ node.kind = "call_expression" ∧ node.mentions ≠ []

/-- Whether a tree needs the deny-list: it has no damage, and one of its calls mentions a module. -/
def NeedsList (ids : List RuleId) (root : Node) : Prop :=
  root.label.hasError = false ∧ .someModule ∈ ids ∧ ∃ call ∈ root.calls, call.mentions ≠ []

/-- The diagnostics of a tree under a deny-list. -/
def diagnosticsOf (path : Option Path) (ids : List RuleId) (names : List Text) (root : Node) :
    List Diagnostic :=
  match root.checked (path.map Path.toText) with
  | .error error => [Linter.unparsable path error]
  | .ok root => root.findings path ids names

instance (ids : List RuleId) (root : Node) : Decidable (root.NeedsList ids) :=
  inferInstanceAs (Decidable (_ ∧ _ ∧ ∃ call ∈ root.calls, call.mentions ≠ []))

/-- What linting a tree ends with, given what the rules get that ask for their deny-list. -/
def outcome (path : Option Path) (ids : List RuleId) (answer : Except Failure (List Text))
    (root : Node) : Except Failure (List Diagnostic) :=
  if root.NeedsList ids then (root.diagnosticsOf path ids ·) <$> answer
  else .ok (root.diagnosticsOf path ids [])

/-- The deny-list does not matter to a tree that does not need it. -/
theorem diagnosticsOf_of_needless {ids : List RuleId} {root : Node}
    (needless : ¬ root.NeedsList ids) (path : Option Path) (names others : List Text) :
    root.diagnosticsOf path ids names = root.diagnosticsOf path ids others := by
  cases damaged : root.label.hasError with
  | true =>
    obtain ⟨error, refused⟩ := checked_of_damaged damaged (path.map Path.toText)
    rw [diagnosticsOf, diagnosticsOf, refused]
  | false =>
    rw [diagnosticsOf, diagnosticsOf, checked_of_intact damaged]
    show root.findings path ids names = root.findings path ids others
    rw [findings, findings]
    refine List.flatMap_congr fun node member => List.flatMap_congr fun id listed => ?_
    cases id with
    | emptyCatch => rfl
    | someModule =>
      rw [findingsOf, findingsOf]
      by_cases called : node.kind = "call_expression"
      · have silent : node.mentions = [] := by
          by_contra mentioned
          exact needless ⟨damaged, listed, node, mem_calls_iff.mpr ⟨member, called⟩, mentioned⟩
        rw [misuses, misuses, silent]
        rfl
      · rw [if_neg called, if_neg called]

theorem outcome_ok (path : Option Path) (ids : List RuleId) (names : List Text) (root : Node) :
    root.outcome path ids (.ok names) = .ok (root.diagnosticsOf path ids names) := by
  rw [outcome]
  split
  · rfl
  · rename_i needless
    rw [diagnosticsOf_of_needless needless path [] names]

theorem mentionsAny_iff (ids : List RuleId) (root : Node) :
    (∃ node ∈ root.preorder, node.MentionsAny ids) ↔
      .someModule ∈ ids ∧ ∃ call ∈ root.calls, call.mentions ≠ [] := by
  simp only [MentionsAny, mem_calls_iff]
  constructor
  · rintro ⟨node, member, listed, called, mentioned⟩
    exact ⟨listed, node, ⟨member, called⟩, mentioned⟩
  · rintro ⟨listed, node, ⟨member, called⟩, mentioned⟩
    exact ⟨node, member, listed, called, mentioned⟩

end Node

namespace Linter

/-- A linter with the rules of a run: each agrees with the resolver that they share. -/
structure Coherent (options : ModuleOptions) (ids : List RuleId) (linter : Linter) : Prop where
  ids_eq : linter.rules.map Rule.id = ids
  rules : ∀ rule ∈ linter.rules, rule.Coherent options linter.shared.resolver

theorem coherent_of_fresh {options : ModuleOptions} {rules : List Rule}
    (fresh : ∀ rule ∈ rules, rule.Fresh options) (shared : Shared) :
    Coherent options (rules.map Rule.id) ⟨rules, shared⟩ := by
  refine ⟨rfl, ?_⟩
  intro rule member
  rcases fresh rule member with rfl | rfl
  · trivial
  · exact ModuleRule.coherent_sharing options shared.resolver

variable {options : ModuleOptions} {ids : List RuleId} {linter : Linter}

theorem Coherent.visitNodes (coherent : linter.Coherent options ids) (files : FileSystem)
    (path : Option Path) {nodes : List Node}
    (legible : ∀ node ∈ nodes, node.kind = "call_expression" → node.Legible 0) :
    Consultation files options (∃ node ∈ nodes, node.MentionsAny ids)
        (fun names => nodes.flatMap fun node => ids.flatMap (node.findingsOf path names))
        linter.shared.resolver (visitNodes files path nodes linter).linter.shared.resolver
        (visitNodes files path nodes linter).result ∧
      (visitNodes files path nodes linter).linter.Coherent options ids := by
  induction nodes generalizing linter with
  | nil =>
    refine ⟨(Consultation.silent files options _).of_iff ?_ fun _ => rfl, coherent⟩
    simp only [List.not_mem_nil, false_and, exists_false]
  | cons node rest ih =>
    rw [List.forall_mem_cons] at legible
    rw [Linter.visitNodes]
    rcases Node.visit?_of_legible legible.1 with unvisited | ⟨visit, visited⟩
    · obtain ⟨later, last⟩ := ih coherent legible.2
      rw [unvisited]
      refine ⟨later.of_iff ?_ fun names => ?_, last⟩
      · have silent : ¬ node.MentionsAny ids := by
          rintro ⟨-, called, -⟩
          rw [Node.visit?_of_call called] at unvisited
          cases unvisited
        simp only [List.mem_cons, exists_eq_or_imp, silent, false_or]
      · have silent : ids.flatMap (node.findingsOf path names) = [] := by
          rw [List.flatMap_eq_nil_iff]
          intro id _
          exact Node.findingsOf_of_unvisited unvisited path names id
        rw [List.flatMap_cons, silent, List.nil_append]
    · obtain ⟨shown, after, ids_eq⟩ := Rule.coherent_visitAll coherent.rules files path visit
      have asks : (∃ rule ∈ linter.rules, rule.Asks visit) ↔ node.MentionsAny ids := by
        rw [Node.MentionsAny, ← coherent.ids_eq, ← Visit.uses_of_visited visited, List.mem_map]
        simp only [Rule.Asks]
        constructor
        · rintro ⟨rule, member, id_eq, used⟩
          exact ⟨⟨rule, member, id_eq⟩, used⟩
        · rintro ⟨⟨rule, member, id_eq⟩, used⟩
          exact ⟨rule, member, id_eq, used⟩
      have found (names : List Text) :
          (linter.rules.flatMap fun rule => visit.findingsOf path names rule.id) =
            ids.flatMap (node.findingsOf path names) := by
        rw [← coherent.ids_eq, List.flatMap_map]
        simp only [Visit.findingsOf_of_visited visited]
      have here := shown.of_iff asks found
      have either : node.MentionsAny ids ∨ (∃ other ∈ rest, other.MentionsAny ids) ↔
          ∃ other ∈ node :: rest, other.MentionsAny ids := by
        simp only [List.mem_cons, exists_eq_or_imp]
      have remaining : Coherent options ids
          ⟨(Rule.visitAll files path visit linter.rules linter.shared).rules,
            (Rule.visitAll files path visit linter.rules linter.shared).shared⟩ :=
        ⟨ids_eq.trans coherent.ids_eq, after⟩
      rw [visited]
      cases result : (Rule.visitAll files path visit linter.rules linter.shared).result with
      | error failure =>
        rw [result] at here
        simp only [result]
        exact ⟨(here.stop _ _).of_iff either fun _ => rfl, remaining⟩
      | ok diagnostics =>
        rw [result] at here
        simp only [result]
        obtain ⟨later, last⟩ := ih remaining legible.2
        exact ⟨(here.andThen later).of_iff either fun _ => rfl, last⟩

/-- A tree whose literals can be read is linted with one consultation of the store if it needs the
deny-list, and with none otherwise. -/
theorem Coherent.lintTree (coherent : linter.Coherent options ids) (files : FileSystem)
    (path : Option Path) {root : Node}
    (legible : root.label.hasError = false → root.CallsLegible) :
    Consultation files options (root.NeedsList ids) (root.diagnosticsOf path ids ·)
        linter.shared.resolver (lintTree files path root linter).linter.shared.resolver
        (lintTree files path root linter).result ∧
      (lintTree files path root linter).linter.Coherent options ids := by
  cases damaged : root.label.hasError with
  | true =>
    have needless : ¬ root.NeedsList ids := by
      rintro ⟨intact, -⟩
      rw [damaged] at intact
      cases intact
    obtain ⟨error, refused⟩ := Node.checked_of_damaged damaged (path.map Path.toText)
    simp only [Linter.lintTree, Node.diagnosticsOf, refused]
    exact ⟨⟨fun _ => ⟨rfl, fun _ => rfl⟩, fun needs => absurd needs needless⟩,
      coherent.ids_eq, coherent.rules⟩
  | false =>
    have accepted := Node.checked_of_intact damaged (path.map Path.toText)
    have each (node : Node) (member : node ∈ root.preorder)
        (called : node.kind = "call_expression") : node.Legible 0 :=
      legible damaged node (Node.mem_calls_iff.mpr ⟨member, called⟩)
    obtain ⟨consultation, after⟩ := coherent.visitNodes files path each
    simp only [Linter.lintTree, Node.diagnosticsOf, accepted, walk, Node.walk_eq_preorder]
    refine ⟨consultation.of_iff ?_ fun _ => rfl, after⟩
    rw [Node.mentionsAny_iff, Node.NeedsList, damaged]
    exact (and_iff_right rfl).symm

end Linter

end ModuleFence
