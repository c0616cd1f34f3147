import ModuleFence.Proofs.Expression.Decoding
import ModuleFence.Proofs.Lint.Findings

set_option autoImplicit false

namespace ModuleFence

namespace ModuleRule

/-- The rule has this deny-list, or gets it when it asks, and its caches agree. -/
structure Denies (files : FileSystem) (names : List Text) (rule : ModuleRule) (shared : Shared) :
    Prop where
  agrees : rule.Agrees
  known : (askDenyList files rule shared).result = .ok names

variable {files : FileSystem} {names : List Text} {rule : ModuleRule} {shared : Shared}

theorem Denies.askDenyList (denies : Denies files names rule shared) :
    Denies files names (askDenyList files rule shared).rule
      (askDenyList files rule shared).shared := by
  refine ⟨denies.agrees.askDenyList files shared, ?_⟩
  rw [askDenyList_of_remembered (denyList_of_asked denies.known)]

/-- A rule that has its deny-list finds the forbidden ones among some uses, and keeps the list. -/
theorem Denies.checkUses (denies : Denies files names rule shared) (path : Option Path)
    (uses : List Use) :
    (checkUses files path uses rule shared).result = .ok (findings path uses names) ∧
      Denies files names (checkUses files path uses rule shared).rule
        (checkUses files path uses rule shared).shared := by
  induction uses generalizing rule shared with
  | nil => exact ⟨rfl, denies⟩
  | cons use rest ih =>
    obtain ⟨later, after⟩ := ih denies.askDenyList
    rw [ModuleRule.checkUses, denies.agrees.isForbidden_eq]
    simp only [denies.known, Except.map]
    refine ⟨?_, after⟩
    have first : (if names.contains use.module then [finding path use] else []) ++
        findings path rest names = findings path (use :: rest) names := by
      rw [findings, findings, List.filter_cons]
      split <;> rfl
    rw [← first]
    exact congrArg (Except.map _) later

end ModuleRule

namespace Linter

open ModuleRule (Denies)

variable {files : FileSystem} {names : List Text} {rule : ModuleRule} {shared : Shared}

/-- The only rule finds on a node what there is to find, if the node can be read, and keeps its
deny-list for the nodes behind. -/
theorem visitNodes_cons_of_denies (denies : Denies files names rule shared) (path : Option Path)
    {node : Node} (legible : node.kind = "call_expression" → node.Legible 0) (rest : List Node) :
    ∃ rule' shared', Denies files names rule' shared' ∧
      (visitNodes files path (node :: rest) ⟨[.someModule rule], shared⟩).result =
        (visitNodes files path rest ⟨[.someModule rule'], shared'⟩).result.map
          (node.findingsOf path names .someModule ++ ·) := by
  rcases Node.visit?_of_legible legible with unvisited | ⟨visit, visited⟩
  · refine ⟨rule, shared, denies, ?_⟩
    rw [visitNodes, unvisited, Node.findingsOf_of_unvisited unvisited]
    simp only [List.nil_append]
    cases (visitNodes files path rest ⟨[.someModule rule], shared⟩).result <;> rfl
  · obtain ⟨result_eq, after⟩ := denies.checkUses path visit.uses
    refine ⟨_, _, after, ?_⟩
    have found : (Rule.visitAll files path visit [.someModule rule] shared).result =
        .ok (node.findingsOf path names .someModule) := by
      rw [Rule.visitAll, Rule.visitAll, Visit.visit_someModule, result_eq,
        ← Visit.findingsOf_of_visited visited]
      simp only [Except.map, List.append_nil]
      rfl
    rw [visitNodes, visited]
    simp only [found]
    rw [Rule.visitAll, Rule.visitAll, Visit.visit_someModule, result_eq]

theorem visitNodes_of_denies (denies : Denies files names rule shared) (path : Option Path)
    {nodes : List Node}
    (legible : ∀ node ∈ nodes, node.kind = "call_expression" → node.Legible 0) :
    (visitNodes files path nodes ⟨[.someModule rule], shared⟩).result =
      .ok (nodes.flatMap fun node => node.findingsOf path names .someModule) := by
  induction nodes generalizing rule shared with
  | nil => rfl
  | cons node rest ih =>
    rw [List.forall_mem_cons] at legible
    obtain ⟨rule', shared', after, result_eq⟩ :=
      visitNodes_cons_of_denies denies path legible.1 rest
    rw [result_eq, ih after legible.2]
    rfl

theorem visitNodes_of_illegible (denies : Denies files names rule shared) (path : Option Path)
    {nodes : List Node} {call : Node} (member : call ∈ nodes)
    (called : call.kind = "call_expression") (illegible : ¬ call.Legible 0) :
    (visitNodes files path nodes ⟨[.someModule rule], shared⟩).result =
      .error (.escape .numberTooLarge) := by
  induction nodes generalizing rule shared with
  | nil => cases member
  | cons node rest ih =>
    by_cases legible : node.kind = "call_expression" → node.Legible 0
    · obtain ⟨rule', shared', after, result_eq⟩ :=
        visitNodes_cons_of_denies denies path legible rest
      have behind : call ∈ rest := by
        rcases List.mem_cons.mp member with rfl | later
        · exact absurd (legible called) illegible
        · exact later
      rw [result_eq, ih after behind]
      rfl
    · obtain ⟨nodeCalled, nodeIllegible⟩ := Classical.not_imp.mp legible
      rw [visitNodes, Node.visit?_of_illegible nodeCalled nodeIllegible]

/-- With a known deny-list, a tree without damage gets exactly the findings on its calls, in order,
if the literals that lowering reads have values. A literal that has none, because an escape names a
number that is too large, ends the run instead. The caches of the rule have to agree, as they do
whatever requests it has answered (`ModuleRule.Agrees.run`). -/
theorem lintTree_of_denies (files : FileSystem) (path : Option Path) (root : Node)
    (rule : ModuleRule) (shared : Shared) (names : List Text)
    (intact : root.label.hasError = false) (agrees : rule.Agrees)
    (known : (rule.askDenyList files shared).result = .ok names) :
    (root.CallsLegible →
      (lintTree files path root ⟨[.someModule rule], shared⟩).result =
        .ok (root.calls.flatMap (Node.misuses path names))) ∧
    (¬ root.CallsLegible →
      (lintTree files path root ⟨[.someModule rule], shared⟩).result =
        .error (.escape .numberTooLarge)) ∧
    (root.CallsLegible ↔ ∀ call ∈ root.calls, ∀ literal, Node.Reads literal 0 call →
      ∀ piece ∈ literal.namedChildren, ¬ piece.Overflows) := by
  have walked : lintTree files path root ⟨[.someModule rule], shared⟩ =
      visitNodes files path root.preorder ⟨[.someModule rule], shared⟩ := by
    rw [lintTree, Node.checked_of_intact intact, ← Node.walk_eq_preorder]
    rfl
  rw [walked]
  refine ⟨?_, ?_, ?_⟩
  · intro legible
    have each (node : Node) (member : node ∈ root.preorder)
        (called : node.kind = "call_expression") : node.Legible 0 :=
      legible node (Node.mem_calls_iff.mpr ⟨member, called⟩)
    rw [visitNodes_of_denies ⟨agrees, known⟩ path each, ← Node.findings_someModule, Node.findings]
    simp only [List.flatMap_singleton]
  · intro illegible
    rw [Node.CallsLegible] at illegible
    push Not at illegible
    obtain ⟨call, member, unreadable⟩ := illegible
    obtain ⟨inTree, called⟩ := Node.mem_calls_iff.mp member
    exact visitNodes_of_illegible ⟨agrees, known⟩ path inTree called unreadable
  · refine forall₂_congr fun call _ => forall₂_congr fun literal _ => ?_
    exact Node.succeeds_stringValue_iff literal

/-- A getter that is passed a forbidden module. -/
theorem lintTree_of_denies_getter :
    (lintTree (.empty []) none (Script.parse "mapGetters('a')".toList)
      ⟨[.someModule (.sharing ⟨none, ["a"]⟩)], ⟨{}, []⟩⟩).result =
      .ok [{ ruleId := "disallow-some-module"
             message := "mapGetters: not allowed to use a"
             span := ⟨1, 12, 1, 15, 11, 14⟩
             nodeKind := "string" }] := by
  have exact := (lintTree_of_denies (.empty []) none (Script.parse "mapGetters('a')".toList)
    (.sharing ⟨none, ["a"]⟩) ⟨{}, []⟩ ["a"] (by decide +kernel) rfl rfl).1 (by decide +kernel)
  rw [exact]
  decide +kernel

/-- A numeral that is too large keeps the misuse behind it from being reported. -/
theorem lintTree_of_large_numeral :
    let root := Script.parse "f(\"\\u\x7bFFFFFFFFF\x7d\"); mapGetters(\"a\");".toList
    let rule : ModuleRule := .sharing ⟨none, ["a"]⟩
    root.label.hasError = false ∧
      (rule.askDenyList (.empty []) ⟨{}, []⟩).result = .ok ["a"] ∧
      (root.calls.flatMap (Node.misuses none ["a"])).length = 1 ∧
      (lintTree (.empty []) none root ⟨[.someModule rule], ⟨{}, []⟩⟩).result =
        .error (.escape .numberTooLarge) := by
  refine ⟨?_, rfl, ?_, ?_⟩
  · decide +kernel
  · decide +kernel
  · decide +kernel

end Linter

end ModuleFence
