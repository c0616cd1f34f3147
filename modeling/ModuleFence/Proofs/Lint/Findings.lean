import ModuleFence.Lint.Basic
import ModuleFence.Proofs.Rule.Consultation
import ModuleFence.Proofs.Rule.Shape
import ModuleFence.Proofs.Tree.Order

/-!
What there is to find in a tree under a deny-list: the forbidden modules that its calls mention and
its empty catch clauses, each at its node, in the order of the tree.
-/

set_option autoImplicit false

namespace ModuleFence

namespace Node

/-- The finding on a mention of a forbidden module. -/
def Mention.misuse (path : Option Path) (mention : Mention) : Diagnostic where
  ruleId := "disallow-some-module"
  message := Text.concat [mention.caller, ": not allowed to use ", mention.module]
  span := mention.literal.span
  nodeKind := "string"
  filePath := path
  severity := .error

/-- The findings on a call: one for each mention of a forbidden module, in order. -/
def misuses (path : Option Path) (names : List Text) (call : Node) : List Diagnostic :=
  (call.mentions.filter fun mention => names.contains mention.module).map (Mention.misuse path)

/-- What the rule with an identifier finds on a node under a deny-list. -/
def findingsOf (path : Option Path) (names : List Text) (node : Node) : RuleId → List Diagnostic
  | .emptyCatch =>
    if node.kind = "catch_clause" then EmptyCatch.findings path node.lowerCatch else []
  | .someModule => if node.kind = "call_expression" then node.misuses path names else []

/-- What rules find in a tree under a deny-list: node by node, and on each node rule by rule. -/
def findings (path : Option Path) (ids : List RuleId) (names : List Text) (root : Node) :
    List Diagnostic :=
  root.preorder.flatMap fun node => ids.flatMap (node.findingsOf path names)

theorem findings_of_uses {node : Node} {call : Call} (lowered : lowerCallAt 0 node = .ok call)
    (path : Option Path) (names : List Text) :
    ModuleRule.findings path (ModuleRule.uses call) names = node.misuses path names := by
  rw [ModuleRule.findings, uses_of_lowerCallAt lowered, List.filter_map, List.map_map, misuses]
  rfl

/-- The only rule against forbidden modules finds the misuses of the calls of a tree. -/
theorem findings_someModule (path : Option Path) (names : List Text) (root : Node) :
    root.findings path [.someModule] names = root.calls.flatMap (misuses path names) := by
  rw [findings, calls]
  induction root.preorder with
  | nil => rfl
  | cons node rest ih =>
    rw [List.flatMap_cons, ih, List.flatMap_singleton, findingsOf]
    by_cases called : node.kind = "call_expression"
    · rw [if_pos called, List.filter_cons_of_pos (by simpa using called), List.flatMap_cons]
    · rw [if_neg called, List.filter_cons_of_neg (by simpa using called), List.nil_append]

/-- A finding has the name of its rule. -/
theorem ruleId_of_mem_findingsOf {path : Option Path} {names : List Text} {node : Node}
    {id : RuleId} {diagnostic : Diagnostic} (found : diagnostic ∈ node.findingsOf path names id) :
    diagnostic.ruleId = Text.ofString id.name := by
  cases id with
  | emptyCatch =>
    rw [findingsOf, EmptyCatch.findings] at found
    split at found
    · split at found
      · rw [List.mem_singleton.mp found]
      · exact absurd found List.not_mem_nil
    · exact absurd found List.not_mem_nil
  | someModule =>
    rw [findingsOf, misuses] at found
    split at found
    · obtain ⟨mention, -, rfl⟩ := List.mem_map.mp found
      rfl
    · exact absurd found List.not_mem_nil

theorem checked_of_intact {root : Node} (intact : root.label.hasError = false)
    (path : Option Text) : root.checked path = .ok root := by
  rw [checked, intact]
  rfl

theorem checked_of_damaged {root : Node} (damaged : root.label.hasError = true)
    (path : Option Text) : ∃ error, root.checked path = .error error := by
  rw [checked, damaged]
  cases root.firstDamage? <;> exact ⟨_, rfl⟩

theorem visit?_of_other {node : Node} (notCall : node.kind ≠ "call_expression")
    (notCatch : node.kind ≠ "catch_clause") : node.visit? = none := by
  rw [visit?, if_neg notCall, if_neg notCatch]

theorem visit?_of_call {node : Node} (called : node.kind = "call_expression") :
    node.visit? = some ((node.lowerCallAt 0).map .call) := by
  rw [visit?, if_pos called]

/-- A node whose literals can be read is shown to the rules, or is nothing to them. -/
theorem visit?_of_legible {node : Node}
    (legible : node.kind = "call_expression" → Legible 0 node) :
    node.visit? = none ∨ ∃ visit, node.visit? = some (.ok visit) := by
  by_cases called : node.kind = "call_expression"
  · obtain ⟨call, lowered⟩ := (succeeds_lowerCallAt_zero_iff called).mpr (legible called)
    refine .inr ⟨.call call, ?_⟩
    rw [visit?_of_call called, lowered]
    rfl
  · rw [visit?, if_neg called]
    split
    · exact .inr ⟨_, rfl⟩
    · exact .inl rfl

/-- A call with a literal that cannot be read is shown to no rule. -/
theorem visit?_of_illegible {node : Node} (called : node.kind = "call_expression")
    (illegible : ¬ Legible 0 node) : node.visit? = some (.error .numberTooLarge) := by
  rw [visit?_of_call called]
  cases lowered : node.lowerCallAt 0 with
  | ok call =>
    exact absurd ((succeeds_lowerCallAt_zero_iff called).mp ⟨call, lowered⟩) illegible
  | error error =>
    cases error
    rfl

theorem findingsOf_of_unvisited {node : Node} (unvisited : node.visit? = none)
    (path : Option Path) (names : List Text) (id : RuleId) :
    node.findingsOf path names id = [] := by
  rw [visit?] at unvisited
  split at unvisited
  · cases unvisited
  · rename_i uncalled
    split at unvisited
    · cases unvisited
    · rename_i uncaught
      cases id with
      | emptyCatch => rw [findingsOf, if_neg uncaught]
      | someModule => rw [findingsOf, if_neg uncalled]

end Node

namespace Visit

def uses : Visit → List ModuleRule.Use
  | .call lowered => ModuleRule.uses lowered
  | .catchClause _ => []

/-- What the rule with an identifier finds on what it is shown, under a deny-list. -/
def findingsOf (path : Option Path) (names : List Text) (visit : Visit) : RuleId → List Diagnostic
  | .emptyCatch =>
    match visit with
    | .call _ => []
    | .catchClause clause => EmptyCatch.findings path clause
  | .someModule => ModuleRule.findings path visit.uses names

theorem findingsOf_of_visited {node : Node} {visit : Visit}
    (visited : node.visit? = some (.ok visit)) (path : Option Path) (names : List Text)
    (id : RuleId) : visit.findingsOf path names id = node.findingsOf path names id := by
  by_cases called : node.kind = "call_expression"
  · rw [Node.visit?_of_call called] at visited
    obtain ⟨call, lowered, rfl⟩ := (map_eq_ok_iff _ _ _).mp (Option.some.inj visited)
    cases id with
    | emptyCatch =>
      rw [Node.findingsOf, if_neg (by rw [called]; decide)]
      rfl
    | someModule =>
      rw [Node.findingsOf, if_pos called]
      exact Node.findings_of_uses lowered path names
  · rw [Node.visit?, if_neg called] at visited
    split at visited
    · rename_i caught
      cases visited
      cases id with
      | emptyCatch => rw [Node.findingsOf, if_pos caught]; rfl
      | someModule => rw [Node.findingsOf, if_neg called]; rfl
    · cases visited

theorem ruleId_of_mem_findingsOf {path : Option Path} {names : List Text} {visit : Visit}
    {id : RuleId} {diagnostic : Diagnostic}
    (found : diagnostic ∈ visit.findingsOf path names id) :
    diagnostic.ruleId = Text.ofString id.name := by
  cases id with
  | emptyCatch =>
    cases visit with
    | call call => exact absurd found List.not_mem_nil
    | catchClause clause =>
      rw [findingsOf, EmptyCatch.findings] at found
      split at found
      · rw [List.mem_singleton.mp found]
      · exact absurd found List.not_mem_nil
  | someModule =>
    obtain ⟨use, -, rfl⟩ := List.mem_map.mp found
    rfl

/-- A visited node uses modules exactly when it is a call that mentions some. -/
theorem uses_of_visited {node : Node} {visit : Visit} (visited : node.visit? = some (.ok visit)) :
    visit.uses ≠ [] ↔ node.kind = "call_expression" ∧ node.mentions ≠ [] := by
  by_cases called : node.kind = "call_expression"
  · rw [Node.visit?_of_call called] at visited
    obtain ⟨call, lowered, rfl⟩ := (map_eq_ok_iff _ _ _).mp (Option.some.inj visited)
    rw [uses, Node.uses_of_lowerCallAt lowered, Ne, List.map_eq_nil_iff]
    exact (and_iff_right called).symm
  · rw [Node.visit?, if_neg called] at visited
    split at visited
    · cases visited
      exact iff_of_false (fun used => used rfl) fun both => called both.1
    · cases visited

theorem visit_someModule (files : FileSystem) (path : Option Path) (visit : Visit)
    (rule : ModuleRule) (shared : Shared) :
    Rule.visit files path visit (.someModule rule) shared =
      ⟨(ModuleRule.checkUses files path visit.uses rule shared).result,
        .someModule (ModuleRule.checkUses files path visit.uses rule shared).rule,
        (ModuleRule.checkUses files path visit.uses rule shared).shared⟩ := by
  cases visit <;> rfl

theorem visit_emptyCatch (files : FileSystem) (path : Option Path) (visit : Visit)
    (shared : Shared) (names : List Text) :
    Rule.visit files path visit .emptyCatch shared =
      ⟨.ok (visit.findingsOf path names .emptyCatch), .emptyCatch, shared⟩ := by
  cases visit <;> rfl

end Visit

end ModuleFence
