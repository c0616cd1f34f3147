import ModuleFence.Proofs.Lint.Dispatch
import ModuleFence.Proofs.Lint.Findings
import ModuleFence.Proofs.Rule.Respelling

/-!
Runs over trees whose literals are spelled in other ways. Rules that are shown calls with the same
requests ask the store alike and find the same, apart from the places.
-/

set_option autoImplicit false

namespace ModuleFence

def Diagnostic.unplaced (diagnostic : Diagnostic) : Diagnostic :=
  { diagnostic with span := Span.atPlace 1 1 }

/-- Two results are the same apart from the places of their diagnostics. -/
def SameFindings (first second : Except Failure (List Diagnostic)) : Prop :=
  first.map (List.map Diagnostic.unplaced) = second.map (List.map Diagnostic.unplaced)

namespace SameFindings

variable {first second : Except Failure (List Diagnostic)} {here there : List Diagnostic}

theorem of_unplaced (same : here.map Diagnostic.unplaced = there.map Diagnostic.unplaced) :
    SameFindings (.ok here) (.ok there) :=
  congrArg Except.ok same

/-- Same results are one failure, or lists of the same findings. -/
theorem cases (same : SameFindings first second) :
    (∃ failure, first = .error failure ∧ second = .error failure) ∨
      ∃ here there, first = .ok here ∧ second = .ok there ∧
        here.map Diagnostic.unplaced = there.map Diagnostic.unplaced := by
  cases first with
  | error failure =>
    cases second with
    | error other => exact .inl ⟨failure, rfl, congrArg Except.error (Except.error.inj same).symm⟩
    | ok there => cases same
  | ok here =>
    cases second with
    | error other => cases same
    | ok there => exact .inr ⟨here, there, rfl, rfl, Except.ok.inj same⟩

/-- Findings in front of same results leave them the same. -/
theorem append (same : SameFindings first second)
    (front : here.map Diagnostic.unplaced = there.map Diagnostic.unplaced) :
    SameFindings (first.map (here ++ ·)) (second.map (there ++ ·)) := by
  rcases same.cases with ⟨failure, rfl, rfl⟩ | ⟨others, behind, rfl, rfl, others_eq⟩
  · rfl
  · refine of_unplaced ?_
    rw [List.map_append, List.map_append, front, others_eq]

end SameFindings

namespace ModuleRule

/-- A use without its place: who uses a module, and which one. -/
def Use.request (use : Use) : String × Text :=
  (use.caller, use.module)

theorem unplaced_finding {use other : Use} (same : use.request = other.request)
    (path : Option Path) : (finding path use).unplaced = (finding path other).unplaced := by
  obtain ⟨caller_eq, module_eq⟩ := Prod.mk.inj same
  rw [finding, finding, caller_eq, module_eq]
  rfl

/-- Uses of the same modules by the same callers are judged alike. -/
theorem checkUses_of_requests (files : FileSystem) (path : Option Path) {uses others : List Use}
    (same : uses.map Use.request = others.map Use.request) (rule : ModuleRule) (shared : Shared) :
    SameFindings (checkUses files path uses rule shared).result
        (checkUses files path others rule shared).result ∧
      (checkUses files path uses rule shared).rule =
        (checkUses files path others rule shared).rule ∧
      (checkUses files path uses rule shared).shared =
        (checkUses files path others rule shared).shared := by
  induction uses generalizing others rule shared with
  | nil =>
    rw [List.map_eq_nil_iff.mp same.symm]
    exact ⟨rfl, rfl, rfl⟩
  | cons use rest ih =>
    obtain ⟨other, behind, rfl, here, later⟩ := List.map_eq_cons_iff.mp same.symm
    have module_eq : other.module = use.module := congrArg Prod.snd here
    rw [checkUses, checkUses, module_eq]
    cases (isForbidden files use.module rule shared).result with
    | error failure => exact ⟨rfl, rfl, rfl⟩
    | ok forbidden =>
      obtain ⟨result, rule_eq, shared_eq⟩ := ih later.symm
        (isForbidden files use.module rule shared).rule
        (isForbidden files use.module rule shared).shared
      refine ⟨result.append ?_, rule_eq, shared_eq⟩
      cases forbidden with
      | false => rfl
      | true => exact congrArg (fun found => [found]) (unplaced_finding here.symm path)

end ModuleRule

/-- What rules are shown makes the same requests, or is empty alike. -/
inductive Visit.Alike : Visit → Visit → Prop where
  | call {first second : Call}
      (same : (ModuleRule.uses first).map ModuleRule.Use.request =
        (ModuleRule.uses second).map ModuleRule.Use.request) : Alike (.call first) (.call second)
  | catchClause {first second : CatchClause}
      (same : first.statementCount = second.statementCount) :
      Alike (.catchClause first) (.catchClause second)

namespace Rule

/-- Two answers find the same and leave the same behind. -/
structure Answer.Alike {rules : Type} (first second : Answer rules) : Prop where
  result : SameFindings first.result second.result
  rules_eq : first.rules = second.rules
  shared_eq : first.shared = second.shared

variable (files : FileSystem) (path : Option Path) {first second : Visit}
  (alike : first.Alike second)

include alike

theorem visit_alike (rule : Rule) (shared : Shared) :
    (rule.visit files path first shared).Alike (rule.visit files path second shared) := by
  cases alike with
  | call same =>
    cases rule with
    | emptyCatch => exact ⟨rfl, rfl, rfl⟩
    | someModule rule =>
      obtain ⟨result, rule_eq, shared_eq⟩ :=
        ModuleRule.checkUses_of_requests files path same rule shared
      exact ⟨result, congrArg someModule rule_eq, shared_eq⟩
  | @catchClause first second same =>
    cases rule with
    | someModule rule => exact ⟨rfl, rfl, rfl⟩
    | emptyCatch =>
      refine ⟨SameFindings.of_unplaced ?_, rfl, rfl⟩
      rw [EmptyCatch.findings, EmptyCatch.findings, CatchClause.isEmpty, CatchClause.isEmpty, same]
      split <;> rfl

theorem visitAll_alike (rules : List Rule) (shared : Shared) :
    (visitAll files path first rules shared).Alike (visitAll files path second rules shared) := by
  induction rules generalizing shared with
  | nil => exact ⟨rfl, rfl, rfl⟩
  | cons rule rest ih =>
    obtain ⟨result, rules_eq, shared_eq⟩ := visit_alike files path alike rule shared
    rw [visitAll, visitAll, rules_eq, shared_eq]
    rcases result.cases with ⟨failure, failed, also⟩ | ⟨here, there, found, also, same⟩
    · rw [failed, also]
      exact ⟨rfl, rfl, rfl⟩
    · rw [found, also]
      obtain ⟨others, remaining, last⟩ := ih (rule.visit files path second shared).shared
      exact ⟨others.append same,
        congrArg ((rule.visit files path second shared).rules :: ·) remaining, last⟩

end Rule

/-- What two nodes have to show is alike, or cannot be lowered in either. -/
inductive ShownAlike : Except EscapeError Visit → Except EscapeError Visit → Prop where
  | error (error : EscapeError) : ShownAlike (.error error) (.error error)
  | ok {first second : Visit} (alike : first.Alike second) : ShownAlike (.ok first) (.ok second)

namespace Node

variable {first second : Node}

/-- Nodes that differ in the spelling of literals have alike things to show. -/
theorem Respelled.visit? (respelled : Respelled SameValue first second) :
    Option.Rel ShownAlike first.visit? second.visit? := by
  by_cases called : first.kind = "call_expression"
  · have also : second.kind = "call_expression" := respelled.kind_eq ▸ called
    by_cases legible : Legible 0 first
    · obtain ⟨call, lowered⟩ := (succeeds_lowerCallAt_zero_iff called).mpr legible
      obtain ⟨other, lowers⟩ :=
        (succeeds_lowerCallAt_zero_iff also).mpr ((respelled.legible_iff 0).mp legible)
      rw [visit?_of_call called, visit?_of_call also, lowered, lowers]
      refine .some (.ok (.call ?_))
      rw [uses_of_lowerCallAt lowered, uses_of_lowerCallAt lowers, List.map_map, List.map_map]
      exact respelled.mentions_request called
    · have illegible : ¬ Legible 0 second := fun reads => legible ((respelled.legible_iff 0).mpr reads)
      rw [visit?_of_illegible called legible, visit?_of_illegible also illegible]
      exact .some (.error _)
  · have notCalled : second.kind ≠ "call_expression" := respelled.kind_eq ▸ called
    rw [Node.visit?, Node.visit?, if_neg called, if_neg notCalled, ← respelled.kind_eq]
    by_cases caught : first.kind = "catch_clause"
    · rw [if_pos caught, if_pos caught]
      exact .some (.ok (.catchClause (respelled.statementCount_eq caught)))
    · rw [if_neg caught, if_neg caught]
      exact .none

theorem filterMap_visit?_of_plain {literal : Node} (quoted : literal.kind = "string")
    (plain : literal.IsPlain) : literal.preorder.filterMap visit? = [] := by
  have here : literal.visit? = none :=
    visit?_of_other (by rw [quoted]; decide) (by rw [quoted]; decide)
  rw [preorder_eq_cons, List.filterMap_cons_none here, List.filterMap_eq_nil_iff]
  exact fun inner below => visit?_of_other (plain inner below).1 (plain inner below).2

/-- Trees that differ in the spelling of literals have alike things to show, one by one. -/
theorem Respelled.filterMap_visit? (respelled : Respelled SameValue first second) :
    List.Forall₂ ShownAlike (first.preorder.filterMap Node.visit?)
      (second.preorder.filterMap Node.visit?) := by
  induction first using induction_children generalizing second with
  | step first ih =>
    have here := respelled.visit?
    cases respelled with
    | literal part quoted plain also =>
      rw [filterMap_visit?_of_plain quoted plain,
        filterMap_visit?_of_plain (part.kind_eq ▸ quoted) also]
      exact .nil
    | other _ _ _ _ children =>
      have below : List.Forall₂ ShownAlike
          ((first.children.flatMap preorder).filterMap Node.visit?)
          ((second.children.flatMap preorder).filterMap Node.visit?) := by
        rw [List.filterMap_flatMap, List.filterMap_flatMap]
        have each := forall₂_imp_of_mem children fun child member _ corresponds =>
          ih child member corresponds
        exact List.rel_flatMap each fun _ _ alike => alike
      rw [preorder_eq, preorder_eq]
      rcases cases_of_optionRel here with ⟨unshown, also⟩ | ⟨shown, other, found, also, alike⟩
      · rwa [List.filterMap_cons_none unshown, List.filterMap_cons_none also]
      · rw [List.filterMap_cons_some found, List.filterMap_cons_some also]
        exact .cons alike below

end Node

namespace Linter

/-- Two answers find the same and leave the same linter behind. -/
structure Answer.Alike (first second : Answer (List Diagnostic)) : Prop where
  result : SameFindings first.result second.result
  linter_eq : first.linter = second.linter

variable (files : FileSystem) (path : Option Path)

/-- Shows to the rules what some nodes have to show, in order. -/
def showAll : List (Except EscapeError Visit) → Linter → Answer (List Diagnostic)
  | [], linter => ⟨.ok [], linter⟩
  | .error error :: _, linter => ⟨.error (.escape error), linter⟩
  | .ok visit :: rest, linter =>
    let answer := Rule.visitAll files path visit linter.rules linter.shared
    let after : Linter := ⟨answer.rules, answer.shared⟩
    match answer.result with
    | .error failure => ⟨.error failure, after⟩
    | .ok here =>
      let others := showAll rest after
      ⟨others.result.map (here ++ ·), others.linter⟩

theorem visitNodes_eq_showAll (nodes : List Node) (linter : Linter) :
    visitNodes files path nodes linter = showAll files path (nodes.filterMap Node.visit?) linter := by
  induction nodes generalizing linter with
  | nil => rfl
  | cons node rest ih =>
    rw [visitNodes]
    cases shown : node.visit? with
    | none => rw [List.filterMap_cons_none shown, ← ih]
    | some lowered =>
      rw [List.filterMap_cons_some shown]
      cases lowered with
      | error error => rfl
      | ok visit =>
        cases answered : (Rule.visitAll files path visit linter.rules linter.shared).result with
        | error failure => simp only [showAll, answered]
        | ok here => simp only [showAll, answered, ih]

theorem showAll_alike {shown others : List (Except EscapeError Visit)}
    (alike : List.Forall₂ ShownAlike shown others) (linter : Linter) :
    (showAll files path shown linter).Alike (showAll files path others linter) := by
  induction alike generalizing linter with
  | nil => exact ⟨rfl, rfl⟩
  | cons here _ ih =>
    cases here with
    | error error => exact ⟨rfl, rfl⟩
    | ok alike =>
      obtain ⟨result, rules_eq, shared_eq⟩ :=
        Rule.visitAll_alike files path alike linter.rules linter.shared
      rw [showAll, showAll, rules_eq, shared_eq]
      rcases result.cases with ⟨failure, failed, also⟩ | ⟨here, there, found, also, same⟩
      · rw [failed, also]
        exact ⟨rfl, rfl⟩
      · rw [found, also]
        obtain ⟨behind, last⟩ := ih ⟨_, _⟩
        exact ⟨behind.append same, last⟩

variable {root other : Node} (respelled : Node.Respelled Node.SameValue root other)
  (linter : Linter)

include respelled

/-- The rules find the same in a tree whose literals are spelled in another way. -/
theorem walk_respelled : (walk files path root linter).Alike (walk files path other linter) := by
  rw [walk, walk, Node.walk_eq_preorder, Node.walk_eq_preorder, visitNodes_eq_showAll,
    visitNodes_eq_showAll]
  exact showAll_alike files path respelled.filterMap_visit? linter

theorem lintTree_respelled (intact : root.label.hasError = false)
    (also : other.label.hasError = false) :
    (lintTree files path root linter).Alike (lintTree files path other linter) := by
  simp only [lintTree, Node.checked_of_intact intact, Node.checked_of_intact also]
  exact walk_respelled files path respelled linter

end Linter

end ModuleFence
