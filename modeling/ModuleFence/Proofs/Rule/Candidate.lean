import ModuleFence.Proofs.Rule.Shape

/-!
Candidates, the calls for which the rule against forbidden modules looks up its deny-list. Whether a
call is one is decided by its syntax alone, and by nothing that a deny-list holds.
-/

set_option autoImplicit false

namespace ModuleFence.Node

/-- A pair whose value is a string with a slash. -/
def NamesAction (member : Node) : Prop :=
  ∃ value, member.pairValue? = some value ∧ value.unwrap.kind = "string" ∧
    ∃ text, value.unwrap.stringValue = .ok text ∧ moduleSeparator ∈ text

/-- A call of a getter with a string, or of an action with an object that names an action. -/
def IsCandidate (node : Node) : Prop :=
  node.kind = "call_expression" ∧ ∃ argument, node.firstArgument? = some argument ∧
    (node.calleeName? = some "mapGetters" ∧ argument.kind = "string" ∨
      node.calleeName? = some "mapActions" ∧ argument.kind = "object" ∧
        ∃ member ∈ argument.meaningfulChildren, member.NamesAction)

theorem legible_unwrap (depth : Nat) (node : Node) :
    Legible depth node ↔ Legible depth node.unwrap := by
  rw [← succeeds_lowerAt_iff, lowerAt_unwrap, succeeds_lowerAt_iff]

theorem literalValue?_eq_some_iff (node : Node) (value : Text) :
    node.literalValue? = some value ↔ node.kind = "string" ∧ node.stringValue = .ok value := by
  rw [literalValue?]
  by_cases quoted : node.kind = "string"
  · rw [if_pos quoted, and_iff_right quoted]
    cases node.stringValue <;> simp [Except.toOption]
  · rw [if_neg quoted]
    exact iff_of_false (fun impossible => by cases impossible) fun both => quoted both.1

theorem namesAction_iff (member : Node) : member.NamesAction ↔ member.actionMention? ≠ none := by
  rw [NamesAction, actionMention?, Ne, Option.bind_eq_none_iff]
  push Not
  refine exists_congr fun value => and_congr_right fun _ => ?_
  rw [Ne, Option.bind_eq_none_iff]
  push Not
  simp only [literalValue?_eq_some_iff, Option.ne_none_iff_isSome, Option.isSome_map,
    ModuleRule.isSome_moduleBefore?_iff]
  constructor
  · rintro ⟨quoted, text, decoded, separated⟩
    exact ⟨text, ⟨quoted, decoded⟩, separated⟩
  · rintro ⟨text, ⟨quoted, decoded⟩, separated⟩
    exact ⟨quoted, text, decoded, separated⟩

theorem getterMention?_ne_none_iff {argument : Node} {depth : Nat}
    (shallow : depth ≤ maxLoweringDepth) (legible : Legible depth argument) :
    argument.getterMention? ≠ none ↔ argument.kind = "string" := by
  rw [getterMention?, Ne, Option.map_eq_none_iff, ← Ne, Option.ne_none_iff_exists']
  simp only [literalValue?_eq_some_iff]
  constructor
  · rintro ⟨value, quoted, -⟩
    exact quoted
  · intro quoted
    obtain ⟨value, decoded⟩ := (legible_of_string shallow quoted).mp legible
    exact ⟨value, quoted, decoded⟩

/-- A call whose literals can be read is a candidate exactly when it mentions a module. -/
theorem isCandidate_iff {call : Node} (called : call.kind = "call_expression")
    (legible : Legible 0 call) : call.IsCandidate ↔ call.mentions ≠ [] := by
  rw [IsCandidate, and_iff_right called, mentions]
  cases first : call.firstArgument? with
  | none => simp only [reduceCtorEq, false_and, exists_false, ne_eq, not_true_eq_false]
  | some argument =>
    simp only [Option.some.injEq, exists_eq_left']
    have readable : Legible 1 argument := by
      obtain ⟨node, passed, rfl⟩ := Option.map_eq_some_iff.mp first
      rw [← legible_unwrap]
      exact ((legible_of_call (Nat.zero_le _) called).mp legible).2 node
        (List.mem_of_mem_head? passed)
    by_cases getter : call.calleeName? = some "mapGetters"
    · rw [if_pos getter, Ne, Option.toList_eq_nil_iff, ← Ne,
        getterMention?_ne_none_iff (by decide) readable]
      simp only [getter, true_and, Option.some.injEq, String.reduceEq, false_and, or_false]
    · rw [if_neg getter]
      simp only [getter, false_and, false_or]
      by_cases action : call.calleeName? = some "mapActions" ∧ argument.kind = "object"
      · rw [if_pos action, Ne, List.filterMap_eq_nil_iff]
        push Not
        simp only [action.1, action.2, true_and, namesAction_iff, Ne]
      · rw [if_neg action]
        refine iff_of_false ?_ fun impossible => impossible rfl
        rintro ⟨named, braced, -⟩
        exact action ⟨named, braced⟩

end ModuleFence.Node
