import ModuleFence.Proofs.Rule.Shape
import ModuleFence.Proofs.Tree.Respelling

/-!
Calls whose literals are spelled in other ways. As long as the literals keep their values, the same
literals are read, and the call mentions the same modules.
-/

set_option autoImplicit false

namespace ModuleFence.Node

/-- A mention without its place: who asks for a module, and for which one. -/
def Mention.request (mention : Mention) : String × Text :=
  (mention.caller, mention.module)

/-- Two literals have the same value, or both none. -/
def SameValue (first second : Node) : Prop :=
  first.stringValue = second.stringValue

namespace Respelled

variable {same : Node → Node → Prop} {first second : Node}

theorem sole? {nodes others : List Node}
    (corresponding : List.Forall₂ (Respelled same) nodes others) :
    Option.Rel (Respelled same) (Node.sole? nodes) (Node.sole? others) := by
  cases corresponding with
  | nil => exact .none
  | cons here behind =>
    cases behind with
    | nil => exact .some here
    | cons => exact .none

theorem inner? (respelled : Respelled same first second) :
    Option.Rel (Respelled same) first.inner? second.inner? := by
  rw [Node.inner?, Node.inner?, ← respelled.kind_eq]
  by_cases parentheses : first.kind = "parenthesized_expression"
  · rw [if_pos parentheses, if_pos parentheses]
    exact sole? (respelled.meaningfulChildren (by rw [parentheses]; decide))
  · rw [if_neg parentheses, if_neg parentheses]
    exact .none

theorem unwrap (respelled : Respelled same first second) :
    Respelled same first.unwrap second.unwrap := by
  induction first using induction_children generalizing second with
  | step first ih =>
    rcases cases_of_optionRel respelled.inner? with
      ⟨bare, also⟩ | ⟨inner, counterpart, within, also, here⟩
    · rwa [unwrap_of_bare bare, unwrap_of_bare also]
    · rw [unwrap_of_inner? within, unwrap_of_inner? also]
      exact ih inner (mem_children_of_inner? within) here

theorem pairValue? (respelled : Respelled same first second) :
    Option.Rel (Respelled same) first.pairValue? second.pairValue? := by
  rw [Node.pairValue?, Node.pairValue?, ← respelled.kind_eq]
  by_cases paired : first.kind = "pair"
  · rw [if_pos paired, if_pos paired]
    exact respelled.child? (by rw [paired]; decide) "value"
  · rw [if_neg paired, if_neg paired]
    exact .none

theorem memberKey? (respelled : Respelled same first second) :
    Option.Rel (Respelled same) first.memberKey? second.memberKey? := by
  rw [Node.memberKey?, Node.memberKey?, ← respelled.kind_eq]
  by_cases paired : first.kind = "pair"
  · rw [if_pos paired, if_pos paired]
    have unquoted : first.kind ≠ "string" := by
      rw [paired]
      decide
    rcases cases_of_optionRel (respelled.child? unquoted "value") with
      ⟨absent, also⟩ | ⟨value, counterpart, found, also, -⟩
    · rw [absent, also]
      exact .none
    · rw [found, also]
      exact respelled.child? unquoted "key"
  · rw [if_neg paired, if_neg paired]
    by_cases method : first.kind = "method_definition"
    · rw [if_pos method, if_pos method]
      exact respelled.child? (by rw [method]; decide) "name"
    · rw [if_neg method, if_neg method]
      exact .none

theorem argumentNodes (respelled : Respelled same first second)
    (called : first.kind = "call_expression") :
    List.Forall₂ (Respelled same) first.argumentNodes second.argumentNodes := by
  rw [Node.argumentNodes, Node.argumentNodes]
  rcases cases_of_optionRel (respelled.child? (by rw [called]; decide) "arguments") with
    ⟨absent, also⟩ | ⟨list, other, found, also, corresponds⟩
  · rw [absent, also]
    exact .nil
  · rw [found, also]
    simp only [← corresponds.kind_eq]
    by_cases listed : list.kind = "arguments"
    · rw [if_pos listed, if_pos listed]
      exact corresponds.meaningfulChildren (by rw [listed]; decide)
    · rw [if_neg listed, if_neg listed]
      exact .nil

/-- What is read in a tree is read in the other one, at its counterpart. -/
theorem exists_reads {literal : Node} {depth : Nat} (reads : Reads literal depth first)
    (respelled : Respelled same first second) :
    ∃ counterpart, Reads counterpart depth second ∧ Respelled same literal counterpart := by
  induction reads generalizing second with
  | itself shallow quoted =>
    exact ⟨second, .itself shallow (respelled.kind_eq ▸ quoted), respelled⟩
  | inside within _ ih =>
    obtain ⟨inner, also, here⟩ := exists_of_optionRel respelled.inner? within
    obtain ⟨counterpart, reads, corresponds⟩ := ih here
    exact ⟨counterpart, .inside also reads, corresponds⟩
  | value shallow braced member_mem paired _ ih =>
    obtain ⟨member, also_mem, members⟩ :=
      exists_mem_of_forall₂ (respelled.meaningfulChildren (by rw [braced]; decide)) member_mem
    obtain ⟨value, also, here⟩ := exists_of_optionRel members.pairValue? paired
    obtain ⟨counterpart, reads, corresponds⟩ := ih here
    exact ⟨counterpart, .value shallow (respelled.kind_eq ▸ braced) also_mem also reads, corresponds⟩
  | key shallow braced member_mem keyed quoted =>
    obtain ⟨member, also_mem, members⟩ :=
      exists_mem_of_forall₂ (respelled.meaningfulChildren (by rw [braced]; decide)) member_mem
    obtain ⟨key, also, here⟩ := exists_of_optionRel members.memberKey? keyed
    exact ⟨key, .key shallow (respelled.kind_eq ▸ braced) also_mem also (here.kind_eq ▸ quoted),
      here⟩
  | callee shallow called function _ ih =>
    obtain ⟨callee, also, here⟩ :=
      exists_of_optionRel (respelled.child? (by rw [called]; decide) "function") function
    obtain ⟨counterpart, reads, corresponds⟩ := ih here
    exact ⟨counterpart, .callee shallow (respelled.kind_eq ▸ called) also reads, corresponds⟩
  | argument shallow called passed _ ih =>
    obtain ⟨argument, also, here⟩ := exists_mem_of_forall₂ (respelled.argumentNodes called) passed
    obtain ⟨counterpart, reads, corresponds⟩ := ih here
    exact ⟨counterpart, .argument shallow (respelled.kind_eq ▸ called) also reads, corresponds⟩

theorem legible_of_legible (respelled : Respelled SameValue first second) {depth : Nat}
    (legible : Legible depth second) : Legible depth first := by
  intro literal reads
  obtain ⟨counterpart, also, corresponds⟩ := respelled.exists_reads reads
  have value_eq : literal.stringValue = counterpart.stringValue :=
    corresponds.related reads.mem_preorder.2
  rw [value_eq]
  exact legible counterpart also

/-- Literals with the same values can be read in the same calls. -/
theorem legible_iff (respelled : Respelled SameValue first second) (depth : Nat) :
    Legible depth first ↔ Legible depth second := by
  refine ⟨fun legible => ?_, respelled.legible_of_legible⟩
  have reversed : Respelled SameValue second first :=
    respelled.symm.mono fun literal counterpart _ related => Eq.symm related
  exact reversed.legible_of_legible legible

theorem calleeName?_eq (respelled : Respelled SameValue first second)
    (called : first.kind = "call_expression") : first.calleeName? = second.calleeName? := by
  rw [calleeName?, calleeName?]
  rcases cases_of_optionRel (respelled.child? (by rw [called]; decide) "function") with
    ⟨absent, also⟩ | ⟨callee, counterpart, found, also, corresponds⟩
  · rw [absent, also]
  · have here := corresponds.unwrap
    rw [found, also, Option.bind_some, Option.bind_some, ← here.kind_eq]
    by_cases named : callee.unwrap.kind = "identifier"
    · rw [if_pos named, if_pos named, here.text_eq (by rw [named]; decide)]
    · rw [if_neg named, if_neg named]

theorem firstArgument? (respelled : Respelled SameValue first second)
    (called : first.kind = "call_expression") :
    Option.Rel (Respelled SameValue) first.firstArgument? second.firstArgument? := by
  rw [Node.firstArgument?, Node.firstArgument?]
  have passed := respelled.argumentNodes called
  generalize first.argumentNodes = nodes at passed
  generalize second.argumentNodes = others at passed
  cases passed with
  | nil => exact .none
  | cons here => exact .some here.unwrap

theorem literalValue?_eq (respelled : Respelled SameValue first second) :
    first.literalValue? = second.literalValue? := by
  rw [literalValue?, literalValue?, ← respelled.kind_eq]
  by_cases quoted : first.kind = "string"
  · have value_eq : first.stringValue = second.stringValue := respelled.related quoted
    rw [if_pos quoted, if_pos quoted, value_eq]
  · rw [if_neg quoted, if_neg quoted]

theorem actionMention?_request (respelled : Respelled SameValue first second) :
    first.actionMention?.map Mention.request = second.actionMention?.map Mention.request := by
  rw [actionMention?, actionMention?]
  rcases cases_of_optionRel respelled.pairValue? with
    ⟨absent, also⟩ | ⟨value, counterpart, found, also, corresponds⟩
  · rw [absent, also]
  · rw [found, also, Option.bind_some, Option.bind_some, ← corresponds.unwrap.literalValue?_eq]
    cases value.unwrap.literalValue? with
    | none => rfl
    | some text =>
      simp only [Option.bind_some, Option.map_map]
      rfl

/-- A call mentions the same modules when its literals have the same values. -/
theorem mentions_request (respelled : Respelled SameValue first second)
    (called : first.kind = "call_expression") :
    first.mentions.map Mention.request = second.mentions.map Mention.request := by
  rw [mentions, mentions, ← respelled.calleeName?_eq called]
  rcases cases_of_optionRel (respelled.firstArgument? called) with
    ⟨absent, also⟩ | ⟨argument, counterpart, found, also, corresponds⟩
  · rw [absent, also]
  · rw [found, also]
    simp only [← corresponds.kind_eq]
    by_cases getter : first.calleeName? = some "mapGetters"
    · rw [if_pos getter, if_pos getter, getterMention?, getterMention?,
        ← corresponds.literalValue?_eq]
      cases argument.literalValue? <;> rfl
    · rw [if_neg getter, if_neg getter]
      by_cases action : first.calleeName? = some "mapActions" ∧ argument.kind = "object"
      · rw [if_pos action, if_pos action]
        have members := corresponds.meaningfulChildren (by rw [action.2]; decide)
        rw [List.map_filterMap, List.map_filterMap]
        generalize argument.meaningfulChildren = nodes at members
        generalize counterpart.meaningfulChildren = others at members
        induction members with
        | nil => rfl
        | cons here _ ih =>
          rw [List.filterMap_cons, List.filterMap_cons, ih, here.actionMention?_request]
      · rw [if_neg action, if_neg action]

/-- A catch clause has as many statements as its counterpart. -/
theorem statementCount_eq (respelled : Respelled SameValue first second)
    (caught : first.kind = "catch_clause") :
    first.lowerCatch.statementCount = second.lowerCatch.statementCount := by
  rw [lowerCatch, lowerCatch]
  rcases cases_of_optionRel (respelled.child? (by rw [caught]; decide) "body") with
    ⟨absent, also⟩ | ⟨body, counterpart, found, also, corresponds⟩
  · rw [absent, also]
  · have unquoted := respelled.unquoted_of_body caught found
    rw [found, also]
    exact (corresponds.meaningfulChildren unquoted).length_eq

end Respelled

end ModuleFence.Node
