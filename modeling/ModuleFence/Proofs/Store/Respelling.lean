import ModuleFence.Proofs.Rule.Respelling
import ModuleFence.Proofs.Store.Exports

/-!
Module names of programs whose literals are spelled in other ways, or that stand in other places. As
long as the literals keep their values, the objects that are exported have the same keys.
-/

set_option autoImplicit false

namespace ModuleFence

namespace Node.Respelled

variable {same : Node → Node → Prop} {first second : Node}

theorem keyName?_eq (respelled : Respelled SameValue first second) :
    first.keyName? = second.keyName? := by
  rw [keyName?, keyName?, respelled.kind_eq]
  by_cases plain : second.kind = "property_identifier"
  · have text_eq := respelled.text_eq (by rw [respelled.kind_eq, plain]; decide)
    rw [if_pos plain, if_pos plain, text_eq]
  rw [if_neg plain, if_neg plain]
  by_cases quoted : second.kind = "string"
  · have value_eq : first.stringValue = second.stringValue :=
      respelled.related (respelled.kind_eq.trans quoted)
    rw [if_pos quoted, if_pos quoted, value_eq]
  · rw [if_neg quoted, if_neg quoted]

theorem bind_keyName?_eq {key other : Option Node}
    (corresponding : Option.Rel (Respelled SameValue) key other) :
    key.bind keyName? = other.bind keyName? := by
  cases corresponding with
  | none => rfl
  | some here => exact here.keyName?_eq

theorem memberName?_eq (respelled : Respelled SameValue first second) :
    first.memberName? = second.memberName? := by
  rw [memberName?, memberName?, respelled.kind_eq]
  by_cases paired : second.kind = "pair"
  · have unquoted : first.kind ≠ "string" := by
      rw [respelled.kind_eq, paired]
      decide
    have key_eq := bind_keyName?_eq (respelled.child? unquoted "key")
    rw [if_pos paired, if_pos paired, key_eq]
    rcases cases_of_optionRel (respelled.child? unquoted "value") with
      ⟨absent, also⟩ | ⟨value, counterpart, found, also, -⟩
    · rw [absent, also]
    · rw [found, also]
      rfl
  rw [if_neg paired, if_neg paired]
  by_cases short : second.kind = "shorthand_property_identifier"
  · have text_eq := respelled.text_eq (by rw [respelled.kind_eq, short]; decide)
    rw [if_pos short, if_pos short, text_eq]
  rw [if_neg short, if_neg short]
  by_cases method : second.kind = "method_definition"
  · have unquoted : first.kind ≠ "string" := by
      rw [respelled.kind_eq, method]
      decide
    rw [if_pos method, if_pos method, bind_keyName?_eq (respelled.child? unquoted "name")]
  · rw [if_neg method, if_neg method]

theorem objectKeys_eq (respelled : Respelled SameValue first second)
    (unquoted : first.kind ≠ "string") : first.objectKeys = second.objectKeys := by
  have names : first.meaningfulChildren.map memberName? =
      second.meaningfulChildren.map memberName? :=
    map_eq_of_forall₂ (forall₂_imp_of_mem (respelled.meaningfulChildren unquoted)
      fun _ _ _ corresponds => memberName?_eq corresponds)
  have keys (object : Node) : object.objectKeys =
      (object.meaningfulChildren.map memberName?).filterMap id := by
    rw [objectKeys, List.filterMap_map]
    rfl
  rw [keys, keys, names]

/-- Corresponding values have the same keys when they are lowered, or cannot be lowered alike. -/
theorem keysOf_lower_eq (respelled : Respelled SameValue first second) :
    Store.keysOf <$> first.lower = Store.keysOf <$> second.lower := by
  by_cases legible : Legible 0 first
  · obtain ⟨here, lowered⟩ := (succeeds_lowerAt_iff 0 first).mpr legible
    obtain ⟨there, lowers⟩ := (succeeds_lowerAt_iff 0 second).mpr ((respelled.legible_iff 0).mp legible)
    rw [lower, lower, lowered, lowers]
    refine congrArg Except.ok ?_
    rw [Store.keysOf_of_lowerAt (by decide) lowered, Store.keysOf_of_lowerAt (by decide) lowers,
      ← respelled.unwrap.kind_eq]
    by_cases braced : first.unwrap.kind = "object"
    · rw [if_pos braced, if_pos braced, respelled.unwrap.objectKeys_eq (by rw [braced]; decide)]
    · rw [if_neg braced, if_neg braced]
  · have also : ¬ Legible 0 second := mt (respelled.legible_iff 0).mpr legible
    rw [lower, lower,
      Escape.tooLarge_of_not_succeeds (mt (succeeds_lowerAt_iff 0 first).mp legible),
      Escape.tooLarge_of_not_succeeds (mt (succeeds_lowerAt_iff 0 second).mp also)]

end Node.Respelled

namespace Store

open Node (Respelled SameValue cases_of_optionRel)

variable {same : Node → Node → Prop} {first second : Node}

/-- Named children of some kind correspond to named children of this kind. -/
theorem childrenOfKind_of_respelled (respelled : Respelled same first second)
    (unquoted : first.kind ≠ "string") (kind : String) :
    List.Forall₂ (Respelled same) (childrenOfKind kind first) (childrenOfKind kind second) := by
  refine List.rel_filter ?_ (respelled.children unquoted)
  intro child counterpart corresponds
  simp only [corresponds.part.isNamed_eq, corresponds.kind_eq]

theorem kind_of_mem_childrenOfKind {kind : String} {node child : Node}
    (member : child ∈ childrenOfKind kind node) : child.kind = kind := by
  have selected := (List.mem_filter.mp member).2
  simp only [Bool.and_eq_true, decide_eq_true_eq] at selected
  exact selected.2

theorem declaredValue?_of_respelled (respelled : Respelled same first second)
    (declarator : first.kind = "variable_declarator") :
    Option.Rel (Respelled same) (declaredValue? first) (declaredValue? second) := by
  have unquoted : first.kind ≠ "string" := by
    rw [declarator]
    decide
  rw [declaredValue?, declaredValue?]
  rcases cases_of_optionRel (respelled.child? unquoted "name") with
    ⟨absent, also⟩ | ⟨name, counterpart, found, also, here⟩
  · rw [absent, also]
    exact .none
  · rw [found, also, Option.bind_some, Option.bind_some, here.kind_eq]
    split
    · exact respelled.child? unquoted "value"
    · exact .none

theorem initialValue?_of_respelled (respelled : Respelled same first second) :
    Option.Rel (Respelled same) (initialValue? first) (initialValue? second) := by
  have declares : isVariableDeclaration second = isVariableDeclaration first := by
    rw [isVariableDeclaration, isVariableDeclaration, respelled.kind_eq]
  rw [initialValue?_eq, initialValue?_eq, declares]
  by_cases declaration : isVariableDeclaration first = true
  · have unquoted : first.kind ≠ "string" := by
      rcases (isVariableDeclaration_iff first).mp declaration with kind | kind <;> rw [kind] <;>
        decide
    have declarators := childrenOfKind_of_respelled respelled unquoted "variable_declarator"
    rw [if_pos declaration, if_pos declaration]
    rcases cases_of_optionRel (Respelled.sole? declarators) with
      ⟨absent, also⟩ | ⟨declarator, counterpart, found, also, here⟩
    · rw [absent, also]
      exact .none
    · rw [found, also]
      exact declaredValue?_of_respelled here
        (kind_of_mem_childrenOfKind (Node.mem_of_sole?_eq_some found))
  · rw [if_neg declaration, if_neg declaration]
    exact .none

theorem exportedValue?_of_respelled (respelled : Respelled same first second)
    (exports : first.kind = "export_statement") :
    Option.Rel (Respelled same) (exportedValue? first) (exportedValue? second) := by
  have unquoted : first.kind ≠ "string" := by
    rw [exports]
    decide
  rw [exportedValue?, exportedValue?]
  rcases cases_of_optionRel (respelled.child? unquoted "value") with
    ⟨absent, also⟩ | ⟨value, counterpart, found, also, here⟩
  · rw [absent, also]
    rcases cases_of_optionRel (respelled.child? unquoted "declaration") with
      ⟨missing, lacks⟩ | ⟨declaration, other, declares, declared, corresponds⟩
    · rw [missing, lacks]
      exact .none
    · rw [declares, declared]
      exact initialValue?_of_respelled corresponds
  · rw [found, also]
    exact .some here

theorem statementKeys_of_respelled (respelled : Respelled SameValue first second)
    (exports : first.kind = "export_statement") : statementKeys first = statementKeys second := by
  rw [statementKeys, statementKeys]
  rcases cases_of_optionRel (exportedValue?_of_respelled respelled exports) with
    ⟨absent, also⟩ | ⟨value, counterpart, found, also, here⟩
  · rw [absent, also]
  · rw [found, also]
    exact here.keysOf_lower_eq

/-- A program exports the same names in other places, with its literals spelled in other ways. -/
theorem moduleNames_of_respelled (respelled : Respelled SameValue first second)
    (program : first.kind = "program") : moduleNames first = moduleNames second := by
  have statements := childrenOfKind_of_respelled respelled (by rw [program]; decide)
    "export_statement"
  have keys : (childrenOfKind "export_statement" first).map statementKeys =
      (childrenOfKind "export_statement" second).map statementKeys :=
    Node.map_eq_of_forall₂ (Node.forall₂_imp_of_mem statements fun _ member _ corresponds =>
      statementKeys_of_respelled corresponds (kind_of_mem_childrenOfKind member))
  rw [moduleNames_eq, moduleNames_eq, exportStatements, exportStatements, filter_namedChildren,
    filter_namedChildren, mapM_of_map_eq keys]

end Store

end ModuleFence
