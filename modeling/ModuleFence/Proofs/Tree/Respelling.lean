import Mathlib.Data.List.Forall2
import ModuleFence.Proofs.Tree.Nesting

/-!
Trees that differ in the spelling of their string literals. Their other nodes correspond to one
another, each with its counterpart's kind and role; where they stand is left open, as longer spellings
move what comes behind them.
-/

set_option autoImplicit false

namespace ModuleFence.Node

/-- The kinds of nodes whose text names something. -/
def namingKinds : List String :=
  ["identifier", "property_identifier", "shorthand_property_identifier"]

/-- Two nodes are of the same kind and play the same part in their parents. -/
structure SamePart (first second : Node) : Prop where
  kind_eq : first.kind = second.kind
  isNamed_eq : first.label.isNamed = second.label.isNamed
  field_eq : first.label.field = second.label.field

/-- No call and no catch clause lies below a node. -/
def IsPlain (node : Node) : Prop :=
  ∀ inner ∈ node.descendants, inner.kind ≠ "call_expression" ∧ inner.kind ≠ "catch_clause"

instance (node : Node) : Decidable node.IsPlain :=
  inferInstanceAs (Decidable (∀ inner ∈ node.descendants, _ ∧ _))

/-- Two trees are the same apart from places and from the pieces of string literals, which are
related. The body of a catch clause is no literal. -/
inductive Respelled (same : Node → Node → Prop) : Node → Node → Prop where
  | literal {first second : Node} (part : SamePart first second) (quoted : first.kind = "string")
      (plain : first.IsPlain) (also : second.IsPlain) (related : same first second) :
      Respelled same first second
  | other {first second : Node} (part : SamePart first second) (unquoted : first.kind ≠ "string")
      (text_eq : first.kind ∈ namingKinds → first.text = second.text)
      (bodied : first.kind = "catch_clause" → ∀ body ∈ first.child? "body", body.kind ≠ "string")
      (children : List.Forall₂ (Respelled same) first.children second.children) :
      Respelled same first second

theorem SamePart.symm {first second : Node} (part : SamePart first second) :
    SamePart second first :=
  ⟨part.kind_eq.symm, part.isNamed_eq.symm, part.field_eq.symm⟩

/-- Elements that correspond to one another are related when each element of the first list is
related to its counterparts. -/
theorem forall₂_imp_of_mem {α β : Type} {before after : α → β → Prop} {first : List α}
    {second : List β} (related : List.Forall₂ before first second)
    (step : ∀ element ∈ first, ∀ counterpart, before element counterpart →
      after element counterpart) : List.Forall₂ after first second := by
  induction related with
  | nil => exact .nil
  | cons here _ ih =>
    rw [List.forall_mem_cons] at step
    exact .cons (step.1 _ here) (ih step.2)

/-- An element has a counterpart in a list of related elements. -/
theorem exists_mem_of_forall₂ {α β : Type} {related : α → β → Prop} {first : List α}
    {second : List β} (all : List.Forall₂ related first second) {element : α}
    (member : element ∈ first) : ∃ counterpart ∈ second, related element counterpart := by
  induction all with
  | nil => exact absurd member List.not_mem_nil
  | cons here _ ih =>
    rcases List.mem_cons.mp member with rfl | later
    · exact ⟨_, List.mem_cons_self, here⟩
    · obtain ⟨counterpart, behind, relates⟩ := ih later
      exact ⟨counterpart, List.mem_cons_of_mem _ behind, relates⟩

theorem map_eq_of_forall₂ {α β : Type} {view : α → β} {first second : List α}
    (same : List.Forall₂ (fun element counterpart => view element = view counterpart) first second) :
    first.map view = second.map view := by
  induction same with
  | nil => rfl
  | cons here _ ih => rw [List.map_cons, List.map_cons, here, ih]

/-- Related options are both empty, or hold related elements. -/
theorem cases_of_optionRel {α β : Type} {related : α → β → Prop} {first : Option α}
    {second : Option β} (both : Option.Rel related first second) :
    first = none ∧ second = none ∨
      ∃ element counterpart, first = some element ∧ second = some counterpart ∧
        related element counterpart := by
  cases both with
  | none => exact .inl ⟨rfl, rfl⟩
  | some here => exact .inr ⟨_, _, rfl, rfl, here⟩

theorem exists_of_optionRel {α β : Type} {related : α → β → Prop} {first : Option α}
    {second : Option β} (both : Option.Rel related first second) {element : α}
    (found : first = some element) :
    ∃ counterpart, second = some counterpart ∧ related element counterpart := by
  subst found
  cases both with
  | some here => exact ⟨_, rfl, here⟩

namespace Respelled

variable {same : Node → Node → Prop} {first second : Node}

theorem part (respelled : Respelled same first second) : SamePart first second := by
  cases respelled with
  | literal part => exact part
  | other part => exact part

theorem kind_eq (respelled : Respelled same first second) : first.kind = second.kind :=
  respelled.part.kind_eq

theorem isMeaningful_eq (respelled : Respelled same first second) :
    first.isMeaningful = second.isMeaningful := by
  rw [isMeaningful, isMeaningful, respelled.kind_eq, respelled.part.isNamed_eq]

theorem hasField_eq (respelled : Respelled same first second) (name : String) :
    first.hasField name = second.hasField name := by
  rw [hasField, hasField, respelled.part.field_eq]

/-- Corresponding literals are related. -/
theorem related (respelled : Respelled same first second) (quoted : first.kind = "string") :
    same first second := by
  cases respelled with
  | literal _ _ _ _ related => exact related
  | other _ unquoted => exact absurd quoted unquoted

theorem unquoted_of_body (respelled : Respelled same first second)
    (caught : first.kind = "catch_clause") {body : Node} (found : first.child? "body" = some body) :
    body.kind ≠ "string" := by
  cases respelled with
  | literal _ quoted =>
    rw [caught] at quoted
    exact absurd quoted (by decide)
  | other _ _ _ bodied => exact bodied caught body found

theorem text_eq (respelled : Respelled same first second) (naming : first.kind ∈ namingKinds) :
    first.text = second.text := by
  cases respelled with
  | literal _ quoted =>
    rw [quoted] at naming
    exact absurd naming (by decide)
  | other _ _ text_eq => exact text_eq naming

/-- The first nodes with a role correspond to one another. -/
theorem withField? {nodes others : List Node}
    (corresponding : List.Forall₂ (Respelled same) nodes others) (name : String) :
    Option.Rel (Respelled same) (Node.withField? name nodes) (Node.withField? name others) := by
  rw [Node.withField?, Node.withField?]
  induction corresponding with
  | nil => exact .none
  | @cons child counterpart rest others here _ ih =>
    rw [List.find?_cons, List.find?_cons, ← here.hasField_eq]
    cases child.hasField name with
    | true => exact .some here
    | false => exact ih

theorem symm (respelled : Respelled same first second) :
    Respelled (fun second first => same first second) second first := by
  induction first using induction_children generalizing second with
  | step first ih =>
    cases respelled with
    | literal part quoted plain also related =>
      exact .literal part.symm (part.kind_eq ▸ quoted) also plain related
    | other part unquoted text_eq bodied children =>
      refine .other part.symm (part.kind_eq ▸ unquoted) ?_ ?_ ?_
      · exact fun naming => (text_eq (part.kind_eq ▸ naming)).symm
      · intro caught other found
        rw [Option.mem_def, Node.child?] at found
        rcases cases_of_optionRel (withField? children "body") with
          ⟨-, absent⟩ | ⟨body, counterpart, inside, also, here⟩
        · rw [absent] at found
          cases found
        · rw [also] at found
          cases found
          rw [← here.kind_eq]
          exact bodied (part.kind_eq.trans caught) body inside
      · refine List.Forall₂.flip (forall₂_imp_of_mem children ?_)
        exact fun child member counterpart respelled => ih child member respelled

theorem mono {weaker : Node → Node → Prop}
    (implies : ∀ literal counterpart, literal.kind = "string" → same literal counterpart →
      weaker literal counterpart) (respelled : Respelled same first second) :
    Respelled weaker first second := by
  induction first using induction_children generalizing second with
  | step first ih =>
    cases respelled with
    | literal part quoted plain also related =>
      exact .literal part quoted plain also (implies first second quoted related)
    | other part unquoted text_eq bodied children =>
      refine .other part unquoted text_eq bodied (forall₂_imp_of_mem children ?_)
      exact fun child member counterpart respelled => ih child member respelled

section Unquoted

variable (respelled : Respelled same first second) (unquoted : first.kind ≠ "string")

include respelled unquoted

theorem children : List.Forall₂ (Respelled same) first.children second.children := by
  cases respelled with
  | literal _ quoted => exact absurd quoted unquoted
  | other _ _ _ _ children => exact children

theorem meaningfulChildren :
    List.Forall₂ (Respelled same) first.meaningfulChildren second.meaningfulChildren := by
  refine List.rel_filter ?_ (respelled.children unquoted)
  intro child counterpart corresponds
  exact Bool.eq_iff_iff.mp corresponds.isMeaningful_eq

theorem child? (name : String) :
    Option.Rel (Respelled same) (first.child? name) (second.child? name) :=
  withField? (respelled.children unquoted) name

end Unquoted

end Respelled

end ModuleFence.Node
