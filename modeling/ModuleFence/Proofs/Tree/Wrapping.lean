import Mathlib.Logic.Relation
import ModuleFence.Proofs.Tree.Respelling

/-!
Trees with further parentheses. A step puts one pair of parentheses around an operand somewhere in a
tree: a callee, an argument, the value of a property, an exported value or an initial value. What the
parentheses hold beside the operand is neither meaningful nor damaged.
-/

set_option autoImplicit false

namespace ModuleFence.Node

/-- The same node in another role, or in none. -/
def inRole (field : Option String) (node : Node) : Node :=
  mk { node.label with field := field } node.children

/-- What parentheses may hold beside an operand: comments and marks. -/
structure IsFiller (node : Node) : Prop where
  idle : node.isMeaningful = false
  whole : node.isDamage = false
  unflagged : node.label.hasError = false
  quiet : ∀ inner ∈ node.preorder,
    inner.kind ≠ "call_expression" ∧ inner.kind ≠ "catch_clause"

/-- A node is a pair of parentheses around an operand, in the role of the operand. -/
structure Encloses (operand outer : Node) : Prop where
  meaningful : operand.isMeaningful = true
  parentheses : outer.kind = "parenthesized_expression"
  isNamed : outer.label.isNamed = true
  field_eq : outer.label.field = operand.label.field
  present : outer.label.isMissing = false
  hasError_eq : outer.label.hasError = (operand.isDamage || operand.label.hasError)
  holds : ∃ field before after, outer.children = before ++ operand.inRole field :: after ∧
    (∀ filler ∈ before, filler.IsFiller) ∧ ∀ filler ∈ after, filler.IsFiller

/-- A child of a node of some kind is a callee, an argument, or the value of a property, of an export
or of a variable. -/
def IsOperand (kind : String) (child : Node) : Prop :=
  kind = "call_expression" ∧ child.label.field = some "function" ∨
    kind = "arguments" ∨
    kind ∈ ["pair", "export_statement", "variable_declarator"] ∧ child.label.field = some "value"

/-- The kinds of nodes whose text, or the text of whose pieces, has a meaning; no operand stands in
them. -/
def textKinds : List String :=
  "string" :: namingKinds

/-- A tree with one more pair of parentheses around an operand. The nodes around it are as before, but
for their text, in which the parentheses show. -/
inductive Wraps : Node → Node → Prop where
  | operand {label : Label} {before after : List Node} {child outer : Node}
      (place : IsOperand label.kind child) (encloses : Encloses child outer) (text : String) :
      Wraps (mk label (before ++ child :: after))
        (mk { label with text := text } (before ++ outer :: after))
  | inside {label : Label} {before after : List Node} {child other : Node}
      (compound : label.kind ∉ textKinds) (wraps : Wraps child other) (text : String) :
      Wraps (mk label (before ++ child :: after))
        (mk { label with text := text } (before ++ other :: after))

/-- A tree with further pairs of parentheses around operands, none or any number of them. -/
abbrev Wrapped : Node → Node → Prop :=
  Relation.ReflTransGen Wraps

def operandKinds : List String :=
  ["call_expression", "arguments", "pair", "export_statement", "variable_declarator"]

theorem IsOperand.mem_operandKinds {kind : String} {child : Node} (place : IsOperand kind child) :
    kind ∈ operandKinds := by
  rcases place with ⟨rfl, -⟩ | rfl | ⟨listed, -⟩
  · decide
  · decide
  · exact List.mem_cons_of_mem _ (List.mem_cons_of_mem _ listed)

theorem IsOperand.compound {kind : String} {child : Node} (place : IsOperand kind child) :
    kind ∉ textKinds := by
  have apart : ∀ kind ∈ operandKinds, kind ∉ textKinds := by decide
  exact apart kind place.mem_operandKinds

theorem isMeaningful_inRole (field : Option String) (node : Node) :
    (node.inRole field).isMeaningful = node.isMeaningful :=
  rfl

/-- A pair of parentheses around an operand, with a comment behind it. -/
def parenthesized (operand : Node) : Node :=
  mk { operand.label with
      kind := "parenthesized_expression"
      text := ""
      isNamed := true
      isMissing := false
      hasError := operand.isDamage || operand.label.hasError }
    [mk { kind := "(", isNamed := false } [], operand.inRole none, mk { kind := "comment" } [],
      mk { kind := ")", isNamed := false } []]

theorem encloses_parenthesized {operand : Node} (meaningful : operand.isMeaningful = true) :
    Encloses operand operand.parenthesized where
  meaningful := meaningful
  parentheses := rfl
  isNamed := rfl
  field_eq := rfl
  present := rfl
  hasError_eq := rfl
  holds := by
    refine ⟨none, [_], [_, _], rfl, ?_, ?_⟩
    · rw [List.forall_mem_singleton]
      exact ⟨by decide, by decide, rfl, by decide⟩
    · rw [List.forall_mem_cons, List.forall_mem_singleton]
      exact ⟨⟨by decide, by decide, rfl, by decide⟩, ⟨by decide, by decide, rfl, by decide⟩⟩

namespace Encloses

variable {operand outer : Node} (encloses : Encloses operand outer)

include encloses

theorem isMeaningful : outer.isMeaningful = true := by
  rw [Node.isMeaningful, encloses.isNamed, encloses.parentheses]
  decide

/-- Among what stands in the parentheses, the operand alone is meaningful. -/
theorem meaningfulChildren_eq : ∃ field, outer.meaningfulChildren = [operand.inRole field] := by
  obtain ⟨field, before, after, children, first, last⟩ := encloses.holds
  have idle {fillers : List Node} (every : ∀ filler ∈ fillers, filler.IsFiller) :
      fillers.filter Node.isMeaningful = [] :=
    List.filter_eq_nil_iff.mpr fun filler member => by simp [(every filler member).idle]
  refine ⟨field, ?_⟩
  rw [meaningfulChildren, children, List.filter_append, List.filter_cons, idle first, idle last,
    isMeaningful_inRole, if_pos encloses.meaningful]
  rfl

end Encloses

section Replaced

variable {α : Type} {before after : List Node} {child other : Node}

/-- The first node with a role does not change under a function if a node is replaced by one with the
same role and the same value. -/
theorem map_withField?_of_replaced (view : Node → α) {name : String}
    (field_eq : other.label.field = child.label.field)
    (same : child.hasField name = true → view child = view other) :
    (withField? name (before ++ child :: after)).map view =
      (withField? name (before ++ other :: after)).map view := by
  have role : other.hasField name = child.hasField name := by rw [hasField, hasField, field_eq]
  rw [withField?, withField?, List.find?_append, List.find?_append, List.find?_cons,
    List.find?_cons, role]
  cases List.find? (hasField name) before with
  | some found => rfl
  | none =>
    cases played : child.hasField name with
    | true => exact congrArg some (same played)
    | false => rfl

/-- Selected nodes do not change under a function if a node is replaced by one that is selected alike
and has the same value. -/
theorem map_filter_of_replaced (view : Node → α) {select : Node → Bool}
    (alike : select other = select child)
    (same : select child = true → view child = view other) :
    ((before ++ child :: after).filter select).map view =
      ((before ++ other :: after).filter select).map view := by
  rw [List.filter_append, List.filter_append, List.filter_cons, List.filter_cons, alike]
  split
  · rename_i selected
    rw [List.map_append, List.map_append, List.map_cons, List.map_cons, same selected]
  · rfl

end Replaced

end ModuleFence.Node
