import ModuleFence.Proofs.Expression.Parentheses
import ModuleFence.Proofs.Tree.Wrapping

/-!
Lowering of trees with further parentheses. Parentheses around an operand are lowered to what the
operand is lowered to, and so every node around them is lowered to what it was.
-/

set_option autoImplicit false

namespace ModuleFence.Node

variable {child other first second : Node}

theorem lowerAt_inRole (depth : Nat) (field : Option String) (node : Node) :
    lowerAt depth (node.inRole field) = lowerAt depth node := by
  rw [lowerAt_eq, lowerAt_eq, lowerSole_eq, lowerSole_eq]
  rfl

/-- Parentheses around an operand are lowered as the operand, its range included. -/
theorem Encloses.lowerAt_eq {operand outer : Node} (encloses : Encloses operand outer) (depth : Nat) :
    lowerAt depth operand = lowerAt depth outer := by
  obtain ⟨field, single⟩ := encloses.meaningfulChildren_eq
  have within : outer.inner? = some (operand.inRole field) :=
    inner?_of_single encloses.parentheses (by rw [single]; exact List.mem_singleton.mpr rfl)
      (by rw [single]; rfl)
  rw [lowerAt_of_inner? within, lowerAt_inRole]

section Retexted

variable (retexted : ∃ text, second.label = { first.label with text := text })

include retexted

theorem kind_of_retexted : second.kind = first.kind := by
  obtain ⟨text, label_eq⟩ := retexted
  rw [kind, label_eq]
  rfl

theorem span_of_retexted : second.span = first.span := by
  obtain ⟨text, label_eq⟩ := retexted
  rw [span, label_eq]
  rfl

theorem isDamage_of_retexted : second.isDamage = first.isDamage := by
  rw [isDamage, isDamage, kind_of_retexted retexted]
  obtain ⟨text, label_eq⟩ := retexted
  rw [label_eq]

theorem hasError_of_retexted : second.label.hasError = first.label.hasError := by
  obtain ⟨text, label_eq⟩ := retexted
  rw [label_eq]

end Retexted

/-- A node with further parentheses in it is lowered as it was, in whatever place it stands. -/
structure Keeps (first second : Node) : Prop where
  label_eq : ∃ text, second.label = { first.label with text := text }
  lowerAt_eq : ∀ depth, lowerAt depth first = lowerAt depth second
  lowerMember_eq : ∀ depth, lowerMember depth first = lowerMember depth second
  lowerArguments_eq : ∀ depth, lowerArguments depth first = lowerArguments depth second
  propertyKey_eq : propertyKey (some first) = propertyKey (some second)
  count_eq : first.meaningfulChildren.length = second.meaningfulChildren.length
  lowerCallAt_eq : first.kind = "call_expression" → ∀ depth,
    lowerCallAt depth first = lowerCallAt depth second
  lowerCatch_eq : first.kind = "catch_clause" → first.lowerCatch = second.lowerCatch

namespace Keeps

variable (keeps : Keeps first second)

include keeps

theorem kind_eq : second.kind = first.kind :=
  kind_of_retexted keeps.label_eq

theorem span_eq : second.span = first.span :=
  span_of_retexted keeps.label_eq

theorem field_eq : second.label.field = first.label.field := by
  obtain ⟨text, label_eq⟩ := keeps.label_eq
  rw [label_eq]

theorem isNamed_eq : second.label.isNamed = first.label.isNamed := by
  obtain ⟨text, label_eq⟩ := keeps.label_eq
  rw [label_eq]

theorem isMeaningful_eq : second.isMeaningful = first.isMeaningful := by
  rw [isMeaningful, isMeaningful, keeps.kind_eq, keeps.isNamed_eq]

end Keeps

/-- A node stands for a child of a node of some kind: an operand may stand in parentheses, and any other
child has parentheses at most in it. -/
structure StandsFor (kind : String) (child other : Node) : Prop where
  field_eq : other.label.field = child.label.field
  isMeaningful_eq : other.isMeaningful = child.isMeaningful
  lowerAt_eq : ∀ depth, lowerAt depth child = lowerAt depth other
  keeps : ¬ IsOperand kind child → Keeps child other

theorem Encloses.standsFor {kind : String} (encloses : Encloses child other)
    (place : IsOperand kind child) : StandsFor kind child other where
  field_eq := encloses.field_eq
  isMeaningful_eq := encloses.isMeaningful.trans encloses.meaningful.symm
  lowerAt_eq := encloses.lowerAt_eq
  keeps := fun free => absurd place free

theorem Keeps.standsFor (kind : String) (keeps : Keeps child other) : StandsFor kind child other where
  field_eq := keeps.field_eq
  isMeaningful_eq := keeps.isMeaningful_eq
  lowerAt_eq := keeps.lowerAt_eq
  keeps := fun _ => keeps

namespace StandsFor

variable {kind : String} (stands : StandsFor kind child other)

include stands

/-- A child in a role in which no operand of its parent stands. -/
theorem keeps_of_role {name : String} (plays : child.hasField name = true)
    (call : kind = "call_expression" → name ≠ "function") (list : kind ≠ "arguments")
    (value : name ≠ "value") : Keeps child other := by
  refine stands.keeps fun place => ?_
  have role : child.label.field = some name := beq_iff_eq.mp plays
  rw [IsOperand, role] at place
  rcases place with ⟨called, same⟩ | listed | ⟨-, same⟩
  · exact call called (Option.some.inj same)
  · exact list listed
  · exact value (Option.some.inj same)

theorem keeps_of_kind (free : kind ∉ operandKinds) : Keeps child other :=
  stands.keeps fun place => free place.mem_operandKinds

end StandsFor

theorem map_sole?_of_map_eq {α : Type} {elements others : List Node} {view : Node → α}
    (same : elements.map view = others.map view) :
    (sole? elements).map view = (sole? others).map view := by
  cases elements with
  | nil =>
    rw [List.map_eq_nil_iff.mp same.symm]
  | cons first rest =>
    obtain ⟨other, behind, rfl, here, later⟩ := List.map_eq_cons_iff.mp same.symm
    have alone : behind = [] ↔ rest = [] := by
      rw [← List.map_eq_nil_iff, later, List.map_eq_nil_iff]
    rw [sole?_cons, sole?_cons]
    by_cases single : rest = []
    · rw [if_pos single, if_pos (alone.mpr single), Option.map_some, Option.map_some, here]
    · rw [if_neg single, if_neg (mt alone.mp single)]

/-- Two nodes are the same but for their text and for one child, in whose place another node stands
for it. -/
inductive Renews (first second : Node) : Prop where
  | child {before after : List Node} {child other : Node} (text : String)
      (children_eq : first.children = before ++ child :: after)
      (others_eq : second.children = before ++ other :: after)
      (label_eq : second.label = { first.label with text := text })
      (compound : first.kind ∉ textKinds) (stands : StandsFor first.kind child other) :
      Renews first second

namespace Renews

variable (renews : Renews first second)

include renews

theorem label_eq : ∃ text, second.label = { first.label with text := text } := by
  cases renews with
  | child text _ _ label_eq => exact ⟨text, label_eq⟩

theorem compound : first.kind ∉ textKinds := by
  cases renews with
  | child _ _ _ _ compound => exact compound

theorem kind_eq : second.kind = first.kind :=
  kind_of_retexted renews.label_eq

theorem span_eq : second.span = first.span :=
  span_of_retexted renews.label_eq

theorem map_child? {α : Type} (name : String) (view : Node → α)
    (same : ∀ child other, StandsFor first.kind child other → child.hasField name = true →
      view child = view other) :
    (first.child? name).map view = (second.child? name).map view := by
  obtain ⟨text, children_eq, others_eq, -, -, stands⟩ := renews
  rw [child?, child?, children_eq, others_eq]
  exact map_withField?_of_replaced view stands.field_eq (same _ _ stands)

theorem map_meaningfulChildren {α : Type} (view : Node → α)
    (same : ∀ child other, StandsFor first.kind child other → view child = view other) :
    first.meaningfulChildren.map view = second.meaningfulChildren.map view := by
  obtain ⟨text, children_eq, others_eq, -, -, stands⟩ := renews
  rw [meaningfulChildren, meaningfulChildren, children_eq, others_eq]
  exact map_filter_of_replaced view stands.isMeaningful_eq fun _ => same _ _ stands

theorem lowerArguments_eq (depth : Nat) :
    lowerArguments depth first = lowerArguments depth second := by
  rw [lowerArguments, lowerArguments, asOther, asOther, renews.kind_eq, renews.span_eq,
    mapM_of_map_eq (renews.map_meaningfulChildren (lowerAt depth) fun _ _ stands =>
      stands.lowerAt_eq depth)]

theorem propertyKey_child?_eq {name : String} (call : name ≠ "function") (value : name ≠ "value")
    (list : first.kind ≠ "arguments") :
    propertyKey (first.child? name) = propertyKey (second.child? name) := by
  have keys := renews.map_child? name (fun key => propertyKey (some key)) fun _ _ stands plays =>
    (stands.keeps_of_role plays (fun _ => call) list value).propertyKey_eq
  have keyed (key : Option Node) : propertyKey key =
      (key.map fun key => propertyKey (some key)).getD (.ok none) := by
    cases key <;> rfl
  rw [keyed, keys, ← keyed]

theorem lowerCallAt_eq (called : first.kind = "call_expression") (depth : Nat) :
    lowerCallAt depth first = lowerCallAt depth second := by
  have callees := renews.map_child? "function" (lowerAt (depth + 1)) fun _ _ stands _ =>
    stands.lowerAt_eq _
  have lists := renews.map_child? "arguments" (lowerArguments (depth + 1)) fun _ _ stands plays =>
    (stands.keeps_of_role plays (fun _ => by decide) (by rw [called]; decide)
      (by decide)).lowerArguments_eq _
  rw [Node.lowerCallAt_eq, Node.lowerCallAt_eq, renews.span_eq, optionMapM_of_map_eq callees,
    optionMapM_of_map_eq lists]

theorem lowerCatch_eq (caught : first.kind = "catch_clause") :
    first.lowerCatch = second.lowerCatch := by
  have bodies := renews.map_child? "body"
    (fun body => (body.meaningfulChildren.length, body.span)) fun _ _ stands plays =>
      have keeps := stands.keeps_of_role plays (fun _ => by decide) (by rw [caught]; decide)
        (by decide)
      Prod.ext keeps.count_eq keeps.span_eq.symm
  have clause (node : Node) : node.lowerCatch =
      match (node.child? "body").map fun body => (body.meaningfulChildren.length, body.span) with
      | none => ⟨0, node.span, node.span⟩
      | some (count, span) => ⟨count, span, node.span⟩ := by
    rw [lowerCatch]
    cases node.child? "body" <;> rfl
  rw [clause, clause, bodies, renews.span_eq]

theorem lowerMember_eq (depth : Nat) : lowerMember depth first = lowerMember depth second := by
  rw [Node.lowerMember_eq, Node.lowerMember_eq, renews.kind_eq, renews.span_eq]
  by_cases paired : first.kind = "pair"
  · have values := renews.map_child? "value" (lowerAt depth) fun _ _ stands _ =>
      stands.lowerAt_eq _
    rw [if_pos paired, if_pos paired, optionMapM_of_map_eq values,
      renews.propertyKey_child?_eq (by decide) (by decide) (by rw [paired]; decide)]
  have long : first.kind ≠ "shorthand_property_identifier" := fun short =>
    renews.compound (by rw [short]; decide)
  rw [if_neg paired, if_neg paired, if_neg long, if_neg long]
  by_cases method : first.kind = "method_definition"
  · rw [if_pos method, if_pos method,
      renews.propertyKey_child?_eq (by decide) (by decide) (by rw [method]; decide)]
  · rw [if_neg method, if_neg method]

theorem lowerAt_eq (depth : Nat) : lowerAt depth first = lowerAt depth second := by
  -- The texts of the two nodes may differ, so that no kind may matter whose text is read.
  have unnamed : first.kind ≠ "identifier" := fun named =>
    renews.compound (by rw [named]; decide)
  have unquoted : first.kind ≠ "string" := fun quoted =>
    renews.compound (by rw [quoted]; decide)
  have other : first.asOther = second.asOther := by
    rw [asOther, asOther, renews.kind_eq, renews.span_eq]
  by_cases parentheses : first.kind = "parenthesized_expression"
  · have inner := map_sole?_of_map_eq (renews.map_meaningfulChildren (lowerAt depth)
      fun _ _ stands => stands.lowerAt_eq depth)
    rw [lowerAt_of_parentheses depth first parentheses,
      lowerAt_of_parentheses depth second (renews.kind_eq.trans parentheses), other, inner?, inner?,
      renews.kind_eq, if_pos parentheses, if_pos parentheses, optionMapM_of_map_eq inner]
  rw [Node.lowerAt_eq, Node.lowerAt_eq, renews.kind_eq, other, if_neg parentheses,
    if_neg parentheses, if_neg unnamed, if_neg unnamed, if_neg unquoted, if_neg unquoted]
  by_cases braced : first.kind = "object"
  · have members := renews.map_meaningfulChildren (lowerMember (depth + 1)) fun _ _ stands =>
      (stands.keeps_of_kind (by rw [braced]; decide)).lowerMember_eq _
    rw [if_pos braced, if_pos braced, renews.span_eq, mapM_of_map_eq members]
  rw [if_neg braced, if_neg braced]
  by_cases called : first.kind = "call_expression"
  · rw [if_pos called, if_pos called, renews.lowerCallAt_eq called]
  · rw [if_neg called, if_neg called]

/-- A node keeps what it is lowered to if a child keeps its own. -/
theorem keeps : Keeps first second where
  label_eq := renews.label_eq
  lowerAt_eq := renews.lowerAt_eq
  lowerMember_eq := renews.lowerMember_eq
  lowerArguments_eq := renews.lowerArguments_eq
  propertyKey_eq := by
    have unnamed : first.kind ≠ "property_identifier" := fun named =>
      renews.compound (by rw [named]; decide)
    have unquoted : first.kind ≠ "string" := fun quoted =>
      renews.compound (by rw [quoted]; decide)
    rw [propertyKey, propertyKey, renews.kind_eq, if_neg unnamed, if_neg unnamed, if_neg unquoted,
      if_neg unquoted]
  count_eq := by
    have marks := renews.map_meaningfulChildren (fun _ => ()) fun _ _ _ => rfl
    simpa using congrArg List.length marks
  lowerCallAt_eq := renews.lowerCallAt_eq
  lowerCatch_eq := renews.lowerCatch_eq

end Renews

namespace Wraps

/-- A step renews one child of a node: it puts parentheses around it, or around an operand in it. -/
theorem renews (wraps : Wraps first second) : Renews first second := by
  -- The induction goes down to the operand; at each node above it, its child keeps all that counts.
  induction wraps with
  | operand place encloses text =>
    exact .child text rfl rfl rfl place.compound (encloses.standsFor place)
  | inside compound _ text ih => exact .child text rfl rfl rfl compound (ih.keeps.standsFor _)

/-- Further parentheses around an operand somewhere in a tree change nothing about what any node around
them is lowered to. -/
theorem keeps (wraps : Wraps first second) : Keeps first second :=
  wraps.renews.keeps

theorem exists_child (wraps : Wraps first second) :
    ∃ before after child other, first.children = before ++ child :: after ∧
      second.children = before ++ other :: after ∧
      (IsOperand first.kind child ∧ Encloses child other ∨ Wraps child other) := by
  cases wraps with
  | operand place encloses => exact ⟨_, _, _, _, rfl, rfl, .inl ⟨place, encloses⟩⟩
  | inside _ wraps => exact ⟨_, _, _, _, rfl, rfl, .inr wraps⟩

end Wraps

end ModuleFence.Node
