import ModuleFence.Proofs.Expression.Wrapping
import ModuleFence.Proofs.Store.Exports

/-!
Module names of programs with further parentheses. A program exports the same names, whatever
parentheses stand around its operands, around exported and initial values above all.
-/

set_option autoImplicit false

namespace ModuleFence

open Node (Wraps IsOperand operandKinds map_withField?_of_replaced map_filter_of_replaced
  map_sole?_of_map_eq sole?)

namespace Store

variable {first second : Node}

theorem lower_declaredValue?_of_wraps (wraps : Wraps first second)
    (declarator : first.kind = "variable_declarator") :
    (declaredValue? first).map Node.lower = (declaredValue? second).map Node.lower := by
  have names := wraps.renews.map_child? "name" Node.kind fun _ _ stands plays =>
    (stands.keeps_of_role plays (fun _ => by decide) (by rw [declarator]; decide)
      (by decide)).kind_eq.symm
  have values := wraps.renews.map_child? "value" Node.lower fun _ _ stands _ =>
    stands.lowerAt_eq 0
  have declared (node : Node) : (declaredValue? node).map Node.lower =
      ((node.child? "name").map Node.kind).bind fun kind =>
        if kind = "identifier" then (node.child? "value").map Node.lower else none := by
    rw [declaredValue?]
    cases node.child? "name" with
    | none => rfl
    | some name =>
      rw [Option.bind_some, Option.map_some, Option.bind_some]
      split <;> rfl
  rw [declared, declared, names, values]

/-- Children that are taken for what they declare or export are taken alike, if parentheses are put in
one of them and their parent takes no operands. -/
theorem map_childrenOfKind_of_wraps {α : Type} (view : Node → α) (kind : String)
    (same : ∀ child other, Wraps child other → child.kind = kind → view child = view other)
    (wraps : Wraps first second) (free : first.kind ∉ operandKinds) :
    (childrenOfKind kind first).map view = (childrenOfKind kind second).map view := by
  obtain ⟨before, after, child, other, children_eq, others_eq, step⟩ := wraps.exists_child
  rcases step with ⟨place, -⟩ | deeper
  · exact absurd place.mem_operandKinds free
  · rw [childrenOfKind, childrenOfKind, children_eq, others_eq]
    refine map_filter_of_replaced view ?_ fun selected => same child other deeper ?_
    · rw [deeper.keeps.isNamed_eq, deeper.keeps.kind_eq]
    · simp only [Bool.and_eq_true, decide_eq_true_eq] at selected
      exact selected.2

theorem lower_initialValue?_of_wraps (wraps : Wraps first second) :
    (initialValue? first).map Node.lower = (initialValue? second).map Node.lower := by
  have declares : isVariableDeclaration second = isVariableDeclaration first := by
    rw [isVariableDeclaration, isVariableDeclaration, wraps.keeps.kind_eq]
  rw [initialValue?_eq, initialValue?_eq, declares]
  split
  · rename_i declaration
    have free : first.kind ∉ operandKinds := by
      rcases (isVariableDeclaration_iff first).mp declaration with kind | kind <;> rw [kind] <;>
        decide
    have values := map_sole?_of_map_eq (map_childrenOfKind_of_wraps
      (fun declarator => (declaredValue? declarator).map Node.lower) "variable_declarator"
      (fun _ _ deeper declarator => lower_declaredValue?_of_wraps deeper declarator) wraps free)
    have joined (declaration : Node) :
        ((sole? (childrenOfKind "variable_declarator" declaration)).bind declaredValue?).map
            Node.lower =
          ((sole? (childrenOfKind "variable_declarator" declaration)).map fun declarator =>
            (declaredValue? declarator).map Node.lower).join := by
      cases sole? (childrenOfKind "variable_declarator" declaration) <;> rfl
    rw [joined, joined]
    exact congrArg Option.join values
  · rfl

theorem statementKeys_of_wraps (wraps : Wraps first second)
    (exports : first.kind = "export_statement") : statementKeys first = statementKeys second := by
  have values := wraps.renews.map_child? "value" Node.lower fun _ _ stands _ =>
    stands.lowerAt_eq 0
  have declared : (first.child? "declaration").map (fun child => (initialValue? child).map Node.lower) =
      (second.child? "declaration").map fun child => (initialValue? child).map Node.lower := by
    obtain ⟨before, after, child, other, children_eq, others_eq, step⟩ := wraps.exists_child
    rw [Node.child?, Node.child?, children_eq, others_eq]
    rcases step with ⟨place, encloses⟩ | deeper
    -- What an export declares is not among its operands.
    · refine map_withField?_of_replaced _ encloses.field_eq fun plays => ?_
      have role : child.label.field = some "declaration" := beq_iff_eq.mp plays
      rw [IsOperand, exports, role] at place
      exact absurd place (by decide)
    · exact map_withField?_of_replaced _ deeper.keeps.field_eq fun _ =>
        lower_initialValue?_of_wraps deeper
  have keys (statement : Node) : statementKeys statement =
      (((statement.child? "value").map Node.lower).or
        ((statement.child? "declaration").map fun child =>
          (initialValue? child).map Node.lower).join).elim (.ok []) (keysOf <$> ·) := by
    rw [statementKeys, exportedValue?]
    cases statement.child? "value" with
    | some value => rfl
    | none =>
      cases statement.child? "declaration" with
      | none => rfl
      | some declaration =>
        simp only [Option.bind_some, Option.map_some]
        cases initialValue? declaration <;> rfl
  rw [keys, keys, values, declared]

/-- A program exports the same names with further parentheses in it. -/
theorem moduleNames_of_wraps (wraps : Wraps first second) (program : first.kind = "program") :
    moduleNames first = moduleNames second := by
  have statements := mapM_of_map_eq (map_childrenOfKind_of_wraps statementKeys "export_statement"
    (fun _ _ deeper exports => statementKeys_of_wraps deeper exports) wraps
    (by rw [program]; decide))
  rw [moduleNames_eq, moduleNames_eq, exportStatements, exportStatements, filter_namedChildren,
    filter_namedChildren, statements]

end Store

end ModuleFence
