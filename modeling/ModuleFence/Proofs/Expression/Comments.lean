import ModuleFence.Proofs.Expression.Lowering
import ModuleFence.Proofs.Tree.Deletion

set_option autoImplicit false

namespace ModuleFence.Node

theorem filter_without {select : Node → Bool}
    (unchanged : ∀ node, select (without "comment" node) = select node)
    (ignores : ∀ node, select node = true → node.kind ≠ "comment") (node : Node) :
    (without "comment" node).children.filter select =
      (node.children.filter select).map (without "comment") := by
  have same : (select ∘ without "comment") = select := funext unchanged
  rw [children_without, List.filter_map, same, List.filter_filter]
  refine congrArg _ (List.filter_congr fun child _ => ?_)
  cases selected : select child with
  | true => simp only [ignores child selected, ne_eq, not_false_eq_true, decide_true, Bool.and_self]
  | false => rw [Bool.false_and]

theorem meaningfulChildren_without (node : Node) :
    (without "comment" node).meaningfulChildren =
      node.meaningfulChildren.map (without "comment") := by
  refine filter_without (isMeaningful_without "comment") ?_ node
  intro child meaningful
  rw [isMeaningful, Bool.and_eq_true, bne_iff_ne] at meaningful
  exact meaningful.2

theorem inner?_without (node : Node) :
    (without "comment" node).inner? = node.inner?.map (without "comment") := by
  rw [inner?, inner?, kind_without, meaningfulChildren_without]
  split
  · cases node.meaningfulChildren with
    | nil => rfl
    | cons first rest => cases rest <;> rfl
  · rfl

theorem asOther_without (kind : String) (node : Node) :
    (without kind node).asOther = node.asOther := by
  rw [asOther, asOther, span, span, label_without, kind_without]

theorem span_without (kind : String) (node : Node) : (without kind node).span = node.span := by
  rw [span, span, label_without]

namespace Incidental

variable {node : Node} (incidental : node.Incidental "comment")

include incidental

theorem stringValue_without (quoted : node.kind = "string") :
    (without "comment" node).stringValue = node.stringValue := by
  rw [without_of_absent (incidental.unquoted node (self_mem_preorder node) quoted)]

theorem propertyKey_without (name : String) :
    propertyKey ((without "comment" node).child? name) = propertyKey (node.child? name) := by
  rw [incidental.child?_without]
  cases found : node.child? name with
  | none => rfl
  | some key =>
    have keyed := incidental.child (mem_children_of_child? found)
    rw [Option.map_some, propertyKey, propertyKey, kind_without, text_without]
    by_cases quoted : key.kind = "string"
    · rw [keyed.stringValue_without quoted]
    · simp only [quoted, if_false]

/-- A member is lowered to the same when its value is. -/
theorem lowerMember_without {depth : Nat}
    (valued : ∀ value, node.child? "value" = some value →
      lowerAt depth (value.without "comment") = lowerAt depth value) :
    lowerMember depth (node.without "comment") = lowerMember depth node := by
  have value_eq : ((node.without "comment").child? "value").mapM (lowerAt depth) =
      (node.child? "value").mapM (lowerAt depth) := by
    rw [incidental.child?_without]
    exact optionMapM_map_congr valued
  rw [lowerMember_eq, lowerMember_eq, value_eq, incidental.propertyKey_without,
    incidental.propertyKey_without, kind_without, text_without, span_without]

/-- A call is lowered to the same when its callee and its arguments are. -/
theorem lowerCallAt_without {depth : Nat}
    (callees : ∀ callee, node.child? "function" = some callee →
      lowerAt (depth + 1) (callee.without "comment") = lowerAt (depth + 1) callee)
    (arguments : ∀ list, node.child? "arguments" = some list →
      ∀ argument ∈ list.meaningfulChildren,
        lowerAt (depth + 1) (argument.without "comment") = lowerAt (depth + 1) argument) :
    lowerCallAt depth (node.without "comment") = lowerCallAt depth node := by
  have callee_eq : ((node.without "comment").child? "function").mapM (lowerAt (depth + 1)) =
      (node.child? "function").mapM (lowerAt (depth + 1)) := by
    rw [incidental.child?_without]
    exact optionMapM_map_congr callees
  have arguments_eq : ((node.without "comment").child? "arguments").mapM
      (lowerArguments (depth + 1)) =
        (node.child? "arguments").mapM (lowerArguments (depth + 1)) := by
    rw [incidental.child?_without]
    refine optionMapM_map_congr fun list found => ?_
    rw [lowerArguments, lowerArguments, kind_without, asOther_without, meaningfulChildren_without,
      mapM_map_congr (arguments list found)]
  rw [lowerCallAt_eq, lowerCallAt_eq, callee_eq, arguments_eq, span_without]

end Incidental

/-- An expression is lowered to the same without the comments in it. -/
theorem lowerAt_without (depth : Nat) {node : Node} (incidental : node.Incidental "comment") :
    lowerAt depth (node.without "comment") = lowerAt depth node := by
  induction node using induction_below generalizing depth with
  | step node ih =>
    have deeper {child inner : Node} (member : child ∈ node.children)
        (inside : inner ∈ child.preorder) (depth : Nat) :
        lowerAt depth (inner.without "comment") = lowerAt depth inner :=
      ih child member inner inside depth
        (incidental.below (mem_preorder_of_mem_children member inside))
    by_cases parentheses : node.kind = "parenthesized_expression"
    · have inner_eq : ((node.without "comment").inner?).mapM (lowerAt depth) =
          node.inner?.mapM (lowerAt depth) := by
        rw [inner?_without]
        exact optionMapM_map_congr fun inner within =>
          deeper (mem_children_of_inner? within) (self_mem_preorder inner) depth
      rw [lowerAt_of_parentheses depth node parentheses,
        lowerAt_of_parentheses depth _ ((kind_without _ node).trans parentheses), inner_eq,
        asOther_without]
    have call_eq : lowerCallAt depth (node.without "comment") = lowerCallAt depth node := by
      refine incidental.lowerCallAt_without (fun callee function => ?_)
        fun list found argument passed => ?_
      · exact deeper (mem_children_of_child? function) (self_mem_preorder callee) _
      · exact deeper (mem_children_of_child? found)
          (mem_preorder_of_mem_children (mem_children_of_meaningful passed)
            (self_mem_preorder argument)) _
    have members_eq : (node.without "comment").meaningfulChildren.mapM (lowerMember (depth + 1)) =
        node.meaningfulChildren.mapM (lowerMember (depth + 1)) := by
      rw [meaningfulChildren_without]
      refine mapM_map_congr fun member meaningful => ?_
      have child := mem_children_of_meaningful meaningful
      exact (incidental.child child).lowerMember_without fun value valued =>
        deeper child (mem_preorder_of_mem_children (mem_children_of_child? valued)
          (self_mem_preorder value)) _
    have string_eq (quoted : node.kind = "string") :
        (node.without "comment").stringValue = node.stringValue :=
      incidental.stringValue_without quoted
    rw [lowerAt_eq, lowerAt_eq, kind_without, if_neg parentheses, if_neg parentheses, call_eq,
      members_eq, asOther_without, text_without, span_without]
    by_cases quoted : node.kind = "string"
    · rw [string_eq quoted]
    · simp only [quoted, if_false]

/-- A call is shown to rules as the same without the comments in it. -/
theorem lowerCallAt_without (depth : Nat) {node : Node} (incidental : node.Incidental "comment") :
    lowerCallAt depth (node.without "comment") = lowerCallAt depth node :=
  incidental.lowerCallAt_without
    (fun _ function => lowerAt_without _ (incidental.child (mem_children_of_child? function)))
    fun _ found _ passed => lowerAt_without _
      ((incidental.child (mem_children_of_child? found)).child (mem_children_of_meaningful passed))

/-- A catch clause has the same number of statements without the comments in it. -/
theorem lowerCatch_without {node : Node} (incidental : node.Incidental "comment") :
    (node.without "comment").lowerCatch = node.lowerCatch := by
  rw [lowerCatch, lowerCatch, incidental.child?_without]
  cases node.child? "body" with
  | none => simp only [Option.map_none, span_without]
  | some body =>
    simp only [Option.map_some, span_without, meaningfulChildren_without, List.length_map]

end ModuleFence.Node
