import ModuleFence.Proofs.Expression.Reach

/-!
What a lowered expression shows of the nodes inside it. Callees, arguments and the values of pairs
stand one level below the expression that shows them; what stands within parentheses is shown where
the parentheses stand.
-/

set_option autoImplicit false

namespace ModuleFence.Node

/-- The lowered form of a node shows a form of an inner node, some levels below itself. -/
inductive Shows (inner : Node) (form : Expression) : Nat → Node → Expression → Prop where
  | itself : Shows inner form 0 inner form
  | inside {levels : Nat} {node content : Node} {lowered : Expression}
      (within : node.inner? = some content) (shows : Shows inner form levels content lowered) :
      Shows inner form levels node lowered
  | callee {levels : Nat} {node callee : Node} {lowered : Expression}
      {arguments : List Expression} {span : Span} (called : node.kind = "call_expression")
      (function : node.child? "function" = some callee)
      (shows : Shows inner form levels callee lowered) :
      Shows inner form (levels + 1) node (.call lowered arguments span)
  | argument {levels : Nat} {node argument : Node} {callee lowered : Expression}
      {arguments : List Expression} {span : Span} (called : node.kind = "call_expression")
      (passed : (argument, lowered) ∈ node.argumentNodes.zip arguments)
      (shows : Shows inner form levels argument lowered) :
      Shows inner form (levels + 1) node (.call callee arguments span)
  | value {levels : Nat} {node member value : Node} {key : Option Text} {lowered : Expression}
      {place span : Span} {members : List Member} (braced : node.kind = "object")
      (member_mem : (member, Member.pair key lowered place) ∈ node.meaningfulChildren.zip members)
      (paired : member.pairValue? = some value) (shows : Shows inner form levels value lowered) :
      Shows inner form (levels + 1) node (.object members span)

theorem lowerAt_callee {depth : Nat} {node callee : Node} {call : Call}
    (success : lowerCallAt depth node = .ok call) (function : node.child? "function" = some callee) :
    lowerAt (depth + 1) callee = .ok call.callee := by
  rw [lowerCallAt_eq, function, Option.mapM_some] at success
  obtain ⟨callee?, found, rest⟩ := (bind_eq_ok_iff _ _ _).mp success
  obtain ⟨lowered, inside, rfl⟩ := (map_eq_ok_iff _ _ _).mp found
  obtain ⟨arguments, -, rfl⟩ := (map_eq_ok_iff _ _ _).mp rest
  exact inside

/-- A call with an argument list holds what its arguments are lowered to. -/
theorem arguments_of_lowerCallAt {depth : Nat} {node : Node} {call : Call}
    (success : lowerCallAt depth node = .ok call) :
    node.argumentNodes = [] ∨
      node.argumentNodes.mapM (lowerAt (depth + 1)) = .ok call.arguments := by
  rw [lowerCallAt_eq] at success
  obtain ⟨callee?, -, rest⟩ := (bind_eq_ok_iff _ _ _).mp success
  obtain ⟨arguments?, found, rfl⟩ := (map_eq_ok_iff _ _ _).mp rest
  cases role : node.child? "arguments" with
  | none =>
    left
    rw [argumentNodes, role]
  | some list =>
    rw [role, Option.mapM_some] at found
    obtain ⟨arguments, inside, rfl⟩ := (map_eq_ok_iff _ _ _).mp found
    by_cases listed : list.kind = "arguments"
    · right
      rw [lowerArguments, if_pos listed] at inside
      simp only [argumentNodes, role, if_pos listed]
      exact inside
    · left
      simp only [argumentNodes, role, if_neg listed]

theorem lowerAt_argument {depth : Nat} {node argument : Node} {lowered : Expression} {call : Call}
    (success : lowerCallAt depth node = .ok call)
    (passed : (argument, lowered) ∈ node.argumentNodes.zip call.arguments) :
    lowerAt (depth + 1) argument = .ok lowered := by
  rcases arguments_of_lowerCallAt success with none | all
  · rw [none, List.zip_nil_left] at passed
    cases passed
  · exact ok_of_mem_zip all passed

/-- The lowered form of a call shows each of its arguments. -/
theorem exists_shows_argument {depth : Nat} {node argument : Node} {call : Call}
    (called : node.kind = "call_expression") (success : lowerCallAt depth node = .ok call)
    (passed : argument ∈ node.argumentNodes) :
    ∃ form, Shows argument form 1 node call.toExpression := by
  rcases arguments_of_lowerCallAt success with none | all
  · rw [none] at passed
    cases passed
  · obtain ⟨form, aligned⟩ := exists_mem_zip all passed
    exact ⟨form, .argument called aligned .itself⟩

theorem lowerAt_pairValue {depth : Nat} {member value : Node} {key : Option Text}
    {lowered : Expression} {place : Span}
    (success : lowerMember depth member = .ok (.pair key lowered place))
    (paired : member.pairValue? = some value) : lowerAt depth value = .ok lowered := by
  rw [pairValue?] at paired
  split at paired
  · rename_i pair
    rw [lowerMember_eq, if_pos pair, paired, Option.mapM_some] at success
    obtain ⟨value?, found, rest⟩ := (bind_eq_ok_iff _ _ _).mp success
    obtain ⟨expression, inside, rfl⟩ := (map_eq_ok_iff _ _ _).mp found
    obtain ⟨name, -, same⟩ := (map_eq_ok_iff _ _ _).mp rest
    cases same
    exact inside
  · cases paired

/-- A bare node that is not lowered to its kind does not stand too deep. -/
theorem shallow_of_lowerAt {depth : Nat} {node : Node} {lowered : Expression}
    (bare : node.kind ≠ "parenthesized_expression") (success : lowerAt depth node = .ok lowered)
    (known : lowered ≠ node.asOther) : depth ≤ maxLoweringDepth := by
  by_contra deep
  rw [lowerAt_of_deep depth node bare (Nat.lt_of_not_le deep)] at success
  cases success
  exact known rfl

/-- What the lowered form of a node shows of an inner node is the inner node, lowered as many levels
deeper as it is shown at. -/
theorem Shows.lowerAt_eq {inner node : Node} {form lowered : Expression} {levels depth : Nat}
    (shows : Shows inner form levels node lowered) (success : lowerAt depth node = .ok lowered) :
    lowerAt (depth + levels) inner = .ok form := by
  induction shows generalizing depth with
  | itself => exact success
  | inside within _ ih =>
    apply ih
    rw [lowerAt_unwrap, unwrap_of_inner? within, ← lowerAt_unwrap] at success
    exact success
  | callee called function _ ih =>
    have shallow := shallow_of_lowerAt (by rw [called]; decide) success (by rintro ⟨⟩)
    rw [lowerAt_of_call depth _ shallow called] at success
    obtain ⟨call, lowers, same⟩ := (map_eq_ok_iff _ _ _).mp success
    cases same
    rw [← Nat.add_assoc, Nat.add_right_comm]
    exact ih (lowerAt_callee lowers function)
  | argument called passed _ ih =>
    have shallow := shallow_of_lowerAt (by rw [called]; decide) success (by rintro ⟨⟩)
    rw [lowerAt_of_call depth _ shallow called] at success
    obtain ⟨call, lowers, same⟩ := (map_eq_ok_iff _ _ _).mp success
    cases same
    rw [← Nat.add_assoc, Nat.add_right_comm]
    exact ih (lowerAt_argument lowers passed)
  | value braced member_mem paired _ ih =>
    have shallow := shallow_of_lowerAt (by rw [braced]; decide) success (by rintro ⟨⟩)
    rw [lowerAt_of_object depth _ shallow braced] at success
    obtain ⟨members, lowers, same⟩ := (map_eq_ok_iff _ _ _).mp success
    cases same
    rw [← Nat.add_assoc, Nat.add_right_comm]
    exact ih (lowerAt_pairValue (ok_of_mem_zip lowers member_mem) paired)

end ModuleFence.Node
