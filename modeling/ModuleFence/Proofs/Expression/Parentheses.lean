import ModuleFence.Proofs.Expression.Lowering

set_option autoImplicit false

namespace ModuleFence.Node

/-- A node within layers of parentheses, which are listed from the outermost one on. Each layer has
what stands within it among its meaningful children. -/
inductive Tower : Node → List Node → Node → Prop where
  | bare (core : Node) : Tower core [] core
  | layer {outer next core : Node} {layers : List Node}
      (parentheses : outer.kind = "parenthesized_expression")
      (within : next ∈ outer.meaningfulChildren) (inside : Tower next layers core) :
      Tower outer (outer :: layers) core

variable {outer next core : Node} {layers : List Node}

theorem inner?_of_single (parentheses : outer.kind = "parenthesized_expression")
    (within : next ∈ outer.meaningfulChildren) (single : outer.meaningfulChildren.length = 1) :
    outer.inner? = some next := by
  obtain ⟨only, found⟩ := List.length_eq_one_iff.mp single
  rw [found, List.mem_singleton] at within
  rw [inner?, if_pos parentheses, found, within]
  rfl

theorem inner?_of_crowded (crowded : outer.meaningfulChildren.length ≠ 1) : outer.inner? = none := by
  rw [inner?]
  split
  · cases found : outer.meaningfulChildren with
    | nil => rfl
    | cons first rest =>
      have several : rest ≠ [] := by
        rintro rfl
        exact crowded (congrArg List.length found)
      rw [sole?_cons, if_neg several]
  · rfl

theorem lowerAt_of_inner? (within : outer.inner? = some next) (depth : Nat) :
    lowerAt depth outer = lowerAt depth next := by
  rw [lowerAt_unwrap, unwrap_of_inner? within, ← lowerAt_unwrap]

/-- What holds parentheses that hold none or several nodes is lowered to these parentheses. -/
theorem lowerAt_of_crowded (parentheses : outer.kind = "parenthesized_expression")
    (crowded : outer.meaningfulChildren.length ≠ 1) (depth : Nat) :
    lowerAt depth outer = .ok (.other "parenthesized_expression" outer.span) := by
  rw [lowerAt_of_parentheses depth outer parentheses, inner?_of_crowded crowded, ← parentheses]
  rfl

namespace Tower

/-- Layers that hold one node each come off. -/
theorem unwrap_eq (tower : Tower outer layers core)
    (single : ∀ layer ∈ layers, layer.meaningfulChildren.length = 1) :
    outer.unwrap = core.unwrap := by
  induction tower with
  | bare core => rfl
  | layer parentheses within inside ih =>
    obtain ⟨here, deeper⟩ := List.forall_mem_cons.mp single
    rw [unwrap_of_inner? (inner?_of_single parentheses within here), ih deeper]

theorem lowerAt_eq (tower : Tower outer layers core)
    (single : ∀ layer ∈ layers, layer.meaningfulChildren.length = 1) (depth : Nat) :
    lowerAt depth outer = lowerAt depth core := by
  rw [lowerAt_unwrap, tower.unwrap_eq single, ← lowerAt_unwrap]

/-- The layers that hold one node each come off as far as to the first one that does not. -/
theorem unwrap_of_stuck (tower : Tower outer layers core) {before behind : List Node} {stuck : Node}
    (split : layers ++ [core] = before ++ stuck :: behind)
    (single : ∀ layer ∈ before, layer.meaningfulChildren.length = 1)
    (crowded : stuck.meaningfulChildren.length ≠ 1) : outer.unwrap = stuck := by
  induction tower generalizing before with
  | bare core =>
    cases before with
    | nil =>
      obtain ⟨rfl, -⟩ := List.cons.inj split
      exact unwrap_of_bare (inner?_of_crowded crowded)
    | cons first rest => simp at split
  | layer parentheses within inside ih =>
    cases before with
    | nil =>
      obtain ⟨rfl, -⟩ := List.cons.inj split
      exact unwrap_of_bare (inner?_of_crowded crowded)
    | cons first rest =>
      obtain ⟨rfl, others⟩ := List.cons.inj split
      obtain ⟨here, deeper⟩ := List.forall_mem_cons.mp single
      rw [unwrap_of_inner? (inner?_of_single parentheses within here), ih others deeper]

theorem lowerAt_of_stuck (tower : Tower outer layers core) {before behind : List Node} {stuck : Node}
    (split : layers ++ [core] = before ++ stuck :: behind)
    (single : ∀ layer ∈ before, layer.meaningfulChildren.length = 1)
    (parentheses : stuck.kind = "parenthesized_expression")
    (crowded : stuck.meaningfulChildren.length ≠ 1) (depth : Nat) :
    lowerAt depth outer = .ok (.other "parenthesized_expression" stuck.span) := by
  rw [lowerAt_unwrap, tower.unwrap_of_stuck split single crowded]
  exact lowerAt_of_crowded parentheses crowded depth

end Tower

end ModuleFence.Node
