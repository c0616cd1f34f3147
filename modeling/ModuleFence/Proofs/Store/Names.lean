import ModuleFence.Proofs.Expression.Reach
import ModuleFence.Store.Names

set_option autoImplicit false

namespace ModuleFence.Store

/-- The values that a program exports, as far as they can be objects. -/
def exportedValues (root : Node) : List Node :=
  (root.namedChildren.filter fun child => child.kind = "export_statement").filterMap exportedValue?

def exportStatements (root : Node) : List Node :=
  root.namedChildren.filter fun child => child.kind = "export_statement"

def childrenOfKind (kind : String) (node : Node) : List Node :=
  node.children.filter fun child => child.label.isNamed && child.kind = kind

theorem filter_namedChildren (kind : String) (node : Node) :
    (node.namedChildren.filter fun child => child.kind = kind) = childrenOfKind kind node := by
  rw [Node.namedChildren, List.filter_filter, childrenOfKind]
  simp only [Bool.and_comm]

/-- The initial value of a variable with a plain name. -/
def declaredValue? (declarator : Node) : Option Node :=
  (declarator.child? "name").bind fun name =>
    if name.kind = "identifier" then declarator.child? "value" else none

theorem initialValue?_eq (declaration : Node) :
    initialValue? declaration =
      if isVariableDeclaration declaration then
        (Node.sole? (childrenOfKind "variable_declarator" declaration)).bind declaredValue?
      else none := by
  rw [initialValue?, filter_namedChildren]
  split
  · match childrenOfKind "variable_declarator" declaration with
    | [] => rfl
    | [declarator] =>
      dsimp only [Node.sole?]
      rw [Option.bind_some, declaredValue?]
      cases declarator.child? "name" <;> rfl
    | _ :: _ :: _ => rfl
  · rfl

theorem namesFrom_eq (names : List Text) (statements : List Node) :
    namesFrom names statements = (fun keys => keys.flatten.foldl appendNew names) <$>
      (statements.filter fun child => child.kind = "export_statement").mapM statementKeys := by
  induction statements generalizing names with
  | nil => rfl
  | cons statement rest ih =>
    rw [namesFrom]
    by_cases exports : statement.kind = "export_statement"
    · rw [if_pos exports, List.filter_cons_of_pos (by simpa using exports), List.mapM_cons]
      cases statementKeys statement with
      | error error => rfl
      | ok keys =>
        refine (ih (keys.foldl appendNew names)).trans ?_
        cases (rest.filter fun child => child.kind = "export_statement").mapM statementKeys with
        | error error => rfl
        | ok others =>
          refine congrArg Except.ok ?_
          simp only [List.flatten_cons, List.foldl_append]
    · rw [if_neg exports, ih, List.filter_cons_of_neg (by simpa using exports)]

/-- The module names of a program are the keys that its statements export, each once. -/
theorem moduleNames_eq (root : Node) :
    moduleNames root = (fun keys => keys.flatten.foldl appendNew []) <$>
      (exportStatements root).mapM statementKeys :=
  namesFrom_eq [] root.namedChildren

theorem succeeds_statementKeys_iff (statement : Node) :
    Succeeds (statementKeys statement) ↔ ∀ value ∈ exportedValue? statement, value.Legible 0 := by
  rw [statementKeys]
  cases exportedValue? statement with
  | none => simp
  | some value =>
    simp only [Option.mem_def, Option.some.injEq, forall_eq']
    rw [← Node.succeeds_lowerAt_iff]
    exact succeeds_map_iff keysOf value.lower

theorem succeeds_namesFrom_iff (names : List Text) (statements : List Node) :
    Succeeds (namesFrom names statements) ↔ ∀ statement ∈ statements,
      statement.kind = "export_statement" → Succeeds (statementKeys statement) := by
  induction statements generalizing names with
  | nil => simp [namesFrom]
  | cons statement rest ih =>
    rw [namesFrom, List.forall_mem_cons]
    by_cases exports : statement.kind = "export_statement"
    · have tail (keys : List Text) := ih (keys.foldl appendNew names)
      rw [if_pos exports, succeeds_bind_iff _ _ _ tail]
      simp only [exports, forall_const]
    · rw [if_neg exports, ih names]
      simp only [exports, false_implies, true_and]

/-- The names of a program are collected unless a literal of an exported value cannot be decoded. -/
theorem succeeds_moduleNames_iff (root : Node) :
    Succeeds (moduleNames root) ↔ ∀ value ∈ exportedValues root, value.Legible 0 := by
  simp only [moduleNames, succeeds_namesFrom_iff, succeeds_statementKeys_iff, exportedValues,
    List.mem_filterMap, List.mem_filter, decide_eq_true_eq]
  constructor
  · rintro legible value ⟨statement, ⟨member, exports⟩, exported⟩
    exact legible statement member exports value exported
  · intro legible statement member exports value exported
    exact legible value ⟨statement, ⟨member, exports⟩, exported⟩

end ModuleFence.Store
