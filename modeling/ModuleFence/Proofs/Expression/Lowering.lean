import ModuleFence.Expression.Lowering
import ModuleFence.Proofs.Success
import ModuleFence.Proofs.Tree.Order

/-!
What lowering does with each kind of node, said of the node's children. Parentheses around a single
meaningful node are no part of an expression: lowering a node is lowering what stands within them.
-/

set_option autoImplicit false

namespace ModuleFence.Node

def sole? : List Node → Option Node
  | [node] => some node
  | _ => none

/-- What stands within parentheses that hold one meaningful node. -/
def inner? (node : Node) : Option Node :=
  if node.kind = "parenthesized_expression" then sole? node.meaningfulChildren else none

theorem mem_of_sole?_eq_some {nodes : List Node} {node : Node} (found : sole? nodes = some node) :
    node ∈ nodes := by
  match nodes, found with
  | [_], rfl => exact List.mem_singleton.mpr rfl

theorem mem_children_of_inner? {node inner : Node} (within : node.inner? = some inner) :
    inner ∈ node.children := by
  unfold inner? at within
  split at within
  · exact mem_children_of_meaningful (mem_of_sole?_eq_some within)
  · cases within

/-- A node without the parentheses around it, as far as they hold one meaningful node. -/
def unwrap (node : Node) : Node :=
  match _within : node.inner? with
  | some inner => inner.unwrap
  | none => node
termination_by node.size
decreasing_by exact size_lt_of_mem_children (mem_children_of_inner? _within)

theorem unwrap_of_inner? {node inner : Node} (within : node.inner? = some inner) :
    node.unwrap = inner.unwrap := by
  rw [unwrap]
  split
  · rename_i other found
    rw [within] at found
    cases found
    rfl
  · rename_i none
    rw [within] at none
    cases none

theorem unwrap_of_bare {node : Node} (bare : node.inner? = none) : node.unwrap = node := by
  rw [unwrap]
  split
  · rename_i inner found
    rw [bare] at found
    cases found
  · rfl

theorem inner?_of_kind {node : Node} (other : node.kind ≠ "parenthesized_expression") :
    node.inner? = none := by
  rw [inner?, if_neg other]

theorem inner?_unwrap (node : Node) : node.unwrap.inner? = none := by
  induction node using induction_children with
  | step node ih =>
    cases within : node.inner? with
    | none => rwa [unwrap_of_bare within]
    | some inner =>
      rw [unwrap_of_inner? within]
      exact ih inner (mem_children_of_inner? within)

theorem unwrap_mem_preorder (node : Node) : node.unwrap ∈ node.preorder := by
  induction node using induction_children with
  | step node ih =>
    cases within : node.inner? with
    | none =>
      rw [unwrap_of_bare within]
      exact self_mem_preorder node
    | some inner =>
      have child := mem_children_of_inner? within
      rw [unwrap_of_inner? within]
      exact mem_preorder_of_mem_children child (ih inner child)

theorem sole?_cons (node : Node) (rest : List Node) :
    sole? (node :: rest) = if rest = [] then some node else none := by
  cases rest <;> rfl

theorem lowerSole_eq (depth : Nat) (nodes : List Node) :
    lowerSole depth nodes = (sole? (nodes.filter isMeaningful)).mapM (lowerAt depth) := by
  induction nodes with
  | nil => rw [lowerSole]; rfl
  | cons node rest ih =>
    rw [lowerSole, List.filter_cons]
    by_cases meaningful : node.isMeaningful
    · have others : rest.any isMeaningful = true ↔ ¬ rest.filter isMeaningful = [] := by
        simp only [List.any_eq_true, List.filter_eq_nil_iff, not_forall, not_not, exists_prop]
      rw [if_pos meaningful, if_pos meaningful, sole?_cons]
      by_cases empty : rest.filter isMeaningful = []
      · rw [if_neg (fun any => others.mp any empty), if_pos empty]
        rfl
      · rw [if_pos (others.mpr empty), if_neg empty]
        rfl
    · rw [if_neg meaningful, if_neg meaningful, ih]

theorem withField?_cons (name : String) (node : Node) (rest : List Node) :
    withField? name (node :: rest) =
      if node.hasField name then some node else withField? name rest := by
  rw [withField?, List.find?_cons]
  cases node.hasField name <;> rfl

theorem lowerCallee_eq (depth : Nat) (nodes : List Node) :
    lowerCallee depth nodes = (withField? "function" nodes).mapM (lowerAt depth) := by
  induction nodes with
  | nil => rw [lowerCallee]; rfl
  | cons node rest ih =>
    rw [lowerCallee, withField?_cons, ih]
    split <;> rfl

theorem lowerValue_eq (depth : Nat) (nodes : List Node) :
    lowerValue depth nodes = (withField? "value" nodes).mapM (lowerAt depth) := by
  induction nodes with
  | nil => rw [lowerValue]; rfl
  | cons node rest ih =>
    rw [lowerValue, withField?_cons, ih]
    split <;> rfl

theorem lowerAll_eq (depth : Nat) (nodes : List Node) :
    lowerAll depth nodes = (nodes.filter isMeaningful).mapM (lowerAt depth) := by
  induction nodes with
  | nil => rw [lowerAll]; rfl
  | cons node rest ih =>
    rw [lowerAll, List.filter_cons, ih]
    split
    · rw [List.mapM_cons]
    · rfl

theorem lowerMembers_eq (depth : Nat) (nodes : List Node) :
    lowerMembers depth nodes = (nodes.filter isMeaningful).mapM (lowerMember depth) := by
  induction nodes with
  | nil => rw [lowerMembers]; rfl
  | cons node rest ih =>
    rw [lowerMembers, List.filter_cons, ih]
    split
    · rw [List.mapM_cons]
    · rfl

/-- Lowers what holds the arguments of a call; a template is one argument. -/
def lowerArguments (depth : Nat) (list : Node) : Except EscapeError (List Expression) :=
  if list.kind = "arguments" then list.meaningfulChildren.mapM (lowerAt depth)
  else .ok [asOther list]

theorem lowerArgumentList_eq (depth : Nat) (nodes : List Node) :
    lowerArgumentList depth nodes = (withField? "arguments" nodes).mapM (lowerArguments depth) := by
  induction nodes with
  | nil => rw [lowerArgumentList]; rfl
  | cons node rest ih =>
    obtain ⟨label, children⟩ := node
    rw [lowerArgumentList, withField?_cons, ih]
    split
    · rw [Option.mapM_some, lowerArguments, lowerAll_eq]
      by_cases listed : label.kind = "arguments"
      · rw [if_pos listed, if_pos (show (mk label children).kind = _ from listed)]
        rfl
      · rw [if_neg listed, if_neg (show (mk label children).kind ≠ _ from listed)]
        rfl
    · rfl

theorem toExpression_lowerCallAt (depth : Nat) (node : Node) :
    Call.toExpression <$> lowerCallAt depth node = (do
      let callee ← lowerCallee (depth + 1) node.children
      let arguments ← lowerArgumentList (depth + 1) node.children
      return .call (callee.getD (.other "missing" node.span)) (arguments.getD []) node.span) := by
  rw [lowerCallAt]
  cases lowerCallee (depth + 1) node.children with
  | error error => rfl
  | ok callee => cases lowerArgumentList (depth + 1) node.children <;> rfl

/-- Lowering looks through parentheses, then at the depth, then at the kind of a node. -/
theorem lowerAt_eq (depth : Nat) (node : Node) :
    lowerAt depth node =
      if node.kind = "parenthesized_expression" then
        (·.getD node.asOther) <$> lowerSole depth node.children
      else if maxLoweringDepth < depth then .ok node.asOther
      else if node.kind = "identifier" then .ok (.identifier node.text node.span)
      else if node.kind = "string" then (.string · node.span) <$> node.stringValue
      else if node.kind = "object" then
        (.object · node.span) <$> node.meaningfulChildren.mapM (lowerMember (depth + 1))
      else if node.kind = "call_expression" then Call.toExpression <$> lowerCallAt depth node
      else .ok node.asOther := by
  rw [toExpression_lowerCallAt]
  obtain ⟨label, children⟩ := node
  rw [lowerAt, lowerMembers_eq]
  rfl

theorem lowerAt_of_parentheses (depth : Nat) (node : Node)
    (parentheses : node.kind = "parenthesized_expression") :
    lowerAt depth node = (·.getD node.asOther) <$> node.inner?.mapM (lowerAt depth) := by
  rw [lowerAt_eq, if_pos parentheses, lowerSole_eq, inner?, if_pos parentheses]
  rfl

theorem lowerAt_of_deep (depth : Nat) (node : Node) (bare : node.kind ≠ "parenthesized_expression")
    (deep : maxLoweringDepth < depth) : lowerAt depth node = .ok node.asOther := by
  rw [lowerAt_eq, if_neg bare, if_pos deep]

section Shallow

variable (depth : Nat) (node : Node) (shallow : depth ≤ maxLoweringDepth)

include shallow

theorem lowerAt_of_string (quoted : node.kind = "string") :
    lowerAt depth node = (.string · node.span) <$> node.stringValue := by
  rw [lowerAt_eq, if_neg (by rw [quoted]; decide), if_neg (Nat.not_lt.mpr shallow),
    if_neg (by rw [quoted]; decide), if_pos quoted]

theorem lowerAt_of_object (braced : node.kind = "object") :
    lowerAt depth node =
      (.object · node.span) <$> node.meaningfulChildren.mapM (lowerMember (depth + 1)) := by
  rw [lowerAt_eq, if_neg (by rw [braced]; decide), if_neg (Nat.not_lt.mpr shallow),
    if_neg (by rw [braced]; decide), if_neg (by rw [braced]; decide), if_pos braced]

theorem lowerAt_of_call (called : node.kind = "call_expression") :
    lowerAt depth node = Call.toExpression <$> lowerCallAt depth node := by
  rw [lowerAt_eq, if_neg (by rw [called]; decide), if_neg (Nat.not_lt.mpr shallow),
    if_neg (by rw [called]; decide), if_neg (by rw [called]; decide),
    if_neg (by rw [called]; decide), if_pos called]

end Shallow

/-- Lowering a node is lowering what stands within its parentheses, at the same depth. -/
theorem lowerAt_unwrap (depth : Nat) (node : Node) :
    lowerAt depth node = lowerAt depth node.unwrap := by
  induction node using induction_children with
  | step node ih =>
    cases within : node.inner? with
    | none => rw [unwrap_of_bare within]
    | some inner =>
      have parentheses : node.kind = "parenthesized_expression" := by
        by_contra other
        rw [inner?_of_kind other] at within
        cases within
      rw [unwrap_of_inner? within, ← ih inner (mem_children_of_inner? within),
        lowerAt_of_parentheses depth node parentheses, within, Option.mapM_some]
      cases lowerAt depth inner <;> rfl

/-- What a node without parentheses around it is lowered to at a depth that is not too great. -/
inductive LowersTo (depth : Nat) (core : Node) : Expression → Prop where
  | identifier (named : core.kind = "identifier") :
      LowersTo depth core (.identifier core.text core.span)
  | string {value : Text} (quoted : core.kind = "string") (decoded : core.stringValue = .ok value) :
      LowersTo depth core (.string value core.span)
  | object {members : List Member} (braced : core.kind = "object")
      (lowered : core.meaningfulChildren.mapM (lowerMember (depth + 1)) = .ok members) :
      LowersTo depth core (.object members core.span)
  | call {call : Call} (called : core.kind = "call_expression")
      (lowered : lowerCallAt depth core = .ok call) : LowersTo depth core call.toExpression
  | other (unnamed : core.kind ≠ "identifier") (unquoted : core.kind ≠ "string")
      (unbraced : core.kind ≠ "object") : LowersTo depth core core.asOther

theorem lowersTo_of_lowerAt {depth : Nat} {node : Node} {expression : Expression}
    (shallow : depth ≤ maxLoweringDepth) (lowered : lowerAt depth node = .ok expression) :
    LowersTo depth node.unwrap expression := by
  rw [lowerAt_unwrap] at lowered
  have bare := inner?_unwrap node
  generalize node.unwrap = core at lowered bare
  by_cases parentheses : core.kind = "parenthesized_expression"
  · rw [lowerAt_of_parentheses depth core parentheses, bare] at lowered
    cases lowered
    exact .other (by rw [parentheses]; decide) (by rw [parentheses]; decide)
      (by rw [parentheses]; decide)
  rw [lowerAt_eq, if_neg parentheses, if_neg (Nat.not_lt.mpr shallow)] at lowered
  split at lowered
  · rename_i named
    cases lowered
    exact .identifier named
  rename_i unnamed
  split at lowered
  · rename_i quoted
    obtain ⟨value, decoded, rfl⟩ := (map_eq_ok_iff _ _ _).mp lowered
    exact .string quoted decoded
  rename_i unquoted
  split at lowered
  · rename_i braced
    obtain ⟨members, success, rfl⟩ := (map_eq_ok_iff _ _ _).mp lowered
    exact .object braced success
  rename_i unbraced
  split at lowered
  · rename_i called
    obtain ⟨call, success, rfl⟩ := (map_eq_ok_iff _ _ _).mp lowered
    exact .call called success
  · cases lowered
    exact .other unnamed unquoted unbraced

theorem lowerMember_eq (depth : Nat) (node : Node) :
    lowerMember depth node =
      if node.kind = "pair" then
        (node.child? "value").mapM (lowerAt depth) >>= fun value? =>
          match value? with
          | none => .ok (.other node.kind node.span)
          | some value => (.pair · value node.span) <$> propertyKey (node.child? "key")
      else if node.kind = "shorthand_property_identifier" then .ok (.shorthand node.text node.span)
      else if node.kind = "method_definition" then
        (.method · node.span) <$> propertyKey (node.child? "name")
      else .ok (.other node.kind node.span) := by
  obtain ⟨label, children⟩ := node
  rw [lowerMember, lowerValue_eq]
  rfl

theorem lowerCallAt_eq (depth : Nat) (node : Node) :
    lowerCallAt depth node =
      (node.child? "function").mapM (lowerAt (depth + 1)) >>= fun callee =>
        (fun arguments => Call.mk (callee.getD (.other "missing" node.span)) (arguments.getD [])
          node.span) <$> (node.child? "arguments").mapM (lowerArguments (depth + 1)) := by
  rw [lowerCallAt, lowerCallee_eq, lowerArgumentList_eq]
  rfl

end ModuleFence.Node
