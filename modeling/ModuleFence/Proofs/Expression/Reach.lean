import ModuleFence.Proofs.Expression.Lowering

/-!
The string literals that lowering reads: it reaches them through parentheses, members, callees and
arguments, down to the depth at which expressions are still told apart. Lowering succeeds exactly
when each literal that it reads has a value.
-/

set_option autoImplicit false

namespace ModuleFence.Node

/-- The value of a member of an object that is a pair. -/
def pairValue? (member : Node) : Option Node :=
  if member.kind = "pair" then member.child? "value" else none

/-- The key of a member of an object that has a value or is a method. -/
def memberKey? (member : Node) : Option Node :=
  if member.kind = "pair" then (member.child? "value").bind fun _ => member.child? "key"
  else if member.kind = "method_definition" then member.child? "name"
  else none

/-- What a call passes, without what is no argument list. -/
def argumentNodes (call : Node) : List Node :=
  match call.child? "arguments" with
  | some list => if list.kind = "arguments" then list.meaningfulChildren else []
  | none => []

theorem mem_children_of_pairValue? {member value : Node} (paired : member.pairValue? = some value) :
    value ∈ member.children := by
  unfold pairValue? at paired
  split at paired
  · exact mem_children_of_child? paired
  · cases paired

theorem mem_children_of_memberKey? {member key : Node} (keyed : member.memberKey? = some key) :
    key ∈ member.children := by
  unfold memberKey? at keyed
  split at keyed
  · obtain ⟨value, -, found⟩ := Option.bind_eq_some_iff.mp keyed
    exact mem_children_of_child? found
  · split at keyed
    · exact mem_children_of_child? keyed
    · cases keyed

theorem mem_argumentNodes_iff {argument call : Node} :
    argument ∈ call.argumentNodes ↔ ∃ list, call.child? "arguments" = some list ∧
      list.kind = "arguments" ∧ argument ∈ list.meaningfulChildren := by
  rw [argumentNodes]
  cases call.child? "arguments" with
  | none => simp only [List.not_mem_nil, reduceCtorEq, false_and, exists_false]
  | some list =>
    simp only [Option.some.injEq, exists_eq_left']
    split <;> simp_all only [true_and, false_and, List.not_mem_nil]

/-- Lowering a node at a depth reads a string literal. -/
inductive Reads (literal : Node) : Nat → Node → Prop where
  | itself {depth : Nat} (shallow : depth ≤ maxLoweringDepth) (quoted : literal.kind = "string") :
      Reads literal depth literal
  | inside {depth : Nat} {node inner : Node} (within : node.inner? = some inner)
      (reads : Reads literal depth inner) : Reads literal depth node
  | value {depth : Nat} {node member value : Node} (shallow : depth ≤ maxLoweringDepth)
      (braced : node.kind = "object") (member_mem : member ∈ node.meaningfulChildren)
      (paired : member.pairValue? = some value) (reads : Reads literal (depth + 1) value) :
      Reads literal depth node
  | key {depth : Nat} {node member : Node} (shallow : depth ≤ maxLoweringDepth)
      (braced : node.kind = "object") (member_mem : member ∈ node.meaningfulChildren)
      (keyed : member.memberKey? = some literal) (quoted : literal.kind = "string") :
      Reads literal depth node
  | callee {depth : Nat} {node callee : Node} (shallow : depth ≤ maxLoweringDepth)
      (called : node.kind = "call_expression") (function : node.child? "function" = some callee)
      (reads : Reads literal (depth + 1) callee) : Reads literal depth node
  | argument {depth : Nat} {node argument : Node} (shallow : depth ≤ maxLoweringDepth)
      (called : node.kind = "call_expression") (passed : argument ∈ node.argumentNodes)
      (reads : Reads literal (depth + 1) argument) : Reads literal depth node

/-- Each literal that lowering a node at a depth reads has a value. -/
def Legible (depth : Nat) (node : Node) : Prop :=
  ∀ literal, Reads literal depth node → Succeeds literal.stringValue

theorem parentheses_of_inner? {node inner : Node} (within : node.inner? = some inner) :
    node.kind = "parenthesized_expression" := by
  by_contra other
  rw [inner?_of_kind other] at within
  cases within

theorem legible_of_parentheses {depth : Nat} {node : Node}
    (parentheses : node.kind = "parenthesized_expression") :
    Legible depth node ↔ ∀ inner, node.inner? = some inner → Legible depth inner := by
  constructor
  · intro legible inner within literal reads
    exact legible literal (.inside within reads)
  · intro legible literal reads
    cases reads with
    | inside within reads => exact legible _ within literal reads
    | itself _ quoted => rw [parentheses] at quoted; contradiction
    | value _ braced => rw [parentheses] at braced; contradiction
    | key _ braced => rw [parentheses] at braced; contradiction
    | callee _ called => rw [parentheses] at called; contradiction
    | argument _ called => rw [parentheses] at called; contradiction

theorem legible_of_string {depth : Nat} {node : Node} (shallow : depth ≤ maxLoweringDepth)
    (quoted : node.kind = "string") : Legible depth node ↔ Succeeds node.stringValue := by
  constructor
  · intro legible
    exact legible node (.itself shallow quoted)
  · intro succeeds literal reads
    cases reads with
    | itself => exact succeeds
    | inside within => rw [parentheses_of_inner? within] at quoted; contradiction
    | value _ braced => rw [quoted] at braced; contradiction
    | key _ braced => rw [quoted] at braced; contradiction
    | callee _ called => rw [quoted] at called; contradiction
    | argument _ called => rw [quoted] at called; contradiction

theorem legible_of_object {depth : Nat} {node : Node} (shallow : depth ≤ maxLoweringDepth)
    (braced : node.kind = "object") :
    Legible depth node ↔ ∀ member ∈ node.meaningfulChildren,
      (∀ value, member.pairValue? = some value → Legible (depth + 1) value) ∧
      (∀ key, member.memberKey? = some key → key.kind = "string" → Succeeds key.stringValue) := by
  constructor
  · intro legible member member_mem
    refine ⟨?_, ?_⟩
    · intro value paired literal reads
      exact legible literal (.value shallow braced member_mem paired reads)
    · intro key keyed quoted
      exact legible key (.key shallow braced member_mem keyed quoted)
  · intro members literal reads
    cases reads with
    | value _ _ member_mem paired reads => exact (members _ member_mem).1 _ paired literal reads
    | key _ _ member_mem keyed quoted => exact (members _ member_mem).2 literal keyed quoted
    | itself _ quoted => rw [braced] at quoted; contradiction
    | inside within => rw [parentheses_of_inner? within] at braced; contradiction
    | callee _ called => rw [braced] at called; contradiction
    | argument _ called => rw [braced] at called; contradiction

theorem legible_of_call {depth : Nat} {node : Node} (shallow : depth ≤ maxLoweringDepth)
    (called : node.kind = "call_expression") :
    Legible depth node ↔
      (∀ callee, node.child? "function" = some callee → Legible (depth + 1) callee) ∧
      (∀ argument ∈ node.argumentNodes, Legible (depth + 1) argument) := by
  constructor
  · intro legible
    refine ⟨?_, ?_⟩
    · intro callee function literal reads
      exact legible literal (.callee shallow called function reads)
    · intro argument passed literal reads
      exact legible literal (.argument shallow called passed reads)
  · rintro ⟨callees, arguments⟩ literal reads
    cases reads with
    | callee _ _ function reads => exact callees _ function literal reads
    | argument _ _ passed reads => exact arguments _ passed literal reads
    | itself _ quoted => rw [called] at quoted; contradiction
    | inside within => rw [parentheses_of_inner? within] at called; contradiction
    | value _ braced => rw [called] at braced; contradiction
    | key _ braced => rw [called] at braced; contradiction

/-- The kinds of nodes that hold literals for lowering to read. -/
def readKinds : List String :=
  ["string", "object", "call_expression"]

section Unread

variable {depth : Nat} {node : Node} (bare : node.kind ≠ "parenthesized_expression")
  (unread : maxLoweringDepth < depth ∨ node.kind ∉ readKinds)

include bare unread

theorem legible_of_unread : Legible depth node := by
  intro literal reads
  have absurd_of (shallow : depth ≤ maxLoweringDepth) (read : node.kind ∈ readKinds) : False :=
    unread.elim (Nat.not_lt.mpr shallow) fun other => other read
  cases reads with
  | inside within => exact absurd (parentheses_of_inner? within) bare
  | itself shallow quoted => exact (absurd_of shallow (by rw [quoted]; decide)).elim
  | value shallow braced => exact (absurd_of shallow (by rw [braced]; decide)).elim
  | key shallow braced => exact (absurd_of shallow (by rw [braced]; decide)).elim
  | callee shallow called => exact (absurd_of shallow (by rw [called]; decide)).elim
  | argument shallow called => exact (absurd_of shallow (by rw [called]; decide)).elim

theorem succeeds_lowerAt_of_unread : Succeeds (lowerAt depth node) := by
  rw [lowerAt_eq, if_neg bare]
  rcases unread with deep | other
  · rw [if_pos deep]
    exact succeeds_ok _
  · simp only [readKinds, List.mem_cons, List.not_mem_nil, or_false, not_or] at other
    rw [if_neg other.1, if_neg other.2.1, if_neg other.2.2]
    repeat' split
    all_goals exact succeeds_ok _

end Unread

theorem succeeds_propertyKey_iff (key? : Option Node) :
    Succeeds (propertyKey key?) ↔
      ∀ key, key? = some key → key.kind = "string" → Succeeds key.stringValue := by
  cases key? with
  | none => simp only [propertyKey, succeeds_ok, reduceCtorEq, false_implies, implies_true]
  | some key =>
    simp only [propertyKey, Option.some.injEq, forall_eq']
    by_cases named : key.kind = "property_identifier"
    · rw [if_pos named, named]
      simp only [succeeds_ok, String.reduceEq, false_implies]
    rw [if_neg named]
    by_cases quoted : key.kind = "string"
    · rw [if_pos quoted]
      simp only [quoted, forall_const]
      exact succeeds_map_iff some key.stringValue
    · rw [if_neg quoted]
      simp only [succeeds_ok, quoted, false_implies]

theorem succeeds_lowerMember_iff (depth : Nat) (member : Node) :
    Succeeds (lowerMember depth member) ↔
      (∀ value, member.pairValue? = some value → Succeeds (lowerAt depth value)) ∧
      (∀ key, member.memberKey? = some key → key.kind = "string" → Succeeds key.stringValue) := by
  rw [lowerMember_eq, pairValue?, memberKey?, ← succeeds_propertyKey_iff]
  by_cases paired : member.kind = "pair"
  · rw [if_pos paired, if_pos paired, if_pos paired]
    cases member.child? "value" with
    | none => simp [propertyKey, bind, Except.bind, pure, Except.pure]
    | some value =>
      simp only [Option.mapM_some, Option.some.injEq, forall_eq', Option.bind_some]
      cases lowerAt depth value with
      | error error => simp [bind, Except.bind, Functor.map, Except.map]
      | ok lowered =>
        simpa [bind, Except.bind, Functor.map, Except.map] using
          succeeds_map_iff (Member.pair · lowered member.span) (propertyKey (member.child? "key"))
  rw [if_neg paired, if_neg paired, if_neg paired]
  by_cases short : member.kind = "shorthand_property_identifier"
  · rw [if_pos short, if_neg (by rw [short]; decide)]
    simp [propertyKey]
  rw [if_neg short]
  by_cases method : member.kind = "method_definition"
  · rw [if_pos method, if_pos method]
    simp
  · rw [if_neg method, if_neg method]
    simp [propertyKey]

theorem succeeds_lowerArguments_iff (depth : Nat) (list : Node) :
    Succeeds (lowerArguments depth list) ↔ list.kind = "arguments" →
      ∀ argument ∈ list.meaningfulChildren, Succeeds (lowerAt depth argument) := by
  rw [lowerArguments]
  by_cases listed : list.kind = "arguments"
  · rw [if_pos listed, succeeds_mapM_iff]
    simp only [listed, forall_const]
  · rw [if_neg listed]
    simp only [succeeds_ok, listed, false_implies]

theorem succeeds_lowerCallAt_iff (depth : Nat) (call : Node) :
    Succeeds (lowerCallAt depth call) ↔
      (∀ callee, call.child? "function" = some callee → Succeeds (lowerAt (depth + 1) callee)) ∧
      (∀ argument ∈ call.argumentNodes, Succeeds (lowerAt (depth + 1) argument)) := by
  have arguments : Succeeds ((call.child? "arguments").mapM (lowerArguments (depth + 1))) ↔
      ∀ argument ∈ call.argumentNodes, Succeeds (lowerAt (depth + 1) argument) := by
    rw [succeeds_optionMapM_iff, argumentNodes]
    cases call.child? "arguments" with
    | none =>
      simp only [reduceCtorEq, Option.mem_def, false_implies, implies_true, List.not_mem_nil]
    | some list =>
      simp only [Option.mem_def, Option.some.injEq, forall_eq', succeeds_lowerArguments_iff]
      by_cases listed : list.kind = "arguments"
      · simp only [listed, forall_const, if_true]
      · simp only [listed, false_implies, if_false, List.not_mem_nil, implies_true]
  rw [lowerCallAt_eq, succeeds_bind_iff _ _ _ fun callee => succeeds_map_iff _ _, arguments,
    succeeds_optionMapM_iff]
  rfl

/-- Lowering succeeds exactly when each literal that it reads has a value. -/
theorem succeeds_lowerAt_iff (depth : Nat) (node : Node) :
    Succeeds (lowerAt depth node) ↔ Legible depth node := by
  -- Values of members and arguments are not children, so the induction is on all nodes below.
  induction node using induction_below generalizing depth with
  | step node ih =>
    by_cases parentheses : node.kind = "parenthesized_expression"
    · rw [lowerAt_of_parentheses depth node parentheses, succeeds_map_iff, succeeds_optionMapM_iff,
        legible_of_parentheses parentheses]
      exact forall₂_congr fun inner within =>
        ih inner (mem_children_of_inner? within) inner (self_mem_preorder inner) depth
    by_cases unread : maxLoweringDepth < depth ∨ node.kind ∉ readKinds
    · exact iff_of_true (succeeds_lowerAt_of_unread parentheses unread)
        (legible_of_unread parentheses unread)
    obtain ⟨notDeep, notOther⟩ := not_or.mp unread
    have shallow := Nat.not_lt.mp notDeep
    have read := not_not.mp notOther
    simp only [readKinds, List.mem_cons, List.not_mem_nil, or_false] at read
    rcases read with quoted | braced | called
    · rw [lowerAt_of_string depth node shallow quoted, succeeds_map_iff,
        legible_of_string shallow quoted]
    · rw [lowerAt_of_object depth node shallow braced, succeeds_map_iff, succeeds_mapM_iff,
        legible_of_object shallow braced]
      refine forall₂_congr fun member member_mem => ?_
      rw [succeeds_lowerMember_iff]
      refine and_congr_left' (forall₂_congr fun value paired => ?_)
      have inMember := self_mem_preorder value
      exact ih member (mem_children_of_meaningful member_mem) value
        (mem_preorder_of_mem_children (mem_children_of_pairValue? paired) inMember) (depth + 1)
    · rw [lowerAt_of_call depth node shallow called, succeeds_map_iff, succeeds_lowerCallAt_iff,
        legible_of_call shallow called]
      refine and_congr (forall₂_congr fun callee function => ?_)
        (forall₂_congr fun argument passed => ?_)
      · exact ih callee (mem_children_of_child? function) callee (self_mem_preorder callee)
          (depth + 1)
      · obtain ⟨list, found, -, member⟩ := mem_argumentNodes_iff.mp passed
        have inList := self_mem_preorder argument
        exact ih list (mem_children_of_child? found) argument
          (mem_preorder_of_mem_children (mem_children_of_meaningful member) inList) (depth + 1)

/-- A call is lowered exactly when each literal that this reads has a value. -/
theorem succeeds_lowerCallAt_zero_iff {call : Node} (called : call.kind = "call_expression") :
    Succeeds (lowerCallAt 0 call) ↔ Legible 0 call := by
  rw [← succeeds_lowerAt_iff, lowerAt_of_call 0 call (Nat.zero_le _) called, succeeds_map_iff]

/-- Lowering reads only literals of the tree that it lowers. -/
theorem Reads.mem_preorder {literal node : Node} {depth : Nat} (reads : Reads literal depth node) :
    literal ∈ node.preorder ∧ literal.kind = "string" := by
  induction reads with
  | itself _ quoted => exact ⟨self_mem_preorder literal, quoted⟩
  | inside within _ ih =>
    exact ⟨mem_preorder_of_mem_children (mem_children_of_inner? within) ih.1, ih.2⟩
  | value _ _ member_mem paired _ ih =>
    have inMember := mem_preorder_of_mem_children (mem_children_of_pairValue? paired) ih.1
    exact ⟨mem_preorder_of_mem_children (mem_children_of_meaningful member_mem) inMember, ih.2⟩
  | key _ _ member_mem keyed quoted =>
    have inMember := mem_preorder_of_mem_children (mem_children_of_memberKey? keyed)
      (self_mem_preorder literal)
    exact ⟨mem_preorder_of_mem_children (mem_children_of_meaningful member_mem) inMember, quoted⟩
  | callee _ _ function _ ih =>
    exact ⟨mem_preorder_of_mem_children (mem_children_of_child? function) ih.1, ih.2⟩
  | argument _ _ passed _ ih =>
    obtain ⟨list, found, -, member⟩ := mem_argumentNodes_iff.mp passed
    have inList := mem_preorder_of_mem_children (mem_children_of_meaningful member) ih.1
    exact ⟨mem_preorder_of_mem_children (mem_children_of_child? found) inList, ih.2⟩

/-- Each string literal of a tree has a value. -/
def StringsDecode (root : Node) : Prop :=
  ∀ literal ∈ root.preorder, literal.kind = "string" → Succeeds literal.stringValue

/-- Each literal that lowering the calls of a tree reads has a value. -/
def CallsLegible (root : Node) : Prop :=
  ∀ call ∈ root.calls, Legible 0 call

instance (root : Node) : Decidable root.StringsDecode :=
  inferInstanceAs (Decidable (∀ literal ∈ root.preorder,
    literal.kind = "string" → Succeeds literal.stringValue))

/-- The literals of the calls of a tree can be read exactly when all its calls are lowered. -/
theorem callsLegible_iff (root : Node) :
    root.CallsLegible ↔ ∀ call ∈ root.calls, Succeeds (lowerCallAt 0 call) := by
  rw [CallsLegible]
  refine forall₂_congr fun call member => ?_
  exact (succeeds_lowerCallAt_zero_iff (mem_calls_iff.mp member).2).symm

instance (root : Node) : Decidable root.CallsLegible :=
  decidable_of_iff _ root.callsLegible_iff.symm

theorem StringsDecode.callsLegible {root : Node} (decode : root.StringsDecode) :
    root.CallsLegible := by
  intro call member literal reads
  obtain ⟨inCall, quoted⟩ := reads.mem_preorder
  exact decode literal (mem_preorder_trans inCall (mem_calls_iff.mp member).1) quoted

end ModuleFence.Node
