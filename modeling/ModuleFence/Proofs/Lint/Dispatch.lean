import ModuleFence.Lint.Basic
import ModuleFence.Proofs.Tree.Order

/-!
The visitor calls of a walk. The nested loops of a walk, over the nodes that wait and over the
rules, make one flat list of visitor calls: node by node in the order of the tree, and for each node
one call of every rule. What rules do when they are called is left open.
-/

set_option autoImplicit false

namespace ModuleFence

/-- A call of the visitor of one rule: its position in the list of rules, and what it is shown. -/
structure VisitorCall where
  rule : Nat
  visit : Visit

/-- How rules answer their visitor calls, in a state that they may share. -/
abbrev Visitors (σ : Type) := VisitorCall → σ → Except Failure (List Diagnostic) × σ

/-- What visitor calls end with: the diagnostics of each call, in order, and the last state. -/
structure Transcript (σ : Type) where
  result : Except Failure (List (VisitorCall × List Diagnostic))
  state : σ

/-- Goes on where a transcript ends, unless a failure has ended it. -/
def Transcript.andThen {σ : Type} (transcript : Transcript σ) (next : σ → Transcript σ) :
    Transcript σ :=
  match transcript.result with
  | .error _ => transcript
  | .ok entries =>
    let others := next transcript.state
    ⟨others.result.map (entries ++ ·), others.state⟩

def Node.isShown (node : Node) : Bool :=
  node.kind = "call_expression" || node.kind = "catch_clause"

/-- A call or a catch clause as rules see it. -/
def Node.lowered (node : Node) : Except EscapeError Visit :=
  if node.kind = "call_expression" then (node.lowerCallAt 0).map .call
  else .ok (.catchClause node.lowerCatch)

/-- The visitor calls that some rules get for one node; a node that cannot be lowered has none, and
ends the walk. -/
def VisitorCall.each (count : Nat) :
    Except EscapeError Visit → List (Except EscapeError VisitorCall)
  | .error error => [.error error]
  | .ok visit => (List.range count).map fun rule => .ok ⟨rule, visit⟩

/-- The visitor calls that some rules get for a tree. -/
def Node.visitorCalls (count : Nat) (root : Node) : List (Except EscapeError VisitorCall) :=
  (root.preorder.filter isShown).flatMap fun node => VisitorCall.each count node.lowered

namespace Visitors

variable {σ : Type} (visitors : Visitors σ)

/-- Makes one visitor call. -/
def perform (call : VisitorCall) (state : σ) : Transcript σ :=
  let (result, after) := visitors call state
  ⟨result.map fun diagnostics => [(call, diagnostics)], after⟩

/-- Makes some visitor calls, one after the other. -/
def performAll : List (Except EscapeError VisitorCall) → σ → Transcript σ
  | [], state => ⟨.ok [], state⟩
  | .error error :: _, state => ⟨.error (.escape error), state⟩
  | .ok call :: rest, state => (visitors.perform call state).andThen (performAll rest)

/-- Shows something to the rules at some positions: the loop over the rules. -/
def showTo (visit : Visit) : (rules : List Nat) → σ → Transcript σ
  | [], state => ⟨.ok [], state⟩
  | rule :: rest, state => (visitors.perform ⟨rule, visit⟩ state).andThen (showTo visit rest)

def showNode (count : Nat) (node : Node) (state : σ) : Transcript σ :=
  match node.visit? with
  | none => ⟨.ok [], state⟩
  | some (.error error) => ⟨.error (.escape error), state⟩
  | some (.ok visit) => visitors.showTo visit (List.range count) state

/-- Shows the nodes that wait, and those below them, to some rules: the loop over the stack. -/
def dispatch (count : Nat) : (waiting : List Node) → σ → Transcript σ
  | [], state => ⟨.ok [], state⟩
  | node :: rest, state =>
    (visitors.showNode count node state).andThen (dispatch count (node.children ++ rest))
termination_by waiting => Node.sizeAll waiting
decreasing_by
  simp only [Node.sizeAll_append, Node.sizeAll_cons, Node.size_eq]
  omega

end Visitors

namespace Transcript

variable {σ : Type}

@[simp] theorem nil_andThen (state : σ) (next : σ → Transcript σ) :
    (⟨.ok [], state⟩ : Transcript σ).andThen next = next state := by
  rw [andThen]
  cases next state with
  | mk result last => cases result <;> rfl

theorem andThen_assoc (transcript : Transcript σ) (first second : σ → Transcript σ) :
    (transcript.andThen first).andThen second =
      transcript.andThen fun state => (first state).andThen second := by
  obtain ⟨result, state⟩ := transcript
  cases result with
  | error failure => rfl
  | ok entries =>
    simp only [andThen]
    obtain ⟨others, middle⟩ := first state
    cases others with
    | error failure => rfl
    | ok others =>
      simp only [Except.map]
      cases (second middle).result with
      | error failure => rfl
      | ok last => simp only [List.append_assoc]

end Transcript

theorem Node.visit?_eq (node : Node) :
    node.visit? = if node.isShown then some node.lowered else none := by
  rw [visit?, isShown, lowered]
  by_cases called : node.kind = "call_expression"
  · simp [called]
  · by_cases caught : node.kind = "catch_clause" <;> simp [called, caught]

/-- What some nodes have to show is what those of them show that are shown. -/
theorem Node.filterMap_visit? (nodes : List Node) :
    nodes.filterMap visit? = (nodes.filter isShown).map lowered := by
  induction nodes with
  | nil => rfl
  | cons node rest ih =>
    cases shown : node.isShown with
    | true =>
      rw [List.filterMap_cons_some (visit?_eq node ▸ if_pos shown), List.filter_cons_of_pos shown,
        List.map_cons, ih]
    | false =>
      have unshown : ¬ node.isShown = true := Bool.eq_false_iff.mp shown
      rw [List.filterMap_cons_none (visit?_eq node ▸ if_neg unshown),
        List.filter_cons_of_neg unshown, ih]

theorem Node.visitorCalls_eq_flatMap (count : Nat) (root : Node) :
    root.visitorCalls count =
      (root.preorder.filterMap visit?).flatMap (VisitorCall.each count) := by
  rw [filterMap_visit?, List.flatMap_map]
  rfl

/-- The visitor calls for a tree are those for its root, and then those for the trees below. -/
theorem Node.visitorCalls_eq (count : Nat) (node : Node) :
    node.visitorCalls count = node.visit?.toList.flatMap (VisitorCall.each count) ++
      node.children.flatMap (visitorCalls count) := by
  have below : ((node.children.flatMap preorder).filterMap visit?).flatMap
      (VisitorCall.each count) = node.children.flatMap (visitorCalls count) := by
    rw [List.filterMap_flatMap, List.flatMap_assoc]
    exact congrArg (List.flatMap · node.children)
      (funext fun child => (visitorCalls_eq_flatMap count child).symm)
  rw [visitorCalls_eq_flatMap, preorder_eq, ← below]
  cases shown : node.visit? with
  | none => rw [List.filterMap_cons_none shown]; rfl
  | some visit =>
    rw [List.filterMap_cons_some shown, List.flatMap_cons, Option.toList_some,
      List.flatMap_singleton]

/-- When all visitor calls for what some nodes have to show can be made, they are one of each rule
for each of it. -/
theorem VisitorCall.exists_visits {count : Nat} {shown : List (Except EscapeError Visit)}
    {made : List VisitorCall} (calls_eq : shown.flatMap (each count) = made.map .ok) :
    ∃ visits : List Visit, shown = visits.map .ok ∧
      made = visits.flatMap fun visit => (List.range count).map fun rule => ⟨rule, visit⟩ := by
  induction shown generalizing made with
  | nil => exact ⟨[], rfl, List.map_eq_nil_iff.mp calls_eq.symm⟩
  | cons first rest ih =>
    rw [List.flatMap_cons] at calls_eq
    obtain ⟨here, others, rfl, here_eq, others_eq⟩ := List.map_eq_append_iff.mp calls_eq.symm
    obtain ⟨visits, rfl, rfl⟩ := ih others_eq.symm
    cases first with
    | error error =>
      rw [each, List.map_eq_singleton_iff] at here_eq
      obtain ⟨call, -, impossible⟩ := here_eq
      cases impossible
    | ok visit =>
      refine ⟨visit :: visits, rfl, ?_⟩
      have each_eq : each count (.ok visit) =
          ((List.range count).map fun rule => ⟨rule, visit⟩).map .ok := by
        rw [each, List.map_map]
        rfl
      rw [each_eq] at here_eq
      rw [List.flatMap_cons, (List.map_inj_right fun _ _ => Except.ok.inj).mp here_eq]

namespace Visitors

variable {σ : Type} (visitors : Visitors σ)

theorem performAll_append (first second : List (Except EscapeError VisitorCall)) (state : σ) :
    visitors.performAll (first ++ second) state =
      (visitors.performAll first state).andThen (visitors.performAll second) := by
  induction first generalizing state with
  | nil => rw [List.nil_append, performAll, Transcript.nil_andThen]
  | cons call rest ih =>
    cases call with
    | error error => rfl
    | ok call =>
      rw [List.cons_append, performAll, performAll, Transcript.andThen_assoc]
      exact congrArg _ (funext ih)

/-- When a visitor call and those behind it succeed, each of them does. -/
theorem performAll_cons_eq_ok {call : VisitorCall}
    {rest : List (Except EscapeError VisitorCall)} {state last : σ}
    {entries : List (VisitorCall × List Diagnostic)}
    (performed : visitors.performAll (.ok call :: rest) state = ⟨.ok entries, last⟩) :
    ∃ diagnostics middle others, visitors call state = (.ok diagnostics, middle) ∧
      visitors.performAll rest middle = ⟨.ok others, last⟩ ∧
        entries = (call, diagnostics) :: others := by
  rw [performAll, perform] at performed
  cases answered : visitors call state with
  | mk result middle =>
    rw [answered] at performed
    cases result with
    | error failure => cases performed
    | ok diagnostics =>
      simp only [Transcript.andThen, Except.map] at performed
      cases later : visitors.performAll rest middle with
      | mk others final =>
        rw [later] at performed
        cases others with
        | error failure => cases performed
        | ok others =>
          cases performed
          exact ⟨diagnostics, middle, others, rfl, later, rfl⟩

/-- Visitor calls that all succeed are all made, in order. -/
theorem calls_of_performAll {calls : List (Except EscapeError VisitorCall)} {state last : σ}
    {entries : List (VisitorCall × List Diagnostic)}
    (performed : visitors.performAll calls state = ⟨.ok entries, last⟩) :
    calls = (entries.map Prod.fst).map .ok := by
  induction calls generalizing state entries with
  | nil =>
    cases performed
    rfl
  | cons call rest ih =>
    cases call with
    | error error => cases performed
    | ok call =>
      obtain ⟨diagnostics, middle, others, -, later, rfl⟩ :=
        visitors.performAll_cons_eq_ok performed
      rw [ih later]
      rfl

theorem showTo_eq_performAll (visit : Visit) (rules : List Nat) (state : σ) :
    visitors.showTo visit rules state =
      visitors.performAll (rules.map fun rule => .ok ⟨rule, visit⟩) state := by
  induction rules generalizing state with
  | nil => rfl
  | cons rule rest ih =>
    rw [showTo, List.map_cons, performAll]
    exact congrArg _ (funext ih)

theorem showNode_eq_performAll (count : Nat) (node : Node) (state : σ) :
    visitors.showNode count node state =
      visitors.performAll (node.visit?.toList.flatMap (VisitorCall.each count)) state := by
  rw [showNode]
  cases node.visit? with
  | none => rfl
  | some shown =>
    rw [Option.toList_some, List.flatMap_singleton]
    cases shown with
    | error error => rfl
    | ok visit => exact visitors.showTo_eq_performAll visit (List.range count) state

/-- The loops of a walk make the visitor calls of the trees that wait, in order. -/
theorem dispatch_eq_performAll (count : Nat) (waiting : List Node) (state : σ) :
    visitors.dispatch count waiting state =
      visitors.performAll (waiting.flatMap (Node.visitorCalls count)) state := by
  induction waiting using Node.walkFrom.induct generalizing state with
  | case1 => rw [dispatch, List.flatMap_nil, performAll]
  | case2 node rest ih =>
    rw [dispatch, showNode_eq_performAll, List.flatMap_cons, Node.visitorCalls_eq,
      List.append_assoc, ← List.flatMap_append, performAll_append]
    exact congrArg _ (funext ih)

/-- A walk makes the visitor calls of its tree. -/
theorem dispatch_root (count : Nat) (root : Node) (state : σ) :
    visitors.dispatch count [root] state = visitors.performAll (root.visitorCalls count) state := by
  rw [dispatch_eq_performAll, List.flatMap_singleton]

end Visitors

namespace Linter

/-- How the rules of a linter answer their visitor calls. -/
def visitors (files : FileSystem) (path : Option Path) : Visitors Linter := fun call linter =>
  match linter.rules[call.rule]? with
  | none => (.ok [], linter)
  | some rule =>
    let answer := rule.visit files path call.visit linter.shared
    (answer.result, ⟨linter.rules.set call.rule answer.rules, answer.shared⟩)

/-- The diagnostics of a linter that has made some visitor calls, call by call. -/
def answerOf (transcript : Transcript Linter) : Answer (List Diagnostic) :=
  ⟨transcript.result.map (List.flatMap Prod.snd), transcript.state⟩

theorem answerOf_ok_andThen (entries : List (VisitorCall × List Diagnostic)) (linter : Linter)
    (next : Linter → Transcript Linter) :
    answerOf ((⟨.ok entries, linter⟩ : Transcript Linter).andThen next) =
      ⟨(answerOf (next linter)).result.map (entries.flatMap Prod.snd ++ ·),
        (answerOf (next linter)).linter⟩ := by
  simp only [answerOf, Transcript.andThen]
  cases (next linter).result with
  | error failure => rfl
  | ok others => simp only [Except.map, List.flatMap_append]

variable (files : FileSystem) (path : Option Path)

theorem visitors_of_rule {call : VisitorCall} {linter : Linter} {rule : Rule}
    (found : linter.rules[call.rule]? = some rule) :
    visitors files path call linter =
      ((rule.visit files path call.visit linter.shared).result,
        ⟨linter.rules.set call.rule (rule.visit files path call.visit linter.shared).rules,
          (rule.visit files path call.visit linter.shared).shared⟩) := by
  rw [visitors, found]

/-- To show something to rules that stand behind others is to show it to them at their positions. -/
theorem answerOf_showTo (visit : Visit) (before rules : List Rule) (shared : Shared) :
    answerOf ((visitors files path).showTo visit (List.range' before.length rules.length)
        ⟨before ++ rules, shared⟩) =
      ⟨(Rule.visitAll files path visit rules shared).result,
        ⟨before ++ (Rule.visitAll files path visit rules shared).rules,
          (Rule.visitAll files path visit rules shared).shared⟩⟩ := by
  induction rules generalizing before shared with
  | nil => rfl
  | cons rule rest ih =>
    have found : (before ++ rule :: rest)[before.length]? = some rule := by
      rw [List.getElem?_append_right (Nat.le_refl _), Nat.sub_self]
      rfl
    have replaced (other : Rule) : (before ++ rule :: rest).set before.length other =
        before ++ other :: rest := by
      rw [List.set_append_right _ _ (Nat.le_refl _), Nat.sub_self, List.set_cons_zero]
    have answered : visitors files path ⟨before.length, visit⟩ ⟨before ++ rule :: rest, shared⟩ =
        ((rule.visit files path visit shared).result,
          ⟨before ++ (rule.visit files path visit shared).rules :: rest,
            (rule.visit files path visit shared).shared⟩) := by
      rw [visitors_of_rule files path found]
      simp only [replaced]
    simp only [List.length_cons, List.range'_succ, Visitors.showTo, Visitors.perform, answered,
      Rule.visitAll]
    cases visited : (rule.visit files path visit shared).result with
    | error failure => rfl
    | ok here =>
      have later := ih (before ++ [(rule.visit files path visit shared).rules])
        (rule.visit files path visit shared).shared
      simp only [List.length_append, List.length_singleton, List.append_assoc,
        List.singleton_append] at later
      simp only [Except.map]
      rw [answerOf_ok_andThen, later, List.flatMap_singleton]
      rfl

/-- Showing something to rules leaves as many rules as there were. -/
theorem length_visitAll (visit : Visit) (rules : List Rule) (shared : Shared) :
    (Rule.visitAll files path visit rules shared).rules.length = rules.length := by
  induction rules generalizing shared with
  | nil => rfl
  | cons rule rest ih =>
    rw [Rule.visitAll]
    cases (rule.visit files path visit shared).result with
    | error failure => rfl
    | ok here => exact congrArg (· + 1) (ih _)

theorem answerOf_dispatch (waiting : List Node) (linter : Linter) :
    answerOf ((visitors files path).dispatch linter.rules.length waiting linter) =
      visitNodes files path (Node.walkFrom waiting) linter := by
  induction waiting using Node.walkFrom.induct generalizing linter with
  | case1 =>
    rw [Visitors.dispatch, Node.walkFrom]
    rfl
  | case2 node rest ih =>
    rw [Visitors.dispatch, Visitors.showNode, Node.walkFrom, visitNodes]
    cases node.visit? with
    | none => exact (congrArg answerOf (Transcript.nil_andThen _ _)).trans (ih linter)
    | some shown =>
      cases shown with
      | error error => rfl
      | ok visit =>
        have here := answerOf_showTo files path visit [] linter.rules linter.shared
        have remain := length_visitAll files path visit linter.rules linter.shared
        simp only [List.length_nil, List.nil_append, ← List.range_eq_range'] at here
        simp only
        cases shown : (visitors files path).showTo visit (List.range linter.rules.length) linter
          with
        | mk result after =>
          rw [shown, answerOf, Answer.mk.injEq] at here
          obtain ⟨result_eq, rfl⟩ := here
          simp only [← result_eq]
          cases result with
          | error failure => rfl
          | ok entries =>
            rw [answerOf_ok_andThen]
            have later := ih ⟨(Rule.visitAll files path visit linter.rules linter.shared).rules,
              (Rule.visitAll files path visit linter.rules linter.shared).shared⟩
            rw [remain] at later
            rw [later]
            rfl

/-- Linting a tree makes the visitor calls of its walk. -/
theorem walk_eq_answerOf (root : Node) (linter : Linter) :
    walk files path root linter =
      answerOf ((visitors files path).dispatch linter.rules.length [root] linter) :=
  (answerOf_dispatch files path [root] linter).symm

end Linter

end ModuleFence
