import ModuleFence.Lint.Basic

/-!
Where diagnostics come from: all that linting a source reports is damage, the use of a module or an
empty catch clause, and carries the path of the source, whatever the rules and their state are.
-/

set_option autoImplicit false

namespace ModuleFence

/-- A diagnostic that linting a source with a path can report. -/
inductive Diagnostic.FoundAt (path : Option Path) : Diagnostic → Prop where
  | damage (error : SyntaxError) (named : error.path = path.map Path.toText) :
      FoundAt path (Linter.unparsable path error)
  | misuse {call : Call} {use : ModuleRule.Use} (used : use ∈ ModuleRule.uses call) :
      FoundAt path (ModuleRule.finding path use)
  | emptyCatch {clause : CatchClause} {diagnostic : Diagnostic}
      (found : diagnostic ∈ EmptyCatch.findings path clause) : FoundAt path diagnostic

theorem EmptyCatch.eq_of_mem_findings {path : Option Path} {clause : CatchClause}
    {diagnostic : Diagnostic} (found : diagnostic ∈ findings path clause) :
    diagnostic =
      { ruleId := RuleId.emptyCatch.name
        message := message
        span := clause.bodySpan
        nodeKind := "statement_block"
        filePath := path } := by
  rw [findings] at found
  split at found
  · exact List.mem_singleton.mp found
  · cases found

theorem Diagnostic.FoundAt.filePath_eq {path : Option Path} {diagnostic : Diagnostic}
    (found : diagnostic.FoundAt path) : diagnostic.filePath = path := by
  cases found with
  | damage error named => rfl
  | misuse used => rfl
  | emptyCatch found => rw [EmptyCatch.eq_of_mem_findings found]

/-- The diagnostics of a result, if there are any, are found at a path. -/
def AllFrom (path : Option Path) (result : Except Failure (List Diagnostic)) : Prop :=
  ∀ diagnostics, result = .ok diagnostics → ∀ diagnostic ∈ diagnostics, diagnostic.FoundAt path

theorem allFrom_ok {path : Option Path} {diagnostics : List Diagnostic}
    (here : ∀ diagnostic ∈ diagnostics, diagnostic.FoundAt path) :
    AllFrom path (.ok diagnostics) := by
  rintro _ ⟨rfl⟩
  exact here

theorem allFrom_nil (path : Option Path) : AllFrom path (.ok []) :=
  allFrom_ok fun _ impossible => absurd impossible List.not_mem_nil

theorem allFrom_error (path : Option Path) (failure : Failure) : AllFrom path (.error failure) := by
  rintro _ ⟨⟩

/-- What comes first is found where that is found which comes behind it. -/
theorem AllFrom.map_append {path : Option Path} {diagnostics : List Diagnostic}
    {later : Except Failure (List Diagnostic)}
    (here : ∀ diagnostic ∈ diagnostics, diagnostic.FoundAt path)
    (behind : AllFrom path later) : AllFrom path (later.map (diagnostics ++ ·)) := by
  cases later with
  | error failure => exact allFrom_error path failure
  | ok others =>
    refine allFrom_ok fun diagnostic member => ?_
    rcases List.mem_append.mp member with first | second
    · exact here diagnostic first
    · exact behind others rfl diagnostic second

theorem ModuleRule.allFrom_checkUses (files : FileSystem) (path : Option Path) {call : Call}
    {uses : List Use} (inside : ∀ use ∈ uses, use ∈ ModuleRule.uses call) (rule : ModuleRule)
    (shared : Shared) : AllFrom path (checkUses files path uses rule shared).result := by
  induction uses generalizing rule shared with
  | nil => exact allFrom_nil path
  | cons use rest ih =>
    obtain ⟨used, later⟩ := List.forall_mem_cons.mp inside
    rw [checkUses]
    cases (isForbidden files use.module rule shared).result with
    | error failure => exact allFrom_error path failure
    | ok forbidden =>
      refine AllFrom.map_append (fun diagnostic member => ?_) (ih later _ _)
      cases forbidden with
      | false => cases member
      | true =>
        obtain rfl := List.mem_singleton.mp member
        exact .misuse used

namespace Rule

theorem allFrom_visit (files : FileSystem) (path : Option Path) (shown : Visit) (rule : Rule)
    (shared : Shared) : AllFrom path (visit files path shown rule shared).result := by
  cases rule with
  | someModule rule =>
    cases shown with
    | call call => exact ModuleRule.allFrom_checkUses files path (fun _ used => used) rule shared
    | catchClause clause => exact allFrom_nil path
  | emptyCatch =>
    cases shown with
    | call call => exact allFrom_nil path
    | catchClause clause => exact allFrom_ok fun diagnostic member => .emptyCatch member

theorem allFrom_visitAll (files : FileSystem) (path : Option Path) (shown : Visit)
    (rules : List Rule) (shared : Shared) :
    AllFrom path (visitAll files path shown rules shared).result := by
  induction rules generalizing shared with
  | nil => exact allFrom_nil path
  | cons rule rest ih =>
    have here := allFrom_visit files path shown rule shared
    rw [visitAll]
    cases visited : (visit files path shown rule shared).result with
    | error failure => exact allFrom_error path failure
    | ok diagnostics => exact AllFrom.map_append (here diagnostics visited) (ih _)

end Rule

theorem Node.path_of_checked {path : Option Text} {root : Node} {error : SyntaxError}
    (damaged : root.checked path = .error error) : error.path = path := by
  rw [checked] at damaged
  split at damaged
  · cases first : root.firstDamage? <;> rw [first] at damaged <;> cases damaged <;> rfl
  · cases damaged

namespace Linter

theorem allFrom_visitNodes (files : FileSystem) (path : Option Path) (nodes : List Node)
    (linter : Linter) : AllFrom path (visitNodes files path nodes linter).result := by
  induction nodes generalizing linter with
  | nil => exact allFrom_nil path
  | cons node rest ih =>
    rw [visitNodes]
    cases node.visit? with
    | none => exact ih linter
    | some shown =>
      cases shown with
      | error error => exact allFrom_error path (.escape error)
      | ok visit =>
        have here := Rule.allFrom_visitAll files path visit linter.rules linter.shared
        simp only
        cases visited : (Rule.visitAll files path visit linter.rules linter.shared).result with
        | error failure => exact allFrom_error path failure
        | ok diagnostics => exact AllFrom.map_append (here diagnostics visited) (ih _)

/-- Every diagnostic of a tree, the one on its damage included, is found at the path of its source. -/
theorem allFrom_lintTree (files : FileSystem) (path : Option Path) (root : Node)
    (linter : Linter) : AllFrom path (lintTree files path root linter).result := by
  rw [lintTree]
  cases damaged : root.checked (path.map Path.toText) with
  | ok intact => exact allFrom_visitNodes files path intact.walk linter
  | error error =>
    refine allFrom_ok fun diagnostic member => ?_
    obtain rfl := List.mem_singleton.mp member
    exact .damage error (Node.path_of_checked damaged)

end Linter

end ModuleFence
