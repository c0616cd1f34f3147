import ModuleFence.Rule.EmptyCatch
import ModuleFence.Rule.ForbiddenModule

set_option autoImplicit false

namespace ModuleFence

/-- A rule with its state. -/
inductive Rule where
  | emptyCatch
  | someModule (rule : ModuleRule)

/-- What rules look at. -/
inductive Visit where
  | call (call : Call)
  | catchClause (clause : CatchClause)

namespace Rule

def id : Rule → RuleId
  | emptyCatch => .emptyCatch
  | someModule _ => .someModule

/-- An answer of some rules, with the rules and the shared state after it. -/
structure Answer (rules : Type) where
  result : Except Failure (List Diagnostic)
  rules : rules
  shared : Shared

def visit (files : FileSystem) (path : Option Path) (visit : Visit) (rule : Rule)
    (shared : Shared) : Answer Rule :=
  match rule, visit with
  | someModule state, .call call =>
    let answer := state.visitCall files path call shared
    ⟨answer.result, someModule answer.rule, answer.shared⟩
  | emptyCatch, .catchClause clause => ⟨.ok (EmptyCatch.findings path clause), emptyCatch, shared⟩
  | rule, _ => ⟨.ok [], rule, shared⟩

/-- Shows something to some rules in order; a failure keeps it from the rules behind. -/
def visitAll (files : FileSystem) (path : Option Path) (visit : Visit) :
    List Rule → Shared → Answer (List Rule)
  | [], shared => ⟨.ok [], [], shared⟩
  | rule :: rest, shared =>
    let first := rule.visit files path visit shared
    match first.result with
    | .error failure => ⟨.error failure, first.rules :: rest, first.shared⟩
    | .ok here =>
      let others := visitAll files path visit rest first.shared
      ⟨others.result.map (here ++ ·), first.rules :: others.rules, others.shared⟩

/-- The rule that settings make under an identifier, and the records about it. -/
def make (settings : Settings) : RuleId → Except RuleConfigError Rule × List LogRecord
  | .emptyCatch => (.ok emptyCatch, [])
  | .someModule =>
    let (options, records) := ModuleOptions.ofNames settings.storeFilePath settings.forbiddenModules
    match options with
    | .error error => (.error (.invalidOptions error), records)
    | .ok options =>
      (.ok (someModule (.sharing options)), records ++ ModuleRule.idleRecords options)

/-- The rules that settings make under some names, and the records about them. -/
def makeAll (settings : Settings) : List Text → Except RuleConfigError (List Rule) × List LogRecord
  | [] => (.ok [], [])
  | name :: rest =>
    match RuleId.ofName? name with
    | none => (.error (.unknownRule name), [])
    | some id =>
      match make settings id with
      | (.error error, records) => (.error error, records)
      | (.ok rule, records) =>
        let (others, further) := makeAll settings rest
        (others.map (rule :: ·), records ++ further)

def enabledNames (settings : Settings) : List Text :=
  settings.enabledRules.map fun id => Text.ofString id.name

/-- The rules that settings make: those under the given names, or the enabled ones. -/
def create (settings : Settings) (names : Option (List Text)) :
    Except RuleConfigError (List Rule) × List LogRecord :=
  makeAll settings (names.getD (enabledNames settings))

end Rule

end ModuleFence
