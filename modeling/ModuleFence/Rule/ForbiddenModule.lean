import ModuleFence.Diagnostic
import ModuleFence.Expression.Basic
import ModuleFence.Rule.Options
import ModuleFence.Store.Resolver

/-!
The rule against forbidden modules. Two shapes of calls are looked at: getters, whose first argument
is a string that names a module, and actions, whose first argument is an object with values that name
a module before a slash. The deny-list is made when the first such name is met.
-/

set_option autoImplicit false

namespace ModuleFence

/-- The resolver that a rule asks: none, the one of the run, or its own. -/
inductive RuleResolver where
  | absent
  | shared
  | own (resolver : Resolver)

/-- The rule with its options and what it has cached: its deny-list, once that is made, and the set of
the names on it, here without repetitions, which membership is asked of. -/
structure ModuleRule where
  options : ModuleOptions
  resolver : RuleResolver
  denyList : Option (List Text) := none
  forbidden : List Text := []

/-- What the rules of a run share: a resolver and a log. -/
structure Shared where
  resolver : Resolver
  records : List LogRecord := []

/-- What shared state becomes with further log records. -/
def Shared.log (shared : Shared) (records : List LogRecord) : Shared :=
  { shared with records := shared.records ++ records }

namespace ModuleRule

/-- An answer of a rule, with the rule and the shared state after it. -/
structure Answer (α : Type) where
  result : Except Failure α
  rule : ModuleRule
  shared : Shared

/-- The warning about a rule that cannot forbid anything. -/
def idleRecords (options : ModuleOptions) : List LogRecord :=
  if options.forbiddenModules = [] ∧ options.storeFilePath = none then
    [⟨.warning, .moduleRule, Text.concat [RuleId.someModule.name,
      " has neither forbidden modules nor a store file; it will not report anything"]⟩]
  else []

/-- A rule that has not been asked for its deny-list. -/
def unasked (options : ModuleOptions) (resolver : RuleResolver) : ModuleRule :=
  { options, resolver }

/-- A rule that asks the resolver of the run. -/
def sharing (options : ModuleOptions) : ModuleRule :=
  unasked options .shared

/-- A rule that has a resolver of its own if its options name a store file. -/
def standalone (options : ModuleOptions) : ModuleRule :=
  unasked options (if options.storeFilePath.isSome then .own {} else .absent)

def askResolver (files : FileSystem) (path : Path) (rule : ModuleRule) (shared : Shared) :
    Answer (List Text) :=
  match rule.resolver with
  | .absent => ⟨.ok [], rule, shared⟩
  | .shared =>
    let reply := shared.resolver.resolve files path
    ⟨reply.result, rule, { shared with resolver := reply.resolver }.log reply.records⟩
  | .own resolver =>
    let reply := resolver.resolve files path
    ⟨reply.result, { rule with resolver := .own reply.resolver }, shared.log reply.records⟩

/-- The warning about configured names that the store does not know. -/
def staleRecords (path : Path) (configured known : List Text) : List LogRecord :=
  let stale := configured.filter fun name => !known.contains name
  if known = [] ∨ stale = [] then []
  else [⟨.warning, .moduleRule,
    Text.concat ["Forbidden module(s) not found in ", path.toText, ": ", Text.commaList stale]⟩]

/-- The deny-list that the options and the names of the store make. -/
def chooseNames (options : ModuleOptions) (known : List Text) : List Text :=
  if options.derivesFromStore then known else options.forbiddenModules

/-- Makes the deny-list. -/
def buildDenyList (files : FileSystem) (rule : ModuleRule) (shared : Shared) : Answer (List Text) :=
  match rule.options.storeFilePath, rule.resolver with
  | none, _ => ⟨.ok rule.options.forbiddenModules, rule, shared⟩
  | _, .absent => ⟨.ok rule.options.forbiddenModules, rule, shared⟩
  | some path, _ =>
    let answer := askResolver files path rule shared
    match answer.result with
    | .error failure => ⟨.error failure, answer.rule, answer.shared⟩
    | .ok known =>
      let records :=
        if rule.options.derivesFromStore then []
        else staleRecords path rule.options.forbiddenModules known
      ⟨.ok (chooseNames rule.options known), answer.rule, answer.shared.log records⟩

/-- A rule that caches its deny-list together with the set of the names on it. -/
def caching (names : List Text) (rule : ModuleRule) : ModuleRule :=
  { rule with denyList := some names, forbidden := names.eraseDups }

/-- The deny-list, which is made once. -/
def askDenyList (files : FileSystem) (rule : ModuleRule) (shared : Shared) : Answer (List Text) :=
  match rule.denyList with
  | some names => ⟨.ok names, rule, shared⟩
  | none =>
    let answer := buildDenyList files rule shared
    match answer.result with
    | .error failure => ⟨.error failure, answer.rule, answer.shared⟩
    | .ok names => ⟨.ok names, answer.rule.caching names, answer.shared⟩

/-- Whether a module is forbidden: the deny-list is made if need be, and the cached set is asked. -/
def isForbidden (files : FileSystem) (module : Text) (rule : ModuleRule) (shared : Shared) :
    Answer Bool :=
  let answer := askDenyList files rule shared
  ⟨answer.result.map fun _ => answer.rule.forbidden.contains module, answer.rule, answer.shared⟩

def gettersName : String := "mapGetters"

def actionsName : String := "mapActions"

/-- A use of a module in a call: who uses it, its name, and the string that names it. -/
structure Use where
  caller : String
  module : Text
  span : Span
deriving DecidableEq

/-- The module that a value names before its first separator. -/
def moduleBefore? (value : Text) : Option Text :=
  if moduleSeparator ∈ value then some (value.takeWhile (· ≠ moduleSeparator)) else none

def getterUses : Option Expression → List Use
  | some (.string value span) => [⟨gettersName, value, span⟩]
  | _ => []

def actionUse? : Member → Option Use
  | .pair _ (.string value span) _ =>
    (moduleBefore? value).map fun module => ⟨actionsName, module, span⟩
  | _ => none

def actionUses : Option Expression → List Use
  | some (.object members _) => members.filterMap actionUse?
  | _ => []

def uses (call : Call) : List Use :=
  match call.calleeName? with
  | some name =>
    if name = gettersName then getterUses call.firstArgument?
    else if name = actionsName then actionUses call.firstArgument?
    else []
  | none => []

def finding (path : Option Path) (use : Use) : Diagnostic where
  ruleId := RuleId.someModule.name
  message := Text.concat [use.caller, ": not allowed to use ", use.module]
  span := use.span
  nodeKind := "string"
  filePath := path

/-- Looks at some uses in order, each against the deny-list. -/
def checkUses (files : FileSystem) (path : Option Path) :
    List Use → ModuleRule → Shared → Answer (List Diagnostic)
  | [], rule, shared => ⟨.ok [], rule, shared⟩
  | use :: rest, rule, shared =>
    let answer := isForbidden files use.module rule shared
    match answer.result with
    | .error failure => ⟨.error failure, answer.rule, answer.shared⟩
    | .ok forbidden =>
      let others := checkUses files path rest answer.rule answer.shared
      let here := if forbidden then [finding path use] else []
      ⟨others.result.map (here ++ ·), others.rule, others.shared⟩

def visitCall (files : FileSystem) (path : Option Path) (call : Call) (rule : ModuleRule)
    (shared : Shared) : Answer (List Diagnostic) :=
  checkUses files path (uses call) rule shared

end ModuleRule

end ModuleFence
