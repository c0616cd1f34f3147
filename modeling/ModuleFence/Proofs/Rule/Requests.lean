import ModuleFence.Proofs.Lint.Findings
import ModuleFence.Proofs.Rule.Settling

set_option autoImplicit false

namespace ModuleFence.ModuleRule

open Resolver (Decides afterwards)

/-- What a rule is asked for: its deny-list, whether a module is forbidden, or its findings on what it
is shown. -/
inductive Request where
  | denyList
  | isForbidden (module : Text)
  | visit (path : Option Path) (shown : Visit)

inductive Reply where
  | names (names : List Text)
  | verdict (forbidden : Bool)
  | findings (diagnostics : List Diagnostic)

/-- An answer with another result. -/
def Answer.map {α β : Type} (f : α → β) (answer : Answer α) : Answer β :=
  ⟨answer.result.map f, answer.rule, answer.shared⟩

def serve (files : FileSystem) (request : Request) (rule : ModuleRule) (shared : Shared) :
    Answer Reply :=
  match request with
  | .denyList => (askDenyList files rule shared).map .names
  | .isForbidden module => (isForbidden files module rule shared).map .verdict
  | .visit path (.call call) => (visitCall files path call rule shared).map .findings
  | .visit _ (.catchClause _) => ⟨.ok (.findings []), rule, shared⟩

/-- Whether a request needs the deny-list. -/
def Request.Asks : Request → Prop
  | denyList => True
  | isForbidden _ => True
  | visit _ shown => shown.uses ≠ []

instance (request : Request) : Decidable request.Asks :=
  match request with
  | .denyList => .isTrue trivial
  | .isForbidden _ => .isTrue trivial
  | .visit _ shown => inferInstanceAs (Decidable (shown.uses ≠ []))

/-- The reply to a request under a deny-list. -/
def Request.reply (names : List Text) : Request → Reply
  | denyList => .names names
  | isForbidden module => .verdict (names.contains module)
  | visit path shown => .findings (ModuleRule.findings path shown.uses names)

/-- A step of a run: a request, and the files as they are then. -/
structure Step where
  files : FileSystem
  request : Request

structure Run where
  replies : List (Except Failure Reply)
  rule : ModuleRule
  shared : Shared

/-- Answers requests, each in the state that those before it leave behind. -/
def run : List Step → ModuleRule → Shared → Run
  | [], rule, shared => ⟨[], rule, shared⟩
  | step :: rest, rule, shared =>
    let answer := serve step.files step.request rule shared
    let others := run rest answer.rule answer.shared
    ⟨answer.result :: others.replies, others.rule, others.shared⟩

/-- Each request to the store that is made in a run ends with names or with an error of the store. -/
def Decided : List Step → ModuleRule → Shared → Prop
  | [], _, _ => True
  | step :: rest, rule, shared =>
    (step.request.Asks → rule.denyList = none → ∀ path ∈ rule.options.storeFilePath,
      ∀ resolver ∈ resolverOf rule shared,
        ∃ answer, Decides answer (resolver.resolve step.files path)) ∧
    Decided rest (serve step.files step.request rule shared).rule
      (serve step.files step.request rule shared).shared

section Serving

variable {options : ModuleOptions} {answer : Except StoreError (List Text)} {rule : ModuleRule}
  {shared : Shared}

/-- A rule that is shown something looks at the uses of modules in it. -/
theorem serve_visit (files : FileSystem) (path : Option Path) (shown : Visit) (rule : ModuleRule)
    (shared : Shared) :
    serve files (.visit path shown) rule shared =
      (checkUses files path shown.uses rule shared).map .findings := by
  cases shown <;> rfl

/-- A request that needs the deny-list does so first, and is then answered by a rule that has it. -/
theorem serve_of_asks {request : Request} (asks : request.Asks) (files : FileSystem)
    (rule : ModuleRule) (shared : Shared) :
    serve files request rule shared =
      match (askDenyList files rule shared).result with
      | .error failure => ⟨.error failure, (askDenyList files rule shared).rule,
          (askDenyList files rule shared).shared⟩
      | .ok _ => serve files request (askDenyList files rule shared).rule
          (askDenyList files rule shared).shared := by
  cases asked : (askDenyList files rule shared).result with
  | error failure =>
    simp only
    cases request with
    | denyList => rw [serve, Answer.map, asked]; rfl
    | isForbidden module => rw [serve, isForbidden, Answer.map]; simp only [asked]; rfl
    | visit path shown =>
      rw [serve_visit]
      obtain ⟨use, rest, same⟩ := List.exists_cons_of_ne_nil asks
      rw [same, checkUses, isForbidden]
      simp only [asked]
      rfl
  | ok names =>
    have again := askDenyList_of_remembered (denyList_of_asked asked) files
      (askDenyList files rule shared).shared
    simp only
    cases request with
    | denyList => rw [serve, serve, again, Answer.map, asked]; rfl
    | isForbidden module => rw [serve, serve, isForbidden, isForbidden, again, asked]
    | visit path shown =>
      obtain ⟨use, rest, same⟩ := List.exists_cons_of_ne_nil asks
      rw [serve_visit, serve_visit, same, checkUses, checkUses, isForbidden, isForbidden, again, asked]

/-- A request keeps the caches of a rule in agreement, whether it is answered or fails. -/
theorem Agrees.serve (agrees : rule.Agrees) (files : FileSystem) (request : Request)
    (shared : Shared) : (serve files request rule shared).rule.Agrees := by
  cases request with
  | denyList => exact agrees.askDenyList files shared
  | isForbidden module =>
    rw [ModuleRule.serve, agrees.isForbidden_eq]
    exact agrees.askDenyList files shared
  | visit path shown =>
    rw [serve_visit]
    exact agrees.checkUses files shared path shown.uses

theorem Agrees.run (agrees : rule.Agrees) (steps : List Step) (shared : Shared) :
    (run steps rule shared).rule.Agrees := by
  induction steps generalizing rule shared with
  | nil => exact agrees
  | cons step rest ih => exact ih (agrees.serve step.files step.request shared) _

theorem reply_of_idle {request : Request} (idle : ¬ request.Asks) (names others : List Text) :
    request.reply names = request.reply others := by
  cases request with
  | denyList => exact absurd trivial idle
  | isForbidden module => exact absurd trivial idle
  | visit path shown =>
    have unused : shown.uses = [] := Classical.not_not.mp idle
    rw [Request.reply, Request.reply, unused]
    rfl

/-- A request that needs no deny-list is answered without one. -/
theorem serve_of_idle {request : Request} (idle : ¬ request.Asks) (files : FileSystem)
    (rule : ModuleRule) (shared : Shared) :
    serve files request rule shared = ⟨.ok (request.reply []), rule, shared⟩ := by
  cases request with
  | denyList => exact absurd trivial idle
  | isForbidden module => exact absurd trivial idle
  | visit path shown =>
    have unused : shown.uses = [] := Classical.not_not.mp idle
    rw [serve_visit, Request.reply, unused]
    rfl

theorem checkUses_of_remembered {names : List Text} (remembered : rule.denyList = some names)
    (agrees : rule.Agrees) (files : FileSystem) (path : Option Path) (uses : List Use)
    (shared : Shared) :
    checkUses files path uses rule shared = ⟨.ok (findings path uses names), rule, shared⟩ := by
  induction uses with
  | nil => rfl
  | cons use rest ih =>
    have asked : isForbidden files use.module rule shared =
        ⟨.ok (names.contains use.module), rule, shared⟩ := by
      rw [agrees.isForbidden_eq, askDenyList_of_remembered remembered]
      rfl
    rw [checkUses, asked]
    simp only [ih]
    rw [findings, findings, List.filter_cons]
    split <;> rfl

theorem serve_of_remembered {names : List Text} (remembered : rule.denyList = some names)
    (agrees : rule.Agrees) (files : FileSystem) (request : Request) (shared : Shared) :
    serve files request rule shared = ⟨.ok (request.reply names), rule, shared⟩ := by
  cases request with
  | denyList =>
    rw [serve, askDenyList_of_remembered remembered]
    rfl
  | isForbidden module =>
    rw [serve, agrees.isForbidden_eq, askDenyList_of_remembered remembered]
    rfl
  | visit path shown =>
    rw [serve_visit, checkUses_of_remembered remembered agrees]
    rfl

/-- The end of a request to a rule whose deny-list is settled. -/
def Request.outcome (options : ModuleOptions) (answer : Except StoreError (List Text))
    (request : Request) : Except Failure Reply :=
  if request.Asks then (granted options answer).map request.reply else .ok (request.reply [])

theorem Request.outcome_ok (options : ModuleOptions) (known : List Text) (request : Request) :
    request.outcome options (.ok known) = .ok (request.reply (listed options known)) := by
  rw [outcome]
  split
  · rfl
  · rename_i idle
    rw [reply_of_idle idle]

/-- A rule whose deny-list is settled answers all requests from what is settled. -/
theorem Settled.serve (settled : Settled options answer rule shared) (files : FileSystem)
    (request : Request) :
    ∃ records, Quiet records ∧ serve files request rule shared =
      ⟨request.outcome options answer, rule, shared.log records⟩ := by
  by_cases asks : request.Asks
  · obtain ⟨records, quiet, asked⟩ := settled.askDenyList files
    refine ⟨records, quiet, ?_⟩
    rw [serve_of_asks asks, asked, Request.outcome, if_pos asks]
    cases answer with
    | ok known =>
      exact serve_of_remembered settled.denyList_eq settled.agrees files request (shared.log records)
    | error error => rfl
  · refine ⟨[], quiet_nil, ?_⟩
    rw [serve_of_idle asks, Request.outcome, if_neg asks, log_nil]

theorem Settled.run (settled : Settled options answer rule shared) (steps : List Step) :
    ∃ records, Quiet records ∧ run steps rule shared =
      ⟨steps.map (·.request.outcome options answer), rule, shared.log records⟩ := by
  induction steps generalizing shared with
  | nil => exact ⟨[], quiet_nil, by rw [log_nil]; rfl⟩
  | cons step rest ih =>
    obtain ⟨first, quietFirst, served⟩ := settled.serve step.files step.request
    obtain ⟨others, quietOthers, ran⟩ := ih (settled.log first)
    refine ⟨first ++ others, quietFirst.append quietOthers, ?_⟩
    rw [ModuleRule.run, served]
    simp only [ran, log_log]
    rfl

/-- The first request that needs the deny-list settles it for all. -/
theorem serve_settles {held : RuleResolver} {files : FileSystem} {request : Request}
    (asks : request.Asks) (equipped : options.storeFilePath.isSome → held ≠ .absent)
    (decided : ∀ path ∈ options.storeFilePath,
      ∀ resolver ∈ resolverOf (unasked options held) shared,
        ∃ answer, Decides answer (resolver.resolve files path)) :
    ∃ answer, (serve files request (unasked options held) shared).result =
        request.outcome options answer ∧
      Settles files options held shared answer (serve files request (unasked options held) shared).rule
        (serve files request (unasked options held) shared).shared := by
  obtain ⟨answer, asked, settles⟩ := askDenyList_settles equipped decided
  refine ⟨answer, ?_⟩
  rw [serve_of_asks asks, asked, Request.outcome, if_pos asks]
  cases answer with
  | error error => exact ⟨rfl, settles⟩
  | ok known =>
    have served := serve_of_remembered settles.settled.denyList_eq settles.settled.agrees files request
      (askDenyList files (unasked options held) shared).shared
    simp only [granted, afterwards, Except.map]
    rw [served]
    exact ⟨rfl, settles⟩

/-- A run asks for no deny-list, or its first request that does so settles it. -/
theorem run_settles {held : RuleResolver} {steps : List Step}
    (equipped : options.storeFilePath.isSome → held ≠ .absent)
    (decided : Decided steps (unasked options held) shared) :
    ((∀ step ∈ steps, ¬ step.request.Asks) ∧ run steps (unasked options held) shared =
      ⟨steps.map fun step => .ok (step.request.reply []), (unasked options held), shared⟩) ∨
    ∃ first answer, steps.find? (·.request.Asks) = some first ∧
      (run steps (unasked options held) shared).replies =
        steps.map (·.request.outcome options answer) ∧
      Settles first.files options held shared answer (run steps (unasked options held) shared).rule
        (run steps (unasked options held) shared).shared := by
  induction steps with
  | nil => exact .inl ⟨by simp, rfl⟩
  | cons step rest ih =>
    by_cases asks : step.request.Asks
    · obtain ⟨answer, result_eq, settles⟩ := serve_settles asks equipped (decided.1 asks rfl)
      obtain ⟨records, quiet, ran⟩ := settles.settled.run rest
      refine .inr ⟨step, answer, by rw [List.find?_cons, decide_eq_true asks], ?_⟩
      rw [run]
      simp only [ran, result_eq]
      refine ⟨rfl, settles.settled.log records, settles.decides, ?_, settles.unchanged⟩
      rw [ruleRecords_log, quiet, List.append_nil]
      exact settles.records_eq
    · have served := serve_of_idle asks step.files (unasked options held) shared
      have later := decided.2
      rw [served] at later
      rw [run, served]
      rcases ih later with ⟨idle, ran⟩ | ⟨first, answer, found, replies_eq, settles⟩
      · refine .inl ⟨List.forall_mem_cons.mpr ⟨asks, idle⟩, ?_⟩
        simp only [ran]
        rfl
      · refine .inr ⟨first, answer, ?_, ?_, settles⟩
        · rw [List.find?_cons, decide_eq_false asks]
          exact found
        · rw [List.map_cons, Request.outcome, if_neg asks]
          exact congrArg _ replies_eq

end Serving

/-- The deny-list of a rule has one source, whatever becomes of the files: the first request that
needs it settles it, for all that follow. In every state the cached set holds the names of the cached
list, and none before there is a list. Where the store gives names, each request is answered under the
names of the options or else under those of the store, and the rule warns once about names that the
store does not know. Where the store gives an error, each request that needs the list gets that error,
and the rule stays as it was. -/
theorem run_coherent (options : ModuleOptions) (held : RuleResolver) (shared : Shared)
    (steps : List Step) (equipped : options.storeFilePath.isSome → held ≠ .absent)
    (decided : Decided steps (unasked options held) shared) :
    ∃ answer,
      (∀ first, steps.find? (·.request.Asks) = some first →
        ∀ path ∈ options.storeFilePath, ∀ resolver ∈ resolverOf (unasked options held) shared,
          Decides answer (resolver.resolve first.files path)) ∧
      (run steps (unasked options held) shared).rule.options = options ∧
      (run steps (unasked options held) shared).rule.Agrees ∧
      (∀ module, module ∈ (run steps (unasked options held) shared).rule.forbidden ↔
        ∃ names, (run steps (unasked options held) shared).rule.denyList = some names ∧
          module ∈ names) ∧
      (∀ known, answer = .ok known →
        (run steps (unasked options held) shared).replies =
          steps.map (fun step => .ok (step.request.reply (listed options known))) ∧
        (run steps (unasked options held) shared).rule.denyList =
          (if ∃ step ∈ steps, step.request.Asks then some (listed options known) else none) ∧
        ruleRecords (run steps (unasked options held) shared).shared.records =
          ruleRecords shared.records ++
            if ∃ step ∈ steps, step.request.Asks then staleWarning options known else []) ∧
      (∀ error, answer = .error error →
        (run steps (unasked options held) shared).replies =
          steps.map (fun step =>
            if step.request.Asks then .error (.store error) else .ok (step.request.reply [])) ∧
        (run steps (unasked options held) shared).rule.denyList = none ∧
        (run steps (unasked options held) shared).rule.forbidden = [] ∧
        (held = .shared → (run steps (unasked options held) shared).rule = unasked options held) ∧
        ruleRecords (run steps (unasked options held) shared).shared.records =
          ruleRecords shared.records) := by
  have agrees := (agrees_unasked options held).run steps shared
  rcases run_settles equipped decided with
    ⟨idle, ran⟩ | ⟨first, answer, found, replies_eq, settles⟩
  · have idleAll : ¬ ∃ step ∈ steps, step.request.Asks := fun ⟨step, member, asks⟩ =>
      idle step member asks
    have unfound : steps.find? (·.request.Asks) = none :=
      List.find?_eq_none.mpr fun step member => by simpa using idle step member
    refine ⟨.ok [], fun first found => ?_, ?_⟩
    · rw [unfound] at found
      cases found
    rw [ran] at agrees ⊢
    refine ⟨rfl, agrees, agrees.mem_forbidden_iff, fun known _ => ⟨?_, ?_, ?_⟩,
      fun _ impossible => by cases impossible⟩
    · exact List.map_congr_left fun step member =>
        congrArg Except.ok (reply_of_idle (idle step member) _ _)
    · rw [if_neg idleAll]
      rfl
    · rw [if_neg idleAll, List.append_nil]
  · have asked : ∃ step ∈ steps, step.request.Asks :=
      ⟨first, List.mem_of_find?_eq_some found, by simpa using List.find?_some found⟩
    refine ⟨answer, fun other same => ?_, settles.settled.options_eq, agrees,
      agrees.mem_forbidden_iff, ?_, ?_⟩
    · obtain rfl : first = other := Option.some.inj (found.symm.trans same)
      exact settles.decides
    · rintro known rfl
      refine ⟨?_, ?_, ?_⟩
      · simp only [replies_eq, Request.outcome_ok]
      · rw [if_pos asked]
        exact settles.settled.denyList_eq
      · rw [if_pos asked]
        exact settles.records_eq
    · rintro error rfl
      have forgotten := settles.settled.denyList_eq
      refine ⟨replies_eq, forgotten, ?_, settles.unchanged error rfl, ?_⟩
      · rw [agrees, forgotten]
        rfl
      rw [settles.records_eq, settlingRecords, List.append_nil]

/-- Configured names win over those that a resolver has from another store, which still lead to a
warning. -/
theorem run_coherent_of_resolved_elsewhere :
    (run [⟨.empty [], .isForbidden "b"⟩, ⟨.empty [], .denyList⟩]
        (unasked ⟨some ⟨.relative, ["s"]⟩, ["b", "a"]⟩ .shared)
        ⟨⟨.closed, some ⟨.relative, ["t"]⟩, some (.ok ["a"]), some .resolved, Script.parse⟩,
          []⟩).replies =
      [.ok (.verdict true), .ok (.names ["b", "a"])] ∧
    ruleRecords (run [⟨.empty [], .isForbidden "b"⟩, ⟨.empty [], .denyList⟩]
        (unasked ⟨some ⟨.relative, ["s"]⟩, ["b", "a"]⟩ .shared)
        ⟨⟨.closed, some ⟨.relative, ["t"]⟩, some (.ok ["a"]), some .resolved, Script.parse⟩,
          []⟩).shared.records =
      [⟨.warning, .moduleRule, "Forbidden module(s) not found in s: b"⟩] := by
  obtain ⟨answer, decides, -, -, -, given, -⟩ := run_coherent ⟨some ⟨.relative, ["s"]⟩, ["b", "a"]⟩ .shared
    ⟨⟨.closed, some ⟨.relative, ["t"]⟩, some (.ok ["a"]), some .resolved, Script.parse⟩, []⟩
    [⟨.empty [], .isForbidden "b"⟩, ⟨.empty [], .denyList⟩] (fun _ impossible => by cases impossible)
    ⟨fun _ _ path _ resolver held => by cases held; exact ⟨.ok ["a"], rfl⟩,
      fun _ _ path _ resolver held => by cases held; exact ⟨.ok ["a"], rfl⟩, trivial⟩
  have settled : afterwards (.ok ["a"]) = afterwards answer := decides _ rfl _ rfl _ rfl
  obtain rfl := Resolver.afterwards_injective settled
  obtain ⟨replies_eq, -, records_eq⟩ := given ["a"] rfl
  exact ⟨replies_eq, records_eq⟩

end ModuleFence.ModuleRule
