import ModuleFence.Proofs.Rule.DenyList

/-!
Settling of a deny-list. A rule that asks for its deny-list and gets an answer from the store, names or
an error, has its list settled: it remembers the list, or its resolver the error, and no later request
changes anything but the log.
-/

set_option autoImplicit false

namespace ModuleFence.ModuleRule

open Resolver (Decides afterwards cached_resolve_iff resolve_of_cached)

/-- The resolver that a rule asks, if it has one. -/
def resolverOf (rule : ModuleRule) (shared : Shared) : Option Resolver :=
  match rule.resolver with
  | .absent => none
  | .shared => some shared.resolver
  | .own resolver => some resolver

/-- The deny-list that options stand for: the names that they give, and otherwise those of the store
that they name. -/
def listed (options : ModuleOptions) (known : List Text) : List Text :=
  if options.forbiddenModules ≠ [] then options.forbiddenModules
  else if options.storeFilePath.isSome then known
  else []

/-- The names of the options that a store does not know, in order. -/
def missing (options : ModuleOptions) (known : List Text) : List Text :=
  options.forbiddenModules.filter fun name => !known.contains name

/-- The log records that rules against forbidden modules write. -/
def ruleRecords (records : List LogRecord) : List LogRecord :=
  records.filter (·.source = .moduleRule)

/-- The warning about missing names, where a store that has names is to be compared with them. -/
def staleWarning (options : ModuleOptions) (known : List Text) : List LogRecord :=
  match options.storeFilePath with
  | none => []
  | some path =>
    if options.forbiddenModules ≠ [] ∧ known ≠ [] ∧ missing options known ≠ [] then
      [⟨.warning, .moduleRule, Text.concat ["Forbidden module(s) not found in ", path.toText, ": ",
        Text.commaList (missing options known)]⟩]
    else []

theorem chooseNames_eq {options : ModuleOptions} {path : Path}
    (stored : options.storeFilePath = some path) (known : List Text) :
    chooseNames options known = listed options known := by
  rw [chooseNames, listed, ModuleOptions.derivesFromStore, stored]
  by_cases given : options.forbiddenModules = []
  · simp [given]
  · simp [given]

theorem forbiddenModules_eq {options : ModuleOptions} (unstored : options.storeFilePath = none)
    (known : List Text) : options.forbiddenModules = listed options known := by
  rw [listed, unstored]
  by_cases given : options.forbiddenModules = []
  · simp [given]
  · simp [given]

/-- The records that a rule writes when it has made its deny-list. -/
theorem staleWarning_eq {options : ModuleOptions} {path : Path}
    (stored : options.storeFilePath = some path) (known : List Text) :
    (if options.derivesFromStore then []
      else staleRecords path options.forbiddenModules known) = staleWarning options known := by
  have filtered : (options.forbiddenModules.filter fun name => !known.contains name) =
      missing options known :=
    rfl
  rw [staleWarning, stored, ModuleOptions.derivesFromStore, stored, staleRecords, filtered]
  by_cases given : options.forbiddenModules = []
  · simp [given]
  · by_cases empty : known = [] <;> by_cases complete : missing options known = [] <;>
      simp [given, empty, complete]

theorem ruleRecords_staleWarning (options : ModuleOptions) (known : List Text) :
    ruleRecords (staleWarning options known) = staleWarning options known := by
  unfold staleWarning
  repeat' split
  all_goals rfl

/-- Log records that no rule has written. -/
def Quiet (records : List LogRecord) : Prop :=
  ruleRecords records = []

theorem quiet_nil : Quiet [] := rfl

theorem Quiet.append {first second : List LogRecord} (quiet : Quiet first) (also : Quiet second) :
    Quiet (first ++ second) := by
  rw [Quiet, ruleRecords, List.filter_append]
  exact List.append_eq_nil_iff.mpr ⟨quiet, also⟩

theorem ruleRecords_log (shared : Shared) (records : List LogRecord) :
    ruleRecords (shared.log records).records = ruleRecords shared.records ++ ruleRecords records :=
  List.filter_append _ _

theorem log_log (shared : Shared) (first second : List LogRecord) :
    (shared.log first).log second = shared.log (first ++ second) := by
  simp only [Shared.log, List.append_assoc]

theorem log_nil (shared : Shared) : shared.log [] = shared := by
  rw [Shared.log, List.append_nil]

/-- Resolvers write no records of rules. -/
theorem quiet_resolve (files : FileSystem) (path : Path) (resolver : Resolver) :
    Quiet (resolver.resolve files path).records := by
  have attempted : Quiet (Resolver.attempt resolver.parser files resolver.policy path).records := by
    rcases Resolver.attempt_cases resolver.parser files resolver.policy path with
      ⟨outcome, reason, -, ended⟩ | ⟨names, ended⟩ | ⟨failure, -, ended⟩
    · rw [ended]
      rfl
    · rw [ended, Resolver.found]
      by_cases none_ : names = []
      · simp only [none_, if_true]
        rfl
      · simp only [none_, if_false]
        rfl
    · rw [ended]
      rfl
  cases known : resolver.cached with
  | some answer =>
    rw [resolve_of_cached known]
    show Quiet (Resolver.ignoredRecords resolver.storePath path)
    unfold Resolver.ignoredRecords
    repeat' split
    all_goals rfl
  | none =>
    rw [Resolver.resolve_of_uncached known]
    exact attempted

section Asking

variable {options : ModuleOptions} {answer : Except StoreError (List Text)} {rule : ModuleRule}
  {shared : Shared} {resolver : Resolver} {path : Path}

/-- What a rule with a resolver and its shared state are after the resolver was asked. -/
structure Consulted (files : FileSystem) (path : Path) (rule : ModuleRule) (shared : Shared)
    (resolver : Resolver) (after : ModuleRule) (later : Shared) : Prop where
  options_eq : after.options = rule.options
  denyList_eq : after.denyList = rule.denyList
  resolver_eq : resolverOf after later = some (resolver.resolve files path).resolver
  records_eq : ruleRecords later.records = ruleRecords shared.records
  of_shared : rule.resolver = .shared → after = rule
  of_cached : resolver.cached ≠ none →
    after = rule ∧ later = shared.log (resolver.resolve files path).records

theorem askResolver_eq (held : resolverOf rule shared = some resolver) (files : FileSystem)
    (path : Path) :
    (askResolver files path rule shared).result = (resolver.resolve files path).result ∧
      Consulted files path rule shared resolver (askResolver files path rule shared).rule
        (askResolver files path rule shared).shared := by
  have quiet := quiet_resolve files path resolver
  obtain ⟨ruleOptions, kind, denyList, forbidden⟩ := rule
  have unchanged (known : resolver.cached ≠ none) :
      (resolver.resolve files path).resolver = resolver := by
    obtain ⟨answer, cached⟩ := Option.ne_none_iff_exists'.mp known
    rw [resolve_of_cached cached]
  cases kind with
  | absent => cases held
  | shared =>
    obtain rfl : shared.resolver = resolver := Option.some.inj held
    refine ⟨rfl, rfl, rfl, rfl, ?_, fun _ => rfl, fun known => ⟨rfl, ?_⟩⟩
    · show ruleRecords (shared.records ++ _) = _
      rw [ruleRecords, List.filter_append]
      exact (congrArg _ quiet).trans (List.append_nil _)
    · show Shared.log ⟨_, _⟩ _ = _
      rw [unchanged known]
  | own other =>
    obtain rfl : other = resolver := Option.some.inj held
    refine ⟨rfl, rfl, rfl, rfl, ?_, fun impossible => (by cases impossible), fun known => ⟨?_, rfl⟩⟩
    · show ruleRecords (shared.log _).records = _
      rw [ruleRecords_log, quiet, List.append_nil]
    · show ModuleRule.mk ruleOptions (.own _) denyList forbidden = _
      rw [unchanged known]

/-- A rule with a resolver makes its deny-list from what its resolver answers. -/
theorem buildDenyList_of_stored (stored : rule.options.storeFilePath = some path)
    (held : resolverOf rule shared = some resolver) (files : FileSystem) :
    buildDenyList files rule shared =
      match (askResolver files path rule shared).result with
      | .error failure => ⟨.error failure, (askResolver files path rule shared).rule,
          (askResolver files path rule shared).shared⟩
      | .ok known => ⟨.ok (listed rule.options known), (askResolver files path rule shared).rule,
          (askResolver files path rule shared).shared.log (staleWarning rule.options known)⟩ := by
  have equipped : rule.resolver ≠ .absent := by
    intro absent
    rw [resolverOf, absent] at held
    cases held
  rw [buildDenyList, stored]
  split
  · contradiction
  · exact absurd ‹_› equipped
  · rename_i same _
    cases same
    cases ended : (askResolver files path rule shared).result with
    | error failure => simp only [ended]
    | ok known => simp only [ended, chooseNames_eq stored, staleWarning_eq stored]

/-- A rule whose deny-list is settled: it remembers the list, or its resolver the error. -/
structure Settled (options : ModuleOptions) (answer : Except StoreError (List Text))
    (rule : ModuleRule) (shared : Shared) : Prop where
  options_eq : rule.options = options
  denyList_eq : rule.denyList = answer.toOption.map (listed options)
  agrees : rule.Agrees
  cached : ∀ path ∈ options.storeFilePath,
    ∃ resolver ∈ resolverOf rule shared, resolver.cached = some answer
  stored : ∀ error, answer = .error error → ∃ path, options.storeFilePath = some path

/-- What a rule gets that asks for its deny-list, once that is settled. -/
def granted (options : ModuleOptions) (answer : Except StoreError (List Text)) :
    Except Failure (List Text) :=
  (afterwards answer).map (listed options)

theorem Settled.log (settled : Settled options answer rule shared) (records : List LogRecord) :
    Settled options answer rule (shared.log records) := by
  have same : resolverOf rule (shared.log records) = resolverOf rule shared := by
    unfold resolverOf
    split <;> rfl
  refine ⟨settled.options_eq, settled.denyList_eq, settled.agrees, ?_, settled.stored⟩
  rw [same]
  exact settled.cached

/-- A rule with a settled deny-list stays as it is when it is asked for the list. -/
theorem Settled.askDenyList (settled : Settled options answer rule shared) (files : FileSystem) :
    ∃ records, Quiet records ∧ askDenyList files rule shared =
      ⟨granted options answer, rule, shared.log records⟩ := by
  cases answer with
  | ok known =>
    refine ⟨[], quiet_nil, ?_⟩
    rw [askDenyList_of_remembered settled.denyList_eq, log_nil]
    rfl
  | error error =>
    obtain ⟨path, stored⟩ := settled.stored error rfl
    obtain ⟨resolver, held, cached⟩ := settled.cached path stored
    have forgotten : rule.denyList = none := settled.denyList_eq
    obtain ⟨result_eq, asked⟩ := askResolver_eq held files path
    obtain ⟨rule_eq, shared_eq⟩ := asked.of_cached (by rw [cached]; exact Option.some_ne_none _)
    rw [resolve_of_cached cached] at result_eq
    rw [← settled.options_eq] at stored
    refine ⟨_, quiet_resolve files path resolver, ?_⟩
    simp only [ModuleRule.askDenyList, forgotten, buildDenyList_of_stored stored held, result_eq,
      afterwards, rule_eq, shared_eq]
    rfl

/-- The records that a rule writes when its deny-list is settled. -/
def settlingRecords (options : ModuleOptions) : Except StoreError (List Text) → List LogRecord
  | .ok known => staleWarning options known
  | .error _ => []

/-- What becomes of a rule that has not asked yet when its deny-list is settled. -/
structure Settles (files : FileSystem) (options : ModuleOptions) (held : RuleResolver)
    (shared : Shared) (answer : Except StoreError (List Text)) (after : ModuleRule)
    (later : Shared) : Prop where
  settled : Settled options answer after later
  decides : ∀ path ∈ options.storeFilePath, ∀ resolver ∈ resolverOf (unasked options held) shared,
    Decides answer (resolver.resolve files path)
  records_eq : ruleRecords later.records =
    ruleRecords shared.records ++ settlingRecords options answer
  unchanged : ∀ error, answer = .error error → held = .shared → after = unasked options held

/-- Without a store the deny-list is settled from the beginning. -/
theorem askDenyList_settles_of_unstored {held : RuleResolver} (unstored : options.storeFilePath = none)
    (files : FileSystem) (shared : Shared) :
    (askDenyList files (unasked options held) shared).result = granted options (.ok []) ∧
      Settles files options held shared (.ok []) (askDenyList files (unasked options held) shared).rule
        (askDenyList files (unasked options held) shared).shared := by
  have built : buildDenyList files (unasked options held) shared =
      ⟨.ok options.forbiddenModules, unasked options held, shared⟩ := by
    rw [buildDenyList, unasked_options, unstored]
  have listed_eq := forbiddenModules_eq unstored []
  have pathless (path : Path) : path ∉ options.storeFilePath := by
    rw [unstored]
    exact Option.not_mem_none path
  rw [askDenyList]
  simp only [unasked_denyList, built]
  refine ⟨congrArg Except.ok listed_eq, ⟨rfl, congrArg some listed_eq, rfl, ?_, ?_⟩, ?_, ?_, ?_⟩
  · exact fun path member => absurd member (pathless path)
  · exact fun _ impossible => by cases impossible
  · exact fun path member => absurd member (pathless path)
  · rw [settlingRecords, staleWarning, unstored, List.append_nil]
  · exact fun _ impossible => by cases impossible

/-- The first request for the deny-list settles it, if the store decides. -/
theorem askDenyList_settles {held : RuleResolver} {files : FileSystem}
    (equipped : options.storeFilePath.isSome → held ≠ .absent)
    (decided : ∀ path ∈ options.storeFilePath,
      ∀ resolver ∈ resolverOf (unasked options held) shared,
        ∃ answer, Decides answer (resolver.resolve files path)) :
    ∃ answer, (askDenyList files (unasked options held) shared).result = granted options answer ∧
      Settles files options held shared answer (askDenyList files (unasked options held) shared).rule
        (askDenyList files (unasked options held) shared).shared := by
  cases stored : options.storeFilePath with
  | none => exact ⟨.ok [], askDenyList_settles_of_unstored stored files shared⟩
  | some path =>
    obtain ⟨resolver, held_eq⟩ :
        ∃ resolver, resolverOf (unasked options held) shared = some resolver := by
      cases held with
      | absent => exact absurd rfl (equipped (by rw [stored]; rfl))
      | shared => exact ⟨_, rfl⟩
      | own resolver => exact ⟨_, rfl⟩
    obtain ⟨answer, decides⟩ := decided path stored resolver held_eq
    obtain ⟨result_eq, asked⟩ := askResolver_eq held_eq files path
    have cached := (cached_resolve_iff files path resolver answer).mpr decides
    have source : ∀ named ∈ options.storeFilePath,
        ∀ other ∈ resolverOf (unasked options held) shared,
          Decides answer (other.resolve files named) := by
      intro named named_eq other same
      rw [stored] at named_eq
      rw [held_eq] at same
      cases named_eq
      cases same
      exact decides
    have keeps : ∀ named ∈ options.storeFilePath,
        ∃ other ∈ resolverOf (askResolver files path (unasked options held) shared).rule
          (askResolver files path (unasked options held) shared).shared,
          other.cached = some answer := by
      intro other same
      rw [stored] at same
      cases same
      exact ⟨_, asked.resolver_eq, cached⟩
    have agrees := (agrees_unasked options held).askDenyList files shared
    rw [decides] at result_eq
    refine ⟨answer, ?_⟩
    cases answer with
    | error error =>
      have ended : askDenyList files (unasked options held) shared =
          ⟨.error (.store error), (askResolver files path (unasked options held) shared).rule,
            (askResolver files path (unasked options held) shared).shared⟩ := by
        simp only [askDenyList, unasked_denyList, buildDenyList_of_stored stored held_eq, result_eq,
          afterwards]
      rw [ended] at agrees ⊢
      refine ⟨rfl, ⟨asked.options_eq, asked.denyList_eq, agrees, keeps, fun _ _ => ⟨path, stored⟩⟩,
        source, ?_, fun _ _ => asked.of_shared⟩
      rw [settlingRecords, List.append_nil]
      exact asked.records_eq
    | ok known =>
      have ended : askDenyList files (unasked options held) shared =
          ⟨.ok (listed options known),
            (askResolver files path (unasked options held) shared).rule.caching (listed options known),
            (askResolver files path (unasked options held) shared).shared.log
              (staleWarning options known)⟩ := by
        simp only [askDenyList, unasked_denyList, buildDenyList_of_stored stored held_eq, result_eq,
          afterwards, unasked_options]
      rw [ended] at agrees ⊢
      have settled : Settled options (.ok known)
          ((askResolver files path (unasked options held) shared).rule.caching (listed options known))
          (askResolver files path (unasked options held) shared).shared :=
        ⟨asked.options_eq, rfl, agrees, keeps, fun _ impossible => by cases impossible⟩
      refine ⟨rfl, settled.log _, source, ?_, fun _ impossible => by cases impossible⟩
      rw [ruleRecords_log, asked.records_eq, ruleRecords_staleWarning]
      rfl

end Asking

end ModuleFence.ModuleRule
