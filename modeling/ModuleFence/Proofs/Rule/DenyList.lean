import ModuleFence.Proofs.Rule.Caches
import ModuleFence.Proofs.Store.OneShot

/-!
The deny-lists of rules that share a resolver. What a rule remembers is never more than what its
options and the resolver have settled, so that all rules of a run get the same list or the same
failure, whichever of them asks first.
-/

set_option autoImplicit false

namespace ModuleFence.ModuleRule

open Resolver (Decides afterwards cached_resolve_iff resolve_of_cached resolve_resolve)

/-- The resolver after the deny-list of some options was asked for. -/
def consulted (files : FileSystem) (options : ModuleOptions) (resolver : Resolver) : Resolver :=
  match options.storeFilePath with
  | none => resolver
  | some path => (resolver.resolve files path).resolver

/-- The deny-list that some options get with the help of a resolver, or why they get none. -/
def denied (files : FileSystem) (options : ModuleOptions) (resolver : Resolver) :
    Except Failure (List Text) :=
  match options.storeFilePath with
  | none => .ok options.forbiddenModules
  | some path => chooseNames options <$> (resolver.resolve files path).result

/-- What options and the memory of a resolver have settled about the deny-list. -/
def verdict (options : ModuleOptions) (resolver : Resolver) :
    Option (Except StoreError (List Text)) :=
  match options.storeFilePath with
  | none => some (.ok options.forbiddenModules)
  | some _ => resolver.cached.map (chooseNames options <$> ·)

theorem afterwards_map (f : List Text → List Text) (answer : Except StoreError (List Text)) :
    f <$> afterwards answer = afterwards (f <$> answer) := by
  cases answer <;> rfl

theorem consulted_of_cached {resolver : Resolver} {answer : Except StoreError (List Text)}
    (known : resolver.cached = some answer) (files : FileSystem) (options : ModuleOptions) :
    consulted files options resolver = resolver := by
  rw [consulted]
  cases options.storeFilePath with
  | none => rfl
  | some path => simp only [resolve_of_cached known]

section Verdict

variable {options : ModuleOptions} {resolver : Resolver} {answer : Except StoreError (List Text)}
  (settled : verdict options resolver = some answer) (files : FileSystem)

include settled

theorem consulted_of_verdict : consulted files options resolver = resolver := by
  rw [verdict] at settled
  cases stored : options.storeFilePath with
  | none => rw [consulted, stored]
  | some path =>
    rw [stored] at settled
    obtain ⟨known, cached, -⟩ := Option.map_eq_some_iff.mp settled
    exact consulted_of_cached cached files options

theorem denied_of_verdict : denied files options resolver = afterwards answer := by
  rw [denied]
  rw [verdict] at settled
  cases stored : options.storeFilePath with
  | none =>
    rw [stored] at settled
    cases settled
    rfl
  | some path =>
    rw [stored] at settled
    obtain ⟨known, cached, rfl⟩ := Option.map_eq_some_iff.mp settled
    simp only [resolve_of_cached cached, afterwards_map]

end Verdict

/-- Asking settles the deny-list when it ends with names or with an error of the store. -/
theorem verdict_consulted_iff (files : FileSystem) (options : ModuleOptions) (resolver : Resolver)
    (answer : Except StoreError (List Text)) :
    verdict options (consulted files options resolver) = some answer ↔
      denied files options resolver = afterwards answer := by
  rw [verdict, consulted, denied]
  cases options.storeFilePath with
  | none => cases answer <;> simp [afterwards]
  | some path =>
    simp only [Option.map_eq_some_iff, cached_resolve_iff, Decides]
    constructor
    · rintro ⟨known, decides, rfl⟩
      rw [decides, afterwards_map]
    · cases (resolver.resolve files path).result with
      | ok names =>
        intro same
        exact ⟨.ok names, rfl, Resolver.afterwards_injective same⟩
      | error failure =>
        intro same
        cases answer with
        | ok names => cases same
        | error error =>
          cases same
          exact ⟨.error error, rfl, rfl⟩

theorem denied_consulted (files : FileSystem) (options : ModuleOptions) (resolver : Resolver) :
    denied files options (consulted files options resolver) = denied files options resolver := by
  rw [denied, denied, consulted]
  cases options.storeFilePath with
  | none => rfl
  | some path => simp only [(resolve_resolve files path resolver).1]

theorem consulted_consulted (files : FileSystem) (options : ModuleOptions) (resolver : Resolver) :
    consulted files options (consulted files options resolver) =
      consulted files options resolver := by
  rw [consulted, consulted]
  cases options.storeFilePath with
  | none => rfl
  | some path => simp only [(resolve_resolve files path resolver).2]

theorem policy_consulted (files : FileSystem) (options : ModuleOptions) (resolver : Resolver) :
    (consulted files options resolver).policy = resolver.policy := by
  rw [consulted]
  cases options.storeFilePath with
  | none => rfl
  | some path => exact Resolver.policy_resolve files path resolver

/-- Rules fail on account of their store only when the resolver fails closed. -/
theorem closed_of_verdict {options : ModuleOptions} {resolver : Resolver} {error : StoreError}
    (closed : resolver.FailsClosed) (settled : verdict options resolver = some (.error error)) :
    resolver.policy = .closed := by
  rw [verdict] at settled
  cases stored : options.storeFilePath with
  | none =>
    rw [stored] at settled
    cases settled
  | some path =>
    rw [stored] at settled
    obtain ⟨known, cached, failed⟩ := Option.map_eq_some_iff.mp settled
    cases known with
    | ok names => cases failed
    | error other => exact closed other cached

theorem failsClosed_consulted {resolver : Resolver} (closed : resolver.FailsClosed)
    (files : FileSystem) (options : ModuleOptions) :
    (consulted files options resolver).FailsClosed := by
  rw [consulted]
  cases options.storeFilePath with
  | none => exact closed
  | some path => exact closed.resolve files path

/-- The deny-list is settled once the request to the store, if there is one, decides. -/
theorem exists_answer_of_decides {files : FileSystem} {options : ModuleOptions}
    {resolver : Resolver}
    (decided : ∀ path ∈ options.storeFilePath,
      ∃ answer, Decides answer (resolver.resolve files path)) :
    ∃ answer, denied files options resolver = afterwards answer := by
  rw [denied]
  cases stored : options.storeFilePath with
  | none => exact ⟨.ok options.forbiddenModules, rfl⟩
  | some path =>
    obtain ⟨answer, decides⟩ := decided path stored
    refine ⟨chooseNames options <$> answer, ?_⟩
    rw [← afterwards_map, ← decides]

/-- A rule of a run with some options: it asks the shared resolver, its caches agree, and it remembers
a deny-list only if that is settled. -/
structure Coherent (options : ModuleOptions) (resolver : Resolver) (rule : ModuleRule) : Prop where
  options_eq : rule.options = options
  resolver_eq : rule.resolver = .shared
  agrees : rule.Agrees
  settled : ∀ names, rule.denyList = some names → verdict options resolver = some (.ok names)

theorem coherent_sharing (options : ModuleOptions) (resolver : Resolver) :
    Coherent options resolver (sharing options) :=
  ⟨rfl, rfl, agrees_unasked options .shared, fun _ impossible => by cases impossible⟩

/-- What another rule asks keeps a rule coherent. -/
theorem Coherent.consulted {options : ModuleOptions} {resolver : Resolver} {rule : ModuleRule}
    (coherent : Coherent options resolver rule) (files : FileSystem) :
    Coherent options (consulted files options resolver) rule := by
  refine ⟨coherent.options_eq, coherent.resolver_eq, coherent.agrees, ?_⟩
  intro names remembered
  have settled := coherent.settled names remembered
  rwa [consulted_of_verdict settled]

/-- An answer that left a resolver and its rule in agreement. -/
structure Leaves {α : Type} (options : ModuleOptions) (resolver : Resolver) (answer : Answer α) :
    Prop where
  resolver_eq : answer.shared.resolver = resolver
  coherent : Coherent options resolver answer.rule

theorem Coherent.buildDenyList {options : ModuleOptions} {rule : ModuleRule} {shared : Shared}
    (coherent : Coherent options shared.resolver rule) (fresh : rule.denyList = none)
    (files : FileSystem) :
    (buildDenyList files rule shared).result = denied files options shared.resolver ∧
      Leaves options (ModuleRule.consulted files options shared.resolver)
        (buildDenyList files rule shared) := by
  have unsettled (resolver : Resolver) : Coherent options resolver rule :=
    ⟨coherent.options_eq, coherent.resolver_eq, coherent.agrees, fun names remembered => by
      rw [fresh] at remembered
      cases remembered⟩
  rw [ModuleRule.buildDenyList, denied, ModuleRule.consulted, coherent.options_eq,
    coherent.resolver_eq]
  cases options.storeFilePath with
  | none => exact ⟨rfl, rfl, unsettled _⟩
  | some path =>
    simp only [askResolver, coherent.resolver_eq]
    cases (shared.resolver.resolve files path).result with
    | error failure => exact ⟨rfl, rfl, unsettled _⟩
    | ok known => exact ⟨rfl, rfl, unsettled _⟩

/-- A coherent rule gets the deny-list of its options, and stays coherent with what that settles. -/
theorem Coherent.askDenyList {options : ModuleOptions} {rule : ModuleRule} {shared : Shared}
    (coherent : Coherent options shared.resolver rule) (files : FileSystem) :
    (askDenyList files rule shared).result = denied files options shared.resolver ∧
      Leaves options (ModuleRule.consulted files options shared.resolver)
        (askDenyList files rule shared) := by
  cases remembered : rule.denyList with
  | some names =>
    have settled := coherent.settled names remembered
    rw [askDenyList_of_remembered remembered, denied_of_verdict settled,
      consulted_of_verdict settled]
    exact ⟨rfl, rfl, coherent⟩
  | none =>
    obtain ⟨result_eq, resolver_eq, after⟩ := coherent.buildDenyList remembered files
    rw [ModuleRule.askDenyList, remembered]
    cases built : (ModuleRule.buildDenyList files rule shared).result with
    | error failure =>
      simp only [built, ← result_eq]
      exact ⟨trivial, resolver_eq, after⟩
    | ok names =>
      simp only [built, ← result_eq]
      refine ⟨trivial, resolver_eq, after.options_eq, after.resolver_eq, agrees_caching names _, ?_⟩
      -- What the rule remembers from now on is what the resolver has just settled.
      intro others same
      cases same
      exact (verdict_consulted_iff files options shared.resolver (.ok names)).mpr
        (result_eq.symm.trans built)

end ModuleFence.ModuleRule
