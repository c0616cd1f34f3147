import ModuleFence.Proofs.Rule.DenyList
import ModuleFence.Proofs.Store.Unusable
import ModuleFence.Proofs.Success

/-!
Consultations of the store. Whatever part of a run one looks at, be it a rule, a node, a tree or all
of them, it asks for the deny-list at most once, and what it ends with hangs on that one answer.
-/

set_option autoImplicit false

namespace ModuleFence.ModuleRule

/-- How a part of a run consults the store: not at all when it does not ask for the deny-list, and
else once, with a result that hangs on the answer. -/
structure Consultation (files : FileSystem) (options : ModuleOptions) (asks : Prop)
    (findings : List Text → List Diagnostic) (before after : Resolver)
    (result : Except Failure (List Diagnostic)) : Prop where
  idle : ¬ asks → after = before ∧ ∀ names, result = .ok (findings names)
  asked : asks → after = consulted files options before ∧
    result = findings <$> denied files options before

/-- A store that cannot be used refuses the deny-list to the rules of a resolver that fails
closed. -/
theorem denied_of_unusable {options : ModuleOptions} {store : Path}
    (stored : options.storeFilePath = some store) {parser : SourceParser} {files : FileSystem}
    {reason : Text} (bad : Resolver.Unusable parser files store reason) :
    denied files options (.unused parser .closed) =
      .error (Resolver.closedFailure store reason) := by
  have unknown := (Resolver.undecided_unused parser .closed).cached_eq
  rw [denied, stored]
  simp only [Resolver.resolve_of_uncached unknown]
  show chooseNames options <$> (Resolver.attempt parser files .closed store).result = _
  rw [Resolver.attempt_of_unusable bad]
  rfl

namespace Consultation

variable {files : FileSystem} {options : ModuleOptions} {asks : Prop}
  {findings : List Text → List Diagnostic} {before after : Resolver}
  {result : Except Failure (List Diagnostic)}

theorem of_iff {needs : Prop} {others : List Text → List Diagnostic}
    (consultation : Consultation files options asks findings before after result)
    (same : asks ↔ needs) (equal : ∀ names, findings names = others names) :
    Consultation files options needs others before after result := by
  obtain rfl := propext same
  obtain rfl := funext equal
  exact consultation

theorem silent (files : FileSystem) (options : ModuleOptions) (resolver : Resolver) :
    Consultation files options False (fun _ => []) resolver resolver (.ok []) :=
  ⟨fun _ => ⟨rfl, fun _ => rfl⟩, False.elim⟩

/-- Only a part of a run that asks for the deny-list can fail. -/
theorem asks_of_error {failure : Failure}
    (consultation : Consultation files options asks findings before after (.error failure)) :
    asks := by
  by_contra idle
  cases (consultation.idle idle).2 []

/-- A part of a run that fails keeps what follows it from running. -/
theorem stop {failure : Failure}
    (here : Consultation files options asks findings before after (.error failure)) (later : Prop)
    (others : List Text → List Diagnostic) :
    Consultation files options (asks ∨ later) (fun names => findings names ++ others names) before
      after (.error failure) := by
  have asksHere := here.asks_of_error
  obtain ⟨after_eq, failed⟩ := here.asked asksHere
  refine ⟨fun neither => absurd (.inl asksHere) neither, fun _ => ⟨after_eq, ?_⟩⟩
  cases list : denied files options before with
  | error other =>
    rw [list] at failed
    exact failed
  | ok names =>
    rw [list] at failed
    cases failed

/-- A part of a run and what follows it consult the store as one part: the second one finds settled
what the first one asked for. -/
theorem andThen {later : Prop} {others : List Text → List Diagnostic} {middle last : Resolver}
    {diagnostics : List Diagnostic} {second : Except Failure (List Diagnostic)}
    (here : Consultation files options asks findings before middle (.ok diagnostics))
    (rest : Consultation files options later others middle last second) :
    Consultation files options (asks ∨ later) (fun names => findings names ++ others names) before
      last (second.map (diagnostics ++ ·)) := by
  constructor
  · intro neither
    obtain ⟨notHere, notLater⟩ := not_or.mp neither
    obtain ⟨middle_eq, first_eq⟩ := here.idle notHere
    obtain ⟨last_eq, second_eq⟩ := rest.idle notLater
    refine ⟨last_eq.trans middle_eq, fun names => ?_⟩
    cases first_eq names
    rw [second_eq names]
    rfl
  · intro either
    by_cases asksHere : asks
    · obtain ⟨middle_eq, first_eq⟩ := here.asked asksHere
      obtain ⟨names, list, rfl⟩ := (map_eq_ok_iff _ _ _).mp first_eq.symm
      -- The list is settled by now, so that the second part changes nothing and cannot fail.
      have settled : last = middle ∧ second = .ok (others names) := by
        by_cases asksLater : later
        · obtain ⟨last_eq, second_eq⟩ := rest.asked asksLater
          rw [middle_eq, consulted_consulted] at last_eq
          rw [middle_eq, denied_consulted, list] at second_eq
          exact ⟨last_eq.trans middle_eq.symm, second_eq⟩
        · exact ⟨(rest.idle asksLater).1, (rest.idle asksLater).2 names⟩
      rw [list, settled.2]
      exact ⟨settled.1.trans middle_eq, rfl⟩
    · obtain ⟨middle_eq, first_eq⟩ := here.idle asksHere
      obtain ⟨last_eq, second_eq⟩ := rest.asked (either.resolve_left asksHere)
      rw [middle_eq] at last_eq second_eq
      refine ⟨last_eq, ?_⟩
      rw [second_eq]
      cases denied files options before with
      | error failure => rfl
      | ok names =>
        cases first_eq names
        rfl

/-- A part of a run leaves every rule in agreement with the resolver. -/
theorem coherent {rule : ModuleRule}
    (consultation : Consultation files options asks findings before after result)
    (agrees : Coherent options before rule) : Coherent options after rule := by
  by_cases asked : asks
  · rw [(consultation.asked asked).1]
    exact agrees.consulted files
  · rw [(consultation.idle asked).1]
    exact agrees

/-- Without a store there is nothing to consult. -/
theorem of_unstored (unstored : options.storeFilePath = none)
    (consultation : Consultation files options asks findings before after result) :
    after = before ∧ result = .ok (findings options.forbiddenModules) := by
  by_cases asked : asks
  · obtain ⟨resolver_eq, result_eq⟩ := consultation.asked asked
    rw [consulted, unstored] at resolver_eq
    rw [denied, unstored] at result_eq
    exact ⟨resolver_eq, result_eq⟩
  · obtain ⟨resolver_eq, result_eq⟩ := consultation.idle asked
    exact ⟨resolver_eq, result_eq options.forbiddenModules⟩

/-- A fresh resolver shows whether it was asked by the path of its store. -/
theorem storePath_eq_iff {parser : SourceParser} {policy : FailurePolicy} {store : Path}
    (stored : options.storeFilePath = some store)
    (consultation : Consultation files options asks findings (.unused parser policy) after result) :
    (asks → after = ((Resolver.unused parser policy).resolve files store).resolver) ∧
      (after.storePath = some store ↔ asks) := by
  have resolved (asked : asks) :
      after = ((Resolver.unused parser policy).resolve files store).resolver := by
    have resolver_eq := (consultation.asked asked).1
    rwa [consulted, stored] at resolver_eq
  refine ⟨resolved, ?_, ?_⟩
  · intro attempted
    by_contra idle
    rw [(consultation.idle idle).1] at attempted
    cases attempted
  · intro asked
    rw [resolved asked]
    rfl

/-- With a store that cannot be used, a part of a run fails exactly when it asks for the
deny-list. -/
theorem failed_iff {parser : SourceParser} {store : Path} {reason : Text}
    (stored : options.storeFilePath = some store)
    (bad : Resolver.Unusable parser files store reason)
    (consultation : Consultation files options asks findings (.unused parser .closed) after result) :
    (result = .error (Resolver.closedFailure store reason) ↔ asks) ∧
      ((∃ error, result = .error (.store error)) ↔
        asks ∧ FileSystem.hasNull store = false) := by
  have failed (asked : asks) : result = .error (Resolver.closedFailure store reason) := by
    rw [(consultation.asked asked).2, denied_of_unusable stored bad]
    rfl
  have asks_of_failed {failure : Failure} (ended : result = .error failure) : asks := by
    subst ended
    exact consultation.asks_of_error
  refine ⟨⟨asks_of_failed, failed⟩, ?_⟩
  rw [← Resolver.closedFailure_eq_store_iff store reason]
  constructor
  · rintro ⟨error, ended⟩
    have asked := asks_of_failed ended
    rw [failed asked] at ended
    exact ⟨asked, error, Except.error.inj ended⟩
  · rintro ⟨asked, error, same⟩
    exact ⟨error, by rw [failed asked, same]⟩

end Consultation

def findings (path : Option Path) (uses : List Use) (names : List Text) : List Diagnostic :=
  (uses.filter fun use => names.contains use.module).map (finding path)

theorem Coherent.isForbidden {options : ModuleOptions} {rule : ModuleRule} {shared : Shared}
    (coherent : Coherent options shared.resolver rule) (files : FileSystem) (path : Option Path)
    (use : Use) :
    Consultation files options True (findings path [use]) shared.resolver
        (isForbidden files use.module rule shared).shared.resolver
        ((isForbidden files use.module rule shared).result.map fun forbidden =>
          if forbidden then [finding path use] else []) ∧
      Coherent options (isForbidden files use.module rule shared).shared.resolver
        (isForbidden files use.module rule shared).rule := by
  obtain ⟨result_eq, resolver_eq, after⟩ := coherent.askDenyList files
  simp only [coherent.agrees.isForbidden_eq, result_eq, resolver_eq]
  refine ⟨⟨fun never => absurd trivial never, fun _ => ⟨rfl, ?_⟩⟩, after⟩
  cases denied files options shared.resolver with
  | error failure => rfl
  | ok names =>
    simp only [findings, List.filter_cons, List.filter_nil, Except.map, Functor.map]
    split <;> rfl

/-- A coherent rule that checks some uses consults the store if there is one at all. -/
theorem Coherent.checkUses {options : ModuleOptions} {rule : ModuleRule} {shared : Shared}
    (coherent : Coherent options shared.resolver rule) (files : FileSystem) (path : Option Path)
    (uses : List Use) :
    Consultation files options (uses ≠ []) (findings path uses) shared.resolver
        (checkUses files path uses rule shared).shared.resolver
        (checkUses files path uses rule shared).result ∧
      Coherent options (checkUses files path uses rule shared).shared.resolver
        (checkUses files path uses rule shared).rule := by
  induction uses generalizing rule shared with
  | nil =>
    refine ⟨Consultation.of_iff (Consultation.silent files options _) ?_ fun _ => rfl, coherent⟩
    simp
  | cons use rest ih =>
    obtain ⟨here, after⟩ := coherent.isForbidden files path use
    have needs : True ∨ rest ≠ [] ↔ use :: rest ≠ [] := by simp
    have split_eq (names : List Text) :
        findings path [use] names ++ findings path rest names =
          findings path (use :: rest) names := by
      rw [findings, findings, findings, ← List.map_append, ← List.filter_append]
      rfl
    rw [ModuleRule.checkUses]
    cases asked : (ModuleRule.isForbidden files use.module rule shared).result with
    | error failure =>
      rw [asked] at here
      simp only
      exact ⟨(here.stop _ _).of_iff needs split_eq, after⟩
    | ok forbidden =>
      rw [asked] at here
      simp only
      obtain ⟨later, last⟩ := ih after
      exact ⟨(here.andThen later).of_iff needs split_eq, last⟩

end ModuleFence.ModuleRule
