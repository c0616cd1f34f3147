import ModuleFence.Proofs.Lint.Consulting

set_option autoImplicit false

namespace ModuleFence

open ModuleRule (consulted denied verdict)
open Resolver (afterwards)

namespace Linter

/-- A step of a run: a tree to lint, and the files as they are then. -/
structure Step where
  files : FileSystem
  path : Option Path
  root : Node

def Step.lint (step : Step) (linter : Linter) : Answer (List Diagnostic) :=
  lintTree step.files step.path step.root linter

/-- What the steps of a run end with, each in the state that the steps before it leave behind. -/
def outcomes : List Step → Linter → List (Except Failure (List Diagnostic))
  | [], _ => []
  | step :: rest, linter => (step.lint linter).result :: outcomes rest (step.lint linter).linter

/-- Each request to the store that the steps of a run make ends with names or an error of the
store. -/
def Decided (store : Option Path) (ids : List RuleId) : List Step → Linter → Prop
  | [], _ => True
  | step :: rest, linter =>
    (step.root.NeedsList ids → ∀ path ∈ store, ∃ answer,
      Resolver.Decides answer (linter.shared.resolver.resolve step.files path)) ∧
    Decided store ids rest (step.lint linter).linter

variable {options : ModuleOptions} {ids : List RuleId} {linter : Linter}

/-- A step asks the resolver if it needs the deny-list, and ends with what that makes of it. -/
theorem Coherent.lint (coherent : linter.Coherent options ids) (step : Step)
    (decode : step.root.StringsDecode) :
    (step.lint linter).result =
        step.root.outcome step.path ids (denied step.files options linter.shared.resolver) ∧
      (step.lint linter).linter.shared.resolver =
        (if step.root.NeedsList ids then consulted step.files options linter.shared.resolver
          else linter.shared.resolver) ∧
      (step.lint linter).linter.Coherent options ids := by
  have legible (_ : step.root.label.hasError = false) : step.root.CallsLegible :=
    decode.callsLegible
  obtain ⟨consultation, after⟩ := coherent.lintTree step.files step.path legible
  rw [Step.lint, Node.outcome]
  by_cases needs : step.root.NeedsList ids
  · rw [if_pos needs, if_pos needs]
    obtain ⟨resolver_eq, result_eq⟩ := consultation.asked needs
    exact ⟨result_eq, resolver_eq, after⟩
  · rw [if_neg needs, if_neg needs]
    obtain ⟨resolver_eq, result_eq⟩ := consultation.idle needs
    exact ⟨result_eq [], resolver_eq, after⟩

/-- Once the deny-list is settled, it is that of every step. -/
theorem Coherent.outcomes_of_verdict {answer : Except StoreError (List Text)}
    (coherent : linter.Coherent options ids)
    (settled : verdict options linter.shared.resolver = some answer) {steps : List Step}
    (decode : ∀ step ∈ steps, step.root.StringsDecode) :
    outcomes steps linter =
      steps.map fun step => step.root.outcome step.path ids (afterwards answer) := by
  induction steps generalizing linter with
  | nil => rfl
  | cons step rest ih =>
    rw [List.forall_mem_cons] at decode
    obtain ⟨result_eq, resolver_eq, after⟩ := coherent.lint step decode.1
    rw [ModuleRule.consulted_of_verdict settled, ite_self] at resolver_eq
    have later := ih after (by rw [resolver_eq, settled]) decode.2
    rw [outcomes, result_eq, ModuleRule.denied_of_verdict settled, later, List.map_cons]

/-- A resolver that remembers an answer makes no further requests that could end otherwise. -/
theorem Coherent.decided_of_cached {answer : Except StoreError (List Text)}
    (coherent : linter.Coherent options ids)
    (known : linter.shared.resolver.cached = some answer) {steps : List Step}
    (decode : ∀ step ∈ steps, step.root.StringsDecode) (store : Option Path) :
    Decided store ids steps linter := by
  induction steps generalizing linter with
  | nil => trivial
  | cons step rest ih =>
    rw [List.forall_mem_cons] at decode
    obtain ⟨-, resolver_eq, after⟩ := coherent.lint step decode.1
    refine ⟨?_, ih after ?_ decode.2⟩
    · intro _ path _
      refine ⟨answer, ?_⟩
      rw [Resolver.resolve_of_cached known]
      rfl
    · rw [resolver_eq, ModuleRule.consulted_of_cached known, ite_self, known]

/-- All steps of a run get the same answer when they ask for the deny-list, whichever of them asks
first; it is an error only if the resolver fails closed. -/
theorem Coherent.outcomes_of_decided (coherent : linter.Coherent options ids)
    (closed : linter.shared.resolver.FailsClosed) {steps : List Step}
    (decode : ∀ step ∈ steps, step.root.StringsDecode)
    (decided : Decided options.storeFilePath ids steps linter) :
    ∃ answer, outcomes steps linter =
        (steps.map fun step => step.root.outcome step.path ids (afterwards answer)) ∧
      ∀ error, answer = .error error → linter.shared.resolver.policy = .closed := by
  induction steps generalizing linter with
  | nil => exact ⟨.ok [], rfl, fun _ impossible => by cases impossible⟩
  | cons step rest ih =>
    rw [List.forall_mem_cons] at decode
    obtain ⟨result_eq, resolver_eq, after⟩ := coherent.lint step decode.1
    rw [outcomes, result_eq]
    -- The first step that needs the list settles it for all steps behind it.
    by_cases needs : step.root.NeedsList ids
    · obtain ⟨answer, denied_eq⟩ := ModuleRule.exists_answer_of_decides (decided.1 needs)
      have settled := (ModuleRule.verdict_consulted_iff step.files options linter.shared.resolver
        answer).mpr denied_eq
      rw [if_pos needs] at resolver_eq
      rw [← resolver_eq] at settled
      refine ⟨answer, ?_, ?_⟩
      · rw [denied_eq, after.outcomes_of_verdict settled decode.2, List.map_cons]
      · rintro error rfl
        have closes : (consulted step.files options linter.shared.resolver).FailsClosed :=
          ModuleRule.failsClosed_consulted closed step.files options
        rw [resolver_eq] at settled
        rw [← ModuleRule.policy_consulted step.files options]
        exact ModuleRule.closed_of_verdict closes settled
    · rw [if_neg needs] at resolver_eq
      obtain ⟨answer, later, failing⟩ := ih after (by rw [resolver_eq]; exact closed) decode.2
        decided.2
      refine ⟨answer, ?_, ?_⟩
      · rw [later, List.map_cons, Node.outcome, Node.outcome, if_neg needs, if_neg needs]
      · rw [resolver_eq] at failing
        exact failing

/-- With files that stay as they are, the outcome of a step depends on nothing but its tree. -/
theorem Coherent.outcomes_of_files (coherent : linter.Coherent options ids) {files : FileSystem}
    {start : Resolver}
    (reached : linter.shared.resolver = start ∨
      linter.shared.resolver = consulted files options start)
    {steps : List Step} (decode : ∀ step ∈ steps, step.root.StringsDecode)
    (unchanged : ∀ step ∈ steps, step.files = files) :
    outcomes steps linter =
      steps.map fun step => step.root.outcome step.path ids (denied files options start) := by
  induction steps generalizing linter with
  | nil => rfl
  | cons step rest ih =>
    rw [List.forall_mem_cons] at decode unchanged
    obtain ⟨result_eq, resolver_eq, after⟩ := coherent.lint step decode.1
    rw [unchanged.1] at result_eq resolver_eq
    have same : denied files options linter.shared.resolver = denied files options start := by
      rcases reached with here | here
      · rw [here]
      · rw [here, ModuleRule.denied_consulted]
    have remains : (step.lint linter).linter.shared.resolver = start ∨
        (step.lint linter).linter.shared.resolver = consulted files options start := by
      rw [resolver_eq]
      split
      · rcases reached with here | here
        · rw [here]
          exact .inr rfl
        · rw [here, ModuleRule.consulted_consulted]
          exact .inr rfl
      · exact reached
    rw [outcomes, result_eq, same, ih after remains decode.2 unchanged.2, List.map_cons]

/-- The rules that settings make see one deny-list in all steps of a run, or one error of the store
if the resolver fails closed. What a source ends with depends on nothing else, so that it is the
same wherever in the run it is linted, and with unchanged files in whatever order. -/
theorem outcomes_snapshot (settings : Settings) (names : Option (List Text)) (rules : List Rule)
    (records : List LogRecord) (made : Rule.create settings names = (.ok rules, records))
    (parser : SourceParser) (policy : FailurePolicy) (history : List Resolver.Request)
    (written : List LogRecord) (steps : List Step) (decode : ∀ step ∈ steps, step.root.StringsDecode)
    (decided : Decided settings.storeFilePath (rules.map Rule.id) steps
      ⟨rules, ⟨(Resolver.unused parser policy).after history, written⟩⟩) :
    let ids := rules.map Rule.id
    let linter : Linter := ⟨rules, ⟨(Resolver.unused parser policy).after history, written⟩⟩
    ((∃ denied, outcomes steps linter =
        steps.map fun step => .ok (step.root.diagnosticsOf step.path ids denied)) ∨
      policy = .closed ∧ ∃ error, outcomes steps linter =
        steps.map fun step =>
          if step.root.NeedsList ids then .error (.store error)
          else .ok (step.root.diagnosticsOf step.path ids [])) ∧
    (∃ outcome : Option Path → Node → Except Failure (List Diagnostic),
      outcomes steps linter = steps.map fun step => outcome step.path step.root) ∧
    (∀ files, (∀ step ∈ steps, step.files = files) →
      ∃ outcome : Option Path → Node → Except Failure (List Diagnostic),
        ∀ reordered, reordered.Perm steps →
          outcomes reordered linter = reordered.map fun step => outcome step.path step.root) := by
  intro ids linter
  have coherent : linter.Coherent settings.moduleOptions ids :=
    coherent_of_fresh (Rule.fresh_of_create made) linter.shared
  have closed : linter.shared.resolver.FailsClosed :=
    (Resolver.failsClosed_unused parser policy).after history
  rw [← settings.storeFilePath_moduleOptions] at decided
  obtain ⟨answer, outcomes_eq, failing⟩ := coherent.outcomes_of_decided closed decode decided
  refine ⟨?_, ?_, ?_⟩
  · cases answer with
    | ok denied =>
      refine .inl ⟨denied, ?_⟩
      rw [outcomes_eq]
      exact List.map_congr_left fun step _ => Node.outcome_ok step.path ids denied step.root
    | error error =>
      refine .inr ⟨?_, error, ?_⟩
      · rw [← failing error rfl]
        exact (Resolver.policy_after history (.unused parser policy)).symm
      · rw [outcomes_eq]
        rfl
  · exact ⟨fun path root => root.outcome path ids (afterwards answer), outcomes_eq⟩
  · intro files unchanged
    refine ⟨fun path root =>
      root.outcome path ids (denied files settings.moduleOptions linter.shared.resolver), ?_⟩
    intro reordered same
    refine coherent.outcomes_of_files (.inl rfl) ?_ ?_
    · exact fun step member => decode step (same.mem_iff.mp member)
    · exact fun step member => unchanged step (same.mem_iff.mp member)

/-- The store was missing when it was asked for; that it is there now comes too late. -/
theorem outcomes_snapshot_of_late_store :
    let getter := Script.parse "mapGetters('a')".toList
    let store : Entry := .file "export default { modules: { a } }".toUTF8.toList
    let rules : List Rule := [.emptyCatch, .someModule (.sharing ⟨some ⟨.relative, ["s"]⟩, []⟩)]
    let resolver := (Resolver.unused Script.parse .closed).after [⟨.empty [], ⟨.relative, ["s"]⟩⟩]
    ∃ outcome : Option Path → Node → Except Failure (List Diagnostic),
      outcomes
          [⟨.empty [], none, getter⟩, ⟨(FileSystem.empty []).put ["s"] store, none, getter⟩]
          ⟨rules, ⟨resolver, []⟩⟩ =
        [outcome none getter, outcome none getter] := by
  intro getter store rules resolver
  have made : Rule.create { storeFilePath := some ⟨.relative, ["s"]⟩ } none = (.ok rules, []) := rfl
  have missing : (FileSystem.empty []).readText ⟨.relative, ["s"]⟩ =
      .error (.path .notFound ⟨.relative, ["s"]⟩) :=
    FileSystem.readText_of_fault (by simp [FileSystem.hasNull]) rfl
  have known : resolver.cached =
      some (.error ⟨"s", "[Errno 2] No such file or directory: 's'"⟩) := by
    show (Resolver.resolve _ _ (.unused Script.parse .closed)).resolver.cached = _
    rw [Resolver.resolve_of_uncached rfl, Resolver.attempt, missing]
    rfl
  have decode : ∀ step ∈ ([⟨.empty [], none, getter⟩,
      ⟨(FileSystem.empty []).put ["s"] store, none, getter⟩] : List Step),
      step.root.StringsDecode := by
    have decodes : getter.StringsDecode := by
      decide +kernel
    simp only [List.forall_mem_cons, decodes, List.not_mem_nil, false_implies, implies_true,
      and_self]
  have coherent := coherent_of_fresh (Rule.fresh_of_create made) ⟨resolver, []⟩
  have snapshot := outcomes_snapshot _ none rules [] made Script.parse .closed _ [] _ decode
    (coherent.decided_of_cached known decode _)
  exact snapshot.2.1

end Linter

end ModuleFence
