import ModuleFence.Proofs.FileSystem.Reading
import ModuleFence.Store.Resolver

set_option autoImplicit false

namespace ModuleFence.Resolver

/-- A request for the names of a store, with the files that it meets. -/
structure Request where
  files : FileSystem
  path : Path

/-- A resolver that was not asked yet. -/
def unused (parser : SourceParser) (policy : FailurePolicy) : Resolver where
  policy := policy
  parser := parser

def after : List Request → Resolver → Resolver
  | [], resolver => resolver
  | request :: rest, resolver => after rest (resolver.resolve request.files request.path).resolver

def replies : List Request → Resolver → List Reply
  | [], _ => []
  | request :: rest, resolver =>
    let reply := resolver.resolve request.files request.path
    reply :: replies rest reply.resolver

/-- A request has ended with names or with an error of the store. -/
def Decides (answer : Except StoreError (List Text)) (reply : Reply) : Prop :=
  reply.result = afterwards answer

@[simp] theorem after_cons (request : Request) (rest : List Request) (resolver : Resolver) :
    after (request :: rest) resolver =
      after rest (resolver.resolve request.files request.path).resolver := rfl

theorem after_append (first second : List Request) (resolver : Resolver) :
    after (first ++ second) resolver = after second (after first resolver) := by
  induction first generalizing resolver with
  | nil => rfl
  | cons request rest ih => exact ih _

theorem remember_eq_some_iff (result : Except Failure (List Text))
    (answer : Except StoreError (List Text)) :
    remember result = some answer ↔ result = afterwards answer := by
  cases result with
  | ok names => cases answer <;> simp [remember, afterwards]
  | error failure => cases failure <;> cases answer <;> simp [remember, afterwards]

theorem afterwards_injective {first second : Except StoreError (List Text)}
    (same : afterwards first = afterwards second) : first = second := by
  rw [← remember_eq_some_iff] at same
  cases first <;> cases same <;> rfl

/-- The answer about a store that cannot be used. -/
def unusableAnswer (policy : FailurePolicy) (path : Path) (reason : Text) :
    Except StoreError (List Text) :=
  match policy with
  | .open => .ok []
  | .closed => .error ⟨path.toText, reason⟩

theorem result_unusable (policy : FailurePolicy) (path : Path) (outcome : Outcome) (reason : Text) :
    (unusable policy path outcome reason).result =
      afterwards (unusableAnswer policy path reason) := by
  cases policy <;> rfl

/-- The ways in which an attempt can end. -/
theorem attempt_cases (parser : SourceParser) (files : FileSystem) (policy : FailurePolicy)
    (path : Path) :
    (∃ outcome reason, (outcome = .readError ∨ outcome = .parseError) ∧
      attempt parser files policy path = unusable policy path outcome reason) ∨
    (∃ names, attempt parser files policy path = found path names) ∨
    (∃ failure, (∀ answer, Except.error failure ≠ afterwards answer) ∧
      attempt parser files policy path = broken failure) := by
  unfold attempt
  split
  · rename_i error _
    split
    · exact .inl ⟨.readError, error.message, .inl rfl, rfl⟩
    · exact .inr (.inr ⟨.read error, fun answer => by cases answer <;> simp [afterwards], rfl⟩)
  · split
    · rename_i error _
      exact .inl ⟨.parseError, error.message, .inr rfl, rfl⟩
    · split
      · rename_i error _
        exact .inr (.inr ⟨.escape error, fun answer => by cases answer <;> simp [afterwards], rfl⟩)
      · rename_i names _
        exact .inr (.inl ⟨names, rfl⟩)

theorem resolve_of_cached {resolver : Resolver} {answer : Except StoreError (List Text)}
    (known : resolver.cached = some answer) (files : FileSystem) (path : Path) :
    resolver.resolve files path =
      ⟨afterwards answer, resolver, ignoredRecords resolver.storePath path⟩ := by
  rw [resolve, known]

theorem resolve_of_uncached {resolver : Resolver} (unknown : resolver.cached = none)
    (files : FileSystem) (path : Path) :
    resolver.resolve files path =
      ⟨(attempt resolver.parser files resolver.policy path).result,
        { resolver with
          storePath := some path
          cached := remember (attempt resolver.parser files resolver.policy path).result
          outcome := (attempt resolver.parser files resolver.policy path).outcome <|> resolver.outcome },
        (attempt resolver.parser files resolver.policy path).records⟩ := by
  rw [resolve, unknown]

@[simp] theorem policy_resolve (files : FileSystem) (path : Path) (resolver : Resolver) :
    (resolver.resolve files path).resolver.policy = resolver.policy := by
  cases known : resolver.cached with
  | some answer => rw [resolve_of_cached known]
  | none => rw [resolve_of_uncached known]

/-- A reply that decides leaves its answer behind. -/
theorem cached_resolve_iff (files : FileSystem) (path : Path) (resolver : Resolver)
    (answer : Except StoreError (List Text)) :
    (resolver.resolve files path).resolver.cached = some answer ↔
      Decides answer (resolver.resolve files path) := by
  cases known : resolver.cached with
  | some decided =>
    rw [resolve_of_cached known, known, Decides, ← remember_eq_some_iff]
    cases decided <;> rfl
  | none =>
    rw [resolve_of_uncached known, Decides, ← remember_eq_some_iff]

/-- The same request again, among the same files, has the same reply and changes nothing. -/
theorem resolve_resolve (files : FileSystem) (path : Path) (resolver : Resolver) :
    ((resolver.resolve files path).resolver.resolve files path).result =
        (resolver.resolve files path).result ∧
      ((resolver.resolve files path).resolver.resolve files path).resolver =
        (resolver.resolve files path).resolver := by
  cases known : resolver.cached with
  | some answer => rw [resolve_of_cached known, resolve_of_cached known]; exact ⟨rfl, rfl⟩
  | none =>
    cases remembered : (resolver.resolve files path).resolver.cached with
    | some answer =>
      rw [resolve_of_cached remembered]
      exact ⟨((cached_resolve_iff files path resolver answer).mp remembered).symm, rfl⟩
    | none =>
      rw [resolve_of_uncached remembered, policy_resolve]
      rw [resolve_of_uncached known]
      refine ⟨rfl, ?_⟩
      cases (attempt resolver.parser files resolver.policy path).outcome <;> rfl

theorem after_of_cached {resolver : Resolver} {answer : Except StoreError (List Text)}
    (known : resolver.cached = some answer) (requests : List Request) :
    after requests resolver = resolver := by
  induction requests with
  | nil => rfl
  | cons request rest ih => rw [after_cons, resolve_of_cached known, ih]

/-- An error is remembered only by a resolver that fails closed. -/
def FailsClosed (resolver : Resolver) : Prop :=
  ∀ error, resolver.cached = some (.error error) → resolver.policy = .closed

theorem failsClosed_unused (parser : SourceParser) (policy : FailurePolicy) :
    (unused parser policy).FailsClosed := by
  intro error impossible
  cases impossible

theorem FailsClosed.resolve {resolver : Resolver} (closed : resolver.FailsClosed)
    (files : FileSystem) (path : Path) : (resolver.resolve files path).resolver.FailsClosed := by
  cases known : resolver.cached with
  | some answer =>
    rw [resolve_of_cached known]
    exact closed
  | none =>
    intro error cached
    have failed := (cached_resolve_iff files path resolver (.error error)).mp cached
    rw [policy_resolve]
    rw [resolve_of_uncached known, Decides] at failed
    rcases attempt_cases resolver.parser files resolver.policy path with
      ⟨outcome, reason, -, ended⟩ | ⟨names, ended⟩ | ⟨failure, other, ended⟩
    · rw [ended, result_unusable] at failed
      have same := afterwards_injective failed
      cases policy : resolver.policy with
      | closed => rfl
      | «open» =>
        rw [policy] at same
        cases same
    · rw [ended] at failed
      cases failed
    · rw [ended] at failed
      exact absurd failed (other (.error error))

theorem FailsClosed.after {resolver : Resolver} (closed : resolver.FailsClosed)
    (requests : List Request) : (after requests resolver).FailsClosed := by
  induction requests generalizing resolver with
  | nil => exact closed
  | cons request rest ih => exact ih (closed.resolve request.files request.path)

theorem policy_after (requests : List Request) (resolver : Resolver) :
    (after requests resolver).policy = resolver.policy := by
  induction requests generalizing resolver with
  | nil => rfl
  | cons request rest ih => rw [after_cons, ih, policy_resolve]

/-- Requests that decide nothing leave a resolver without an answer and without an outcome. -/
structure Undecided (policy : FailurePolicy) (resolver : Resolver) : Prop where
  policy_eq : resolver.policy = policy
  cached_eq : resolver.cached = none
  outcome_eq : resolver.outcome = none

theorem undecided_unused (parser : SourceParser) (policy : FailurePolicy) :
    Undecided policy (unused parser policy) :=
  ⟨rfl, rfl, rfl⟩

theorem Undecided.resolve {policy : FailurePolicy} {resolver : Resolver}
    (before : Undecided policy resolver) (files : FileSystem) (path : Path)
    (open_end : ∀ answer, ¬ Decides answer (resolver.resolve files path)) :
    Undecided policy (resolver.resolve files path).resolver := by
  refine ⟨?_, ?_, ?_⟩
  · rw [policy_resolve, before.policy_eq]
  · rw [Option.eq_none_iff_forall_ne_some]
    intro answer cached
    exact open_end answer ((cached_resolve_iff files path resolver answer).mp cached)
  · simp only [Decides, resolve_of_uncached before.cached_eq] at open_end ⊢
    rcases attempt_cases resolver.parser files resolver.policy path with
      ⟨outcome, reason, -, ended⟩ | ⟨names, ended⟩ | ⟨failure, -, ended⟩
    · rw [ended] at open_end
      exact absurd (result_unusable _ _ outcome reason) (open_end _)
    · rw [ended] at open_end
      exact absurd rfl (open_end (.ok names))
    · rw [ended, before.outcome_eq]
      rfl

theorem Undecided.after {policy : FailurePolicy} {resolver : Resolver}
    (before : Undecided policy resolver) (requests : List Request)
    (open_ends : ∀ reply ∈ replies requests resolver, ∀ answer, ¬ Decides answer reply) :
    Undecided policy (after requests resolver) := by
  induction requests generalizing resolver with
  | nil => exact before
  | cons request rest ih =>
    simp only [replies, List.forall_mem_cons] at open_ends
    exact ih (before.resolve request.files request.path open_ends.1) open_ends.2

/-- How the outcome of a resolver and its answer go together, after a path was looked up. -/
structure Settled (policy : FailurePolicy) (path : Path) (answer : Except StoreError (List Text))
    (resolver : Resolver) : Prop where
  cached_eq : resolver.cached = some answer
  storePath_eq : resolver.storePath = some path
  ended : resolver.outcome ≠ none
  resolved_iff : resolver.outcome = some .resolved ↔ ∃ names, answer = .ok names ∧ names ≠ []
  of_empty : resolver.outcome = some .empty → answer = .ok []
  of_unusable_open : resolver.outcome = some .parseError ∨ resolver.outcome = some .readError →
    policy = .open → answer = .ok [] ∧ resolver.resolved? = some []
  of_unusable_closed : resolver.outcome = some .parseError ∨ resolver.outcome = some .readError →
    policy = .closed → (∃ reason, answer = .error ⟨path.toText, reason⟩) ∧ resolver.resolved? = none

theorem settled_of_unusable {policy : FailurePolicy} {path : Path} {reason : Text}
    {resolver : Resolver} (cached : resolver.cached = some (unusableAnswer policy path reason))
    (stored : resolver.storePath = some path)
    (bad : resolver.outcome = some .readError ∨ resolver.outcome = some .parseError) :
    Settled policy path (unusableAnswer policy path reason) resolver := by
  have unresolved : resolver.outcome ≠ some .resolved := by
    rcases bad with ended | ended <;> rw [ended] <;> decide
  have nonempty : resolver.outcome ≠ some .empty := by
    rcases bad with ended | ended <;> rw [ended] <;> decide
  refine ⟨cached, stored, ?_, ?_, fun ended => absurd ended nonempty, ?_, ?_⟩
  · rcases bad with ended | ended <;> rw [ended] <;> decide
  · refine iff_of_false unresolved ?_
    rintro ⟨names, same, some_names⟩
    cases policy <;> cases same
    exact some_names rfl
  · rintro - rfl
    rw [resolved?, cached]
    exact ⟨rfl, rfl⟩
  · rintro - rfl
    rw [resolved?, cached]
    exact ⟨⟨reason, rfl⟩, rfl⟩

theorem settled_of_found {policy : FailurePolicy} {path : Path} {names : List Text}
    {resolver : Resolver} (cached : resolver.cached = some (.ok names))
    (stored : resolver.storePath = some path)
    (ended : resolver.outcome = some (if names = [] then .empty else .resolved)) :
    Settled policy path (.ok names) resolver := by
  have usable : ¬ (resolver.outcome = some .parseError ∨ resolver.outcome = some .readError) := by
    rw [ended]
    split <;> decide
  refine ⟨cached, stored, ?_, ?_, ?_, fun bad => absurd bad usable, fun bad => absurd bad usable⟩
  · rw [ended]
    exact Option.some_ne_none _
  · rw [ended]
    by_cases none : names = []
    · simp [none]
    · simp [none]
  · rw [ended]
    by_cases none : names = []
    · simp [none]
    · simp [none]

/-- The first request that decides settles the resolver. -/
theorem Undecided.settled {policy : FailurePolicy} {resolver : Resolver}
    {answer : Except StoreError (List Text)} (before : Undecided policy resolver)
    (files : FileSystem) (path : Path) (decides : Decides answer (resolver.resolve files path)) :
    Settled policy path answer (resolver.resolve files path).resolver := by
  have cached := (cached_resolve_iff files path resolver answer).mpr decides
  rw [resolve_of_uncached before.cached_eq, before.policy_eq, before.outcome_eq] at cached decides ⊢
  rcases attempt_cases resolver.parser files policy path with
    ⟨outcome, reason, bad, ended⟩ | ⟨names, ended⟩ | ⟨failure, other, ended⟩
  · have same : answer = unusableAnswer policy path reason := by
      rw [ended, Decides, result_unusable] at decides
      exact afterwards_injective decides.symm
    subst same
    refine settled_of_unusable cached rfl ?_
    rw [ended]
    exact bad.imp (congrArg some) (congrArg some)
  · have same : answer = .ok names := by
      rw [ended, Decides] at decides
      exact afterwards_injective decides.symm
    subst same
    exact settled_of_found cached rfl (by rw [ended]; rfl)
  · rw [ended] at decides
    exact absurd decides (other answer)

/-- A resolver is settled by the first request that ends with names or with an error of the store:
no later request changes it or learns another answer, whatever path and files it comes with, and
all that it can add to the log is one record about its path. -/
theorem resolve_settled (parser : SourceParser) (policy : FailurePolicy) (earlier : List Request)
    (first : Request) (later : List Request) (answer : Except StoreError (List Text))
    (open_ends : ∀ reply ∈ replies earlier (unused parser policy), ∀ other, ¬ Decides other reply)
    (decides : Decides answer
      ((after earlier (unused parser policy)).resolve first.files first.path)) :
    (unused parser policy).resolved? = none ∧ (unused parser policy).outcome = none ∧
    after (earlier ++ first :: later) (unused parser policy) =
      after (earlier ++ [first]) (unused parser policy) ∧
    (∀ files path, (after (earlier ++ first :: later) (unused parser policy)).resolve files path =
      { result := afterwards answer
        resolver := after (earlier ++ [first]) (unused parser policy)
        records :=
          if path = first.path then []
          else [⟨.debug, .store, Text.concat ["Store modules already resolved from ",
            first.path.toText, "; ignoring ", path.toText]⟩] }) ∧
    Settled policy first.path answer (after (earlier ++ [first]) (unused parser policy)) := by
  have settled := ((undecided_unused parser policy).after earlier open_ends).settled first.files
    first.path decides
  have decided_eq : after (earlier ++ [first]) (unused parser policy) =
      ((after earlier (unused parser policy)).resolve first.files first.path).resolver :=
    after_append earlier [first] _
  have later_eq : after (earlier ++ first :: later) (unused parser policy) =
      after (earlier ++ [first]) (unused parser policy) := by
    rw [after_append, after_cons, after_of_cached settled.cached_eq, decided_eq]
  rw [later_eq, decided_eq]
  refine ⟨rfl, rfl, rfl, ?_, settled⟩
  intro files path
  rw [resolve_of_cached settled.cached_eq, settled.storePath_eq]
  rfl

/-- A path that no file can have settles nothing; a file that is missing does. -/
theorem resolve_settled_of_missing :
    Settled .closed ⟨.relative, ["s"]⟩
      (.error ⟨"s", "[Errno 2] No such file or directory: 's'"⟩)
      (after [⟨.empty [], ⟨.relative, ["\x00"]⟩⟩, ⟨.empty [], ⟨.relative, ["s"]⟩⟩]
        (unused Script.parse .closed)) := by
  have refused : (FileSystem.empty []).readText ⟨.relative, ["\x00"]⟩ = .error .embeddedNull := by
    rw [FileSystem.readText_eq_embeddedNull_iff]
    simp [FileSystem.hasNull]
  have missing : (FileSystem.empty []).readText ⟨.relative, ["s"]⟩ =
      .error (.path .notFound ⟨.relative, ["s"]⟩) :=
    FileSystem.readText_of_fault (by simp [FileSystem.hasNull]) rfl
  have settled := resolve_settled Script.parse .closed [⟨.empty [], ⟨.relative, ["\x00"]⟩⟩]
    ⟨.empty [], ⟨.relative, ["s"]⟩⟩ []
    (.error ⟨"s", "[Errno 2] No such file or directory: 's'"⟩)
    (by
      intro reply member other
      cases List.mem_singleton.mp member
      rw [Decides, resolve_of_uncached rfl, attempt, refused]
      cases other <;> simp [afterwards, ReadError.isExpected, broken])
    (by
      have unknown : (after [⟨.empty [], ⟨.relative, ["\x00"]⟩⟩]
          (unused Script.parse .closed)).cached = none := by
        rw [after, resolve_of_uncached rfl, attempt, refused]
        rfl
      rw [Decides, resolve_of_uncached unknown, policy_after, attempt, missing]
      rfl)
  exact settled.2.2.2.2

end ModuleFence.Resolver
