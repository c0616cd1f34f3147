import ModuleFence.Proofs.Expression.Decoding
import ModuleFence.Proofs.Store.Names
import ModuleFence.Proofs.Store.OneShot

set_option autoImplicit false

namespace ModuleFence

/-- A store that can be read and parsed, and exports a value in which a numeral is too large. -/
def Store.Overflows (parser : SourceParser) (files : FileSystem) (path : Path) : Prop :=
  ∃ source root, files.readText path = .ok source ∧
    (parser source).checked (some path.toText) = .ok root ∧
      ∃ value ∈ exportedValues root, ∃ literal, Node.Reads literal 0 value ∧
        ∃ piece ∈ literal.namedChildren, piece.Overflows

theorem Store.succeeds_moduleNames_iff_of_parsed {parser : SourceParser} {files : FileSystem}
    {path : Path} {source : List Char} {root : Node} (read : files.readText path = .ok source)
    (parsed : (parser source).checked (some path.toText) = .ok root) :
    Succeeds (moduleNames root) ↔ ¬ Overflows parser files path := by
  rw [succeeds_moduleNames_iff]
  simp only [Node.Legible, Node.succeeds_stringValue_iff]
  constructor
  · rintro legible ⟨_, _, again, same, value, exported, literal, reads, piece, inside, overflows⟩
    cases read.symm.trans again
    cases parsed.symm.trans same
    exact legible value exported literal reads piece inside overflows
  · intro fits value exported literal reads piece inside overflows
    exact fits
      ⟨source, root, read, parsed, value, exported, literal, reads, piece, inside, overflows⟩

namespace Resolver

theorem attempt_of_null {path : Path} (null : FileSystem.hasNull path = true)
    (parser : SourceParser) (files : FileSystem) (policy : FailurePolicy) :
    attempt parser files policy path = broken (.read .embeddedNull) := by
  rw [attempt, (files.readText_eq_embeddedNull_iff path).mpr null]
  rfl

theorem attempt_of_overflows {parser : SourceParser} {files : FileSystem} {path : Path}
    (overflows : Store.Overflows parser files path) (policy : FailurePolicy) :
    attempt parser files policy path = broken (.escape .numberTooLarge) := by
  have stored := overflows
  obtain ⟨source, root, read, parsed, -⟩ := stored
  have fails := mt (Store.succeeds_moduleNames_iff_of_parsed read parsed).mp (not_not.mpr overflows)
  simp only [attempt, read, parsed]
  cases collected : Store.moduleNames root with
  | ok names => exact absurd ⟨names, collected⟩ fails
  | error error =>
    cases error
    rfl

/-- Any other attempt ends with names or with an error of the store. -/
theorem attempt_decides {parser : SourceParser} {files : FileSystem} {path : Path}
    (policy : FailurePolicy) (allowed : ¬ FileSystem.hasNull path = true)
    (fits : ¬ Store.Overflows parser files path) :
    ∃ answer, (attempt parser files policy path).result = afterwards answer := by
  simp only [attempt]
  cases read : files.readText path with
  | error error =>
    have expected : error.isExpected = true := by
      rw [ReadError.isExpected_iff]
      rintro rfl
      exact allowed ((files.readText_eq_embeddedNull_iff path).mp read)
    simp only [if_pos expected]
    exact ⟨_, result_unusable policy path .readError error.message⟩
  | ok source =>
    simp only
    cases parsed : (parser source).checked (some path.toText) with
    | error error => exact ⟨_, result_unusable policy path .parseError error.message⟩
    | ok root =>
      obtain ⟨names, collected⟩ :=
        (Store.succeeds_moduleNames_iff_of_parsed read parsed).mpr fits
      simp only [collected]
      exact ⟨.ok names, rfl⟩

/-- A failure that is not remembered leaves nothing but the path. -/
theorem resolve_of_broken {resolver : Resolver} (unknown : resolver.cached = none)
    {files : FileSystem} {path : Path} {failure : Failure}
    (unhandled : remember (.error failure) = none)
    (ended : attempt resolver.parser files resolver.policy path = broken failure) :
    resolver.resolve files path =
      ⟨.error failure, { resolver with storePath := some path }, []⟩ := by
  rw [resolve_of_uncached unknown, ended]
  simp only [broken, unhandled, unknown]
  rfl

section Uncached

variable {resolver : Resolver} (unknown : resolver.cached = none) (files : FileSystem) (path : Path)

include unknown

theorem exists_decides (allowed : ¬ FileSystem.hasNull path = true)
    (fits : ¬ Store.Overflows resolver.parser files path) :
    ∃ answer, Decides answer (resolver.resolve files path) := by
  obtain ⟨answer, ended⟩ := attempt_decides resolver.policy allowed fits
  refine ⟨answer, ?_⟩
  rw [Decides, ← ended]
  exact congrArg Reply.result (resolve_of_uncached unknown files path)

/-- The requests that nothing handles. -/
theorem resolve_of_unhandled
    (bad : ¬ (¬ FileSystem.hasNull path = true ∧ ¬ Store.Overflows resolver.parser files path)) :
    resolver.resolve files path = ⟨.error
      (if FileSystem.hasNull path then .read .embeddedNull else .escape .numberTooLarge),
      { resolver with storePath := some path }, []⟩ := by
  by_cases null : FileSystem.hasNull path = true
  · rw [if_pos null]
    exact resolve_of_broken unknown rfl (attempt_of_null null _ files _)
  · rw [if_neg null]
    have overflows : Store.Overflows resolver.parser files path := by
      by_contra fits
      exact bad ⟨null, fits⟩
    exact resolve_of_broken unknown rfl (attempt_of_overflows overflows _)

/-- A resolver that fails open settles on names. -/
theorem ok_of_decides_open (failsOpen : resolver.policy = .open)
    {answer : Except StoreError (List Text)}
    (decides : Decides answer (resolver.resolve files path)) : ∃ names, answer = .ok names := by
  have closed : resolver.FailsClosed := by
    intro error impossible
    rw [unknown] at impossible
    cases impossible
  cases answer with
  | ok names => exact ⟨names, rfl⟩
  | error error =>
    have cached := (cached_resolve_iff files path resolver (.error error)).mpr decides
    have contrary := closed.resolve files path error cached
    rw [policy_resolve, failsOpen] at contrary
    cases contrary

/-- Once a request has decided, no later one looks at the files. -/
theorem resolve_after_decides {answer : Except StoreError (List Text)}
    (decides : Decides answer (resolver.resolve files path)) (later : List Request)
    (others : FileSystem) (other : Path) :
    (after later (resolver.resolve files path).resolver).resolve others other =
      ⟨afterwards answer, (resolver.resolve files path).resolver,
        ignoredRecords (some path) other⟩ := by
  have cached := (cached_resolve_iff files path resolver answer).mpr decides
  have stored : (resolver.resolve files path).resolver.storePath = some path :=
    congrArg (fun reply => reply.resolver.storePath) (resolve_of_uncached unknown files path)
  rw [after_of_cached cached, resolve_of_cached cached, stored]

end Uncached

/-- What a resolver that knows no answer handles: any path without a null character whose file does
not export a numeral that is too large. Such a request settles the resolver, with names if it fails
open, and no later one looks at the files. Any other request ends in a failure that nothing handles,
and the next one looks at the files as if it had been the first. -/
theorem resolve_handles_iff (files : FileSystem) (spelling : String) (resolver : Resolver)
    (unknown : resolver.cached = none) :
    let path := Path.ofString spelling
    let reply := resolver.resolve files path
    let handled := '\x00' ∉ spelling.toList ∧ ¬ Store.Overflows resolver.parser files path
    (handled ↔ ∃ answer, Decides answer reply) ∧
    (∀ answer, Decides answer reply →
      (resolver.policy = .open → ∃ names, answer = .ok names) ∧
      ∀ later others other, (after later reply.resolver).resolve others other =
        ⟨afterwards answer, reply.resolver, ignoredRecords (some path) other⟩) ∧
    (¬ handled →
      reply.result = .error
        (if '\x00' ∈ spelling.toList then .read .embeddedNull else .escape .numberTooLarge) ∧
      reply.resolver = { resolver with storePath := some path } ∧
      ∀ others other, reply.resolver.resolve others other = resolver.resolve others other) := by
  intro path reply handled
  have null_iff : FileSystem.hasNull path = true ↔ '\x00' ∈ spelling.toList :=
    FileSystem.hasNull_ofString_iff spelling
  have breaks (unhandled : ¬ handled) : reply = ⟨.error
      (if '\x00' ∈ spelling.toList then .read .embeddedNull else .escape .numberTooLarge),
      { resolver with storePath := some path }, []⟩ := by
    simp only [handled, ← null_iff] at unhandled ⊢
    exact resolve_of_unhandled unknown files path unhandled
  refine ⟨⟨fun good => ?_, ?_⟩, fun answer decides => ⟨?_, ?_⟩, fun unhandled => ?_⟩
  · exact exists_decides unknown files path (mt null_iff.mp good.1) good.2
  · rintro ⟨answer, decides⟩
    by_contra unhandled
    rw [Decides, breaks unhandled] at decides
    cases answer <;> split at decides <;> cases decides
  · exact fun failsOpen => ok_of_decides_open unknown files path failsOpen decides
  · exact resolve_after_decides unknown files path decides
  · rw [breaks unhandled]
    refine ⟨rfl, rfl, fun others other => ?_⟩
    simp only [resolve, unknown]

/-- A store that is written after the first request has missed it is not read any more. -/
theorem resolve_handles_iff_of_missing :
    let path := Path.ofString "s.js"
    ∀ others other, (((unused Script.parse .open).resolve (.empty []) path).resolver.resolve others
      other).result = .ok [] := by
  intro path others other
  have allowed : FileSystem.hasNull path = false :=
    Bool.eq_false_iff.mpr (mt (FileSystem.hasNull_ofString_iff "s.js").mp (by decide))
  have missing : (FileSystem.empty []).readText path = .error (.path .notFound path) :=
    FileSystem.readText_of_fault allowed (by decide +kernel)
  have decides : Decides (.ok []) ((unused Script.parse .open).resolve (.empty []) path) := by
    rw [Decides, resolve_of_uncached rfl, attempt, missing]
    rfl
  obtain ⟨-, settles, -⟩ := resolve_handles_iff (.empty []) "s.js" (unused Script.parse .open) rfl
  exact congrArg Reply.result ((settles (.ok []) decides).2 [] others other)

/-- A path with a null character for a resolver that fails open, and a numeral that is too large in
a key of the store for one that fails closed: neither end is handled, and nothing is remembered. -/
theorem resolve_unhandled_of_null :
    let source := "export default \x7b \"\\u\x7b80000000\x7d\": 1 \x7d;"
    let files := (FileSystem.empty []).put ["s.js"] (.file source.toUTF8.toList)
    let refused := (unused Script.parse .open).resolve files (Path.ofString "s\x00.js")
    let overflown := (unused Script.parse .closed).resolve files (Path.ofString "s.js")
    refused.result = .error (.read .embeddedNull) ∧ refused.resolver.cached = none ∧
      overflown.result = .error (.escape .numberTooLarge) ∧ overflown.resolver.cached = none := by
  intro source files refused overflown
  have null : FileSystem.hasNull (Path.ofString "s\x00.js") = true :=
    (FileSystem.hasNull_ofString_iff _).mpr (by decide)
  have refused_eq : refused = ⟨.error (.read .embeddedNull), _, []⟩ :=
    resolve_of_broken rfl rfl (attempt_of_null null _ files .open)
  have allowed : FileSystem.hasNull (Path.ofString "s.js") = false :=
    Bool.eq_false_iff.mpr (mt (FileSystem.hasNull_ofString_iff "s.js").mp (by decide))
  have found : files.locate (Path.ofString "s.js") =
      .ok (["s.js"], .file source.toUTF8.toList) := by
    decide +kernel
  have decoded : Utf8.decode source.toUTF8.toList = .ok source.toList := by decide +kernel
  have normal : Lines.normalize source.toList = source.toList := by decide +kernel
  have read : files.readText (Path.ofString "s.js") = .ok source.toList := by
    rw [FileSystem.readText_of_file allowed found decoded, normal]
  let root := Script.parse source.toList
  have intact : root.label.hasError = false := by decide +kernel
  have parsed (name : Option Text) : root.checked name = .ok root := by
    rw [Node.checked, intact]
    rfl
  have collected : Store.moduleNames root = .error .numberTooLarge := by decide +kernel
  have ended : attempt Script.parse files .closed (Path.ofString "s.js") =
      broken (.escape .numberTooLarge) := by
    simp only [attempt, read]
    rw [parsed]
    simp only [collected]
  have overflown_eq : overflown = ⟨.error (.escape .numberTooLarge), _, []⟩ :=
    resolve_of_broken rfl rfl ended
  rw [refused_eq, overflown_eq]
  exact ⟨rfl, rfl, rfl, rfl⟩

end Resolver

end ModuleFence
