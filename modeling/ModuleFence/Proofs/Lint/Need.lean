import ModuleFence.Lint.Files
import ModuleFence.Proofs.Lint.Consulting
import ModuleFence.Proofs.Rule.Candidate

set_option autoImplicit false

namespace ModuleFence

open ModuleRule (consulted denied)

namespace Rule

/-- A rule that does not ask for its deny-list stays as it is. -/
theorem visit_of_idle {rule : Rule} {visit : Visit} (idle : ¬ rule.Asks visit) (files : FileSystem)
    (path : Option Path) (shared : Shared) :
    rule.visit files path visit shared =
      ⟨.ok (visit.findingsOf path [] rule.id), rule, shared⟩ := by
  cases rule with
  | emptyCatch => exact Visit.visit_emptyCatch files path visit shared []
  | someModule rule =>
    have unused : visit.uses = [] := by
      by_contra used
      exact idle ⟨rfl, used⟩
    rw [Visit.visit_someModule, unused, id, Visit.findingsOf, unused]
    rfl

theorem visitAll_of_idle {rules : List Rule} {visit : Visit}
    (idle : ∀ rule ∈ rules, ¬ rule.Asks visit) (files : FileSystem) (path : Option Path)
    (shared : Shared) :
    visitAll files path visit rules shared =
      ⟨.ok (rules.flatMap fun rule => visit.findingsOf path [] rule.id), rules, shared⟩ := by
  induction rules with
  | nil => rfl
  | cons rule rest ih =>
    rw [List.forall_mem_cons] at idle
    simp only [visitAll, visit_of_idle idle.1, ih idle.2]
    rfl

end Rule

namespace Node

/-- A tree whose literals can be read needs the deny-list exactly when it has no damage and a
candidate. -/
theorem needsList_iff {ids : List RuleId} {root : Node} (present : .someModule ∈ ids)
    (legible : root.label.hasError = false → root.CallsLegible) :
    root.NeedsList ids ↔
      root.label.hasError = false ∧ ∃ node ∈ root.preorder, node.IsCandidate := by
  rw [NeedsList, and_iff_right present]
  refine and_congr_right fun intact => ?_
  constructor
  · rintro ⟨call, member, mentioned⟩
    obtain ⟨inTree, called⟩ := mem_calls_iff.mp member
    exact ⟨call, inTree, (isCandidate_iff called (legible intact call member)).mpr mentioned⟩
  · rintro ⟨node, inTree, candidate⟩
    have member : node ∈ root.calls := mem_calls_iff.mpr ⟨inTree, candidate.1⟩
    exact ⟨node, member, (isCandidate_iff candidate.1 (legible intact node member)).mp candidate⟩

end Node

namespace Linter

theorem visitNodes_of_idle {nodes : List Node} {linter : Linter} (path : Option Path)
    (legible : ∀ node ∈ nodes, node.kind = "call_expression" → node.Legible 0)
    (idle : ∀ node ∈ nodes, ¬ node.MentionsAny (linter.rules.map Rule.id)) :
    ∃ diagnostics, ∀ files, visitNodes files path nodes linter = ⟨.ok diagnostics, linter⟩ := by
  induction nodes with
  | nil => exact ⟨[], fun _ => rfl⟩
  | cons node rest ih =>
    rw [List.forall_mem_cons] at legible idle
    obtain ⟨diagnostics, later⟩ := ih legible.2 idle.2
    rcases Node.visit?_of_legible legible.1 with unvisited | ⟨visit, visited⟩
    · refine ⟨diagnostics, fun files => ?_⟩
      rw [visitNodes, unvisited]
      exact later files
    · have silent : ∀ rule ∈ linter.rules, ¬ rule.Asks visit := by
        rintro rule member ⟨id_eq, used⟩
        obtain ⟨called, mentioned⟩ := (Visit.uses_of_visited visited).mp used
        exact idle.1 ⟨List.mem_map.mpr ⟨rule, member, id_eq⟩, called, mentioned⟩
      refine ⟨(linter.rules.flatMap fun rule => visit.findingsOf path [] rule.id) ++ diagnostics,
        fun files => ?_⟩
      rw [visitNodes, visited]
      simp only [Rule.visitAll_of_idle silent, later]
      rfl

/-- A tree that does not need the deny-list is linted without a look at any file, and leaves the
rules and their resolver as they are. -/
theorem lintTree_of_needless {root : Node} {linter : Linter} (path : Option Path)
    (legible : root.label.hasError = false → root.CallsLegible)
    (needless : ¬ root.NeedsList (linter.rules.map Rule.id)) :
    ∃ diagnostics records, ∀ files,
      lintTree files path root linter = ⟨.ok diagnostics, linter.log records⟩ := by
  cases damaged : root.label.hasError with
  | true =>
    obtain ⟨error, refused⟩ := Node.checked_of_damaged damaged (path.map Path.toText)
    refine ⟨[unparsable path error], [skippedRecord path error], fun files => ?_⟩
    rw [lintTree, refused]
  | false =>
    have each (node : Node) (member : node ∈ root.preorder)
        (called : node.kind = "call_expression") : node.Legible 0 :=
      legible damaged node (Node.mem_calls_iff.mpr ⟨member, called⟩)
    have idle (node : Node) (member : node ∈ root.preorder) :
        ¬ node.MentionsAny (linter.rules.map Rule.id) := by
      intro mentions
      exact needless ⟨damaged, (Node.mentionsAny_iff _ root).mp ⟨node, member, mentions⟩⟩
    obtain ⟨diagnostics, visited⟩ := visitNodes_of_idle path each idle
    refine ⟨diagnostics, [], fun files => ?_⟩
    have unlogged : linter.log [] = linter := by
      rw [Linter.log, Shared.log, List.append_nil]
    rw [lintTree, Node.checked_of_intact damaged, unlogged]
    show visitNodes files path root.walk linter = _
    rw [Node.walk_eq_preorder, visited files]

/-- Nodes that are visited without a failure can be read. -/
theorem legible_of_visitNodes {files : FileSystem} {path : Option Path} {nodes : List Node}
    {linter : Linter} {diagnostics : List Diagnostic}
    (success : (visitNodes files path nodes linter).result = .ok diagnostics) :
    ∀ node ∈ nodes, node.kind = "call_expression" → node.Legible 0 := by
  induction nodes generalizing linter diagnostics with
  | nil => exact fun _ impossible => absurd impossible List.not_mem_nil
  | cons node rest ih =>
    rw [List.forall_mem_cons]
    rw [visitNodes] at success
    refine ⟨?_, ?_⟩
    · intro called
      by_contra illegible
      rw [Node.visit?_of_illegible called illegible] at success
      cases success
    · cases shown : node.visit? with
      | none =>
        rw [shown] at success
        exact ih success
      | some visit =>
        rw [shown] at success
        cases visit with
        | error error => cases success
        | ok visit =>
          simp only at success
          split at success
          · cases success
          · obtain ⟨others, later, -⟩ := (map_eq_ok_iff _ _ _).mp success
            exact ih later

theorem callsLegible_of_lintTree {files : FileSystem} {path : Option Path} {root : Node}
    {linter : Linter} {diagnostics : List Diagnostic}
    (success : (lintTree files path root linter).result = .ok diagnostics)
    (intact : root.label.hasError = false) : root.CallsLegible := by
  rw [lintTree, Node.checked_of_intact intact] at success
  have legible := legible_of_visitNodes success
  intro call member
  obtain ⟨inTree, called⟩ := Node.mem_calls_iff.mp member
  rw [Node.walk_eq_preorder] at legible
  exact legible call inTree called

/-- What remains of a refused deny-list after a tree that was linted without a failure. -/
theorem Coherent.lintTree_of_refused {options : ModuleOptions} {ids : List RuleId}
    {linter : Linter} {files : FileSystem} {failure : Failure} {path : Option Path} {root : Node}
    {diagnostics : List Diagnostic} (coherent : linter.Coherent options ids)
    (refused : denied files options linter.shared.resolver = .error failure)
    (success : (Linter.lintTree files path root linter).result = .ok diagnostics) :
    ¬ root.NeedsList ids ∧
      (Linter.lintTree files path root linter).linter.Coherent options ids ∧
      (Linter.lintTree files path root linter).linter.shared.resolver = linter.shared.resolver := by
  obtain ⟨consultation, after⟩ := coherent.lintTree files path (callsLegible_of_lintTree success)
  have needless : ¬ root.NeedsList ids := by
    intro needs
    have failed := (consultation.asked needs).2
    rw [success, refused] at failed
    cases failed
  exact ⟨needless, after, (consultation.idle needless).1⟩

/-- Files that are linted without a failure have no candidate if the deny-list is refused. -/
theorem Coherent.lintFiles_of_refused {options : ModuleOptions} {ids : List RuleId}
    {linter : Linter} {files : FileSystem} {failure : Failure}
    (coherent : linter.Coherent options ids) (present : .someModule ∈ ids)
    (refused : denied files options linter.shared.resolver = .error failure) {paths : List Path}
    {report : Report} (completed : (lintFiles files paths report linter).failure = none) :
    ∀ path ∈ paths, ∀ source, SourceFile.load files path = .ok source →
      (Script.parse source.characters).label.hasError = false →
        ∀ node ∈ (Script.parse source.characters).preorder, ¬ node.IsCandidate := by
  induction paths generalizing linter report with
  | nil => exact fun _ impossible => absurd impossible List.not_mem_nil
  | cons path rest ih =>
    rw [lintFiles] at completed
    rw [List.forall_mem_cons]
    cases loaded : SourceFile.load files path with
    | error error =>
      cases expected : error.isExpected with
      | false =>
        simp only [lintFile, loaded, expected] at completed
        cases completed
      | true =>
        simp only [lintFile, loaded, expected, if_true] at completed
        have logged : (linter.log [unreadableRecord path error]).Coherent options ids :=
          ⟨coherent.ids_eq, coherent.rules⟩
        refine ⟨?_, ih logged refused completed⟩
        intro source impossible
        cases impossible
    | ok source =>
      cases linted : (lintSource files (some path) source.characters linter).result with
      | error failure =>
        simp only [lintFile, loaded, linted] at completed
        cases completed
      | ok diagnostics =>
        simp only [lintFile, loaded, linted] at completed
        obtain ⟨needless, after, resolver_eq⟩ := coherent.lintTree_of_refused refused linted
        refine ⟨?_, ih after ?_ completed⟩
        · rintro _ same intact node member candidate
          cases same
          exact needless ((Node.needsList_iff present (callsLegible_of_lintTree linted)).mpr
            ⟨intact, node, member, candidate⟩)
        · exact (congrArg (denied files options) resolver_eq).trans refused

/-- Fresh rules with a fresh resolver ask for their store exactly when a tree has no damage and a
candidate; any other tree is linted without a look at a file. With a store that cannot be used, a
resolver that fails closed lets no candidate pass, neither in a tree nor in a run over files. -/
theorem lintTree_asks_iff_candidate (options : ModuleOptions) (rules : List Rule)
    (fresh : ∀ rule ∈ rules, rule.Fresh options) (present : .someModule ∈ rules.map Rule.id)
    (parser : SourceParser) (policy : FailurePolicy) (written : List LogRecord)
    (files : FileSystem) :
    let linter : Linter := ⟨rules, ⟨.unused parser policy, written⟩⟩
    (∀ (path : Option Path) (root : Node), root.StringsDecode →
      let answer := lintTree files path root linter
      let needed := root.label.hasError = false ∧ ∃ node ∈ root.preorder, node.IsCandidate
      (∀ store, options.storeFilePath = some store →
        (needed → answer.linter.shared.resolver =
          ((Resolver.unused parser policy).resolve files store).resolver) ∧
        (answer.linter.shared.resolver.storePath = some store ↔ needed) ∧
        (∀ reason, policy = .closed → Resolver.Unusable parser files store reason →
          (answer.result = .error (Resolver.closedFailure store reason) ↔ needed) ∧
          ((∃ error, answer.result = .error (.store error)) ↔
            needed ∧ FileSystem.hasNull store = false))) ∧
      (¬ needed → Succeeds answer.result ∧ answer.linter.rules = rules ∧
        answer.linter.shared.resolver = .unused parser policy ∧
        ∀ others, lintTree others path root linter = answer) ∧
      (options.storeFilePath = none → answer.linter.shared.resolver = .unused parser policy ∧
        answer.result =
          .ok (root.diagnosticsOf path (rules.map Rule.id) options.forbiddenModules))) ∧
    (∀ store reason, options.storeFilePath = some store → policy = .closed →
      Resolver.Unusable parser files store reason →
        ∀ paths report, (lintFiles files paths report linter).failure = none →
          ∀ path ∈ paths, ∀ source, SourceFile.load files path = .ok source →
            (Script.parse source.characters).label.hasError = false →
              ∀ node ∈ (Script.parse source.characters).preorder, ¬ node.IsCandidate) := by
  intro linter
  have coherent : linter.Coherent options (rules.map Rule.id) :=
    coherent_of_fresh fresh linter.shared
  refine ⟨?_, ?_⟩
  · intro path root decode answer needed
    have legible (_ : root.label.hasError = false) : root.CallsLegible := decode.callsLegible
    have needs_iff : root.NeedsList (rules.map Rule.id) ↔ needed :=
      Node.needsList_iff present legible
    obtain ⟨needing, -⟩ := coherent.lintTree files path legible
    have consultation := needing.of_iff needs_iff fun _ => rfl
    refine ⟨?_, ?_, ?_⟩
    · intro store stored
      obtain ⟨resolved, asked_iff⟩ := consultation.storePath_eq_iff stored
      refine ⟨resolved, asked_iff, ?_⟩
      rintro reason rfl bad
      exact consultation.failed_iff stored bad
    · intro idle
      have needless : ¬ root.NeedsList (linter.rules.map Rule.id) :=
        fun needs => idle (needs_iff.mp needs)
      obtain ⟨diagnostics, records, ended⟩ := lintTree_of_needless path legible needless
      have answer_eq : answer = ⟨.ok diagnostics, linter.log records⟩ := ended files
      rw [answer_eq]
      exact ⟨succeeds_ok _, rfl, rfl, ended⟩
    · intro unstored
      exact consultation.of_unstored unstored
  · rintro store reason stored rfl bad paths report completed
    have refused := ModuleRule.denied_of_unusable stored bad
    exact coherent.lintFiles_of_refused present refused completed

/-- A getter, a store that is missing, and a resolver that fails closed. -/
theorem lintTree_asks_iff_candidate_of_missing :
    (lintTree (.empty []) none (Script.parse "mapGetters('a')".toList)
      ⟨[.someModule (.sharing ⟨some ⟨.relative, ["s"]⟩, ["b"]⟩)],
        ⟨.unused Script.parse .closed, []⟩⟩).result =
      .error (.store ⟨"s", "[Errno 2] No such file or directory: 's'"⟩) := by
  have fresh : ∀ rule ∈ [Rule.someModule (.sharing ⟨some ⟨.relative, ["s"]⟩, ["b"]⟩)],
      rule.Fresh ⟨some ⟨.relative, ["s"]⟩, ["b"]⟩ := by
    intro rule member
    exact .inr (List.mem_singleton.mp member)
  have decode : (Script.parse "mapGetters('a')".toList).StringsDecode := by
    decide +kernel
  have missing : (FileSystem.empty []).readText ⟨.relative, ["s"]⟩ =
      .error (.path .notFound ⟨.relative, ["s"]⟩) :=
    FileSystem.readText_of_fault (by simp [FileSystem.hasNull]) rfl
  have needs : (Script.parse "mapGetters('a')".toList).NeedsList [.someModule] := by
    decide +kernel
  have asks := (lintTree_asks_iff_candidate _ _ fresh List.mem_cons_self Script.parse
    .closed [] (.empty [])).1 none _ decode
  have failed := (((asks.1 _ rfl).2.2 _ rfl (.inl ⟨_, missing, rfl⟩)).1).mpr
    ((Node.needsList_iff List.mem_cons_self fun _ => decode.callsLegible).mp needs)
  rw [failed, Resolver.closedFailure, if_neg (by simp [FileSystem.hasNull])]
  rfl

/-- A getter, and a store at a path that no file can have: the failure is not one of the store. -/
theorem lintTree_of_impossible_store :
    let root := Script.parse "mapGetters('a')".toList
    let store : Path := ⟨.relative, ["s\x00"]⟩
    (∃ node ∈ root.preorder, node.IsCandidate) ∧
      Resolver.Unusable Script.parse (.empty []) store "embedded null byte" ∧
      (lintTree (.empty []) none root
        ⟨[.someModule (.sharing ⟨some store, []⟩)], ⟨.unused Script.parse .closed, []⟩⟩).result =
        .error (.read .embeddedNull) := by
  intro root store
  have decode : root.StringsDecode := by
    decide +kernel
  have needs : root.NeedsList [.someModule] := by
    decide +kernel
  have needed := (Node.needsList_iff List.mem_cons_self fun _ => decode.callsLegible).mp needs
  have null : FileSystem.hasNull store = true := by
    simp [store, FileSystem.hasNull]
  have refused := ((FileSystem.empty []).readText_eq_embeddedNull_iff store).mpr null
  have unusable : Resolver.Unusable Script.parse (.empty []) store "embedded null byte" :=
    .inl ⟨_, refused, rfl⟩
  have fresh : ∀ rule ∈ [Rule.someModule (.sharing ⟨some store, []⟩)],
      rule.Fresh ⟨some store, []⟩ := by
    intro rule member
    exact .inr (List.mem_singleton.mp member)
  have coherent := coherent_of_fresh fresh ⟨.unused Script.parse .closed, []⟩
  obtain ⟨consultation, -⟩ := coherent.lintTree (.empty []) none fun _ => decode.callsLegible
  refine ⟨needed.2, unusable, ?_⟩
  refine (consultation.asked needs).2.trans ?_
  rw [ModuleRule.denied_of_unusable rfl unusable, Resolver.closedFailure, if_pos null]
  rfl

end Linter

end ModuleFence
