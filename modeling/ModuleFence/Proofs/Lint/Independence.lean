import Mathlib.Data.List.Nodup
import ModuleFence.Proofs.Lint.Dispatch
import ModuleFence.Proofs.Lint.Need
import ModuleFence.Proofs.Tree.Address

set_option autoImplicit false

namespace ModuleFence

open ModuleRule (Consultation consulted denied)

/-- The deny-list that a resolver has for some options, or nothing if it refuses one. -/
def ModuleRule.listOf (files : FileSystem) (options : ModuleOptions) (resolver : Resolver) :
    List Text :=
  match denied files options resolver with
  | .ok names => names
  | .error _ => []

namespace Node

/-- The catch clauses of a tree whose body has no statement, or that have no body, in order. -/
def emptyCatches (root : Node) : List Node :=
  root.preorder.filter fun node => node.kind = "catch_clause" &&
    (node.child? "body").all fun body => body.meaningfulChildren.isEmpty

/-- The finding on a catch clause without a statement: at its body, if it has one. -/
def emptiness (path : Option Path) (clause : Node) : Diagnostic where
  ruleId := "disallow-empty-catch"
  message := "Empty catch block is not allowed."
  span := ((clause.child? "body").getD clause).span
  nodeKind := "statement_block"
  filePath := path
  severity := .error

/-- The rule against empty catch clauses finds each of them, once. -/
theorem findings_emptyCatch (path : Option Path) (names : List Text) (root : Node) :
    (root.preorder.flatMap fun node => node.findingsOf path names .emptyCatch) =
      root.emptyCatches.map (emptiness path) := by
  have each (node : Node) : node.findingsOf path names .emptyCatch =
      if node.kind = "catch_clause" &&
          (node.child? "body").all fun body => body.meaningfulChildren.isEmpty
        then [emptiness path node] else [] := by
    rw [findingsOf, lowerCatch, emptiness]
    by_cases caught : node.kind = "catch_clause"
    · simp only [caught, if_true, decide_true, Bool.true_and]
      cases node.child? "body" with
      | none => rfl
      | some body =>
        have counted : (body.meaningfulChildren.length == 0) = body.meaningfulChildren.isEmpty := by
          cases body.meaningfulChildren <;> rfl
        simp only [EmptyCatch.findings, CatchClause.isEmpty, counted]
        rfl
    · simp [caught]
  rw [emptyCatches]
  induction root.preorder with
  | nil => rfl
  | cons node rest ih =>
    rw [List.flatMap_cons, each, ih, List.filter_cons]
    split <;> rfl

end Node

/-- Lists that are the same but for their order make the same list of parts, if the parts of any two
elements can be exchanged. -/
theorem flatMap_eq_of_perm {α β : Type} {parts : α → List β}
    (exchange : ∀ left right, parts left ++ parts right = parts right ++ parts left)
    {first second : List α} (same : first.Perm second) :
    first.flatMap parts = second.flatMap parts := by
  induction same with
  | nil => rfl
  | cons head _ ih => rw [List.flatMap_cons, List.flatMap_cons, ih]
  | swap left right rest =>
    simp only [List.flatMap_cons, ← List.append_assoc]
    rw [exchange]
  | trans _ _ here there => exact here.trans there

/-- What two rules find on the same thing can be exchanged: only one of them finds anything, or both
find the same. -/
theorem Visit.findingsOf_exchange (path : Option Path) (names : List Text) (visit : Visit)
    (left right : RuleId) :
    visit.findingsOf path names left ++ visit.findingsOf path names right =
      visit.findingsOf path names right ++ visit.findingsOf path names left := by
  cases visit <;> cases left <;> cases right <;>
    simp [Visit.findingsOf, ModuleRule.findings, Visit.uses]

/-- Some rules ask for the deny-list when one against forbidden modules is shown uses of modules. -/
theorem Rule.exists_asks_iff (rules : List Rule) (visit : Visit) :
    (∃ rule ∈ rules, rule.Asks visit) ↔ .someModule ∈ rules.map Rule.id ∧ visit.uses ≠ [] := by
  simp only [Rule.Asks, List.mem_map]
  constructor
  · rintro ⟨rule, member, id_eq, used⟩
    exact ⟨⟨rule, member, id_eq⟩, used⟩
  · rintro ⟨⟨rule, member, id_eq⟩, used⟩
    exact ⟨rule, member, id_eq, used⟩

namespace ModuleRule

variable {files : FileSystem} {options : ModuleOptions} {asks needs : Prop}
  {findings others : List Text → List Diagnostic} {before after last : Resolver}
  {result : Except Failure (List Diagnostic)} {diagnostics : List Diagnostic}

/-- A part of a run that succeeds finds what the deny-list makes it find, and leaves the list. -/
theorem Consultation.of_ok
    (consultation : Consultation files options asks findings before after (.ok diagnostics)) :
    diagnostics = findings (listOf files options before) ∧
      listOf files options after = listOf files options before := by
  by_cases asked : asks
  · obtain ⟨rfl, found⟩ := consultation.asked asked
    obtain ⟨names, list, rfl⟩ := (map_eq_ok_iff _ _ _).mp found.symm
    rw [listOf, listOf, denied_consulted, list]
    exact ⟨rfl, rfl⟩
  · obtain ⟨rfl, found⟩ := consultation.idle asked
    exact ⟨Except.ok.inj (found _), rfl⟩

/-- What asks for the deny-list only where another part of a run has got it cannot fail. -/
theorem Consultation.ok_of_imp
    (whole : Consultation files options asks findings before last (.ok diagnostics))
    (part : Consultation files options needs others before after result) (imp : needs → asks) :
    result = .ok (others (listOf files options before)) := by
  by_cases needed : needs
  · obtain ⟨names, list, -⟩ := (map_eq_ok_iff _ _ _).mp (whole.asked (imp needed)).2.symm
    rw [(part.asked needed).2, listOf, list]
    rfl
  · exact (part.idle needed).2 _

/-- Two parts of a run that consult the store alike end alike. -/
theorem Consultation.unique {other : Except Failure (List Diagnostic)}
    (first : Consultation files options asks findings before after result)
    (second : Consultation files options asks findings before last other) :
    after = last ∧ result = other := by
  by_cases asked : asks
  · obtain ⟨rfl, rfl⟩ := first.asked asked
    obtain ⟨rfl, rfl⟩ := second.asked asked
    exact ⟨rfl, rfl⟩
  · obtain ⟨rfl, here⟩ := first.idle asked
    obtain ⟨rfl, there⟩ := second.idle asked
    exact ⟨rfl, (here []).trans (there []).symm⟩

end ModuleRule

open ModuleRule (listOf)

/-- The diagnostics of the rule at a position, in the order in which they were found. -/
def shareOf (position : Nat) (entries : List (VisitorCall × List Diagnostic)) : List Diagnostic :=
  (entries.filter fun entry => entry.1.rule = position).flatMap Prod.snd

namespace Linter

variable {options : ModuleOptions} {ids : List RuleId} {linter : Linter}

/-- A tree with damage has one diagnostic. -/
theorem diagnostics_of_damaged {files : FileSystem} {path : Option Path} {root : Node}
    {diagnostics : List Diagnostic}
    (success : (lintTree files path root linter).result = .ok diagnostics)
    (damaged : root.label.hasError = true) : ∃ error, diagnostics = [unparsable path error] := by
  obtain ⟨error, refused⟩ := Node.checked_of_damaged damaged (path.map Path.toText)
  rw [lintTree, refused] at success
  exact ⟨error, (Except.ok.inj success).symm⟩

/-- A tree without damage that is linted without a failure has the findings that the deny-list makes
it have. -/
theorem Coherent.eq_findings (coherent : linter.Coherent options ids) {files : FileSystem}
    {path : Option Path} {root : Node} {diagnostics : List Diagnostic}
    (success : (Linter.lintTree files path root linter).result = .ok diagnostics)
    (intact : root.label.hasError = false) :
    diagnostics = root.findings path ids (listOf files options linter.shared.resolver) := by
  obtain ⟨consultation, -⟩ := coherent.lintTree files path (callsLegible_of_lintTree success)
  rw [success] at consultation
  rw [consultation.of_ok.1, Node.diagnosticsOf, Node.checked_of_intact intact]

/-- The diagnostics of a visitor call under a deny-list. -/
def found (path : Option Path) (names : List Text) (ids : List RuleId) (call : VisitorCall) :
    List Diagnostic :=
  ids[call.rule]?.elim [] (call.visit.findingsOf path names)

/-- A visitor call that succeeds finds what the deny-list makes it find, and leaves the list. -/
theorem Coherent.visitors (coherent : linter.Coherent options ids) (files : FileSystem)
    (path : Option Path) (call : VisitorCall) {diagnostics : List Diagnostic} {last : Linter}
    (answered : visitors files path call linter = (.ok diagnostics, last)) :
    diagnostics = found path (listOf files options linter.shared.resolver) ids call ∧
      listOf files options last.shared.resolver = listOf files options linter.shared.resolver ∧
      last.Coherent options ids := by
  have ids_eq := congrArg (·[call.rule]?) coherent.ids_eq
  simp only [List.getElem?_map] at ids_eq
  rw [found, ← ids_eq]
  cases held : linter.rules[call.rule]? with
  | none =>
    rw [Linter.visitors, held] at answered
    cases answered
    exact ⟨rfl, rfl, coherent⟩
  | some rule =>
    obtain ⟨consultation, after, id_eq⟩ :=
      (coherent.rules rule (List.mem_of_getElem? held)).visit files path call.visit
    rw [visitors_of_rule files path held, Prod.mk.injEq] at answered
    obtain ⟨result_eq, rfl⟩ := answered
    rw [result_eq] at consultation
    obtain ⟨rfl, list_eq⟩ := consultation.of_ok
    refine ⟨rfl, list_eq, ?_, ?_⟩
    · obtain ⟨inside, held⟩ := List.getElem?_eq_some_iff.mp held
      show List.map Rule.id (linter.rules.set _ _) = ids
      rw [List.map_set, id_eq, ← List.map_set, ← held, List.set_getElem_self]
      exact coherent.ids_eq
    · intro other member
      rcases List.mem_or_eq_of_mem_set member with old | rfl
      · exact (coherent.rules other old).after consultation
      · exact after

/-- Visitor calls that all succeed find, one by one, what the deny-list makes them find. -/
theorem Coherent.performAll (coherent : linter.Coherent options ids) {files : FileSystem}
    {path : Option Path} {calls : List (Except EscapeError VisitorCall)}
    {entries : List (VisitorCall × List Diagnostic)} {last : Linter}
    (performed : (Linter.visitors files path).performAll calls linter = ⟨.ok entries, last⟩) :
    ∀ entry ∈ entries,
      entry.2 = found path (listOf files options linter.shared.resolver) ids entry.1 := by
  induction calls generalizing linter entries with
  | nil =>
    cases performed
    exact fun _ impossible => absurd impossible List.not_mem_nil
  | cons call rest ih =>
    cases call with
    | error error => cases performed
    | ok call =>
      obtain ⟨diagnostics, middle, others, answered, later, rfl⟩ :=
        Visitors.performAll_cons_eq_ok _ performed
      obtain ⟨here, list_eq, remains⟩ := coherent.visitors files path call answered
      rw [List.forall_mem_cons, ← list_eq]
      exact ⟨list_eq ▸ here, ih remains later⟩

/-- What a rule finds in a tree, when all that the tree has to show can be lowered. -/
theorem flatMap_findingsOf {nodes : List Node} {visits : List Visit}
    (shown : nodes.filterMap Node.visit? = visits.map .ok) (path : Option Path) (names : List Text)
    (id : RuleId) :
    (nodes.flatMap fun node => node.findingsOf path names id) =
      visits.flatMap fun visit => visit.findingsOf path names id := by
  induction nodes generalizing visits with
  | nil =>
    rw [List.map_eq_nil_iff.mp shown.symm]
    rfl
  | cons node rest ih =>
    cases visited : node.visit? with
    | none =>
      rw [List.filterMap_cons_none visited] at shown
      rw [List.flatMap_cons, Node.findingsOf_of_unvisited visited, List.nil_append, ih shown]
    | some first =>
      rw [List.filterMap_cons_some visited] at shown
      obtain ⟨visit, others, rfl, rfl, others_eq⟩ := List.map_eq_cons_iff.mp shown.symm
      rw [List.flatMap_cons, List.flatMap_cons, Visit.findingsOf_of_visited visited,
        ih others_eq.symm]

theorem shareOf_append (position : Nat) (first second : List (VisitorCall × List Diagnostic)) :
    shareOf position (first ++ second) = shareOf position first ++ shareOf position second := by
  rw [shareOf, List.filter_append, List.flatMap_append]
  rfl

/-- The share of a rule is what it finds in all that is shown. -/
theorem shareOf_found {position count : Nat} (below : position < count) {id : RuleId}
    (held : ids[position]? = some id) (path : Option Path) (names : List Text)
    (visits : List Visit) :
    shareOf position ((visits.flatMap fun visit => (List.range count).map fun rule =>
        (⟨rule, visit⟩ : VisitorCall)).map fun call => (call, found path names ids call)) =
      visits.flatMap fun visit => visit.findingsOf path names id := by
  induction visits with
  | nil => rfl
  | cons visit rest ih =>
    have once : (List.range count).filter (· = position) = [position] := by
      rw [List.filter_eq, List.count_eq_one_of_mem List.nodup_range (List.mem_range.mpr below)]
      rfl
    rw [List.flatMap_cons, List.flatMap_cons, List.map_append, shareOf_append, ih]
    congr 1
    rw [shareOf, List.map_map, List.filter_map]
    show (List.map _ ((List.range count).filter (· = position))).flatMap Prod.snd = _
    rw [once]
    simp [found, held]

/-- A rule of a run that succeeds finds alone what the deny-list of the run makes it find. -/
theorem Coherent.walk_alone (coherent : linter.Coherent options ids) {files : FileSystem}
    {path : Option Path} {root : Node} {diagnostics : List Diagnostic}
    (success : (walk files path root linter).result = .ok diagnostics) {rule : Rule}
    (member : rule ∈ linter.rules) :
    (walk files path root ⟨[rule], linter.shared⟩).result = .ok (root.preorder.flatMap fun node =>
      node.findingsOf path (listOf files options linter.shared.resolver) rule.id) := by
  have alone : Coherent options [rule.id] ⟨[rule], linter.shared⟩ :=
    ⟨rfl, List.forall_mem_singleton.mpr (coherent.rules rule member)⟩
  have legible := legible_of_visitNodes success
  obtain ⟨whole, -⟩ := coherent.visitNodes files path legible
  obtain ⟨part, -⟩ := alone.visitNodes files path legible
  rw [walk] at success
  rw [success] at whole
  have listed : rule.id ∈ ids := coherent.ids_eq ▸ List.mem_map_of_mem member
  -- The rule alone asks for the deny-list only where the whole run has asked for it.
  have ended := whole.ok_of_imp part fun needs => ?_
  · rw [walk, ended, Node.walk_eq_preorder]
    simp only [List.flatMap_singleton]
  · obtain ⟨node, inTree, listedAlone, mentions⟩ := needs
    exact ⟨node, inTree, List.mem_singleton.mp listedAlone ▸ listed, mentions⟩

/-- The order of the rules of a run does not matter to what showing some nodes to them ends with. -/
theorem Coherent.visitNodes_perm {others : List RuleId} {reordered : Linter}
    (coherent : linter.Coherent options ids) (also : reordered.Coherent options others)
    (same : others.Perm ids) (shared_eq : reordered.shared.resolver = linter.shared.resolver)
    (files : FileSystem) (path : Option Path) (nodes : List Node) :
    (Linter.visitNodes files path nodes reordered).result =
      (Linter.visitNodes files path nodes linter).result := by
  induction nodes generalizing linter reordered with
  | nil => rfl
  | cons node rest ih =>
    rw [Linter.visitNodes, Linter.visitNodes]
    cases node.visit? with
    | none => exact ih coherent also shared_eq
    | some shown =>
      cases shown with
      | error error => rfl
      | ok visit =>
        obtain ⟨here, after, ids_eq⟩ := Rule.coherent_visitAll coherent.rules files path visit
        obtain ⟨there, behind, others_eq⟩ := Rule.coherent_visitAll also.rules files path visit
        have asks_iff : (∃ rule ∈ reordered.rules, rule.Asks visit) ↔
            ∃ rule ∈ linter.rules, rule.Asks visit := by
          rw [Rule.exists_asks_iff, Rule.exists_asks_iff, also.ids_eq, coherent.ids_eq,
            same.mem_iff]
        have found_eq (names : List Text) :
            (reordered.rules.flatMap fun rule => visit.findingsOf path names rule.id) =
              linter.rules.flatMap fun rule => visit.findingsOf path names rule.id := by
          have exchanged := flatMap_eq_of_perm (visit.findingsOf_exchange path names) same
          rwa [← also.ids_eq, ← coherent.ids_eq, List.flatMap_map, List.flatMap_map] at exchanged
        -- Both lists of rules consult the store alike, so that their resolvers stay the same.
        rw [shared_eq] at there
        obtain ⟨resolver_eq, result_eq⟩ := (there.of_iff asks_iff found_eq).unique here
        have remains : Coherent options ids
            ⟨(Rule.visitAll files path visit linter.rules linter.shared).rules,
              (Rule.visitAll files path visit linter.rules linter.shared).shared⟩ :=
          ⟨ids_eq.trans coherent.ids_eq, after⟩
        have alsoRemains : Coherent options others
            ⟨(Rule.visitAll files path visit reordered.rules reordered.shared).rules,
              (Rule.visitAll files path visit reordered.rules reordered.shared).shared⟩ :=
          ⟨others_eq.trans also.ids_eq, behind⟩
        have later := ih remains alsoRemains resolver_eq
        simp only [result_eq]
        cases (Rule.visitAll files path visit linter.rules linter.shared).result with
        | error failure => rfl
        | ok diagnostics => simp only [later]

/-- The order of the rules of a run does not matter to what linting a tree ends with. -/
theorem lintTree_perm {rules reordered : List Rule} (fresh : ∀ rule ∈ rules, rule.Fresh options)
    (same : reordered.Perm rules) (files : FileSystem) (path : Option Path) (root : Node)
    (shared : Shared) :
    (lintTree files path root ⟨reordered, shared⟩).result =
      (lintTree files path root ⟨rules, shared⟩).result := by
  rw [lintTree, lintTree]
  cases root.checked (path.map Path.toText) with
  | error error => rfl
  | ok root =>
    have coherent := coherent_of_fresh fresh shared
    have also := coherent_of_fresh (fun rule member => fresh rule (same.mem_iff.mp member)) shared
    exact coherent.visitNodes_perm also (same.map Rule.id) rfl files path root.walk

/-- A rule that settings have made finds alone what it finds among all of them. -/
theorem walk_eq_shareOf {rules : List Rule} (fresh : ∀ rule ∈ rules, rule.Fresh options)
    {files : FileSystem} {path : Option Path} {root : Node} {shared : Shared}
    {entries : List (VisitorCall × List Diagnostic)} {last : Linter}
    (dispatched : (visitors files path).dispatch rules.length [root] ⟨rules, shared⟩ =
      ⟨.ok entries, last⟩) {position : Nat} {rule : Rule} (held : rules[position]? = some rule) :
    (walk files path root ⟨[rule], shared⟩).result = .ok (shareOf position entries) ∧
      (rule = .emptyCatch →
        shareOf position entries = root.emptyCatches.map (Node.emptiness path)) := by
  have coherent := coherent_of_fresh fresh shared
  have success : (walk files path root ⟨rules, shared⟩).result =
      .ok (entries.flatMap Prod.snd) := by
    rw [walk_eq_answerOf, dispatched]
    rfl
  have alone := coherent.walk_alone success (List.mem_of_getElem? held)
  rw [Visitors.dispatch_root] at dispatched
  have entries_eq : entries = (entries.map Prod.fst).map fun call =>
      (call, found path (listOf files options shared.resolver) (rules.map Rule.id) call) := by
    rw [List.map_map]
    refine (List.map_id entries).symm.trans (List.map_congr_left fun entry member => ?_)
    exact Prod.ext rfl (coherent.performAll dispatched entry member)
  have calls_eq := Visitors.calls_of_performAll _ dispatched
  rw [Node.visitorCalls_eq_flatMap] at calls_eq
  obtain ⟨visits, shown, made_eq⟩ := VisitorCall.exists_visits calls_eq
  obtain ⟨below, -⟩ := List.getElem?_eq_some_iff.mp held
  have named : (rules.map Rule.id)[position]? = some rule.id := by
    rw [List.getElem?_map, held]
    rfl
  rw [entries_eq, made_eq, shareOf_found below named, alone, ← flatMap_findingsOf shown]
  refine ⟨rfl, ?_⟩
  rintro rfl
  exact root.findings_emptyCatch path _

/-- A walk goes through the addresses of its tree, each once and in order, and shows every call and
every catch clause to each rule, once and in the order of the rules, whatever the rules are. The
rules that settings make do not interfere: each finds what it would find alone, and their order does
not matter. -/
theorem walk_refines_preorder (root : Node) :
    (root.walk = root.preorder ∧ root.addresses.map (Node.at? · root) = root.preorder.map some ∧
      root.addresses.Pairwise (· < ·) ∧
      ∀ address, address ∈ root.addresses ↔ (Node.at? address root).isSome) ∧
    (∀ (σ : Type) (visitors : Visitors σ) (count : Nat) (state : σ),
      let calls := (root.preorder.filter Node.isShown).flatMap fun node =>
        VisitorCall.each count node.lowered
      visitors.dispatch count [root] state = visitors.performAll calls state ∧
      ∀ entries last, visitors.dispatch count [root] state = ⟨.ok entries, last⟩ →
        calls = (entries.map Prod.fst).map .ok) ∧
    ∀ (files : FileSystem) (path : Option Path),
      (∀ linter, walk files path root linter =
        answerOf ((visitors files path).dispatch linter.rules.length [root] linter)) ∧
      ∀ (settings : Settings) (names : Option (List Text)) (rules : List Rule)
        (records : List LogRecord) (shared : Shared),
        Rule.create settings names = (.ok rules, records) →
        (∀ reordered, reordered.Perm rules →
          (lintTree files path root ⟨reordered, shared⟩).result =
            (lintTree files path root ⟨rules, shared⟩).result) ∧
        ∀ entries last, (visitors files path).dispatch rules.length [root] ⟨rules, shared⟩ =
            ⟨.ok entries, last⟩ →
          (walk files path root ⟨rules, shared⟩).result = .ok (entries.flatMap Prod.snd) ∧
          ∀ position rule, rules[position]? = some rule →
            (walk files path root ⟨[rule], shared⟩).result = .ok (shareOf position entries) ∧
            (rule = .emptyCatch →
              shareOf position entries = root.emptyCatches.map (Node.emptiness path)) := by
  refine ⟨⟨root.walk_eq_preorder, root.map_at?_addresses, root.addresses_pairwise,
    root.mem_addresses_iff⟩, ?_, fun files path => ⟨walk_eq_answerOf files path root, ?_⟩⟩
  · intro σ visitors count state calls
    refine ⟨visitors.dispatch_root count root state, fun entries last dispatched => ?_⟩
    rw [visitors.dispatch_root] at dispatched
    exact visitors.calls_of_performAll dispatched
  · intro settings names rules records shared made
    have fresh := Rule.fresh_of_create made
    refine ⟨fun reordered same => lintTree_perm fresh same files path root shared, ?_⟩
    intro entries last dispatched
    refine ⟨?_, fun position rule held => walk_eq_shareOf fresh dispatched held⟩
    rw [walk_eq_answerOf, dispatched]
    rfl

/-- A getter with an empty catch clause behind it: each rule has one finding. -/
theorem walk_refines_preorder_of_both_rules :
    let root := Script.parse "mapGetters('a'); try { } catch (e) { }".toList
    let rules : List Rule := [.emptyCatch, .someModule (.sharing ⟨none, ["a"]⟩)]
    ∃ entries last, (visitors (.empty []) none).dispatch 2 [root] ⟨rules, ⟨{}, []⟩⟩ =
        ⟨.ok entries, last⟩ ∧
      (shareOf 0 entries).length = 1 ∧ (shareOf 1 entries).length = 1 ∧
      (lintTree (.empty []) none root ⟨rules.reverse, ⟨{}, []⟩⟩).result =
        .ok (entries.flatMap Prod.snd) := by
  intro root rules
  have made : Rule.create { forbiddenModules := ["a"] } none = (.ok rules, []) := rfl
  obtain ⟨-, -, walks⟩ := walk_refines_preorder root
  obtain ⟨walk_eq, independent⟩ := walks (.empty []) none
  obtain ⟨reorders, shares⟩ := independent _ none rules [] ⟨{}, []⟩ made
  have intact : root.label.hasError = false := by decide +kernel
  have succeeds : Succeeds (walk (.empty []) none root ⟨rules, ⟨{}, []⟩⟩).result := by
    decide +kernel
  have first : (walk (.empty []) none root ⟨[.emptyCatch], ⟨{}, []⟩⟩).result.map List.length =
      .ok 1 := by
    decide +kernel
  have second : (walk (.empty []) none root ⟨[.someModule (.sharing ⟨none, ["a"]⟩)],
      ⟨{}, []⟩⟩).result.map List.length = .ok 1 := by
    decide +kernel
  rw [walk_eq] at succeeds
  cases dispatched : (visitors (.empty []) none).dispatch rules.length [root] ⟨rules, ⟨{}, []⟩⟩ with
  | mk result last =>
    rw [dispatched] at succeeds
    cases result with
    | error failure => exact absurd succeeds (not_succeeds_error failure)
    | ok entries =>
      obtain ⟨whole, alone⟩ := shares entries last dispatched
      rw [(alone 0 _ rfl).1] at first
      rw [(alone 1 _ rfl).1] at second
      refine ⟨entries, last, rfl, Except.ok.inj first, Except.ok.inj second, ?_⟩
      rw [reorders rules.reverse rules.reverse_perm, lintTree, Node.checked_of_intact intact]
      exact whole

end Linter

end ModuleFence
