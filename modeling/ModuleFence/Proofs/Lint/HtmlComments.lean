import ModuleFence.Proofs.Expression.Comments
import ModuleFence.Proofs.Lint.DocumentOrder
import ModuleFence.Proofs.Rule.HtmlComments

/-!
HTML-like comments are not transparent. The diagnostics of a tree with such comments are among those
of the tree without them; which ones are missing can be told from where the comments stand.
-/

set_option autoImplicit false

namespace ModuleFence

open ModuleRule (Consultation consulted denied)

namespace Node

/-- HTML-like comments hide a finding on a node. -/
def HidesFinding (names : List Text) (node : Node) : Prop :=
  node.kind = "call_expression" ∧ node.HidesMisuse names ∨
    node.kind = "catch_clause" ∧ node.HidesEmptiness

instance (names : List Text) (node : Node) : Decidable (node.HidesFinding names) :=
  inferInstanceAs (Decidable (_ ∧ _ ∨ _ ∧ _))

variable {path : Option Path} {names : List Text} {node : Node}
  (incidental : node.Incidental "html_comment")

include incidental

theorem misuses_without :
    (node.misuses path names).Sublist ((node.without "html_comment").misuses path names) ∧
      (node.misuses path names = (node.without "html_comment").misuses path names ↔
        ¬ node.HidesMisuse names) := by
  obtain ⟨below, same_iff⟩ := forbiddenMentions_without incidental names
  have misuses_eq (call : Node) :
      call.misuses path names = (call.forbiddenMentions names).map (Mention.misuse path) := rfl
  rw [misuses_eq, misuses_eq, ← same_iff]
  refine ⟨below.map _, fun same => ?_, fun same => by rw [same]⟩
  have lengths := congrArg List.length same
  rw [List.length_map, List.length_map] at lengths
  exact below.eq_of_length lengths

/-- A catch clause is reported with HTML-like comments only if it is without them, and in that case
unless it holds such comments. -/
theorem emptyFindings_without :
    (EmptyCatch.findings path node.lowerCatch).Sublist
        (EmptyCatch.findings path (node.without "html_comment").lowerCatch) ∧
      (EmptyCatch.findings path node.lowerCatch =
          EmptyCatch.findings path (node.without "html_comment").lowerCatch ↔
        ¬ node.HidesEmptiness) := by
  rw [EmptyCatch.findings, EmptyCatch.findings, lowerCatch, lowerCatch, incidental.child?_without,
    HidesEmptiness]
  cases found : node.child? "body" with
  | none =>
    simp only [Option.map_none, span_without]
    refine ⟨List.Sublist.refl _, iff_of_true trivial ?_⟩
    rintro ⟨_, impossible, -⟩
    cases impossible
  | some body =>
    simp only [Option.map_some, span_without, meaningfulChildren_without_kind, List.length_map,
      CatchClause.isEmpty, beq_iff_eq, List.length_eq_zero_iff, Option.mem_some_iff, exists_eq_left']
    by_cases empty : body.meaningfulChildren = []
    · simp [empty]
    · simp [empty, List.filter_eq_nil_iff]

theorem reports_without :
    (node.reports path names).Sublist ((node.without "html_comment").reports path names) ∧
      (node.reports path names = (node.without "html_comment").reports path names ↔
        ¬ node.HidesFinding names) := by
  have kind_eq := kind_without "html_comment" node
  rw [HidesFinding]
  by_cases called : node.kind = "call_expression"
  · have notCaught : node.kind ≠ "catch_clause" := by
      rw [called]
      decide
    rw [reports_of_call called, reports_of_call (kind_eq.trans called), and_iff_right called,
      or_iff_left fun caught => notCaught caught.1]
    exact misuses_without incidental
  · rw [or_iff_right fun misuse => called misuse.1]
    by_cases caught : node.kind = "catch_clause"
    · rw [reports_of_catch caught, reports_of_catch (kind_eq.trans caught), and_iff_right caught]
      exact emptyFindings_without incidental
    · rw [reports_of_other caught called, reports_of_other (by rwa [kind_eq]) (by rwa [kind_eq])]
      exact ⟨List.Sublist.refl _, iff_of_true rfl fun empty => caught empty.1⟩

/-- What is reported on a tree with HTML-like comments is reported without them, and nothing else is
exactly when the comments hide nothing. -/
theorem flatMap_reports_without :
    (node.preorder.flatMap (reports path names)).Sublist
        ((node.without "html_comment").preorder.flatMap (reports path names)) ∧
      (node.preorder.flatMap (reports path names) =
          (node.without "html_comment").preorder.flatMap (reports path names) ↔
        ∀ inner ∈ node.preorder, ¬ inner.HidesFinding names) := by
  have silent (comment : Node) (same : comment.kind = "html_comment") :
      comment.reports path names = [] :=
    reports_of_other (by rw [same]; decide) (by rw [same]; decide)
  have each (inner : Node) (inside : inner ∈ node.preorder) :
      (inner.reports path names).Sublist ((inner.without "html_comment").reports path names) ∧
        (inner.reports path names = (inner.without "html_comment").reports path names ↔
          ¬ inner.HidesFinding names) :=
    reports_without (incidental.below inside)
  rw [flatMap_preorder_without silent incidental]
  refine ⟨List.Sublist.flatMap_right _ fun inner inside => (each inner inside).1, ?_⟩
  rw [flatMap_eq_iff_of_sublist fun inner inside => (each inner inside).1]
  exact forall₂_congr fun inner inside => (each inner inside).2

/-- The calls of a tree can be read if they can without its HTML-like comments. -/
theorem callsLegible_of_without (legible : (node.without "html_comment").CallsLegible) :
    node.CallsLegible := by
  intro call member
  obtain ⟨inside, called⟩ := mem_calls_iff.mp member
  have still : call.without "html_comment" ∈ (node.without "html_comment").calls := by
    refine mem_calls_iff.mpr ⟨?_, (kind_without _ call).trans called⟩
    rw [preorder_eq] at inside ⊢
    rcases List.mem_cons.mp inside with rfl | below
    · exact List.mem_cons_self
    · refine List.mem_cons_of_mem _ ((mem_below_without_iff incidental).mpr ⟨call, below, ?_, rfl⟩)
      rw [called]
      decide
  exact legible_of_without (incidental.below inside) (legible _ still)

end Node

/-- Once the deny-list is known, a part of a run finds what it makes it find, and it stays known. -/
theorem ModuleRule.Consultation.of_known {files : FileSystem} {options : ModuleOptions} {asks : Prop}
    {findings : List Text → List Diagnostic} {before after : Resolver}
    {result : Except Failure (List Diagnostic)} {names : List Text}
    (known : denied files options before = .ok names)
    (consultation : Consultation files options asks findings before after result) :
    result = .ok (findings names) ∧ denied files options after = .ok names := by
  by_cases asked : asks
  · obtain ⟨rfl, found⟩ := consultation.asked asked
    rw [ModuleRule.denied_consulted, found, known]
    exact ⟨rfl, rfl⟩
  · obtain ⟨rfl, found⟩ := consultation.idle asked
    exact ⟨found names, known⟩

namespace Linter

variable {options : ModuleOptions} {ids : List RuleId} {linter : Linter} {files : FileSystem}
  {names : List Text}

/-- A call that cannot be read ends a run with its error, once the deny-list is known. -/
theorem Coherent.visitNodes_of_illegible (coherent : linter.Coherent options ids)
    (known : denied files options linter.shared.resolver = .ok names) (path : Option Path)
    {nodes : List Node} {call : Node} (member : call ∈ nodes)
    (called : call.kind = "call_expression") (illegible : ¬ call.Legible 0) :
    (Linter.visitNodes files path nodes linter).result = .error (.escape .numberTooLarge) := by
  induction nodes generalizing linter with
  | nil => exact absurd member List.not_mem_nil
  | cons node rest ih =>
    rw [Linter.visitNodes]
    by_cases legible : node.kind = "call_expression" → node.Legible 0
    · have behind : call ∈ rest := by
        rcases List.mem_cons.mp member with rfl | later
        · exact absurd (legible called) illegible
        · exact later
      rcases Node.visit?_of_legible legible with unvisited | ⟨visit, visited⟩
      · rw [unvisited]
        exact ih coherent known behind
      · obtain ⟨shown, after, ids_eq⟩ := Rule.coherent_visitAll coherent.rules files path visit
        obtain ⟨result_eq, still⟩ := shown.of_known known
        have remains : Coherent options ids
            ⟨(Rule.visitAll files path visit linter.rules linter.shared).rules,
              (Rule.visitAll files path visit linter.rules linter.shared).shared⟩ :=
          ⟨ids_eq.trans coherent.ids_eq, after⟩
        have later := ih remains still behind
        rw [visited]
        simp only [result_eq, later]
        rfl
    · obtain ⟨nodeCalled, nodeIllegible⟩ := Classical.not_imp.mp legible
      rw [Node.visit?_of_illegible nodeCalled nodeIllegible]

/-- Once the deny-list is known, a tree without damage gets what both rules report on its nodes, or
the error of a call that cannot be read. -/
theorem Coherent.lintTree_of_known (coherent : linter.Coherent options ids)
    (both : ids.Perm [.emptyCatch, .someModule])
    (known : denied files options linter.shared.resolver = .ok names) (path : Option Path)
    {root : Node} (intact : root.label.hasError = false) :
    (root.CallsLegible → (Linter.lintTree files path root linter).result =
        .ok (root.preorder.flatMap (Node.reports path names))) ∧
      (¬ root.CallsLegible →
        (Linter.lintTree files path root linter).result = .error (.escape .numberTooLarge)) := by
  constructor
  · intro legible
    obtain ⟨consultation, -⟩ := coherent.lintTree files path fun _ => legible
    rw [(consultation.of_known known).1, Node.diagnosticsOf, Node.checked_of_intact intact]
    simp only [Node.findings, Node.flatMap_findingsOf_eq_reports both]
  · intro illegible
    rw [Node.CallsLegible] at illegible
    push Not at illegible
    obtain ⟨call, member, unread⟩ := illegible
    obtain ⟨inside, called⟩ := Node.mem_calls_iff.mp member
    rw [Linter.lintTree, Node.checked_of_intact intact]
    refine coherent.visitNodes_of_illegible known path ?_ called unread
    rwa [Node.walk_eq_preorder]

/-- Deleting the HTML-like comments of a tree, as leaves without a role that stand in no string
literal, takes no diagnostics away. It adds none exactly when the comments hide nothing: no catch
clause holds such comments and nothing else, and no call for a forbidden module has one before its
first argument, or in parentheses around that, around its callee or around the value that names the
module. -/
theorem lintTree_without_html_comments (coherent : linter.Coherent options ids)
    (both : ids.Perm [.emptyCatch, .someModule])
    (known : denied files options linter.shared.resolver = .ok names) (path : Option Path)
    (root : Node) (intact : root.label.hasError = false)
    (incidental : root.Incidental "html_comment") :
    let bare := root.without "html_comment"
    (∀ diagnostics, (lintTree files path bare linter).result = .ok diagnostics →
      ∃ kept, (lintTree files path root linter).result = .ok kept ∧ kept.Sublist diagnostics) ∧
    ((lintTree files path bare linter).result = (lintTree files path root linter).result ↔
      (root.CallsLegible →
        bare.CallsLegible ∧ ∀ node ∈ root.preorder, ¬ node.HidesFinding names)) := by
  intro bare
  have still : bare.label.hasError = false := by
    rw [Node.label_without, intact]
  obtain ⟨found, failed⟩ := coherent.lintTree_of_known both known path intact
  obtain ⟨bareFound, bareFailed⟩ := coherent.lintTree_of_known both known path still
  obtain ⟨below, same_iff⟩ :
      (root.preorder.flatMap (Node.reports path names)).Sublist
          (bare.preorder.flatMap (Node.reports path names)) ∧ _ :=
    Node.flatMap_reports_without incidental
  by_cases legible : bare.CallsLegible
  · have also := Node.callsLegible_of_without incidental legible
    rw [bareFound legible, found also]
    refine ⟨?_, ?_⟩
    · rintro _ ⟨⟩
      exact ⟨_, rfl, below⟩
    · rw [Except.ok.injEq, eq_comm, same_iff]
      simp only [also, legible, true_and, forall_const]
  · rw [bareFailed legible]
    refine ⟨?_, ?_⟩
    · rintro _ ⟨⟩
    · by_cases also : root.CallsLegible
      · rw [found also]
        refine iff_of_false ?_ fun hides => legible (hides also).1
        rintro ⟨⟩
      · rw [failed also]
        exact iff_of_true rfl fun readable => absurd readable also

/-- A comment behind the first argument hides nothing. -/
theorem lintTree_without_html_comments_of_later_comment :
    let source := "mapGetters('x', <!-- behind\n y); try \x7b \x7d catch (e) \x7b \x7d"
    let root := Script.parse source.toList
    root.Incidental "html_comment" ∧
      (root.preorder.filter (·.kind = "html_comment")).length = 1 ∧
      (lintTree (.empty []) none (root.without "html_comment") ⟨bothRules, ⟨{}, []⟩⟩).result =
        (lintTree (.empty []) none root ⟨bothRules, ⟨{}, []⟩⟩).result ∧
      (lintTree (.empty []) none root ⟨bothRules, ⟨{}, []⟩⟩).result.map List.length = .ok 2 := by
  intro source root
  have made : Rule.create { forbiddenModules := ["x"] } none = (.ok bothRules, []) := rfl
  obtain ⟨incidental, count, intact, legible, hidesNothing, length⟩ :
      root.Incidental "html_comment" ∧
        (root.preorder.filter (·.kind = "html_comment")).length = 1 ∧
        root.label.hasError = false ∧ (root.without "html_comment").CallsLegible ∧
        (∀ node ∈ root.preorder, ¬ node.HidesFinding ["x"]) ∧
        (lintTree (.empty []) none root ⟨bothRules, ⟨{}, []⟩⟩).result.map List.length = .ok 2 := by
    decide +kernel
  have coherent := coherent_of_fresh (Rule.fresh_of_create made) ⟨{}, []⟩
  obtain ⟨-, same_iff⟩ := lintTree_without_html_comments coherent (List.Perm.refl _) rfl none root
    intact incidental
  exact ⟨incidental, count, same_iff.mpr fun _ => ⟨legible, hidesNothing⟩, length⟩

/-- An HTML-like comment keeps a catch clause from being reported, and one before the first argument
keeps a getter from being reported. -/
theorem lintTree_of_hiding_html_comment :
    let clause := Script.parse "try \x7b f(); \x7d catch (e) \x7b\n<!-- ignored\n\x7d".toList
    let getter := Script.parse "mapGetters( <!-- first\n 'x');".toList
    clause.Incidental "html_comment" ∧ getter.Incidental "html_comment" ∧
      (lintTree (.empty []) none clause ⟨bothRules, ⟨{}, []⟩⟩).result = .ok [] ∧
      (lintTree (.empty []) none (clause.without "html_comment") ⟨bothRules, ⟨{}, []⟩⟩).result.map
        List.length = .ok 1 ∧
      (lintTree (.empty []) none getter ⟨bothRules, ⟨{}, []⟩⟩).result = .ok [] ∧
      (lintTree (.empty []) none (getter.without "html_comment") ⟨bothRules, ⟨{}, []⟩⟩).result.map
        List.length = .ok 1 := by
  decide +kernel

end Linter

end ModuleFence
