import ModuleFence.Proofs.Lint.Spelling
import ModuleFence.Proofs.Store.Respelling
import ModuleFence.Proofs.Store.Wrapping
import ModuleFence.Proofs.Tree.Damage

set_option autoImplicit false

namespace ModuleFence

namespace Node

variable {first second : Node}

theorem Keeps.visit?_eq (keeps : Keeps first second) : first.visit? = second.visit? := by
  rw [visit?, visit?, keeps.kind_eq]
  by_cases called : first.kind = "call_expression"
  · rw [if_pos called, if_pos called, keeps.lowerCallAt_eq called]
  · rw [if_neg called, if_neg called]
    by_cases caught : first.kind = "catch_clause"
    · rw [if_pos caught, if_pos caught, keeps.lowerCatch_eq caught]
    · rw [if_neg caught, if_neg caught]

/-- What a tree has to show to the rules, in order. -/
def shown (root : Node) : List (Except EscapeError Visit) :=
  root.preorder.filterMap visit?

theorem shown_eq (node : Node) :
    node.shown = node.visit?.toList ++ node.children.flatMap shown := by
  rw [shown, preorder_eq, List.filterMap_cons, List.filterMap_flatMap]
  cases node.visit? <;> rfl

theorem shown_of_children {before after : List Node} {child other : Node}
    (here : first.visit? = second.visit?) (children_eq : first.children = before ++ child :: after)
    (others_eq : second.children = before ++ other :: after) (same : child.shown = other.shown) :
    first.shown = second.shown := by
  rw [shown_eq, shown_eq, here, children_eq, others_eq, List.flatMap_append, List.flatMap_append,
    List.flatMap_cons, List.flatMap_cons, same]

theorem IsFiller.shown_eq {node : Node} (filler : node.IsFiller) : node.shown = [] := by
  refine List.filterMap_eq_nil_iff.mpr fun inner below => ?_
  exact visit?_of_other (filler.quiet inner below).1 (filler.quiet inner below).2

theorem shown_inRole (field : Option String) (node : Node) : (node.inRole field).shown = node.shown := by
  rw [Node.shown_eq, Node.shown_eq]
  rfl

/-- Parentheses show what the operand in them shows. -/
theorem Encloses.shown_eq {operand outer : Node} (encloses : Encloses operand outer) :
    operand.shown = outer.shown := by
  obtain ⟨field, before, after, children, first, last⟩ := encloses.holds
  have quiet {fillers : List Node} (every : ∀ filler ∈ fillers, filler.IsFiller) :
      fillers.flatMap shown = [] :=
    List.flatMap_eq_nil_iff.mpr fun filler member => (every filler member).shown_eq
  have here : outer.visit? = none :=
    visit?_of_other (by rw [encloses.parentheses]; decide) (by rw [encloses.parentheses]; decide)
  rw [outer.shown_eq, here, children, List.flatMap_append, List.flatMap_cons, quiet first,
    quiet last, shown_inRole, List.append_nil]
  rfl

theorem Wraps.shown_eq (wraps : Wraps first second) : first.shown = second.shown := by
  induction wraps with
  | operand place encloses text =>
    exact shown_of_children (Wraps.operand place encloses text).keeps.visit?_eq rfl rfl
      encloses.shown_eq
  | inside compound wraps text ih =>
    exact shown_of_children (Wraps.inside compound wraps text).keeps.visit?_eq rfl rfl ih

/-- The range of the first damage of a tree. -/
def damageSpan? (root : Node) : Option Span :=
  root.firstDamage?.map span

theorem damageSpan?_eq (node : Node) :
    node.damageSpan? =
      if node.isDamage then some node.span
      else if node.label.hasError then node.children.findSome? damageSpan?
      else none := by
  rw [damageSpan?, firstDamage?_eq]
  split
  · rfl
  · split
    · rw [List.map_findSome?]
      rfl
    · rfl

theorem damageSpan?_of_children {before after : List Node} {child other : Node}
    (keeps : Keeps first second) (children_eq : first.children = before ++ child :: after)
    (others_eq : second.children = before ++ other :: after)
    (same : child.damageSpan? = other.damageSpan?) : first.damageSpan? = second.damageSpan? := by
  rw [damageSpan?_eq, damageSpan?_eq, isDamage_of_retexted keeps.label_eq,
    hasError_of_retexted keeps.label_eq, keeps.span_eq, children_eq, others_eq,
    List.findSome?_append, List.findSome?_append, List.findSome?_cons, List.findSome?_cons, same]

theorem IsFiller.damageSpan?_eq {node : Node} (filler : node.IsFiller) : node.damageSpan? = none := by
  rw [Node.damageSpan?_eq, filler.whole, filler.unflagged]
  rfl

theorem damageSpan?_inRole (field : Option String) (node : Node) :
    (node.inRole field).damageSpan? = node.damageSpan? := by
  rw [damageSpan?_eq, damageSpan?_eq]
  rfl

/-- The damage in parentheses is the damage of the operand in them. -/
theorem Encloses.damageSpan?_eq {operand outer : Node} (encloses : Encloses operand outer) :
    operand.damageSpan? = outer.damageSpan? := by
  obtain ⟨field, before, after, children, first, last⟩ := encloses.holds
  have none_ {fillers : List Node} (every : ∀ filler ∈ fillers, filler.IsFiller) :
      fillers.findSome? damageSpan? = none :=
    List.findSome?_eq_none_iff.mpr fun filler member => (every filler member).damageSpan?_eq
  have whole : outer.isDamage = false := by
    rw [isDamage, encloses.parentheses, encloses.present]
    decide
  have within : outer.children.findSome? damageSpan? = operand.damageSpan? := by
    rw [children, List.findSome?_append, List.findSome?_cons, none_ first, none_ last,
      damageSpan?_inRole, Option.none_or]
    cases operand.damageSpan? <;> rfl
  rw [outer.damageSpan?_eq, whole, encloses.hasError_eq, within, operand.damageSpan?_eq]
  cases operand.isDamage <;> cases operand.label.hasError <;> rfl

theorem Wraps.damageSpan?_eq (wraps : Wraps first second) :
    first.damageSpan? = second.damageSpan? := by
  induction wraps with
  | operand place encloses text =>
    exact damageSpan?_of_children (Wraps.operand place encloses text).keeps rfl rfl
      encloses.damageSpan?_eq
  | inside compound wraps text ih =>
    exact damageSpan?_of_children (Wraps.inside compound wraps text).keeps rfl rfl ih

theorem checked_of_flagged {root : Node} (flagged : root.label.hasError = true)
    (path : Option Text) :
    root.checked path = .error ⟨path, root.damageSpan?.map Span.startLine,
      root.damageSpan?.map Span.startColumn⟩ := by
  rw [checked, flagged, damageSpan?]
  cases root.firstDamage? <;> rfl

end Node

namespace Linter

/-- A tree with further parentheses is linted as the tree without them, places included. -/
theorem lintTree_of_wraps {root other : Node} (wraps : Node.Wraps root other) (files : FileSystem)
    (path : Option Path) (linter : Linter) :
    lintTree files path root linter = lintTree files path other linter := by
  have flag := Node.hasError_of_retexted wraps.keeps.label_eq
  rw [lintTree, lintTree]
  cases flagged : root.label.hasError with
  | true =>
    rw [Node.checked_of_flagged flagged, Node.checked_of_flagged (flag.trans flagged),
      wraps.damageSpan?_eq]
  | false =>
    rw [Node.checked_of_intact flagged, Node.checked_of_intact (flag.trans flagged)]
    simp only [walk, Node.walk_eq_preorder, visitNodes_eq_showAll]
    exact congrArg (fun shown => showAll files path shown linter) wraps.shown_eq

/-- A tree is linted alike, and a program exports the same names, with further parentheses in it. -/
theorem transparent_of_wrapped {root other : Node} (wrapped : Node.Wrapped root other) :
    (∀ files path linter, lintTree files path root linter = lintTree files path other linter) ∧
      other.kind = root.kind ∧ other.label.hasError = root.label.hasError ∧
      (root.kind = "program" → Store.moduleNames root = Store.moduleNames other) := by
  -- The kind and the flag of the root come along, as the next pair of parentheses asks for them.
  induction wrapped with
  | refl => exact ⟨fun _ _ _ => rfl, rfl, rfl, fun _ => rfl⟩
  | tail _ wraps ih =>
    obtain ⟨lints, kind_eq, flag_eq, names⟩ := ih
    refine ⟨fun files path linter => ?_, wraps.keeps.kind_eq.trans kind_eq,
      (Node.hasError_of_retexted wraps.keeps.label_eq).trans flag_eq, fun program => ?_⟩
    · exact (lints files path linter).trans (lintTree_of_wraps wraps files path linter)
    · exact (names program).trans (Store.moduleNames_of_wraps wraps (kind_eq.trans program))

/-- Parentheses are transparent. A node is lowered at every depth as it is within any layers of
parentheses that hold one meaningful node each; from the first layer on that holds none or several, only
this layer is left of it. So a program with further parentheses around callees, arguments, values of
properties, exported values and initial values gets the same diagnostics and exports the same names;
where the parentheses move what stands behind them, it gets the same diagnostics but for their
places. -/
theorem parentheses_transparent :
    (∀ outer layers core, Node.Tower outer layers core →
      ((∀ layer ∈ layers, layer.meaningfulChildren.length = 1) →
        outer.unwrap = core.unwrap ∧
          ∀ depth, Node.lowerAt depth outer = Node.lowerAt depth core) ∧
      ∀ before stuck behind, layers ++ [core] = before ++ stuck :: behind →
        (∀ layer ∈ before, layer.meaningfulChildren.length = 1) →
        stuck.kind = "parenthesized_expression" → stuck.meaningfulChildren.length ≠ 1 →
        ∀ depth,
          Node.lowerAt depth outer = .ok (.other "parenthesized_expression" stuck.span)) ∧
    (∀ root other, Node.Wrapped root other →
      (∀ files path linter, lintTree files path root linter = lintTree files path other linter) ∧
      (root.kind = "program" → Store.moduleNames root = Store.moduleNames other)) ∧
    ∀ root wrapped other, Node.Wrapped root wrapped →
      Node.Respelled Node.SameValue wrapped other →
      (root.label.hasError = false → other.label.hasError = false → ∀ files path linter,
        (lintTree files path root linter).Alike (lintTree files path other linter)) ∧
      (root.kind = "program" → Store.moduleNames root = Store.moduleNames other) := by
  refine ⟨fun outer layers core tower => ⟨fun single => ?_, ?_⟩, fun root other wrapped => ?_, ?_⟩
  · exact ⟨tower.unwrap_eq single, tower.lowerAt_eq single⟩
  · exact fun before stuck behind split single parentheses crowded =>
      tower.lowerAt_of_stuck split single parentheses crowded
  · obtain ⟨lints, -, -, names⟩ := transparent_of_wrapped wrapped
    exact ⟨lints, names⟩
  · intro root wrapped other further respelled
    obtain ⟨lints, kind_eq, flag_eq, names⟩ := transparent_of_wrapped further
    refine ⟨fun intact also files path linter => ?_, fun program => ?_⟩
    · rw [lints files path linter]
      exact lintTree_respelled files path respelled linter (flag_eq.trans intact) also
    · exact (names program).trans
        (Store.moduleNames_of_respelled respelled (kind_eq.trans program))

theorem wraps_getterOf {argument : Node} (meaningful : argument.isMeaningful = true) :
    Node.Wraps (getterOf argument) (getterOf argument.parenthesized) := by
  have list : Node.Wraps (.mk { kind := "arguments", field := some "arguments" } ([] ++ [argument]))
      (.mk { kind := "arguments", field := some "arguments" } ([] ++ [argument.parenthesized])) :=
    .operand (.inr (.inl rfl)) (Node.encloses_parenthesized meaningful) ""
  let callee : Node :=
    .mk { kind := "identifier", text := "mapGetters", field := some "function" } []
  exact @Node.Wraps.inside { kind := "call_expression" } [callee] [] _ _ (by decide) list ""

theorem respelled_inRole {first second : Node} (field : Option String)
    (respelled : Node.Respelled Node.SameValue first second) :
    Node.Respelled Node.SameValue (first.inRole field) (second.inRole field) := by
  cases respelled with
  | literal part quoted plain also related =>
    exact .literal ⟨part.kind_eq, part.isNamed_eq, rfl⟩ quoted plain also related
  | other part unquoted text_eq bodied children =>
    exact .other ⟨part.kind_eq, part.isNamed_eq, rfl⟩ unquoted text_eq bodied children

theorem respelled_parenthesized {first second : Node}
    (respelled : Node.Respelled Node.SameValue first second) :
    Node.Respelled Node.SameValue first.parenthesized second.parenthesized := by
  have mark {label : Label} (unquoted : label.kind ≠ "string") (caught : label.kind ≠ "catch_clause") :
      Node.Respelled Node.SameValue (.mk label []) (.mk label []) :=
    .other ⟨rfl, rfl, rfl⟩ unquoted (fun _ => rfl) (fun same => absurd same caught) .nil
  have kind : "parenthesized_expression" ≠ "string" ∧ "parenthesized_expression" ≠ "catch_clause" := by
    decide
  refine .other ⟨rfl, rfl, respelled.part.field_eq⟩ kind.1 (fun _ => rfl)
    (fun caught => absurd caught kind.2) ?_
  exact .cons (mark (by decide) (by decide)) (.cons (respelled_inRole none respelled)
    (.cons (mark (by decide) (by decide)) (.cons (mark (by decide) (by decide)) .nil)))

/-- Two layers around the argument of a getter and one around an exported object change nothing, also
where the literal stands in another place; an empty pair of parentheses is all that is left of what
stands around it. -/
theorem parentheses_transparent_of_layers :
    let literal := literalOf [fragment "a"]
    let moved : Node := .mk { kind := "string", start := ⟨0, 2, 2⟩ } [fragment "a"]
    let call := getterOf literal.parenthesized.parenthesized
    let hollow : Node := .mk { kind := "parenthesized_expression", start := ⟨0, 1, 1⟩ } []
    let object : Node := .mk { kind := "object", field := some "value" }
      [.mk { kind := "shorthand_property_identifier", text := "a" } []]
    let program (value : Node) : Node :=
      .mk { kind := "program" } [.mk { kind := "export_statement" } [value]]
    Node.lowerAt 3 literal.parenthesized.parenthesized = Node.lowerAt 3 literal ∧
      Node.lowerAt 3 hollow.parenthesized =
        .ok (.other "parenthesized_expression" ⟨1, 2, 1, 1, 1, 0⟩) ∧
      (lintTree (.empty []) none call (linterAgainst "a")).result.map List.length = .ok 1 ∧
      (lintTree (.empty []) none (getterOf literal) (linterAgainst "a")).Alike
        (lintTree (.empty []) none (getterOf moved.parenthesized.parenthesized)
          (linterAgainst "a")) ∧
      Store.moduleNames (program object.parenthesized) = .ok ["a"] := by
  intro literal moved call hollow object program
  obtain ⟨towers, wraps, moves⟩ := parentheses_transparent
  have layers : Node.Tower literal.parenthesized.parenthesized
      [literal.parenthesized.parenthesized, literal.parenthesized.inRole none] literal :=
    .layer rfl (.head _) (.layer rfl (.head _) (.bare _))
  have around : Node.Tower hollow.parenthesized [hollow.parenthesized] hollow :=
    .layer rfl (.head _) (.bare _)
  have further : Node.Wrapped (getterOf literal) call :=
    (Relation.ReflTransGen.single (wraps_getterOf rfl)).tail (wraps_getterOf rfl)
  have respelled : Node.Respelled Node.SameValue literal moved :=
    .literal ⟨rfl, rfl, rfl⟩ rfl (by decide +kernel) (by decide +kernel) rfl
  have exported : Node.Wraps (program object) (program object.parenthesized) := by
    have statement : Node.Wraps (.mk { kind := "export_statement" } ([] ++ [object]))
        (.mk { kind := "export_statement" } ([] ++ [object.parenthesized])) :=
      .operand (.inr (.inr (by decide))) (Node.encloses_parenthesized rfl) ""
    exact @Node.Wraps.inside { kind := "program" } [] [] _ _ (by decide) statement ""
  refine ⟨((towers _ _ _ layers).1 ?_).2 3, ?_, ?_, ?_, ?_⟩
  · rw [List.forall_mem_cons, List.forall_mem_singleton]
    exact ⟨rfl, rfl⟩
  · refine (towers _ _ _ around).2 [hollow.parenthesized] hollow [] rfl ?_ rfl (by decide) 3
    rw [List.forall_mem_singleton]
    rfl
  · rw [← (wraps _ _ further).1]
    decide +kernel
  · refine (moves _ _ _ further (respelled_getterOf ?_)).1 rfl rfl _ _ _
    exact respelled_parenthesized (respelled_parenthesized respelled)
  · rw [← (wraps _ _ (.single exported)).2 rfl]
    decide +kernel

end Linter

end ModuleFence
