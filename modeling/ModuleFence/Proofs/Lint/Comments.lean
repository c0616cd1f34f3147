import ModuleFence.Proofs.Expression.Comments
import ModuleFence.Proofs.Lint.Dispatch
import ModuleFence.Proofs.Store.Exports

set_option autoImplicit false

namespace ModuleFence

namespace Node

theorem visit?_without {node : Node} (incidental : node.Incidental "comment") :
    (node.without "comment").visit? = node.visit? := by
  rw [visit?, visit?, kind_without, lowerCallAt_without 0 incidental, lowerCatch_without incidental]

theorem visit?_of_comment {node : Node} (comments : node.kind = "comment") : node.visit? = none := by
  rw [visit?, if_neg (by rw [comments]; decide), if_neg (by rw [comments]; decide)]

/-- What is shown of a tree is the same without the comments in it. -/
theorem filterMap_visit?_without {root : Node} (incidental : root.Incidental "comment") :
    (root.without "comment").preorder.filterMap visit? = root.preorder.filterMap visit? := by
  have below : ((root.without "comment").children.flatMap preorder).filterMap visit? =
      (root.children.flatMap preorder).filterMap visit? :=
    filterMap_below_without (fun _ comments => visit?_of_comment comments) incidental
      fun _ inside _ => visit?_without (incidental.below inside)
  rw [preorder_eq, preorder_eq, List.filterMap_cons, List.filterMap_cons, below,
    visit?_without incidental]

theorem visitorCalls_without {root : Node} (incidental : root.Incidental "comment") (count : Nat) :
    (root.without "comment").visitorCalls count = root.visitorCalls count := by
  rw [visitorCalls_eq_flatMap, visitorCalls_eq_flatMap, filterMap_visit?_without incidental]

end Node

namespace Store

theorem filter_namedChildren_without {kind : String} (other : kind ≠ "comment") (node : Node) :
    (node.without "comment").namedChildren.filter (fun child => child.kind = kind) =
      (node.namedChildren.filter fun child => child.kind = kind).map (Node.without "comment") := by
  rw [Node.namedChildren, Node.namedChildren, List.filter_filter, List.filter_filter]
  refine Node.filter_without (fun child => ?_) (fun child selected => ?_) node
  · rw [Node.kind_without, Node.label_without]
  · rw [Bool.and_eq_true, decide_eq_true_eq] at selected
    rw [selected.1]
    exact other

theorem initialValue?_without {declaration : Node} (incidental : declaration.Incidental "comment") :
    initialValue? (declaration.without "comment") =
      (initialValue? declaration).map (Node.without "comment") := by
  rw [initialValue?, initialValue?, isVariableDeclaration, isVariableDeclaration,
    Node.kind_without, filter_namedChildren_without (by decide)]
  split
  · cases declared : declaration.namedChildren.filter
        (fun child => child.kind = "variable_declarator") with
    | nil => rfl
    | cons declarator others =>
      cases others with
      | cons second others => rfl
      | nil =>
        have inside := incidental.child (mem_children_of_single declared)
        simp only [List.map_cons, List.map_nil, inside.child?_without]
        cases declarator.child? "name" with
        | none => rfl
        | some name =>
          simp only [Option.map_some, Node.kind_without]
          split <;> rfl
  · rfl

theorem exportedValue?_without {statement : Node} (incidental : statement.Incidental "comment") :
    exportedValue? (statement.without "comment") =
      (exportedValue? statement).map (Node.without "comment") := by
  rw [exportedValue?, exportedValue?, incidental.child?_without, incidental.child?_without]
  cases statement.child? "value" with
  | some value => rfl
  | none =>
    cases found : statement.child? "declaration" with
    | none => rfl
    | some declaration =>
      exact initialValue?_without (incidental.child (Node.mem_children_of_child? found))

/-- The comments of a program do not matter for its module names. -/
theorem moduleNames_without {root : Node} (incidental : root.Incidental "comment") :
    moduleNames (root.without "comment") = moduleNames root := by
  rw [moduleNames_eq, moduleNames_eq, exportStatements, exportStatements,
    filter_namedChildren_without (by decide), mapM_map_congr]
  intro statement exports
  have member : statement ∈ root.children :=
    (List.mem_filter.mp (List.mem_filter.mp exports).1).1
  have inside := incidental.child member
  rw [statementKeys, statementKeys, exportedValue?_without inside]
  cases exported : exportedValue? statement with
  | none => rfl
  | some value =>
    simp only [Option.map_some, Node.lower,
      Node.lowerAt_without 0 (inside.below (mem_preorder_of_exportedValue? exported))]

end Store

namespace Linter

/-- The comments of a tree do not matter to what rules do with it. -/
theorem walk_without {root : Node} (incidental : root.Incidental "comment") (files : FileSystem)
    (path : Option Path) (linter : Linter) :
    walk files path (root.without "comment") linter = walk files path root linter := by
  rw [walk_eq_answerOf, walk_eq_answerOf, Visitors.dispatch_root, Visitors.dispatch_root,
    Node.visitorCalls_without incidental]

theorem lintTree_without {root : Node} (incidental : root.Incidental "comment")
    (intact : root.label.hasError = false) (files : FileSystem) (path : Option Path)
    (linter : Linter) :
    lintTree files path (root.without "comment") linter = lintTree files path root linter := by
  have still : (root.without "comment").label.hasError = false := by
    rw [Node.label_without, intact]
  simp only [lintTree, Node.checked, intact, still]
  exact walk_without incidental files path linter

/-- Comments that are leaves without a role, and stand in no string literal, are transparent. A tree
without them holds all its other nodes, shows the same to any visitors, gets the same diagnostics
from any rules, whatever their deny-lists, and exports the same module names. -/
theorem comments_transparent (root : Node) (incidental : root.Incidental "comment") :
    let bare := root.without "comment"
    (bare.children.flatMap Node.preorder).map Node.label =
      ((root.children.flatMap Node.preorder).filter fun node => node.kind ≠ "comment").map
        Node.label ∧
    bare.walk.filterMap Node.visit? = root.walk.filterMap Node.visit? ∧
    (∀ (σ : Type) (visitors : Visitors σ) (count : Nat) (state : σ),
      visitors.dispatch count [bare] state = visitors.dispatch count [root] state) ∧
    (∀ files path linter,
      walk files path bare linter = walk files path root linter ∧
      (root.label.hasError = false →
        lintTree files path bare linter = lintTree files path root linter)) ∧
    Store.moduleNames bare = Store.moduleNames root := by
  intro bare
  refine ⟨Node.labels_without incidental, ?_, fun σ visitors count state => ?_,
    fun files path linter => ⟨walk_without incidental files path linter, fun intact =>
      lintTree_without incidental intact files path linter⟩, Store.moduleNames_without incidental⟩
  · rw [Node.walk_eq_preorder, Node.walk_eq_preorder, Node.filterMap_visit?_without incidental]
  · rw [Visitors.dispatch_root, Visitors.dispatch_root, Node.visitorCalls_without incidental]

/-- Comments in a list of arguments, in an object, and in the body of a catch clause. -/
theorem comments_transparent_of_three :
    let source := "mapGetters(/* 1 */ 'a'); try \x7b\x7d catch (e) \x7b /* 2 */ \x7d" ++
      "export default \x7b /* 3 */ a: 1 \x7d;"
    let root := Script.parse source.toList
    let linter : Linter := ⟨[.emptyCatch, .someModule (.sharing ⟨none, ["a"]⟩)], ⟨{}, []⟩⟩
    root.Incidental "comment" ∧ (root.preorder.filter (·.kind = "comment")).length = 3 ∧
      (lintTree (.empty []) none (root.without "comment") linter).result.map List.length = .ok 2 ∧
      Store.moduleNames (root.without "comment") = .ok [Text.ofString "a"] := by
  intro source root linter
  have evaluated : root.Incidental "comment" ∧
      (root.preorder.filter (·.kind = "comment")).length = 3 ∧ root.label.hasError = false ∧
      (lintTree (.empty []) none root linter).result.map List.length = .ok 2 ∧
      Store.moduleNames root = .ok [Text.ofString "a"] := by
    decide +kernel
  obtain ⟨incidental, count, intact, findings, names⟩ := evaluated
  obtain ⟨-, -, -, lints, collects⟩ := comments_transparent root incidental
  refine ⟨incidental, count, ?_, collects.trans names⟩
  rw [(lints (.empty []) none linter).2 intact]
  exact findings

end Linter

end ModuleFence
