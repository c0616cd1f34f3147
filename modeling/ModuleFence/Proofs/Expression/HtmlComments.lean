import ModuleFence.Proofs.Expression.Reach
import ModuleFence.Proofs.Tree.Deletion

/-!
What lowering makes of HTML-like comments. They count as meaningful, so that parentheses with such a
comment are not looked through. Whatever is read with the comments in a tree is read without them,
too.
-/

set_option autoImplicit false

namespace ModuleFence.Node

/-- Parentheses with an HTML-like comment stand around a node. -/
def IsVeiled (node : Node) : Prop :=
  node.unwrap.kind = "parenthesized_expression" ∧
    ∃ child ∈ node.unwrap.meaningfulChildren, child.kind = "html_comment"

instance (node : Node) : Decidable node.IsVeiled :=
  inferInstanceAs (Decidable (_ ∧ ∃ child ∈ node.unwrap.meaningfulChildren, _))

theorem sole?_eq_some_iff {nodes : List Node} {node : Node} :
    sole? nodes = some node ↔ nodes = [node] := by
  constructor
  · intro found
    match nodes, found with
    | [_], rfl => rfl
  · rintro rfl
    rfl

theorem meaningfulChildren_of_inner? {node inner : Node} (within : node.inner? = some inner) :
    node.meaningfulChildren = [inner] := by
  unfold inner? at within
  split at within
  · exact sole?_eq_some_iff.mp within
  · cases within

theorem unwrap_of_html_comment {node : Node} (comment : node.kind = "html_comment") :
    node.unwrap = node :=
  unwrap_of_bare (inner?_of_kind (by rw [comment]; decide))

/-- What stands alone in parentheses still does without the HTML-like comments. -/
theorem inner?_without_of_some {node inner : Node} (within : node.inner? = some inner)
    (other : inner.kind ≠ "html_comment") :
    (node.without "html_comment").inner? = some (inner.without "html_comment") := by
  rw [inner?, kind_without, if_pos (parentheses_of_inner? within), meaningfulChildren_without_kind,
    meaningfulChildren_of_inner? within, List.filter_cons_of_pos (by simpa using other)]
  rfl

/-- Parentheses around nothing but an HTML-like comment are empty without it. -/
theorem inner?_without_of_comment {node inner : Node} (within : node.inner? = some inner)
    (comment : inner.kind = "html_comment") : (node.without "html_comment").inner? = none := by
  rw [inner?, kind_without, if_pos (parentheses_of_inner? within), meaningfulChildren_without_kind,
    meaningfulChildren_of_inner? within, List.filter_cons_of_neg (by simpa using comment)]
  rfl

/-- Parentheses without HTML-like comments in them hold as many nodes as before. -/
theorem inner?_without_of_none {node : Node} (bare : node.inner? = none)
    (clear : ∀ child ∈ node.meaningfulChildren, child.kind ≠ "html_comment") :
    (node.without "html_comment").inner? = none := by
  have all : node.meaningfulChildren.filter (fun child => child.kind ≠ "html_comment") =
      node.meaningfulChildren :=
    List.filter_eq_self.mpr fun child member => decide_eq_true (clear child member)
  rw [inner?] at bare
  rw [inner?, kind_without, meaningfulChildren_without_kind, all]
  split
  · rename_i parentheses
    rw [if_pos parentheses] at bare
    cases within : sole? (node.meaningfulChildren.map (without "html_comment")) with
    | none => rfl
    | some inner =>
      obtain ⟨child, single, -⟩ := List.map_eq_singleton_iff.mp (sole?_eq_some_iff.mp within)
      rw [single] at bare
      cases bare
  · rfl

/-- Without its HTML-like comments, a node has within its parentheses what is left of what it has
there with them, unless the parentheses hold such a comment. -/
theorem unwrap_without {node : Node} (clear : ¬ node.IsVeiled) :
    (node.without "html_comment").unwrap = node.unwrap.without "html_comment" ∨
      node.unwrap.kind = "html_comment" ∧
        (node.without "html_comment").unwrap.kind = "parenthesized_expression" := by
  induction node using induction_children with
  | step node ih =>
    cases within : node.inner? with
    | none =>
      left
      rw [IsVeiled, unwrap_of_bare within, not_and] at clear
      rw [unwrap_of_bare within]
      by_cases parentheses : node.kind = "parenthesized_expression"
      · refine unwrap_of_bare (inner?_without_of_none within fun child member comment => ?_)
        exact clear parentheses ⟨child, member, comment⟩
      · exact unwrap_of_bare (inner?_of_kind (by rwa [kind_without]))
    | some inner =>
      rw [IsVeiled, unwrap_of_inner? within] at clear
      rw [unwrap_of_inner? within]
      by_cases comment : inner.kind = "html_comment"
      · right
        rw [unwrap_of_html_comment comment, unwrap_of_bare (inner?_without_of_comment within comment),
          kind_without]
        exact ⟨comment, parentheses_of_inner? within⟩
      · rw [unwrap_of_inner? (inner?_without_of_some within comment)]
        exact ih inner (mem_children_of_inner? within) clear

/-- Within parentheses without HTML-like comments stands the same literal without the comments of the
tree, or no literal in either. -/
theorem unwrap_without_literal {node : Node} (incidental : node.Incidental "html_comment")
    (clear : ¬ node.IsVeiled) :
    (node.without "html_comment").unwrap = node.unwrap ∨
      (node.without "html_comment").unwrap.kind ≠ "string" ∧ node.unwrap.kind ≠ "string" := by
  rcases unwrap_without clear with same | ⟨comment, parentheses⟩
  · rw [same, kind_without]
    by_cases quoted : node.unwrap.kind = "string"
    · have absent := incidental.unquoted node.unwrap (unwrap_mem_preorder node) quoted
      exact .inl (without_of_absent absent)
    · exact .inr ⟨quoted, quoted⟩
  · right
    rw [comment, parentheses]
    decide

section Roles

variable {node : Node} (incidental : node.Incidental "html_comment")

include incidental

theorem pairValue?_without :
    (node.without "html_comment").pairValue? = node.pairValue?.map (without "html_comment") := by
  rw [pairValue?, pairValue?, kind_without, incidental.child?_without]
  split <;> rfl

theorem memberKey?_without :
    (node.without "html_comment").memberKey? = node.memberKey?.map (without "html_comment") := by
  rw [memberKey?, memberKey?, kind_without, incidental.child?_without, incidental.child?_without,
    incidental.child?_without]
  split
  · cases node.child? "value" <;> rfl
  · split <;> rfl

theorem argumentNodes_without :
    (node.without "html_comment").argumentNodes =
      (node.argumentNodes.filter fun argument => argument.kind ≠ "html_comment").map
        (without "html_comment") := by
  rw [argumentNodes, argumentNodes, incidental.child?_without]
  cases node.child? "arguments" with
  | none => rfl
  | some list =>
    simp only [Option.map_some, kind_without]
    split
    · exact meaningfulChildren_without_kind _ _
    · rfl

end Roles

/-- Nothing is read in an HTML-like comment. -/
theorem Reads.not_html_comment {literal node : Node} {depth : Nat}
    (reads : Reads literal depth node) : node.kind ≠ "html_comment" := by
  cases reads with
  | itself _ quoted => rw [quoted]; decide
  | inside within => rw [parentheses_of_inner? within]; decide
  | value _ braced => rw [braced]; decide
  | key _ braced => rw [braced]; decide
  | callee _ called => rw [called]; decide
  | argument _ called => rw [called]; decide

/-- What is left of one of some nodes is one of those that are left, unless it is an HTML-like
comment. -/
theorem without_mem_map {node : Node} {nodes : List Node} (member : node ∈ nodes)
    (other : node.kind ≠ "html_comment") :
    node.without "html_comment" ∈
      (nodes.filter fun node => node.kind ≠ "html_comment").map (without "html_comment") :=
  List.mem_map_of_mem (List.mem_filter.mpr ⟨member, decide_eq_true other⟩)

/-- What is read in a tree is read in what is left of it without the HTML-like comments. -/
theorem Reads.without {literal node : Node} {depth : Nat} (reads : Reads literal depth node)
    (incidental : node.Incidental "html_comment") :
    Reads literal depth (node.without "html_comment") := by
  induction reads with
  | itself shallow quoted =>
    rw [without_of_absent (incidental.unquoted literal (self_mem_preorder literal) quoted)]
    exact .itself shallow quoted
  | inside within reads ih =>
    exact .inside (inner?_without_of_some within reads.not_html_comment)
      (ih (incidental.child (mem_children_of_inner? within)))
  | @value _ node member value shallow braced member_mem paired reads ih =>
    have inside := incidental.child (mem_children_of_meaningful member_mem)
    have other : member.kind ≠ "html_comment" := by
      intro comment
      rw [pairValue?, if_neg (by rw [comment]; decide)] at paired
      cases paired
    have still_mem : member.without "html_comment" ∈
        (node.without "html_comment").meaningfulChildren := by
      rw [meaningfulChildren_without_kind]
      exact without_mem_map member_mem other
    refine .value shallow ((kind_without _ node).trans braced) still_mem ?_
      (ih (inside.child (mem_children_of_pairValue? paired)))
    rw [pairValue?_without inside, paired, Option.map_some]
  | @key _ node member shallow braced member_mem keyed quoted =>
    have inside := incidental.child (mem_children_of_meaningful member_mem)
    have other : member.kind ≠ "html_comment" := by
      intro comment
      rw [memberKey?, if_neg (by rw [comment]; decide), if_neg (by rw [comment]; decide)] at keyed
      cases keyed
    have kept := without_of_absent ((inside.child (mem_children_of_memberKey? keyed)).unquoted literal
      (self_mem_preorder literal) quoted)
    have still_mem : member.without "html_comment" ∈
        (node.without "html_comment").meaningfulChildren := by
      rw [meaningfulChildren_without_kind]
      exact without_mem_map member_mem other
    refine .key shallow ((kind_without _ node).trans braced) still_mem ?_ quoted
    rw [memberKey?_without inside, keyed, Option.map_some, kept]
  | @callee _ node callee shallow called function reads ih =>
    refine .callee shallow ((kind_without _ node).trans called) ?_
      (ih (incidental.child (mem_children_of_child? function)))
    rw [incidental.child?_without, function, Option.map_some]
  | @argument _ node argument shallow called passed reads ih =>
    obtain ⟨list, found, -, part⟩ := mem_argumentNodes_iff.mp passed
    have inside := (incidental.child (mem_children_of_child? found)).child
      (mem_children_of_meaningful part)
    refine .argument shallow ((kind_without _ node).trans called) ?_ (ih inside)
    rw [argumentNodes_without incidental]
    exact without_mem_map passed reads.not_html_comment

/-- A node that can be read without its HTML-like comments can be read with them. -/
theorem legible_of_without {node : Node} (incidental : node.Incidental "html_comment") {depth : Nat}
    (legible : Legible depth (node.without "html_comment")) : Legible depth node :=
  fun literal reads => legible literal (reads.without incidental)

end ModuleFence.Node
