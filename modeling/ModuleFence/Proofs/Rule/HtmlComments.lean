import Mathlib.Data.List.Flatten
import ModuleFence.Proofs.Expression.HtmlComments
import ModuleFence.Proofs.Rule.Shape

/-!
What HTML-like comments hide from the rules. A call whose callee or first argument stands in
parentheses with such a comment, or that passes one first, mentions nothing; an object for actions
loses the members whose values stand in such parentheses; a block that holds one is not empty.
Whatever a call mentions with the comments in it, it mentions without them, too.
-/

set_option autoImplicit false

namespace ModuleFence

/-- What is collected from the elements of a list, each time at most as much, is the same exactly
when it is the same for each element. -/
theorem flatMap_eq_iff_of_sublist {α β : Type} {list : List α} {less more : α → List β}
    (below : ∀ element ∈ list, (less element).Sublist (more element)) :
    list.flatMap less = list.flatMap more ↔ ∀ element ∈ list, less element = more element := by
  constructor
  · intro same
    induction list with
    | nil => exact fun _ impossible => absurd impossible List.not_mem_nil
    | cons element rest ih =>
      rw [List.forall_mem_cons] at below
      have later := List.Sublist.flatMap_right rest below.2
      have lengths := congrArg List.length same
      rw [List.flatMap_cons, List.flatMap_cons, List.length_append, List.length_append] at lengths
      have here_le := below.1.length_le
      have later_le := later.length_le
      rw [List.forall_mem_cons]
      exact ⟨below.1.eq_of_length (by omega), ih below.2 (later.eq_of_length (by omega))⟩
  · exact List.flatMap_congr

namespace Node

/-- What a call passes first is an HTML-like comment, or stands in parentheses with one. -/
def VeilsArgument (call : Node) : Prop :=
  ∃ first ∈ call.argumentNodes.head?, first.kind = "html_comment" ∨ first.IsVeiled

/-- The callee of a call stands in parentheses with an HTML-like comment. -/
def VeilsCallee (call : Node) : Prop :=
  ∃ callee ∈ call.child? "function", callee.IsVeiled

/-- A member of an object names a forbidden module, in parentheses with an HTML-like comment. -/
def VeilsMisuse (names : List Text) (member : Node) : Prop :=
  (∃ value ∈ member.pairValue?, value.IsVeiled) ∧
    ∃ mention ∈ (member.without "html_comment").actionMention?, names.contains mention.module = true

/-- HTML-like comments hide that a call uses a forbidden module. -/
def HidesMisuse (names : List Text) (call : Node) : Prop :=
  ((call.VeilsCallee ∨ call.VeilsArgument) ∧
      ∃ mention ∈ (call.without "html_comment").mentions, names.contains mention.module = true) ∨
    call.calleeName? = some "mapActions" ∧ ∃ argument ∈ call.firstArgument?,
      argument.kind = "object" ∧ ∃ member ∈ argument.meaningfulChildren, member.VeilsMisuse names

/-- HTML-like comments, and nothing else, keep a catch clause from being empty. -/
def HidesEmptiness (clause : Node) : Prop :=
  ∃ body ∈ clause.child? "body", body.meaningfulChildren ≠ [] ∧
    ∀ child ∈ body.meaningfulChildren, child.kind = "html_comment"

instance (call : Node) : Decidable call.VeilsArgument :=
  inferInstanceAs (Decidable (∃ first ∈ call.argumentNodes.head?, _))

instance (call : Node) : Decidable call.VeilsCallee :=
  inferInstanceAs (Decidable (∃ callee ∈ call.child? "function", _))

instance (names : List Text) (member : Node) : Decidable (member.VeilsMisuse names) :=
  inferInstanceAs (Decidable ((∃ value ∈ member.pairValue?, _) ∧
    ∃ mention ∈ (member.without "html_comment").actionMention?, _))

instance (names : List Text) (call : Node) : Decidable (call.HidesMisuse names) :=
  inferInstanceAs (Decidable (((_ ∨ _) ∧ ∃ mention ∈ (call.without "html_comment").mentions, _) ∨
    _ ∧ ∃ argument ∈ call.firstArgument?, _ ∧ ∃ member ∈ argument.meaningfulChildren, _))

instance (clause : Node) : Decidable clause.HidesEmptiness :=
  decidable_of_iff
    (∃ body ∈ clause.child? "body", body.meaningfulChildren.isEmpty = false ∧
      ∀ child ∈ body.meaningfulChildren, child.kind = "html_comment") <| by
    simp only [HidesEmptiness, List.isEmpty_eq_false_iff]

section Members

variable {member : Node}

theorem actionMention?_of_veiled (veiled : ∃ value ∈ member.pairValue?, value.IsVeiled) :
    member.actionMention? = none := by
  obtain ⟨value, paired, parentheses, -⟩ := veiled
  rw [actionMention?, Option.mem_def.mp paired, Option.bind_some,
    literalValue?_of_other (by rw [parentheses]; decide), Option.bind_none]

theorem actionMention?_of_html_comment (comment : member.kind = "html_comment") :
    member.actionMention? = none := by
  rw [actionMention?, pairValue?, if_neg (by rw [comment]; decide), Option.bind_none]

variable (incidental : member.Incidental "html_comment")

include incidental

/-- A member names the same action without the HTML-like comments, unless they veil its value. -/
theorem actionMention?_without (clear : ¬ ∃ value ∈ member.pairValue?, value.IsVeiled) :
    (member.without "html_comment").actionMention? = member.actionMention? := by
  rw [actionMention?, actionMention?, pairValue?_without incidental]
  cases paired : member.pairValue? with
  | none => rfl
  | some value =>
    have bare : ¬ value.IsVeiled := fun veiled => clear ⟨value, paired, veiled⟩
    have inside := incidental.child (mem_children_of_pairValue? paired)
    rw [Option.map_some, Option.bind_some, Option.bind_some]
    rcases unwrap_without_literal inside bare with same | ⟨unquoted, also⟩
    · rw [same]
    · rw [literalValue?_of_other unquoted, literalValue?_of_other also]
      rfl

/-- What a member names with HTML-like comments, it names without them. The other way round, it names
the forbidden modules that it names without them unless the comments veil its value. -/
theorem forbidden_actionMention?_without (names : List Text) :
    let forbidden (mention? : Option Mention) :=
      mention?.toList.filter fun mention => names.contains mention.module
    (forbidden member.actionMention?).Sublist
        (forbidden (member.without "html_comment").actionMention?) ∧
      (forbidden member.actionMention? = forbidden (member.without "html_comment").actionMention? ↔
        ¬ member.VeilsMisuse names) := by
  intro forbidden
  by_cases veiled : ∃ value ∈ member.pairValue?, value.IsVeiled
  · rw [actionMention?_of_veiled veiled, VeilsMisuse, and_iff_right veiled]
    refine ⟨List.nil_sublist _, ?_⟩
    simp only [forbidden, Option.toList_none, List.filter_nil, eq_comm (a := []),
      List.filter_eq_nil_iff, Option.mem_toList, Option.mem_def, not_exists, not_and]
  · rw [actionMention?_without incidental veiled, VeilsMisuse]
    exact ⟨List.Sublist.refl _, iff_of_true rfl fun both => veiled both.1⟩

end Members

/-- Without its HTML-like comments, an object names the actions of what is left of its members. -/
theorem filterMap_actionMention?_without (argument : Node) :
    (argument.without "html_comment").meaningfulChildren.filterMap actionMention? =
      argument.meaningfulChildren.filterMap fun member =>
        (member.without "html_comment").actionMention? := by
  rw [meaningfulChildren_without_kind, List.filterMap_map]
  induction argument.meaningfulChildren with
  | nil => rfl
  | cons member rest ih =>
    rw [List.filter_cons, List.filterMap_cons, ← ih]
    by_cases comment : member.kind = "html_comment"
    · rw [if_neg (by simpa using comment),
        actionMention?_of_html_comment ((kind_without _ member).trans comment)]
    · rw [if_pos (decide_eq_true comment), List.filterMap_cons]
      rfl

theorem getterMention?_without {argument : Node} (incidental : argument.Incidental "html_comment") :
    (argument.without "html_comment").getterMention? = argument.getterMention? := by
  by_cases quoted : argument.kind = "string"
  · rw [without_of_absent (incidental.unquoted argument (self_mem_preorder argument) quoted)]
  · rw [getterMention?, getterMention?, literalValue?_of_other quoted,
      literalValue?_of_other (by rwa [kind_without])]
    rfl

def forbiddenMentions (names : List Text) (call : Node) : List Mention :=
  call.mentions.filter fun mention => names.contains mention.module

section Mentions

variable {call : Node} (incidental : call.Incidental "html_comment")

theorem calleeName?_of_veiled (veiled : call.VeilsCallee) : call.calleeName? = none := by
  obtain ⟨callee, function, parentheses, -⟩ := veiled
  rw [calleeName?, Option.mem_def.mp function, Option.bind_some,
    if_neg (by rw [parentheses]; decide)]

/-- The first argument of a veiled call is neither a literal nor an object. -/
theorem firstArgument?_of_veiled (veiled : call.VeilsArgument) :
    ∃ argument, call.firstArgument? = some argument ∧ argument.kind ≠ "string" ∧
      argument.kind ≠ "object" := by
  obtain ⟨first, head, veils⟩ := veiled
  refine ⟨first.unwrap, ?_, ?_⟩
  · rw [firstArgument?, Option.mem_def.mp head, Option.map_some]
  · rcases veils with comment | ⟨parentheses, -⟩
    · rw [unwrap_of_html_comment comment, comment]
      decide
    · rw [parentheses]
      decide

theorem mentions_of_unknown {argument : Node} (first : call.firstArgument? = some argument)
    (unquoted : argument.kind ≠ "string") (unbraced : argument.kind ≠ "object") :
    call.mentions = [] := by
  rw [mentions, first]
  simp only [getterMention?, literalValue?_of_other unquoted, unbraced, and_false, if_false,
    Option.map_none, Option.toList_none, ite_self]

theorem mentions_of_veiled (veiled : call.VeilsCallee ∨ call.VeilsArgument) :
    call.mentions = [] := by
  rcases veiled with callee | argument
  · rw [mentions, calleeName?_of_veiled callee]
    cases call.firstArgument? with
    | none => rfl
    | some argument => simp only [reduceCtorEq, false_and, if_false]
  · obtain ⟨argument, first, unquoted, unbraced⟩ := firstArgument?_of_veiled argument
    exact mentions_of_unknown first unquoted unbraced

theorem mentions_of_action {argument : Node} (named : call.calleeName? = some "mapActions")
    (first : call.firstArgument? = some argument) (braced : argument.kind = "object") :
    call.mentions = argument.meaningfulChildren.filterMap actionMention? := by
  rw [mentions, first]
  simp only [named, braced, and_self, if_true, Option.some.injEq, String.reduceEq, if_false]

include incidental

theorem calleeName?_without (clear : ¬ call.VeilsCallee) :
    (call.without "html_comment").calleeName? = call.calleeName? := by
  rw [calleeName?, calleeName?, incidental.child?_without]
  cases function : call.child? "function" with
  | none => rfl
  | some callee =>
    have bare : ¬ callee.IsVeiled := fun veiled => clear ⟨callee, function, veiled⟩
    rw [Option.map_some, Option.bind_some, Option.bind_some]
    rcases unwrap_without bare with same | ⟨comment, parentheses⟩
    · rw [same, kind_without, text_without]
    · rw [if_neg (by rw [parentheses]; decide), if_neg (by rw [comment]; decide)]

/-- What a call passes first without its HTML-like comments is what is left of what it passes first,
or is as unknown, unless the comments veil it. -/
theorem firstArgument?_without (clear : ¬ call.VeilsArgument) :
    (call.without "html_comment").firstArgument? =
        call.firstArgument?.map (without "html_comment") ∨
      ∃ argument other, call.firstArgument? = some argument ∧
        (call.without "html_comment").firstArgument? = some other ∧
        argument.kind = "html_comment" ∧ other.kind = "parenthesized_expression" := by
  rw [firstArgument?, firstArgument?, argumentNodes_without incidental]
  cases passed : call.argumentNodes with
  | nil => exact .inl rfl
  | cons first rest =>
    have head : first ∈ call.argumentNodes.head? := by
      rw [passed]
      rfl
    have other : first.kind ≠ "html_comment" := fun comment => clear ⟨first, head, .inl comment⟩
    have bare : ¬ first.IsVeiled := fun veiled => clear ⟨first, head, .inr veiled⟩
    rw [List.filter_cons_of_pos (by simpa using other)]
    simp only [List.map_cons, List.head?_cons, Option.map_some, Option.some.injEq]
    rcases unwrap_without bare with same | ⟨comment, parentheses⟩
    · exact .inl same
    · exact .inr ⟨_, _, rfl, rfl, comment, parentheses⟩

/-- A call that passes no object for actions mentions the same without its HTML-like comments, unless
these veil it. -/
theorem mentions_without (clear : ¬ (call.VeilsCallee ∨ call.VeilsArgument))
    (noAction : ¬ (call.calleeName? = some "mapActions" ∧
      ∃ argument ∈ call.firstArgument?, argument.kind = "object")) :
    (call.without "html_comment").mentions = call.mentions := by
  obtain ⟨callee, argument⟩ := not_or.mp clear
  rcases firstArgument?_without incidental argument with
    same | ⟨argument, other, first, also, comment, parentheses⟩
  · rw [mentions, mentions, calleeName?_without incidental callee, same]
    cases first : call.firstArgument? with
    | none => rfl
    | some argument =>
      have inside := incidental.below (firstArgument_mem_preorder first)
      have passive : ¬ (call.calleeName? = some "mapActions" ∧ argument.kind = "object") :=
        fun both => noAction ⟨both.1, argument, first, both.2⟩
      simp only [Option.map_some, getterMention?_without inside, kind_without, if_neg passive]
  · rw [mentions_of_unknown first (by rw [comment]; decide) (by rw [comment]; decide),
      mentions_of_unknown also (by rw [parentheses]; decide) (by rw [parentheses]; decide)]

/-- A call that passes an object for actions mentions, without its HTML-like comments, the actions of
what is left of the members, unless the comments veil the call. -/
theorem mentions_without_of_action (clear : ¬ (call.VeilsCallee ∨ call.VeilsArgument))
    {argument : Node} (named : call.calleeName? = some "mapActions")
    (first : call.firstArgument? = some argument) (braced : argument.kind = "object") :
    (call.without "html_comment").mentions =
      argument.meaningfulChildren.filterMap fun member =>
        (member.without "html_comment").actionMention? := by
  obtain ⟨callee, unveiled⟩ := not_or.mp clear
  rw [← calleeName?_without incidental callee] at named
  rcases firstArgument?_without incidental unveiled with
    same | ⟨other, _, also, -, comment, -⟩
  · rw [first, Option.map_some] at same
    rw [mentions_of_action named same (by rwa [kind_without]), filterMap_actionMention?_without]
  · rw [first] at also
    cases also
    rw [braced] at comment
    exact absurd comment (by decide)

/-- A call mentions with HTML-like comments no forbidden modules but those that it mentions without
them, and all of those exactly when the comments hide none. -/
theorem forbiddenMentions_without (names : List Text) :
    (call.forbiddenMentions names).Sublist
        ((call.without "html_comment").forbiddenMentions names) ∧
      (call.forbiddenMentions names = (call.without "html_comment").forbiddenMentions names ↔
        ¬ call.HidesMisuse names) := by
  by_cases veiled : call.VeilsCallee ∨ call.VeilsArgument
  · have nothing : call.forbiddenMentions names = [] := by
      rw [forbiddenMentions, mentions_of_veiled veiled, List.filter_nil]
    have noAction : ¬ (call.calleeName? = some "mapActions" ∧ ∃ argument ∈ call.firstArgument?,
        argument.kind = "object" ∧ ∃ member ∈ argument.meaningfulChildren,
          member.VeilsMisuse names) := by
      rintro ⟨named, argument, first, braced, -⟩
      rcases veiled with callee | unknown
      · rw [calleeName?_of_veiled callee] at named
        cases named
      · obtain ⟨other, also, -, unbraced⟩ := firstArgument?_of_veiled unknown
        rw [Option.mem_def.mp first] at also
        cases also
        exact unbraced braced
    rw [nothing, HidesMisuse, or_iff_left noAction, and_iff_right veiled]
    refine ⟨List.nil_sublist _, ?_⟩
    simp only [forbiddenMentions, eq_comm (a := []), List.filter_eq_nil_iff, not_exists, not_and]
  · rw [HidesMisuse, or_iff_right fun both => veiled both.1]
    by_cases action : call.calleeName? = some "mapActions" ∧
        ∃ argument ∈ call.firstArgument?, argument.kind = "object"
    · obtain ⟨named, argument, first, braced⟩ := action
      have hides_iff : (call.calleeName? = some "mapActions" ∧ ∃ argument ∈ call.firstArgument?,
          argument.kind = "object" ∧ ∃ member ∈ argument.meaningfulChildren,
            member.VeilsMisuse names) ↔
          ∃ member ∈ argument.meaningfulChildren, member.VeilsMisuse names := by
        simp only [named, Option.mem_def.mp first, Option.mem_some_iff, exists_eq_left', braced,
          true_and]
      have inside := incidental.below (firstArgument_mem_preorder first)
      have each (member : Node) (part : member ∈ argument.meaningfulChildren) :=
        forbidden_actionMention?_without (inside.child (mem_children_of_meaningful part)) names
      simp only [forbiddenMentions, mentions_of_action named first braced,
        mentions_without_of_action incidental veiled named first braced,
        List.filterMap_eq_flatMap_toList, List.filter_flatMap, hides_iff]
      refine ⟨List.Sublist.flatMap_right _ fun member part => (each member part).1, ?_⟩
      rw [flatMap_eq_iff_of_sublist fun member part => (each member part).1]
      push Not
      exact forall₂_congr fun member part => (each member part).2
    · have passive : ¬ (call.calleeName? = some "mapActions" ∧ ∃ argument ∈ call.firstArgument?,
          argument.kind = "object" ∧ ∃ member ∈ argument.meaningfulChildren,
            member.VeilsMisuse names) :=
        fun ⟨named, argument, first, braced, _⟩ => action ⟨named, argument, first, braced⟩
      simp only [forbiddenMentions, mentions_without incidental veiled action]
      exact ⟨List.Sublist.refl _, iff_of_true trivial passive⟩

end Mentions

end Node

end ModuleFence
