import ModuleFence.Proofs.Expression.Cut
import ModuleFence.Proofs.Expression.Decoding
import ModuleFence.Proofs.Expression.Shown
import ModuleFence.Script.Parse

set_option autoImplicit false

namespace ModuleFence.Node

/-- The key that a property name stands for, given the values of string literals. -/
def keyFully (value : Node → Text) : Option Node → Option Text
  | none => none
  | some name =>
    if name.kind = "property_identifier" then some (Text.ofString name.text)
    else if name.kind = "string" then some (value name)
    else none

mutual

/-- Lowers an expression however deep it stands. -/
def lowerFully (value : Node → Text) : Node → Expression
  | mk label children =>
    let span := Span.between label.start label.stop
    if label.kind = "parenthesized_expression" then
      (soleFully value children).getD (.other label.kind span)
    else if label.kind = "identifier" then .identifier label.text span
    else if label.kind = "string" then .string (value (mk label children)) span
    else if label.kind = "object" then .object (membersFully value children) span
    else if label.kind = "call_expression" then
      .call ((fieldFully value "function" children).getD (.other "missing" span))
        ((argumentListFully value children).getD []) span
    else .other label.kind span

/-- Lowers the only meaningful node among some, if there is exactly one. -/
def soleFully (value : Node → Text) : List Node → Option Expression
  | [] => none
  | node :: rest =>
    if node.isMeaningful then
      if rest.any isMeaningful then none else some (lowerFully value node)
    else soleFully value rest

def fieldFully (value : Node → Text) (name : String) : List Node → Option Expression
  | [] => none
  | node :: rest =>
    if node.hasField name then some (lowerFully value node) else fieldFully value name rest

/-- Lowers the arguments in the first node that holds arguments; a template is one argument. -/
def argumentListFully (value : Node → Text) : List Node → Option (List Expression)
  | [] => none
  | mk label children :: rest =>
    if hasField "arguments" (mk label children) then
      if label.kind = "arguments" then some (allFully value children)
      else some [asOther (mk label children)]
    else argumentListFully value rest

/-- Lowers the meaningful nodes among some. -/
def allFully (value : Node → Text) : List Node → List Expression
  | [] => []
  | node :: rest =>
    if node.isMeaningful then lowerFully value node :: allFully value rest else allFully value rest

/-- Lowers the meaningful nodes among the members of an object. -/
def membersFully (value : Node → Text) : List Node → List Member
  | [] => []
  | node :: rest =>
    if node.isMeaningful then memberFully value node :: membersFully value rest
    else membersFully value rest

def memberFully (value : Node → Text) : Node → Member
  | mk label children =>
    let span := Span.between label.start label.stop
    if label.kind = "pair" then
      match fieldFully value "value" children with
      | none => .other label.kind span
      | some inner => .pair (keyFully value (withField? "key" children)) inner span
    else if label.kind = "shorthand_property_identifier" then .shorthand label.text span
    else if label.kind = "method_definition" then
      .method (keyFully value (withField? "name" children)) span
    else .other label.kind span

end

/-- The number of levels from a depth down to the deepest that is told apart; negative below it. -/
def roomAt (depth : Nat) : Int :=
  (maxLoweringDepth : Int) - depth

theorem roomAt_succ (depth : Nat) : roomAt (depth + 1) = roomAt depth - 1 := by
  rw [roomAt, roomAt]
  omega

theorem roomAt_neg {depth : Nat} (deep : maxLoweringDepth < depth) : roomAt depth < 0 := by
  rw [roomAt]
  omega

theorem roomAt_nonneg {depth : Nat} (shallow : depth ≤ maxLoweringDepth) : 0 ≤ roomAt depth := by
  rw [roomAt]
  omega

/-- The literals that have a value have the one that is given. -/
def Values (value : Node → Text) : Prop :=
  ∀ literal text, literal.stringValue = .ok text → value literal = text

/-- A node that is no pair of parentheses keeps its kind and its range. -/
theorem kind_span_lowerFully (value : Node → Text) {node : Node}
    (bare : node.kind ≠ "parenthesized_expression") :
    (lowerFully value node).kind = node.kind ∧ (lowerFully value node).span = node.span := by
  obtain ⟨label, children⟩ := node
  replace bare : label.kind ≠ "parenthesized_expression" := bare
  rw [lowerFully, if_neg bare]
  by_cases named : label.kind = "identifier"
  · rw [if_pos named]
    exact ⟨named.symm, rfl⟩
  rw [if_neg named]
  by_cases quoted : label.kind = "string"
  · rw [if_pos quoted]
    exact ⟨quoted.symm, rfl⟩
  rw [if_neg quoted]
  by_cases braced : label.kind = "object"
  · rw [if_pos braced]
    exact ⟨braced.symm, rfl⟩
  rw [if_neg braced]
  by_cases called : label.kind = "call_expression"
  · rw [if_pos called]
    exact ⟨called.symm, rfl⟩
  · rw [if_neg called]
    exact ⟨rfl, rfl⟩

theorem cut_lowerFully_of_deep (value : Node → Text) (node : Node) {room : Int}
    (bare : node.kind ≠ "parenthesized_expression") (small : room < 0) :
    (lowerFully value node).cut room = node.asOther := by
  obtain ⟨kind, span⟩ := kind_span_lowerFully value bare
  rw [Expression.cut_of_neg small, kind, span, asOther]

/-- A call whose parts are cut off from those without a limit is cut off itself. -/
theorem call_eq_cutParts (value : Node → Text) (node : Node) {room : Int}
    (called : node.kind = "call_expression") {callee : Option Expression}
    {arguments : Option (List Expression)}
    (function : callee = (fieldFully value "function" node.children).map (Expression.cut room))
    (passed : arguments = (argumentListFully value node.children).map (Expression.cutAll room)) :
    .call (callee.getD (.other "missing" node.span)) (arguments.getD []) node.span =
      (lowerFully value node).cutParts room := by
  obtain ⟨label, children⟩ := node
  replace called : label.kind = "call_expression" := called
  have missing := Expression.cut_other room "missing" (mk label children).span
  have callee_eq : callee.getD (.other "missing" (mk label children).span) =
      ((fieldFully value "function" children).getD
        (.other "missing" (mk label children).span)).cut room := by
    rw [function, children_mk, ← Option.getD_map (Expression.cut room), missing]
  have arguments_eq : arguments.getD [] =
      Expression.cutAll room ((argumentListFully value children).getD []) := by
    rw [passed, children_mk, ← Option.getD_map (Expression.cutAll room), Expression.cutAll]
  rw [lowerFully, if_neg (by rw [called]; decide), if_neg (by rw [called]; decide),
    if_neg (by rw [called]; decide), if_neg (by rw [called]; decide), if_pos called,
    Expression.cutParts, callee_eq, arguments_eq]
  rfl

theorem keyFully_of_propertyKey {value : Node → Text} (values : Values value)
    {key? : Option Node} {key : Option Text}
    (success : propertyKey key? = .ok key) : keyFully value key? = key := by
  cases key? with
  | none =>
    cases success
    rfl
  | some name =>
    rw [propertyKey] at success
    rw [keyFully]
    split at success
    · rename_i named
      cases success
      rw [if_pos named]
    rename_i unnamed
    rw [if_neg unnamed]
    split at success
    · rename_i quoted
      obtain ⟨text, decoded, same⟩ := (bind_eq_ok_iff _ _ _).mp success
      cases same
      rw [if_pos quoted, values name text decoded]
    · rename_i unquoted
      cases success
      rw [if_neg unquoted]

mutual

/-- Lowering at a depth is lowering without a limit, cut off where no level is left. -/
theorem eq_cut_of_lowerAt {value : Node → Text} (values : Values value) (depth : Nat) :
    ∀ {node : Node} {lowered : Expression}, lowerAt depth node = .ok lowered →
      lowered = (lowerFully value node).cut (roomAt depth)
  | mk label children, lowered, success => by
    by_cases parentheses : label.kind = "parenthesized_expression"
    · rw [lowerAt, if_pos parentheses] at success
      obtain ⟨sole, found, same⟩ := (bind_eq_ok_iff _ _ _).mp success
      cases same
      rw [lowerFully, if_pos parentheses, eq_cut_of_lowerSole values depth found]
      cases soleFully value children with
      | none => exact (Expression.cut_other _ _ _).symm
      | some inner => rfl
    by_cases deep : maxLoweringDepth < depth
    · rw [lowerAt, if_neg parentheses, if_pos deep] at success
      cases success
      exact (cut_lowerFully_of_deep value (mk label children) parentheses (roomAt_neg deep)).symm
    rw [lowerAt, if_neg parentheses, if_neg deep] at success
    -- What is shallow is kept, and its parts are cut as if they stood one level deeper.
    rw [Expression.cut_of_nonneg (roomAt_nonneg (Nat.not_lt.mp deep)), ← roomAt_succ]
    by_cases called : label.kind = "call_expression"
    · rw [if_neg (by rw [called]; decide), if_neg (by rw [called]; decide),
        if_neg (by rw [called]; decide), if_pos called] at success
      obtain ⟨callee, function, rest⟩ := (bind_eq_ok_iff _ _ _).mp success
      obtain ⟨arguments, passed, same⟩ := (bind_eq_ok_iff _ _ _).mp rest
      cases same
      rw [lowerCallee_eq] at function
      exact call_eq_cutParts value (mk label children) called
        (eq_cut_of_lowerField values (depth + 1) "function" function)
        (eq_cut_of_lowerArgumentList values (depth + 1) passed)
    rw [lowerFully, if_neg parentheses, if_neg called]
    rw [if_neg called] at success
    by_cases named : label.kind = "identifier"
    · rw [if_pos named] at success ⊢
      cases success
      rw [Expression.cutParts]
    rw [if_neg named] at success ⊢
    by_cases quoted : label.kind = "string"
    · rw [if_pos quoted] at success ⊢
      obtain ⟨text, decoded, same⟩ := (bind_eq_ok_iff _ _ _).mp success
      cases same
      rw [Expression.cutParts, values (mk label children) text decoded]
    rw [if_neg quoted] at success ⊢
    by_cases braced : label.kind = "object"
    · rw [if_pos braced] at success ⊢
      obtain ⟨members, found, same⟩ := (bind_eq_ok_iff _ _ _).mp success
      cases same
      rw [Expression.cutParts, eq_cut_of_lowerMembers values (depth + 1) found]
    · rw [if_neg braced] at success ⊢
      cases success
      rw [Expression.cutParts]

theorem eq_cut_of_lowerSole {value : Node → Text} (values : Values value) (depth : Nat) :
    ∀ {nodes : List Node} {sole : Option Expression},
    lowerSole depth nodes = .ok sole →
      sole = (soleFully value nodes).map (Expression.cut (roomAt depth))
  | [], sole, success => by
    cases success
    rfl
  | node :: rest, sole, success => by
    rw [lowerSole] at success
    rw [soleFully]
    by_cases meaningful : node.isMeaningful = true
    · rw [if_pos meaningful] at success ⊢
      by_cases others : rest.any isMeaningful = true
      · rw [if_pos others] at success ⊢
        cases success
        rfl
      · rw [if_neg others] at success ⊢
        obtain ⟨lowered, inside, same⟩ := (bind_eq_ok_iff _ _ _).mp success
        cases same
        rw [eq_cut_of_lowerAt values depth inside, Option.map_some]
    · rw [if_neg meaningful] at success ⊢
      exact eq_cut_of_lowerSole values depth success

theorem eq_cut_of_lowerField {value : Node → Text} (values : Values value) (depth : Nat)
    (name : String) :
    ∀ {nodes : List Node} {inner : Option Expression},
      (withField? name nodes).mapM (lowerAt depth) = .ok inner →
        inner = (fieldFully value name nodes).map (Expression.cut (roomAt depth))
  | [], inner, success => by
    cases success
    rfl
  | node :: rest, inner, success => by
    rw [withField?_cons] at success
    rw [fieldFully]
    by_cases role : node.hasField name = true
    · rw [if_pos role, Option.mapM_some] at success
      obtain ⟨lowered, inside, same⟩ := (map_eq_ok_iff _ _ _).mp success
      cases same
      rw [if_pos role, eq_cut_of_lowerAt values depth inside, Option.map_some]
    · rw [if_neg role] at success ⊢
      exact eq_cut_of_lowerField values depth name success

theorem eq_cut_of_lowerArgumentList {value : Node → Text} (values : Values value) (depth : Nat) :
    ∀ {nodes : List Node} {arguments : Option (List Expression)},
      lowerArgumentList depth nodes = .ok arguments →
        arguments = (argumentListFully value nodes).map (Expression.cutAll (roomAt depth))
  | [], arguments, success => by
    cases success
    rfl
  | mk label children :: rest, arguments, success => by
    rw [lowerArgumentList] at success
    rw [argumentListFully]
    by_cases role : hasField "arguments" (mk label children) = true
    · rw [if_pos role] at success ⊢
      by_cases listed : label.kind = "arguments"
      · rw [if_pos listed] at success ⊢
        obtain ⟨lowered, inside, same⟩ := (bind_eq_ok_iff _ _ _).mp success
        cases same
        rw [eq_cut_of_lowerAll values depth inside, Option.map_some]
      · rw [if_neg listed] at success ⊢
        cases success
        rw [Option.map_some, Expression.cutAll, Expression.cutAll, asOther, Expression.cut]
    · rw [if_neg role] at success ⊢
      exact eq_cut_of_lowerArgumentList values depth success

theorem eq_cut_of_lowerAll {value : Node → Text} (values : Values value) (depth : Nat) :
    ∀ {nodes : List Node} {lowered : List Expression},
    lowerAll depth nodes = .ok lowered →
      lowered = Expression.cutAll (roomAt depth) (allFully value nodes)
  | [], lowered, success => by
    cases success
    rw [allFully, Expression.cutAll]
  | node :: rest, lowered, success => by
    rw [lowerAll] at success
    rw [allFully]
    by_cases meaningful : node.isMeaningful = true
    · rw [if_pos meaningful] at success ⊢
      obtain ⟨expression, inside, remaining⟩ := (bind_eq_ok_iff _ _ _).mp success
      obtain ⟨others, later, same⟩ := (bind_eq_ok_iff _ _ _).mp remaining
      cases same
      rw [eq_cut_of_lowerAt values depth inside, eq_cut_of_lowerAll values depth later,
        Expression.cutAll]
    · rw [if_neg meaningful] at success ⊢
      exact eq_cut_of_lowerAll values depth success

theorem eq_cut_of_lowerMembers {value : Node → Text} (values : Values value) (depth : Nat) :
    ∀ {nodes : List Node} {members : List Member},
    lowerMembers depth nodes = .ok members →
      members = Expression.cutMembers (roomAt depth) (membersFully value nodes)
  | [], members, success => by
    cases success
    rw [membersFully, Expression.cutMembers]
  | node :: rest, members, success => by
    rw [lowerMembers] at success
    rw [membersFully]
    by_cases meaningful : node.isMeaningful = true
    · rw [if_pos meaningful] at success ⊢
      obtain ⟨member, inside, remaining⟩ := (bind_eq_ok_iff _ _ _).mp success
      obtain ⟨others, later, same⟩ := (bind_eq_ok_iff _ _ _).mp remaining
      cases same
      rw [eq_cut_of_lowerMember values depth inside, eq_cut_of_lowerMembers values depth later,
        Expression.cutMembers]
    · rw [if_neg meaningful] at success ⊢
      exact eq_cut_of_lowerMembers values depth success

theorem eq_cut_of_lowerMember {value : Node → Text} (values : Values value) (depth : Nat) :
    ∀ {node : Node} {member : Member},
    lowerMember depth node = .ok member →
      member = Expression.cutMember (roomAt depth) (memberFully value node)
  | mk label children, member, success => by
    rw [lowerMember] at success
    rw [memberFully]
    by_cases paired : label.kind = "pair"
    · rw [if_pos paired] at success ⊢
      obtain ⟨inner, inside, remaining⟩ := (bind_eq_ok_iff _ _ _).mp success
      rw [lowerValue_eq] at inside
      have found := eq_cut_of_lowerField values depth "value" inside
      cases full : fieldFully value "value" children with
      | none =>
        rw [full, Option.map_none] at found
        subst found
        cases remaining
        rw [Expression.cutMember]
      | some fully =>
        rw [full, Option.map_some] at found
        subst found
        obtain ⟨key, decoded, same⟩ := (bind_eq_ok_iff _ _ _).mp remaining
        cases same
        rw [Expression.cutMember, keyFully_of_propertyKey values decoded]
    rw [if_neg paired] at success ⊢
    by_cases short : label.kind = "shorthand_property_identifier"
    · rw [if_pos short] at success ⊢
      cases success
      rw [Expression.cutMember]
    rw [if_neg short] at success ⊢
    by_cases method : label.kind = "method_definition"
    · rw [if_pos method] at success ⊢
      obtain ⟨key, decoded, same⟩ := (bind_eq_ok_iff _ _ _).mp success
      cases same
      rw [Expression.cutMember, keyFully_of_propertyKey values decoded]
    · rw [if_neg method] at success ⊢
      cases success
      rw [Expression.cutMember]

end

/-- A call is the call without a limit, with its parts cut off as if they stood one level deeper. -/
theorem eq_cutParts_of_lowerCallAt {value : Node → Text} (values : Values value) {depth : Nat}
    {node : Node} {call : Call} (called : node.kind = "call_expression")
    (success : lowerCallAt depth node = .ok call) :
    call.toExpression = (lowerFully value node).cutParts (roomAt (depth + 1)) := by
  obtain ⟨callee, function, rest⟩ := (bind_eq_ok_iff _ _ _).mp success
  obtain ⟨arguments, passed, same⟩ := (bind_eq_ok_iff _ _ _).mp rest
  cases same
  rw [lowerCallee_eq] at function
  exact call_eq_cutParts value node called
    (eq_cut_of_lowerField values (depth + 1) "function" function)
    (eq_cut_of_lowerArgumentList values (depth + 1) passed)

/-- A call that is shown inside an expression is the call on its own, cut off where it stands. -/
theorem eq_cut_of_shows {value : Node → Text} (values : Values value) {inner node : Node}
    {own : Call} {form lowered : Expression} {levels : Nat}
    (called : inner.kind = "call_expression") (alone : lowerCallAt 0 inner = .ok own)
    (success : lowerAt 0 node = .ok lowered) (shows : Shows inner form levels node lowered) :
    form = own.toExpression.cut (roomAt levels) := by
  have inside : lowerAt (0 + levels) inner = .ok form := shows.lowerAt_eq success
  rw [Nat.zero_add] at inside
  have outside : lowerAt 0 inner = .ok own.toExpression := by
    rw [lowerAt_of_call 0 inner (Nat.zero_le _) called, alone]
    rfl
  have less : roomAt levels ≤ roomAt 0 := by
    rw [roomAt, roomAt]
    omega
  rw [eq_cut_of_lowerAt values levels inside, eq_cut_of_lowerAt values 0 outside,
    Expression.cut_cut less]

/-- Each literal that lowering the callee and the arguments of a call reads has a value. -/
def CallLegible (depth : Nat) (call : Node) : Prop :=
  (∀ callee, call.child? "function" = some callee → Legible (depth + 1) callee) ∧
    ∀ argument ∈ call.argumentNodes, Legible (depth + 1) argument

theorem succeeds_lowerCallAt_iff_legible (depth : Nat) (call : Node) :
    Succeeds (lowerCallAt depth call) ↔ CallLegible depth call := by
  simp only [succeeds_lowerCallAt_iff, succeeds_lowerAt_iff, CallLegible]

/-- Lowering at a depth is lowering without a limit, cut off below the deepest level that is told
apart, unless a literal that is read on the way cannot be decoded. A call stays a call at any depth;
what another call shows of it is what it is on its own, cut off; and an object that is not cut off
keeps its keys. -/
theorem lowerAt_truncates {value : Node → Text} (values : Values value) (node : Node)
    (depth : Nat) :
    (Legible depth node →
      lowerAt depth node = .ok ((lowerFully value node).cut (maxLoweringDepth - depth))) ∧
    (¬ Legible depth node → lowerAt depth node = .error .numberTooLarge) ∧
    (Legible depth node ↔ ∀ literal, Reads literal depth node →
      ∀ piece ∈ literal.namedChildren, ¬ piece.Overflows) ∧
    (node.kind = "call_expression" →
      (CallLegible depth node → Call.toExpression <$> lowerCallAt depth node =
        .ok ((lowerFully value node).cutParts (maxLoweringDepth - (depth + 1)))) ∧
      (¬ CallLegible depth node → lowerCallAt depth node = .error .numberTooLarge) ∧
      ∀ own outer call form levels, lowerCallAt 0 node = .ok own →
        outer.kind = "call_expression" → lowerCallAt 0 outer = .ok call →
          Shows node form levels outer call.toExpression →
            form = own.toExpression.cut (maxLoweringDepth - levels)) ∧
    (depth ≤ maxLoweringDepth → ∀ lowered, lowerAt depth node = .ok lowered →
      Store.keysOf lowered = Store.keysOf (lowerFully value node)) := by
  refine ⟨fun legible => ?_, fun illegible => ?_, ?_, fun called => ⟨fun legible => ?_,
    fun illegible => ?_, fun own outer call form levels alone calls success shows => ?_⟩,
    fun shallow lowered success => ?_⟩
  · obtain ⟨lowered, success⟩ := (succeeds_lowerAt_iff depth node).mpr legible
    rw [success, eq_cut_of_lowerAt values depth success]
    rfl
  · exact Escape.tooLarge_of_not_succeeds (mt (succeeds_lowerAt_iff depth node).mp illegible)
  · exact forall₂_congr fun literal _ => succeeds_stringValue_iff literal
  · obtain ⟨call, success⟩ := (succeeds_lowerCallAt_iff_legible depth node).mpr legible
    rw [success]
    exact congrArg Except.ok (eq_cutParts_of_lowerCallAt values called success)
  · exact Escape.tooLarge_of_not_succeeds (mt (succeeds_lowerCallAt_iff_legible depth node).mp illegible)
  · have lowered : lowerAt 0 outer = .ok call.toExpression := by
      rw [lowerAt_of_call 0 outer (Nat.zero_le _) calls, success]
      rfl
    exact eq_cut_of_shows values called alone lowered shows
  · rw [eq_cut_of_lowerAt values depth success, Expression.keysOf_cut (roomAt_nonneg shallow)]

/-- The value of a string literal, or nothing. -/
def knownValue (literal : Node) : Text :=
  literal.stringValue.toOption.getD []

theorem values_knownValue : Values knownValue := by
  intro literal text decoded
  rw [knownValue, decoded]
  rfl

/-- What the outermost of four calls shows of the next one is that one, with one level less. -/
theorem lowerAt_truncates_of_nested :
    Values knownValue ∧
      ∃ outer ∈ (Script.parse "f(g(h(k('x'))));".toList).calls, ∃ inner ∈ outer.argumentNodes,
        lowerAt 0 outer = .ok ((lowerFully knownValue outer).cut 2) ∧
        ∃ own call form, lowerCallAt 0 inner = .ok own ∧ lowerCallAt 0 outer = .ok call ∧
          Shows inner form 1 outer call.toExpression ∧ form = own.toExpression.cut 1 := by
  have evaluated : ∃ outer ∈ (Script.parse "f(g(h(k('x'))));".toList).calls,
      ∃ inner ∈ outer.argumentNodes, outer.kind = "call_expression" ∧
        inner.kind = "call_expression" ∧ Succeeds (lowerCallAt 0 inner) ∧
        Succeeds (lowerCallAt 0 outer) := by
    decide +kernel
  obtain ⟨outer, member, inner, passed, calls, called, ⟨own, alone⟩, ⟨call, success⟩⟩ := evaluated
  obtain ⟨form, shows⟩ := exists_shows_argument calls success passed
  have legible : Legible 0 outer := (succeeds_lowerCallAt_zero_iff calls).mp ⟨call, success⟩
  have whole := (lowerAt_truncates values_knownValue outer 0).1 legible
  obtain ⟨-, -, -, seen, -⟩ := lowerAt_truncates values_knownValue inner 0
  have truncated := (seen called).2.2 own outer call form 1 alone calls success shows
  exact ⟨values_knownValue, outer, member, inner, passed, whole, own, call, form, alone, success,
    shows, truncated⟩

/-- A call shows what a call inside it looks like, down to a numeral that is too large; on its own,
the inner call is lowered further down, and has no form. -/
theorem lowerCallAt_of_large_numeral :
    ∃ outer ∈ (Script.parse "f(g(h(\"\\u\x7b80000000\x7d\")));".toList).calls,
      ∃ inner ∈ outer.argumentNodes, inner.kind = "call_expression" ∧
        (∃ call form, lowerCallAt 0 outer = .ok call ∧
          Shows inner form 1 outer call.toExpression) ∧
        lowerCallAt 0 inner = .error .numberTooLarge := by
  have evaluated : ∃ outer ∈ (Script.parse "f(g(h(\"\\u\x7b80000000\x7d\")));".toList).calls,
      ∃ inner ∈ outer.argumentNodes, inner.kind = "call_expression" ∧
        outer.kind = "call_expression" ∧ Succeeds (lowerCallAt 0 outer) ∧
        ¬ Succeeds (lowerCallAt 0 inner) := by
    decide +kernel
  obtain ⟨outer, member, inner, passed, called, calls, ⟨call, success⟩, fails⟩ := evaluated
  obtain ⟨form, shows⟩ := exists_shows_argument calls success passed
  exact ⟨outer, member, inner, passed, called, ⟨call, form, success, shows⟩,
    Escape.tooLarge_of_not_succeeds fails⟩

end ModuleFence.Node
