import ModuleFence.Rule.ForbiddenModule
import ModuleFence.Proofs.Expression.Reach

/-!
The shapes of calls that mention modules, read off the syntax tree: a getter mentions the module
that its first argument spells, an action mentions for each pair of its first argument the module
before the slash of the value. A lowered call has the uses that its node mentions, no more and no less.
-/

set_option autoImplicit false

namespace ModuleFence

namespace ModuleRule

theorem moduleBefore?_cons (point : CodePoint) (rest : Text) :
    moduleBefore? (point :: rest) =
      if point = moduleSeparator then some [] else (moduleBefore? rest).map (point :: ·) := by
  simp only [moduleBefore?, List.mem_cons, List.takeWhile_cons]
  by_cases separates : point = moduleSeparator
  · simp [separates]
  · by_cases later : moduleSeparator ∈ rest <;> simp [separates, Ne.symm separates, later]

/-- A value names the module before its first separator. -/
theorem moduleBefore?_eq_some_iff (value module : Text) :
    moduleBefore? value = some module ↔
      moduleSeparator ∉ module ∧ ∃ rest, value = module ++ moduleSeparator :: rest := by
  induction value generalizing module with
  | nil => simp [moduleBefore?]
  | cons point rest ih =>
    rw [moduleBefore?_cons]
    by_cases separates : point = moduleSeparator
    · rw [if_pos separates, separates]
      constructor
      · intro found
        cases found
        exact ⟨List.not_mem_nil, rest, rfl⟩
      · rintro ⟨absent, tail, same⟩
        cases module with
        | nil => rfl
        | cons first others =>
          cases same
          exact absurd List.mem_cons_self absent
    · rw [if_neg separates, Option.map_eq_some_iff]
      constructor
      · rintro ⟨shorter, found, rfl⟩
        obtain ⟨absent, tail, rfl⟩ := (ih shorter).mp found
        exact ⟨List.not_mem_cons_of_ne_of_not_mem (Ne.symm separates) absent, tail, rfl⟩
      · rintro ⟨absent, tail, same⟩
        cases module with
        | nil =>
          cases same
          exact absurd rfl separates
        | cons first others =>
          cases same
          have missing : moduleSeparator ∉ others :=
            fun later => absent (List.mem_cons_of_mem _ later)
          exact ⟨others, (ih others).mpr ⟨missing, tail, rfl⟩, rfl⟩

theorem isSome_moduleBefore?_iff (value : Text) :
    (moduleBefore? value).isSome ↔ moduleSeparator ∈ value := by
  rw [moduleBefore?]
  split <;> simp_all

end ModuleRule

namespace Node

/-- The name of the callee of a call, without parentheses, if it is an identifier. -/
def calleeName? (call : Node) : Option String :=
  (call.child? "function").bind fun callee =>
    if callee.unwrap.kind = "identifier" then some callee.unwrap.text else none

/-- The first argument of a call, without parentheses. -/
def firstArgument? (call : Node) : Option Node :=
  call.argumentNodes.head?.map unwrap

def literalValue? (node : Node) : Option Text :=
  if node.kind = "string" then node.stringValue.toOption else none

/-- A module that a call mentions: who asks for it, its name, and the literal that spells it. -/
structure Mention where
  caller : String
  module : Text
  literal : Node

/-- The module that the first argument of a getter spells. -/
def getterMention? (argument : Node) : Option Mention :=
  argument.literalValue?.map fun value => ⟨"mapGetters", value, argument⟩

/-- The module that the value of a pair spells before its first slash. -/
def actionMention? (member : Node) : Option Mention :=
  member.pairValue?.bind fun value =>
    value.unwrap.literalValue?.bind fun text =>
      (ModuleRule.moduleBefore? text).map fun module => ⟨"mapActions", module, value.unwrap⟩

/-- The modules that a call mentions, in order. -/
def mentions (call : Node) : List Mention :=
  match call.firstArgument? with
  | none => []
  | some argument =>
    if call.calleeName? = some "mapGetters" then argument.getterMention?.toList
    else if call.calleeName? = some "mapActions" ∧ argument.kind = "object" then
      argument.meaningfulChildren.filterMap actionMention?
    else []

/-- A mention as the rule sees it. -/
def Mention.use (mention : Mention) : ModuleRule.Use :=
  ⟨mention.caller, mention.module, mention.literal.span⟩

theorem firstArgument_mem_preorder {call argument : Node}
    (first : call.firstArgument? = some argument) : argument ∈ call.preorder := by
  obtain ⟨passed, head, rfl⟩ := Option.map_eq_some_iff.mp first
  obtain ⟨list, found, -, member⟩ := mem_argumentNodes_iff.mp (List.mem_of_mem_head? head)
  have inList : passed.unwrap ∈ list.preorder :=
    mem_preorder_of_mem_children (mem_children_of_meaningful member) (unwrap_mem_preorder passed)
  exact mem_preorder_of_mem_children (mem_children_of_child? found) inList

theorem calleeName?_of_lowerCallAt {node : Node} {call : Call}
    (lowered : lowerCallAt 0 node = .ok call) : call.calleeName? = node.calleeName? := by
  rw [lowerCallAt_eq] at lowered
  obtain ⟨callee?, function, rest⟩ := (bind_eq_ok_iff _ _ _).mp lowered
  obtain ⟨arguments?, -, rfl⟩ := (map_eq_ok_iff _ _ _).mp rest
  rw [Call.calleeName?, calleeName?]
  cases found : node.child? "function" with
  | none =>
    rw [found] at function
    cases function
    rfl
  | some callee =>
    rw [found, Option.mapM_some] at function
    obtain ⟨expression, success, rfl⟩ := (map_eq_ok_iff _ _ _).mp function
    rw [Option.getD_some, Option.bind_some]
    cases lowersTo_of_lowerAt (by decide) success with
    | identifier named => rw [if_pos named]
    | string quoted => rw [if_neg (by rw [quoted]; decide)]
    | object braced => rw [if_neg (by rw [braced]; decide)]
    | call called => rw [if_neg (by rw [called]; decide)]; rfl
    | other unnamed => rw [if_neg unnamed]; rfl

theorem firstArgument?_of_lowerCallAt {node : Node} {call : Call}
    (lowered : lowerCallAt 0 node = .ok call) :
    match node.firstArgument? with
    | some argument => ∃ expression, call.firstArgument? = some expression ∧
        LowersTo 1 argument expression
    | none => ∀ expression, call.firstArgument? = some expression →
        ∃ kind span, expression = .other kind span := by
  rw [lowerCallAt_eq] at lowered
  obtain ⟨callee?, -, rest⟩ := (bind_eq_ok_iff _ _ _).mp lowered
  obtain ⟨arguments?, passed, rfl⟩ := (map_eq_ok_iff _ _ _).mp rest
  rw [firstArgument?, argumentNodes, Call.firstArgument?]
  cases found : node.child? "arguments" with
  | none =>
    rw [found] at passed
    cases passed
    intro expression first
    cases first
  | some list =>
    rw [found, Option.mapM_some] at passed
    obtain ⟨arguments, success, rfl⟩ := (map_eq_ok_iff _ _ _).mp passed
    rw [lowerArguments] at success
    dsimp only [Option.getD_some]
    by_cases listed : list.kind = "arguments"
    · rw [if_pos listed] at success ⊢
      have related := (mapM_eq_ok_iff _ _ _).mp success
      generalize list.meaningfulChildren = nodes at related
      cases related with
      | nil =>
        intro expression first
        cases first
      | cons here _ => exact ⟨_, rfl, lowersTo_of_lowerAt (by decide) here⟩
    · rw [if_neg listed] at success ⊢
      cases success
      intro expression first
      cases first
      exact ⟨_, _, rfl⟩

theorem literalValue?_of_other {node : Node} (unquoted : node.kind ≠ "string") :
    node.literalValue? = none := by
  rw [literalValue?, if_neg unquoted]

theorem getterUses_of_lowersTo {argument : Node} {expression : Expression}
    (lowered : LowersTo 1 argument expression) :
    ModuleRule.getterUses (some expression) = argument.getterMention?.toList.map Mention.use := by
  rw [getterMention?]
  cases lowered with
  | string quoted decoded =>
    rw [literalValue?, if_pos quoted, decoded]
    rfl
  | identifier named =>
    rw [literalValue?_of_other (by rw [named]; decide)]
    rfl
  | object braced =>
    rw [literalValue?_of_other (by rw [braced]; decide)]
    rfl
  | call called =>
    rw [literalValue?_of_other (by rw [called]; decide)]
    rfl
  | other _ unquoted =>
    rw [literalValue?_of_other unquoted]
    rfl

theorem actionUse?_of_lowersTo {value : Node} {expression : Expression}
    (lowered : LowersTo 2 value expression) (key : Option Text) (span : Span) :
    ModuleRule.actionUse? (.pair key expression span) =
      value.literalValue?.bind fun text =>
        (ModuleRule.moduleBefore? text).map fun module => ⟨"mapActions", module, value.span⟩ := by
  cases lowered with
  | string quoted decoded =>
    rw [literalValue?, if_pos quoted, decoded]
    rfl
  | identifier named =>
    rw [literalValue?_of_other (by rw [named]; decide)]
    rfl
  | object braced =>
    rw [literalValue?_of_other (by rw [braced]; decide)]
    rfl
  | call called =>
    rw [literalValue?_of_other (by rw [called]; decide)]
    rfl
  | other _ unquoted =>
    rw [literalValue?_of_other unquoted]
    rfl

theorem actionUse?_of_lowerMember {node : Node} {member : Member}
    (lowered : lowerMember 2 node = .ok member) :
    ModuleRule.actionUse? member = node.actionMention?.map Mention.use := by
  rw [lowerMember_eq] at lowered
  rw [actionMention?, pairValue?]
  by_cases paired : node.kind = "pair"
  · rw [if_pos paired] at lowered ⊢
    cases found : node.child? "value" with
    | none =>
      rw [found] at lowered
      cases lowered
      rfl
    | some value =>
      rw [found, Option.mapM_some] at lowered
      obtain ⟨_, success, keyed⟩ := (bind_eq_ok_iff _ _ _).mp lowered
      obtain ⟨expression, valued, rfl⟩ := (map_eq_ok_iff _ _ _).mp success
      obtain ⟨key, -, rfl⟩ := (map_eq_ok_iff _ _ _).mp keyed
      rw [actionUse?_of_lowersTo (lowersTo_of_lowerAt (by decide) valued), Option.bind_some]
      cases value.unwrap.literalValue? with
      | none => rfl
      | some text =>
        rw [Option.bind_some, Option.bind_some, Option.map_map]
        rfl
  · rw [if_neg paired] at lowered ⊢
    split at lowered
    · cases lowered
      rfl
    split at lowered
    · obtain ⟨key, -, rfl⟩ := (map_eq_ok_iff _ _ _).mp lowered
      rfl
    · cases lowered
      rfl

theorem actionUses_of_lowersTo {argument : Node} {expression : Expression}
    (lowered : LowersTo 1 argument expression) :
    ModuleRule.actionUses (some expression) =
      if argument.kind = "object" then
        (argument.meaningfulChildren.filterMap actionMention?).map Mention.use
      else [] := by
  cases lowered with
  | object braced members =>
    rw [if_pos braced, List.map_filterMap]
    exact filterMap_of_mapM members _ _
      fun node _ member success => actionUse?_of_lowerMember success
  | identifier named =>
    rw [if_neg (by rw [named]; decide)]
    rfl
  | string quoted =>
    rw [if_neg (by rw [quoted]; decide)]
    rfl
  | call called =>
    rw [if_neg (by rw [called]; decide)]
    rfl
  | other _ _ unbraced =>
    rw [if_neg unbraced]
    rfl

/-- What the rule looks up for a lowered call is what the call mentions. -/
theorem uses_of_lowerCallAt {node : Node} {call : Call} (lowered : lowerCallAt 0 node = .ok call) :
    ModuleRule.uses call = node.mentions.map Mention.use := by
  have first := firstArgument?_of_lowerCallAt lowered
  rw [ModuleRule.uses, calleeName?_of_lowerCallAt lowered, mentions]
  cases found : node.firstArgument? with
  | none =>
    rw [found] at first
    have unused : ModuleRule.getterUses call.firstArgument? = [] ∧
        ModuleRule.actionUses call.firstArgument? = [] := by
      cases passed : call.firstArgument? with
      | none => exact ⟨rfl, rfl⟩
      | some expression =>
        obtain ⟨kind, span, rfl⟩ := first expression passed
        exact ⟨rfl, rfl⟩
    rw [unused.1, unused.2]
    cases node.calleeName? with
    | none => rfl
    | some name => simp only [ite_self, List.map_nil]
  | some argument =>
    rw [found] at first
    obtain ⟨expression, passed, lowersTo⟩ := first
    rw [passed, getterUses_of_lowersTo lowersTo, actionUses_of_lowersTo lowersTo]
    cases node.calleeName? with
    | none => rfl
    | some name =>
      simp only [ModuleRule.gettersName, ModuleRule.actionsName, Option.some.injEq, ite_and,
        apply_ite (List.map Mention.use), List.map_nil]
      rfl

end Node

end ModuleFence
