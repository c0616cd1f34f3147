import Mathlib.Data.List.Induction
import Mathlib.Data.List.Nodup
import ModuleFence.Proofs.Expression.Decoding
import ModuleFence.Proofs.Store.Names
import ModuleFence.Script.Parse

set_option autoImplicit false

namespace ModuleFence

namespace Node

/-- What the name of a property spells: a plain name, or the value of a string literal. -/
def keyName? (key : Node) : Option Text :=
  if key.kind = "property_identifier" then some (Text.ofString key.text)
  else if key.kind = "string" then key.stringValue.toOption
  else none

/-- The key of a member of an object; computed, private and numeric names are no keys. -/
def memberName? (member : Node) : Option Text :=
  if member.kind = "pair" then
    (member.child? "value").bind fun _ => (member.child? "key").bind keyName?
  else if member.kind = "shorthand_property_identifier" then some (Text.ofString member.text)
  else if member.kind = "method_definition" then (member.child? "name").bind keyName?
  else none

def objectKeys (object : Node) : List Text :=
  object.meaningfulChildren.filterMap memberName?

theorem keyName?_of_propertyKey {key? : Option Node} {name? : Option Text}
    (success : propertyKey key? = .ok name?) : key?.bind keyName? = name? := by
  cases key? with
  | none =>
    cases success
    rfl
  | some key =>
    rw [propertyKey] at success
    rw [Option.bind_some, keyName?]
    by_cases plain : key.kind = "property_identifier"
    · rw [if_pos plain] at success ⊢
      cases success
      rfl
    rw [if_neg plain] at success ⊢
    by_cases quoted : key.kind = "string"
    · rw [if_pos quoted] at success ⊢
      obtain ⟨value, decoded, same⟩ := (bind_eq_ok_iff _ _ _).mp success
      cases same
      rw [decoded]
      rfl
    · rw [if_neg quoted] at success ⊢
      cases success
      rfl

/-- A lowered member has the key that its node has. -/
theorem key?_of_lowerMember {depth : Nat} {node : Node} {member : Member}
    (lowered : lowerMember depth node = .ok member) : member.key? = node.memberName? := by
  rw [lowerMember_eq] at lowered
  rw [memberName?]
  by_cases paired : node.kind = "pair"
  · rw [if_pos paired] at lowered ⊢
    obtain ⟨value?, valued, rest⟩ := (bind_eq_ok_iff _ _ _).mp lowered
    cases found : node.child? "value" with
    | none =>
      rw [found] at valued
      cases valued
      cases rest
      rfl
    | some value =>
      rw [found, Option.mapM_some] at valued
      obtain ⟨expression, -, rfl⟩ := (map_eq_ok_iff _ _ _).mp valued
      obtain ⟨key, keyed, rfl⟩ := (map_eq_ok_iff _ _ _).mp rest
      exact (keyName?_of_propertyKey keyed).symm
  rw [if_neg paired] at lowered ⊢
  split at lowered
  · rename_i short
    cases lowered
    rw [if_pos short]
    rfl
  rename_i long
  rw [if_neg long]
  split at lowered
  · rename_i method
    obtain ⟨key, keyed, rfl⟩ := (map_eq_ok_iff _ _ _).mp lowered
    rw [if_pos method]
    exact (keyName?_of_propertyKey keyed).symm
  · rename_i other
    cases lowered
    rw [if_neg other]
    rfl

end Node

namespace Store

/-- A lowered expression has the keys of the object that its node is without parentheses. -/
theorem keysOf_of_lowerAt {depth : Nat} {node : Node} {expression : Expression}
    (shallow : depth ≤ maxLoweringDepth) (lowered : Node.lowerAt depth node = .ok expression) :
    keysOf expression = if node.unwrap.kind = "object" then node.unwrap.objectKeys else [] := by
  cases Node.lowersTo_of_lowerAt shallow lowered with
  | identifier named =>
    rw [if_neg (by rw [named]; decide)]
    rfl
  | string quoted =>
    rw [if_neg (by rw [quoted]; decide)]
    rfl
  | object braced members =>
    rw [if_pos braced]
    exact filterMap_of_mapM members _ _ fun node _ member success =>
      Node.key?_of_lowerMember success
  | call called =>
    rw [if_neg (by rw [called]; decide)]
    rfl
  | other _ _ unbraced =>
    rw [if_neg unbraced]
    rfl

theorem isVariableDeclaration_iff (node : Node) :
    isVariableDeclaration node = true ↔
      node.kind = "lexical_declaration" ∨ node.kind = "variable_declaration" := by
  simp only [isVariableDeclaration, Bool.or_eq_true, beq_iff_eq]

/-- A declaration of variables gives a value to its only variable, which has a plain name. -/
structure Initializes (declaration value : Node) : Prop where
  declares : declaration.kind = "lexical_declaration" ∨ declaration.kind = "variable_declaration"
  single : ∃ declarator name,
    declaration.namedChildren.filter (fun child => child.kind = "variable_declarator") =
      [declarator] ∧
    declarator.child? "name" = some name ∧ name.kind = "identifier" ∧
    declarator.child? "value" = some value

theorem initialValue?_eq_some_iff (declaration value : Node) :
    initialValue? declaration = some value ↔ Initializes declaration value := by
  rw [initialValue?]
  constructor
  · intro found
    split at found
    · rename_i declares
      split at found
      · rename_i declarator single
        split at found
        · rename_i name named
          split at found
          · rename_i plain
            exact ⟨(isVariableDeclaration_iff declaration).mp declares,
              declarator, name, single, named, plain, found⟩
          · cases found
        · cases found
      · cases found
    · cases found
  · rintro ⟨declares, declarator, name, single, named, plain, initial⟩
    rw [if_pos ((isVariableDeclaration_iff declaration).mpr declares), single]
    simp only [named, plain, if_true, initial]

/-- A statement exports an object: as its value, or, when it has no value, as the initial value of
the variable that it declares. -/
inductive Exports (statement : Node) : Node → Prop where
  | value {value : Node} (valued : statement.child? "value" = some value)
      (braced : value.unwrap.kind = "object") : Exports statement value.unwrap
  | declared {declaration value : Node} (valueless : statement.child? "value" = none)
      (declares : statement.child? "declaration" = some declaration)
      (initializes : Initializes declaration value)
      (braced : value.unwrap.kind = "object") : Exports statement value.unwrap

/-- The only named child of some sort is a child. -/
theorem mem_children_of_single {node child : Node} {select : Node → Bool}
    (single : node.namedChildren.filter select = [child]) : child ∈ node.children := by
  have listed : child ∈ node.namedChildren.filter select := by
    rw [single]
    exact List.mem_singleton.mpr rfl
  exact (List.mem_filter.mp (List.mem_filter.mp listed).1).1

/-- An exported value lies in the statement that exports it. -/
theorem mem_preorder_of_exportedValue? {statement value : Node}
    (exported : exportedValue? statement = some value) : value ∈ statement.preorder := by
  rw [exportedValue?] at exported
  split at exported
  · rename_i valued
    cases exported
    exact Node.mem_preorder_of_mem_children (Node.mem_children_of_child? valued)
      (Node.self_mem_preorder value)
  · obtain ⟨declaration, declares, initial⟩ := Option.bind_eq_some_iff.mp exported
    obtain ⟨-, declarator, name, single, -, -, valued⟩ :=
      (initialValue?_eq_some_iff declaration value).mp initial
    exact Node.mem_preorder_of_mem_children (Node.mem_children_of_child? declares)
      (Node.mem_preorder_of_mem_children (mem_children_of_single single)
        (Node.mem_preorder_of_mem_children (Node.mem_children_of_child? valued)
          (Node.self_mem_preorder value)))

def exportedObject? (statement : Node) : Option Node :=
  (exportedValue? statement).bind fun value =>
    if value.unwrap.kind = "object" then some value.unwrap else none

theorem exportedObject?_eq_some_iff (statement object : Node) :
    exportedObject? statement = some object ↔ Exports statement object := by
  rw [exportedObject?, exportedValue?, Option.bind_eq_some_iff]
  constructor
  · rintro ⟨value, exported, found⟩
    split at found
    · rename_i braced
      cases found
      split at exported
      · rename_i valued
        cases exported
        exact .value valued braced
      · rename_i valueless
        obtain ⟨declaration, declares, initial⟩ := Option.bind_eq_some_iff.mp exported
        exact .declared valueless declares ((initialValue?_eq_some_iff _ _).mp initial) braced
    · cases found
  · intro exports
    cases exports with
    | @value value valued braced => exact ⟨value, by rw [valued], if_pos braced⟩
    | @declared declaration value valueless declares initializes braced =>
      refine ⟨value, ?_, if_pos braced⟩
      rw [valueless]
      exact Option.bind_eq_some_iff.mpr
        ⟨declaration, declares, (initialValue?_eq_some_iff _ _).mpr initializes⟩

/-- The keys of the objects that a program exports, in order. -/
def exportedKeys (root : Node) : List Text :=
  ((exportStatements root).filterMap exportedObject?).flatMap Node.objectKeys

/-- The elements of a list, each once, in the order in which they come first. -/
structure FirstsOf (all firsts : List Text) : Prop where
  nodup : firsts.Nodup
  mem_iff : ∀ name, name ∈ firsts ↔ name ∈ all
  ordered : firsts.Pairwise fun earlier later => all.idxOf earlier < all.idxOf later

theorem FirstsOf.appendNew {all firsts : List Text} (collected : FirstsOf all firsts) (name : Text) :
    FirstsOf (all ++ [name]) (appendNew firsts name) := by
  have old (known : Text) (member : known ∈ firsts) :
      (all ++ [name]).idxOf known = all.idxOf known :=
    List.idxOf_append_of_mem ((collected.mem_iff known).mp member)
  have ordered : firsts.Pairwise fun earlier later =>
      (all ++ [name]).idxOf earlier < (all ++ [name]).idxOf later := by
    refine collected.ordered.imp_of_mem fun {earlier later} first second before => ?_
    rw [old earlier first, old later second]
    exact before
  rw [Store.appendNew]
  split
  · rename_i present
    refine ⟨collected.nodup, fun other => ?_, ordered⟩
    rw [List.mem_append, List.mem_singleton, ← collected.mem_iff]
    exact ⟨.inl, fun either => either.elim id fun same => same ▸ present⟩
  · rename_i absent
    have fresh : name ∉ all := mt (collected.mem_iff name).mpr absent
    refine ⟨?_, fun other => ?_, ?_⟩
    · exact collected.nodup.append (List.nodup_singleton name)
        (List.disjoint_singleton.mpr absent)
    · rw [List.mem_append, List.mem_append, collected.mem_iff]
    · refine List.pairwise_append.mpr ⟨ordered, List.pairwise_singleton _ _, ?_⟩
      intro earlier member later last
      rw [List.mem_singleton.mp last, old earlier member, List.idxOf_append_of_notMem fresh]
      have inside := List.idxOf_lt_length_of_mem ((collected.mem_iff earlier).mp member)
      omega

theorem firstsOf_foldl (all : List Text) : FirstsOf all (all.foldl appendNew []) := by
  induction all using List.reverseRecOn with
  | nil => exact ⟨List.nodup_nil, fun name => Iff.rfl, List.Pairwise.nil⟩
  | append_singleton front name ih =>
    rw [List.foldl_append]
    exact ih.appendNew name

theorem keys_of_statementKeys {statement : Node} {keys : List Text}
    (success : statementKeys statement = .ok keys) :
    (exportedObject? statement).toList.flatMap Node.objectKeys = keys := by
  rw [statementKeys] at success
  rw [exportedObject?]
  cases exported : exportedValue? statement with
  | none =>
    rw [exported] at success
    cases success
    rfl
  | some value =>
    rw [exported] at success
    obtain ⟨expression, lowered, rfl⟩ := (map_eq_ok_iff keysOf _ _).mp success
    rw [keysOf_of_lowerAt (by decide) lowered, Option.bind_some]
    split
    · rw [Option.toList_some, List.flatMap_singleton]
    · rfl

theorem flatten_of_statementKeys {statements : List Node} {lists : List (List Text)}
    (success : statements.mapM statementKeys = .ok lists) :
    (statements.filterMap exportedObject?).flatMap Node.objectKeys = lists.flatten := by
  have related := (mapM_eq_ok_iff _ _ _).mp success
  clear success
  induction related with
  | nil => rfl
  | @cons statement keys statements lists here _ ih =>
    have first := keys_of_statementKeys here
    rw [List.flatten_cons, ← ih, ← first, List.filterMap_cons]
    cases exportedObject? statement with
    | none => rfl
    | some object => rw [Option.toList_some, List.flatMap_singleton]; rfl

theorem firstsOf_of_moduleNames {root : Node} {names : List Text}
    (success : moduleNames root = .ok names) : FirstsOf (exportedKeys root) names := by
  rw [moduleNames_eq] at success
  obtain ⟨lists, collected, rfl⟩ := (map_eq_ok_iff _ _ _).mp success
  rw [exportedKeys, flatten_of_statementKeys collected]
  exact firstsOf_foldl lists.flatten

/-- The module names of a program are the keys of the objects that it exports, each where it comes
first, if the literals that lowering reads in exported values can be decoded. A numeral in one of
these literals that is too large ends the collection of the names instead. -/
theorem moduleNames_firstsOf (root : Node) :
    (∀ statement object,
      exportedObject? statement = some object ↔ Exports statement object) ∧
    ((∀ value ∈ exportedValues root, value.Legible 0) →
      ∃ names, moduleNames root = .ok names ∧ FirstsOf (exportedKeys root) names) ∧
    ((¬ ∀ value ∈ exportedValues root, value.Legible 0) →
      moduleNames root = .error .numberTooLarge) ∧
    ((∀ value ∈ exportedValues root, value.Legible 0) ↔
      ∀ value ∈ exportedValues root, ∀ literal, Node.Reads literal 0 value →
        ∀ piece ∈ literal.namedChildren, ¬ piece.Overflows) := by
  refine ⟨exportedObject?_eq_some_iff, fun legible => ?_, fun illegible => ?_, ?_⟩
  · obtain ⟨names, success⟩ := (succeeds_moduleNames_iff root).mpr legible
    exact ⟨names, success, firstsOf_of_moduleNames success⟩
  · exact Escape.tooLarge_of_not_succeeds (mt (succeeds_moduleNames_iff root).mp illegible)
  · refine forall₂_congr fun value _ => forall₂_congr fun literal _ => ?_
    exact Node.succeeds_stringValue_iff literal

/-- A key that two statements export counts where it comes first. -/
theorem moduleNames_firstsOf_of_repeated_key :
    let source := "export const a = \x7b x, 'y': 1 \x7d; export default (\x7b y() \x7b\x7d, z \x7d);"
    let keys : List Text := ["x", "y", "y", "z"].map Text.ofString
    ∃ names, moduleNames (Script.parse source.toList) = .ok names ∧ FirstsOf keys names := by
  intro source keys
  have evaluated : Succeeds (moduleNames (Script.parse source.toList)) ∧
      exportedKeys (Script.parse source.toList) = keys := by
    decide +kernel
  obtain ⟨succeeds, exported⟩ := evaluated
  obtain ⟨-, collects, -⟩ := moduleNames_firstsOf (Script.parse source.toList)
  rw [← exported]
  exact collects ((succeeds_moduleNames_iff _).mp succeeds)

/-- A numeral that is too large in the value of a plain key keeps the key from being collected. -/
theorem moduleNames_of_large_value :
    let root := Script.parse "export default \x7b a: \"\\u\x7b80000000\x7d\" \x7d;".toList
    exportedKeys root = [Text.ofString "a"] ∧
      (∀ object ∈ (exportStatements root).filterMap exportedObject?,
        ∀ member ∈ object.meaningfulChildren, Succeeds (Node.propertyKey (member.child? "key"))) ∧
      moduleNames root = .error .numberTooLarge := by
  decide +kernel

end Store

end ModuleFence
