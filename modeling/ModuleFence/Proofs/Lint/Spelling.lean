import ModuleFence.Proofs.Expression.Denotation
import ModuleFence.Proofs.Lint.Respelling

/-!
Spellings of literals. Which escapes spell the characters of a literal does not matter to what is
found, with two exceptions: escapes by octal digits, and pairs of surrogates for one character. A
literal with either has another value than it denotes, and the module that it names goes unreported.
-/

set_option autoImplicit false

namespace ModuleFence

namespace Node

/-- A literal spells some characters: each stands for itself or is denoted by an escape, and line
continuations stand anywhere between them. Of the escapes by octal digits only the zero alone is
among the spellings. -/
def Spells (literal : Node) (characters : List Char) : Prop :=
  literal.LiteralDenotes (Escape.verbatim characters) ∧ literal.OctalFree

/-- A literal denotes a text with neither escapes by octal digits nor pairs of surrogates. -/
def DenotesPlainly (literal : Node) (points : Text) : Prop :=
  literal.LiteralDenotes points ∧ literal.OctalFree ∧ points.Unpaired

theorem Spells.stringValue_eq {literal : Node} {characters : List Char}
    (spells : literal.Spells characters) :
    literal.stringValue = .ok (Escape.verbatim characters) :=
  spells.1.stringValue_eq spells.2

theorem DenotesPlainly.stringValue_eq {literal : Node} {points : Text}
    (denotes : literal.DenotesPlainly points) : literal.stringValue = .ok points :=
  denotes.1.stringValue_eq denotes.2.1

/-- A getter is reported for a module exactly when its literal has the name of the module for its
value. -/
theorem misuses_of_getter {call literal : Node} (getter : call.calleeName? = some "mapGetters")
    (passed : call.firstArgument? = some literal) (quoted : literal.kind = "string")
    (path : Option Path) (name : Text) :
    call.misuses path [name] ≠ [] ↔ literal.stringValue = .ok name := by
  rw [misuses, mentions, passed]
  simp only [getter, if_true, getterMention?, literalValue?, if_pos quoted]
  cases literal.stringValue with
  | error error => simp [Except.toOption]
  | ok value => simp [Except.toOption]

end Node

namespace Linter

/-- Decoding undoes every spelling of a string, whichever escapes are used for which characters.
Hence trees that spell the same characters in their literals get the same findings, apart from their
places, and leave the same linter behind. -/
theorem spellings_agree :
    (∀ (literal : Node) (characters : List Char), literal.Spells characters →
      literal.stringValue = .ok (Escape.verbatim characters)) ∧
    ∀ root other : Node,
      Node.Respelled (fun first second => ∃ characters, first.Spells characters ∧
        second.Spells characters) root other →
      ∀ files path linter,
        (walk files path root linter).Alike (walk files path other linter) ∧
        (root.label.hasError = false → other.label.hasError = false →
          (lintTree files path root linter).Alike (lintTree files path other linter)) := by
  refine ⟨fun literal characters spells => spells.stringValue_eq, ?_⟩
  intro root other respelled files path linter
  have valued : Node.Respelled Node.SameValue root other := by
    refine respelled.mono fun literal counterpart _ related => ?_
    obtain ⟨characters, spells, also⟩ := related
    exact spells.stringValue_eq.trans also.stringValue_eq.symm
  exact ⟨walk_respelled files path valued linter,
    fun intact also => lintTree_respelled files path valued linter intact also⟩

def fragment (text : String) : Node :=
  .mk { kind := "string_fragment", text := text } []

def escapeSequence (text : String) : Node :=
  .mk { kind := "escape_sequence", text := text } []

def literalOf (pieces : List Node) : Node :=
  .mk { kind := "string" } pieces

def getterOf (literal : Node) : Node :=
  .mk { kind := "call_expression" }
    [.mk { kind := "identifier", text := "mapGetters", field := some "function" } [],
      .mk { kind := "arguments", field := some "arguments" } [literal]]

/-- A linter with the rule against one forbidden module. -/
def linterAgainst (name : Text) : Linter :=
  ⟨[.someModule (.sharing ⟨none, [name]⟩)], ⟨{}, []⟩⟩

theorem respelled_getterOf {same : Node → Node → Prop} {first second : Node}
    (respelled : Node.Respelled same first second) :
    Node.Respelled same (getterOf first) (getterOf second) := by
  have unmoved : Node.Respelled same
      (.mk { kind := "identifier", text := "mapGetters", field := some "function" } [])
      (.mk { kind := "identifier", text := "mapGetters", field := some "function" } []) :=
    .other ⟨rfl, rfl, rfl⟩ (by decide) (fun _ => rfl) (by decide) .nil
  have called : "call_expression" ≠ "string" ∧ "call_expression" ≠ "catch_clause" := by decide
  have listed : "arguments" ≠ "string" ∧ "arguments" ≠ "catch_clause" := by decide
  refine .other ⟨rfl, rfl, rfl⟩ called.1 (fun _ => rfl) (fun caught => absurd caught called.2)
    (.cons unmoved (.cons ?_ .nil))
  exact .other ⟨rfl, rfl, rfl⟩ listed.1 (fun _ => rfl) (fun caught => absurd caught listed.2)
    (.cons respelled .nil)

/-- A braced numeral, a line continuation and a numeral of two digits spell what a fragment
spells. -/
theorem spellings_agree_of_two_spellings :
    let plain := literalOf [fragment "Abc"]
    let escaped := literalOf [escapeSequence "\\u\x7b041\x7d", escapeSequence "\\\n", fragment "b",
      escapeSequence "\\x63"]
    plain.Spells "Abc".toList ∧ escaped.Spells "Abc".toList ∧
      (walk (.empty []) none (getterOf plain) (linterAgainst "Abc")).result.map List.length =
        .ok 1 ∧
      (walk (.empty []) none (getterOf escaped) (linterAgainst "Abc")).Alike
        (walk (.empty []) none (getterOf plain) (linterAgainst "Abc")) := by
  intro plain escaped
  have braced : Escape.Denotes ('u' :: '\x7b' :: (['0', '4', '1'] ++ ['\x7d']))
      [CodePoint.ofChar 'A'] :=
    .braced (by decide) (List.forall_iff_forall_mem.mp (by decide)) (by decide)
  have lineEnd : Escape.Denotes ['\n'] [] := .lineEnd (by decide)
  have byte : Escape.Denotes ('x' :: ['6', '3']) [CodePoint.ofChar 'c'] :=
    .byte rfl (List.forall_iff_forall_mem.mp (by decide)) (by decide)
  have spells : plain.Spells "Abc".toList :=
    ⟨⟨rfl, .fragment rfl rfl .done⟩, by decide +kernel⟩
  have also : escaped.Spells "Abc".toList :=
    ⟨⟨rfl, .escape rfl rfl (by decide +kernel) braced (.escape rfl rfl (by decide +kernel) lineEnd
      (.fragment rfl rfl (.escape rfl rfl (by decide +kernel) byte .done)))⟩, by decide +kernel⟩
  have respelled : Node.Respelled (fun first second => ∃ characters, first.Spells characters ∧
      second.Spells characters) escaped plain :=
    .literal ⟨rfl, rfl, rfl⟩ rfl (by decide +kernel) (by decide +kernel) ⟨_, also, spells⟩
  refine ⟨spells, also, by decide +kernel, ?_⟩
  exact (spellings_agree.2 _ _ (respelled_getterOf respelled) (.empty []) none _).1

/-- A literal has the value of one that plainly denotes the same string exactly when it does so
plainly itself; and exactly then a getter with it is reported for the module of that name. Trees
whose literals all denote the same strings plainly get the same findings, apart from their places. -/
theorem plain_spellings_agree (files : FileSystem) (path : Option Path) (linter : Linter) :
    (∀ (first second : Node) (points others : Text), first.LiteralDenotes points →
      second.DenotesPlainly others → points.units = others.units →
      (first.stringValue = second.stringValue ↔ first.DenotesPlainly points) ∧
      ∀ call : Node, call.calleeName? = some "mapGetters" → call.firstArgument? = some first →
        (call.misuses path [others] ≠ [] ↔ first.DenotesPlainly points)) ∧
    ∀ root other : Node,
      Node.Respelled (fun first second => ∃ points others, first.DenotesPlainly points ∧
        second.DenotesPlainly others ∧ points.units = others.units) root other →
      (walk files path root linter).Alike (walk files path other linter) := by
  constructor
  · intro first second points others denotes also same
    have value_eq := also.stringValue_eq
    have agree_iff : first.stringValue = second.stringValue ↔ first.DenotesPlainly points := by
      rw [denotes.stringValue_eq_iff also.1 same also.2.1 also.2.2]
      exact (and_iff_right denotes).symm
    refine ⟨agree_iff, fun call getter passed => ?_⟩
    rw [Node.misuses_of_getter getter passed denotes.1, ← value_eq, agree_iff]
  · intro root other respelled
    refine walk_respelled files path (respelled.mono fun literal counterpart _ related => ?_) linter
    obtain ⟨points, others, denotes, also, same⟩ := related
    exact (denotes.1.stringValue_eq_iff also.1 same also.2.1 also.2.2).mpr denotes.2

/-- A getter is reported for a literal that spells the name of the module by a numeral. -/
theorem plain_spellings_agree_of_numeral :
    let plain := literalOf [fragment "A"]
    let escaped := literalOf [escapeSequence "\\x41"]
    escaped.stringValue = plain.stringValue ∧ (getterOf escaped).misuses none ["A"] ≠ [] ∧
      (walk (.empty []) none (getterOf escaped) (linterAgainst "A")).Alike
        (walk (.empty []) none (getterOf plain) (linterAgainst "A")) := by
  intro plain escaped
  have byte : Escape.Denotes ('x' :: ['4', '1']) (Text.ofString "A") :=
    .byte rfl (List.forall_iff_forall_mem.mp (by decide)) (by decide)
  have unpaired : Text.Unpaired (Text.ofString "A") := List.isChain_singleton _
  have denotes : escaped.DenotesPlainly (Text.ofString "A") :=
    ⟨⟨rfl, .escape rfl rfl (by decide +kernel) byte .done⟩, by decide +kernel, unpaired⟩
  have also : plain.DenotesPlainly (Text.ofString "A") :=
    ⟨⟨rfl, .fragment rfl rfl .done⟩, by decide +kernel, unpaired⟩
  have respelled : Node.Respelled (fun first second => ∃ points others,
      first.DenotesPlainly points ∧ second.DenotesPlainly others ∧ points.units = others.units)
      escaped plain :=
    .literal ⟨rfl, rfl, rfl⟩ rfl (by decide +kernel) (by decide +kernel) ⟨_, _, denotes, also, rfl⟩
  obtain ⟨literals, trees⟩ := plain_spellings_agree (.empty []) none (linterAgainst "A")
  obtain ⟨agree_iff, reported_iff⟩ := literals escaped plain _ _ denotes.1 also rfl
  refine ⟨agree_iff.mpr denotes, (reported_iff (getterOf escaped) ?_ ?_).mpr denotes,
    trees _ _ (respelled_getterOf respelled)⟩
  · decide +kernel
  · have passed : (getterOf escaped).argumentNodes = [escaped] := rfl
    rw [Node.firstArgument?, passed]
    exact congrArg some (Node.unwrap_of_bare (Node.inner?_of_kind (by decide)))

/-- An escape by octal digits and a pair of surrogates, each for a character that a fragment holds:
the values differ, and the modules go unreported. -/
theorem octal_and_pair_unreported :
    let octal := literalOf [escapeSequence "\\101"]
    let letter := literalOf [fragment "A"]
    let pair := literalOf [escapeSequence "\\uD83D", escapeSequence "\\uDE00"]
    let face := literalOf [fragment "😀"]
    (∃ points, octal.LiteralDenotes points ∧ letter.DenotesPlainly points) ∧
      octal.stringValue ≠ letter.stringValue ∧
      (∃ points others, pair.LiteralDenotes points ∧ face.DenotesPlainly others ∧
        points.units = others.units) ∧
      pair.stringValue ≠ face.stringValue ∧
      (lintSource (.empty []) none "mapGetters('\\101');".toList (linterAgainst "A")).result =
        .ok [] ∧
      (lintSource (.empty []) none "mapGetters('A');".toList (linterAgainst "A")).result.map
        List.length = .ok 1 ∧
      (lintSource (.empty []) none "mapGetters('\\uD83D\\uDE00');".toList
        (linterAgainst "😀")).result = .ok [] ∧
      (lintSource (.empty []) none "mapGetters('😀');".toList (linterAgainst "😀")).result.map
        List.length = .ok 1 := by
  intro octal letter pair face
  have digits : Escape.Denotes ['1', '0', '1'] (Text.ofString "A") :=
    .octal (by decide) (by decide) (List.forall_iff_forall_mem.mp (by decide)) (by decide)
      (by decide)
  have leading : Escape.Denotes ('u' :: ['D', '8', '3', 'D']) [⟨0xD83D, by decide⟩] :=
    .unit rfl (List.forall_iff_forall_mem.mp (by decide)) (by decide)
  have trailing : Escape.Denotes ('u' :: ['D', 'E', '0', '0']) [⟨0xDE00, by decide⟩] :=
    .unit rfl (List.forall_iff_forall_mem.mp (by decide)) (by decide)
  refine ⟨⟨Text.ofString "A", ⟨rfl, .escape rfl rfl (by decide +kernel) digits .done⟩,
    ⟨rfl, .fragment rfl rfl .done⟩, by decide +kernel, List.isChain_singleton _⟩, ?_, ?_, ?_⟩
  · decide +kernel
  · exact ⟨_, Text.ofString "😀", ⟨rfl, .escape rfl rfl (by decide +kernel) leading
      (.escape rfl rfl (by decide +kernel) trailing .done)⟩,
      ⟨⟨rfl, .fragment rfl rfl .done⟩, by decide +kernel, List.isChain_singleton _⟩, by decide +kernel⟩
  · decide +kernel

end Linter

end ModuleFence
