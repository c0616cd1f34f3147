import ModuleFence.Proofs.Lint.Findings
import ModuleFence.Proofs.Tree.Damage

set_option autoImplicit false

namespace ModuleFence

open Node (at? isDamage)

/-- The message of a syntax error whose place is known. -/
theorem SyntaxError.message_of_place (path : Option Text) (line column : Int) :
    SyntaxError.message ⟨path, some line, some column⟩ =
      Text.concat ["Syntax error in ", path.getD "<source>", ":", Text.ofInt line, ":",
        Text.ofInt column] := by
  simp only [message, place, sourceName, Option.getD_some, Text.concat, List.flatten_cons,
    List.flatten_nil, List.append_nil]

theorem Linter.orOne_succ (number : Nat) : orOne (some ((number : Int) + 1)) = number + 1 := by
  rw [orOne, if_neg]
  omega

/-- A damaged tree is a syntax error at the start of its first damage. -/
theorem Node.FlagsDamage.checked_eq {root : Node} (faithful : root.FlagsDamage)
    (damaged : root.label.hasError = true) :
    ∃ damage, root.preorder.find? isDamage = some damage ∧ ∀ path : Option Text,
      root.checked path = .error
        ⟨path, some (damage.label.start.row + 1), some (damage.label.start.column + 1)⟩ := by
  obtain ⟨inner, below, broken⟩ := (faithful root root.self_mem_preorder).mp damaged
  cases found : root.preorder.find? isDamage with
  | none => exact absurd broken (List.find?_eq_none.mp found inner below)
  | some damage =>
    refine ⟨damage, rfl, fun path => ?_⟩
    rw [checked, if_pos damaged, faithful.firstDamage?_eq, found]
    rfl

namespace Linter

/-- The search for damage finds the first, in the order of a tree, to which flagged nodes lead. Where
exactly the nodes that hold damage are flagged, it finds the first damage of all, if there is any; a
tree whose root is flagged does not parse, for a reason that names the line and the column of that
damage, and linting it reports just this, at that place, whatever the rules are. -/
theorem lintTree_at_first_damage (root : Node) :
    root.firstDamage? =
      (root.addresses.find? fun address => root.Exposed address).bind (at? · root) ∧
    (root.FlagsDamage →
      root.firstDamage? = root.preorder.find? isDamage ∧
      (root.firstDamage? = none ↔ ∀ node ∈ root.preorder, node.isDamage = false) ∧
      (∀ path, Succeeds (root.checked path) ↔ root.label.hasError = false) ∧
      (root.label.hasError = true →
        ∃ damage, root.preorder.find? isDamage = some damage ∧
          let line : Int := damage.label.start.row + 1
          let column : Int := damage.label.start.column + 1
          (∀ path, root.checked path = .error ⟨path, some line, some column⟩) ∧
          ∀ (files : FileSystem) (path : Option Path) (linter : Linter),
            let reason := Text.concat ["Syntax error in ", (path.map Path.toText).getD "<source>",
              ":", Text.ofInt line, ":", Text.ofInt column]
            lintTree files path root linter =
              ⟨.ok [{ ruleId := "parse-error"
                      message := Text.concat ["Parsing error: ", reason]
                      span := ⟨line, column, line, column, 0, 0⟩
                      nodeKind := "ERROR"
                      filePath := path
                      severity := .error }],
                ⟨linter.rules, linter.shared.resolver, linter.shared.records ++
                  [⟨.debug, .linting, Text.concat ["Skipping ",
                    (path.map Path.toText).getD "<source>", ": ", reason]⟩]⟩⟩)) := by
  refine ⟨Node.firstDamage?_eq_find?_addresses root, fun faithful => ⟨faithful.firstDamage?_eq, ?_,
    fun path => ?_, fun damaged => ?_⟩⟩
  · rw [faithful.firstDamage?_eq, List.find?_eq_none]
    simp only [Bool.not_eq_true]
  · cases damaged : root.label.hasError with
    | false =>
      rw [Node.checked_of_intact damaged]
      exact iff_of_true (succeeds_ok root) rfl
    | true =>
      obtain ⟨damage, -, refused⟩ := faithful.checked_eq damaged
      rw [refused]
      exact iff_of_false (not_succeeds_error _) Bool.noConfusion
  · obtain ⟨damage, first, refused⟩ := faithful.checked_eq damaged
    refine ⟨damage, first, refused, fun files path linter => ?_⟩
    rw [lintTree, refused]
    simp only [unparsable, skippedRecord, orOne_succ, SyntaxError.message_of_place]
    rfl

/-- A program with a call, an unnamed node around what fits no rule, and a missing semicolon. -/
def brokenProgram : Node :=
  .mk { kind := "program", hasError := true } [
    .mk { kind := "call_expression", stop := ⟨0, 3, 3⟩ } [],
    .mk { kind := "\x7b", start := ⟨1, 0, 4⟩, stop := ⟨2, 9, 17⟩, isNamed := false, hasError := true } [
      .mk { kind := "identifier", start := ⟨1, 2, 6⟩, stop := ⟨1, 3, 7⟩, text := "a" } [],
      .mk { kind := "ERROR", start := ⟨2, 4, 12⟩, stop := ⟨2, 9, 17⟩, hasError := true } []],
    .mk { kind := ";", start := ⟨2, 9, 17⟩, stop := ⟨2, 9, 17⟩, isNamed := false, isMissing := true,
          hasError := true } []]

theorem lintTree_at_first_damage_of_unnamed :
    brokenProgram.FlagsDamage ∧ brokenProgram.label.hasError = true ∧
      (brokenProgram.addresses.find? fun address => brokenProgram.Exposed address) = some [1, 1] ∧
      ∀ (files : FileSystem) (linter : Linter),
        (lintTree files (some (Path.ofString "a.js")) brokenProgram linter).result =
          .ok [{ ruleId := "parse-error"
                 message := "Parsing error: Syntax error in a.js:3:5"
                 span := ⟨3, 5, 3, 5, 0, 0⟩
                 nodeKind := "ERROR"
                 filePath := some (Path.ofString "a.js") }] := by
  have faithful : brokenProgram.FlagsDamage := by decide +kernel
  obtain ⟨-, searched⟩ := lintTree_at_first_damage brokenProgram
  obtain ⟨-, -, -, reports⟩ := searched faithful
  obtain ⟨damage, first, -, linted⟩ := reports rfl
  have place : damage.label.start = ⟨2, 4, 12⟩ := by
    have known : (brokenProgram.preorder.find? isDamage).map (·.label.start) = some ⟨2, 4, 12⟩ := by
      decide +kernel
    rw [first] at known
    exact Option.some.inj known
  refine ⟨faithful, rfl, by decide +kernel, fun files linter => ?_⟩
  rw [linted, place]
  exact congrArg Except.ok (by decide)

end Linter

end ModuleFence
