import ModuleFence.Proofs.Expression.Spelling
import ModuleFence.Proofs.Lint.Files
import ModuleFence.Proofs.Lint.Need

set_option autoImplicit false

namespace ModuleFence

namespace ModuleRule

variable {rule : ModuleRule} (unstored : rule.options.storeFilePath = none) (files : FileSystem)
  (shared : Shared)

include unstored

theorem askDenyList_of_unstored :
    Succeeds (askDenyList files rule shared).result ∧
      (askDenyList files rule shared).rule.options = rule.options := by
  cases remembered : rule.denyList with
  | some names =>
    rw [askDenyList_of_remembered remembered]
    exact ⟨succeeds_ok names, rfl⟩
  | none =>
    have built : buildDenyList files rule shared =
        ⟨.ok rule.options.forbiddenModules, rule, shared⟩ := by
      simp only [buildDenyList, unstored]
    simp only [askDenyList, remembered, built]
    exact ⟨succeeds_ok _, rfl⟩

theorem checkUses_of_unstored (path : Option Path) (uses : List Use) :
    Succeeds (checkUses files path uses rule shared).result ∧
      (checkUses files path uses rule shared).rule.options = rule.options := by
  induction uses generalizing rule shared with
  | nil => exact ⟨succeeds_ok [], rfl⟩
  | cons use rest ih =>
    obtain ⟨⟨names, asked⟩, options_eq⟩ := askDenyList_of_unstored unstored files shared
    obtain ⟨⟨later, checked⟩, remains⟩ := ih (options_eq ▸ unstored)
      (askDenyList files rule shared).shared
    simp only [checkUses, isForbidden, asked, Except.map, checked]
    exact ⟨succeeds_ok _, remains.trans options_eq⟩

end ModuleRule

namespace Rule

/-- A rule whose deny-list is configured without a store file. -/
def Unstored : Rule → Prop
  | emptyCatch => True
  | someModule rule => rule.options.storeFilePath = none

variable (files : FileSystem) (path : Option Path) (shown : Visit) (shared : Shared)

theorem Unstored.visit {rule : Rule} (unstored : rule.Unstored) :
    Succeeds (rule.visit files path shown shared).result ∧
      (rule.visit files path shown shared).rules.Unstored := by
  cases rule with
  | emptyCatch =>
    rw [Visit.visit_emptyCatch files path shown shared []]
    exact ⟨succeeds_ok _, trivial⟩
  | someModule rule =>
    rw [Visit.visit_someModule]
    obtain ⟨succeeds, options_eq⟩ :=
      ModuleRule.checkUses_of_unstored unstored files shared path shown.uses
    refine ⟨succeeds, ?_⟩
    show (ModuleRule.checkUses files path shown.uses rule shared).rule.options.storeFilePath = none
    rw [options_eq]
    exact unstored

theorem visitAll_of_unstored {rules : List Rule} (unstored : ∀ rule ∈ rules, rule.Unstored) :
    Succeeds (visitAll files path shown rules shared).result ∧
      ∀ rule ∈ (visitAll files path shown rules shared).rules, rule.Unstored := by
  induction rules generalizing shared with
  | nil => exact ⟨succeeds_ok [], unstored⟩
  | cons rule rest ih =>
    rw [List.forall_mem_cons] at unstored
    obtain ⟨⟨here, visited⟩, remains⟩ := unstored.1.visit files path shown shared
    obtain ⟨⟨later, others⟩, remain⟩ := ih (rule.visit files path shown shared).shared unstored.2
    simp only [visitAll, visited, others]
    exact ⟨succeeds_ok _, List.forall_mem_cons.mpr ⟨remains, remain⟩⟩

end Rule

namespace Linter

/-- All rules of a linter have their deny-lists without a store file. -/
def Unstored (linter : Linter) : Prop :=
  ∀ rule ∈ linter.rules, rule.Unstored

variable {linter : Linter}

/-- Rules without a store see all nodes, unless a call among these cannot be lowered. -/
theorem Unstored.visitNodes (unstored : linter.Unstored) (files : FileSystem) (path : Option Path)
    (nodes : List Node) :
    (visitNodes files path nodes linter).linter.Unstored ∧
      ((∀ node ∈ nodes, node.kind = "call_expression" → node.Legible 0) →
        Succeeds (visitNodes files path nodes linter).result) ∧
      ∀ failure, (visitNodes files path nodes linter).result = .error failure →
        failure = .escape .numberTooLarge := by
  induction nodes generalizing linter with
  | nil =>
    refine ⟨unstored, fun _ => succeeds_ok [], ?_⟩
    rintro _ ⟨⟩
  | cons node rest ih =>
    rw [Linter.visitNodes, List.forall_mem_cons]
    cases shown : node.visit? with
    | none =>
      obtain ⟨remains, succeeds, fails⟩ := ih unstored
      exact ⟨remains, fun legible => succeeds legible.2, fails⟩
    | some visit =>
      cases visit with
      | error error =>
        cases error
        refine ⟨unstored, fun legible => ?_, ?_⟩
        · rcases Node.visit?_of_legible legible.1 with unvisited | ⟨visit, visited⟩
          · rw [shown] at unvisited
            cases unvisited
          · rw [shown] at visited
            cases visited
        · rintro _ ⟨⟩
          rfl
      | ok visit =>
        obtain ⟨⟨here, visited⟩, remain⟩ :=
          Rule.visitAll_of_unstored files path visit linter.shared unstored
        simp only [visited]
        have after : Linter.Unstored
            ⟨(Rule.visitAll files path visit linter.rules linter.shared).rules,
              (Rule.visitAll files path visit linter.rules linter.shared).shared⟩ := remain
        obtain ⟨remains, succeeds, fails⟩ := ih after
        refine ⟨remains, fun legible => ?_, ?_⟩
        · obtain ⟨diagnostics, later⟩ := succeeds legible.2
          rw [later]
          exact succeeds_ok _
        · intro failure failed
          refine fails failure ?_
          generalize (Linter.visitNodes files path rest _).result = result at failed
          cases result with
          | ok diagnostics => cases failed
          | error other => exact failed

/-- A tree is linted to its end without a store exactly when it is damaged or its calls can be
lowered. -/
theorem Unstored.lintTree (unstored : linter.Unstored) (files : FileSystem) (path : Option Path)
    (root : Node) :
    (lintTree files path root linter).linter.Unstored ∧
      (Succeeds (lintTree files path root linter).result ↔
        (root.label.hasError = false → root.CallsLegible)) ∧
      ∀ failure, (lintTree files path root linter).result = .error failure →
        failure = .escape .numberTooLarge := by
  cases damaged : root.label.hasError with
  | true =>
    obtain ⟨error, refused⟩ := Node.checked_of_damaged damaged (path.map Path.toText)
    rw [Linter.lintTree, refused]
    refine ⟨unstored, iff_of_true (succeeds_ok _) fun impossible => (by cases impossible), ?_⟩
    rintro _ ⟨⟩
  | false =>
    obtain ⟨remains, succeeds, fails⟩ := unstored.visitNodes files path root.walk
    have walked : Linter.lintTree files path root linter =
        Linter.visitNodes files path root.walk linter := by
      rw [Linter.lintTree, Node.checked_of_intact damaged]
      rfl
    refine ⟨walked ▸ remains, ⟨?_, ?_⟩, walked ▸ fails⟩
    · rintro ⟨diagnostics, success⟩ -
      exact callsLegible_of_lintTree success damaged
    · intro legible
      rw [walked]
      refine succeeds fun node member called => ?_
      rw [Node.walk_eq_preorder] at member
      exact legible rfl node (Node.mem_calls_iff.mpr ⟨member, called⟩)

variable {parser : SourceParser} {files : FileSystem}

theorem Linted.unstored {start last : Linter} {paths : List Path}
    {groups : List (List Diagnostic)} {checked : Nat}
    (linted : Linted parser files start paths groups checked last) (unstored : start.Unstored) :
    last.Unstored ∧ ∀ path ∈ paths, ∀ source, SourceFile.load files path = .ok source →
      (parser source.characters).label.hasError = false →
        (parser source.characters).CallsLegible := by
  induction linted with
  | nil linter => exact ⟨unstored, fun _ impossible => absurd impossible List.not_mem_nil⟩
  | unreadable unread _ _ ih =>
    obtain ⟨remains, others⟩ := ih unstored
    refine ⟨remains, List.forall_mem_cons.mpr ⟨?_, others⟩⟩
    intro source loaded
    rw [unread] at loaded
    cases loaded
  | @checked linter next _ path _ source diagnostics _ _ loaded ended _ ih =>
    obtain ⟨after, -⟩ := unstored.lintTree files (some path) (parser source.characters)
    rw [ended] at after
    obtain ⟨remains, others⟩ := ih after
    refine ⟨remains, List.forall_mem_cons.mpr ⟨?_, others⟩⟩
    intro other same intact
    rw [loaded] at same
    cases same
    exact callsLegible_of_lintTree (congrArg Answer.result ended) intact

/-- All paths of a run count as checked files if they can be read. -/
theorem Linted.checked_eq {start last : Linter} {paths : List Path}
    {groups : List (List Diagnostic)} {checked : Nat}
    (linted : Linted parser files start paths groups checked last)
    (readable : ∀ path ∈ paths, Succeeds (SourceFile.load files path)) :
    checked = paths.length := by
  induction linted with
  | nil linter => rfl
  | unreadable unread _ _ _ =>
    obtain ⟨source, loaded⟩ := (List.forall_mem_cons.mp readable).1
    rw [unread] at loaded
    cases loaded
  | checked _ _ _ ih => rw [List.length_cons, ih (List.forall_mem_cons.mp readable).2]

theorem Stops.of_unstored {linter last : Linter} {path : Path} {failure : Failure}
    (stops : Stops parser files linter path failure last) (unstored : linter.Unstored)
    (readable : Succeeds (SourceFile.load files path)) :
    failure = .escape .numberTooLarge ∧ ∃ source, SourceFile.load files path = .ok source ∧
      (parser source.characters).label.hasError = false ∧
        ¬ (parser source.characters).CallsLegible := by
  cases stops with
  | refused null =>
    obtain ⟨source, loaded⟩ := readable
    rw [null] at loaded
    cases loaded
  | @failed source _ _ loaded ended =>
    obtain ⟨-, succeeds_iff, fails⟩ :=
      unstored.lintTree files (some path) (parser source.characters)
    rw [ended] at succeeds_iff fails
    have illegible := mt succeeds_iff.mpr (not_succeeds_error failure)
    exact ⟨fails failure rfl, source, loaded, Classical.not_imp.mp illegible⟩

/-- A file that has no numeral that is too large in a literal of a call, unless its tree is
damaged. -/
def FileFits (parser : SourceParser) (files : FileSystem) (path : Path) : Prop :=
  ∀ source, SourceFile.load files path = .ok source →
    (parser source.characters).label.hasError = false → (parser source.characters).NumbersFit

/-- A file that can be read, and whose escape sequences have the spellings of the grammar. -/
def FileSpelled (parser : SourceParser) (files : FileSystem) (path : Path) : Prop :=
  ∃ source, SourceFile.load files path = .ok source ∧ (parser source.characters).EscapesSpelled

theorem FileSpelled.readable {path : Path} (spelled : FileSpelled parser files path) :
    Succeeds (SourceFile.load files path) := by
  obtain ⟨source, loaded, -⟩ := spelled
  exact ⟨source, loaded⟩

theorem FileSpelled.fits_iff {path : Path} (spelled : FileSpelled parser files path) :
    FileFits parser files path ↔ ∀ source, SourceFile.load files path = .ok source →
      (parser source.characters).label.hasError = false →
        (parser source.characters).CallsLegible := by
  obtain ⟨source, loaded, spelled⟩ := spelled
  simp only [FileFits, loaded, Except.ok.injEq, forall_eq', spelled.callsLegible_iff]

theorem Linted.fileFits {start last : Linter} {paths : List Path}
    {groups : List (List Diagnostic)} {checked : Nat}
    (linted : Linted parser files start paths groups checked last) (unstored : start.Unstored)
    {path : Path} (member : path ∈ paths) (spelled : FileSpelled parser files path) :
    FileFits parser files path :=
  spelled.fits_iff.mpr ((linted.unstored unstored).2 path member)

theorem Stops.not_fileFits {linter last : Linter} {path : Path} {failure : Failure}
    (stops : Stops parser files linter path failure last) (unstored : linter.Unstored)
    (spelled : FileSpelled parser files path) :
    failure = .escape .numberTooLarge ∧ ¬ FileFits parser files path := by
  obtain ⟨failure_eq, source, loaded, intact, illegible⟩ :=
    stops.of_unstored unstored spelled.readable
  refine ⟨failure_eq, ?_⟩
  rw [spelled.fits_iff]
  exact fun every => illegible (every source loaded intact)

/-- What linting without a store needs of sources whose escape sequences have the spellings of the
grammar: no braced numeral of more than 32 bits in a literal of a call. A tree without one is linted
to its end, and a run over files then checks each of them. Such a numeral ends the run at the first
file that has one, with the report that the files before had made. -/
theorem lintFiles_completes_iff (files : FileSystem) (linter : Linter)
    (unstored : linter.Unstored) :
    (∀ spelling, Escape.Spelled spelling →
      (Succeeds (Escape.decode spelling) ↔ ¬ Escape.TooLarge spelling)) ∧
    (∀ (path : Option Path) (root : Node), root.EscapesSpelled →
      (Succeeds (lintTree files path root linter).result ↔
        (root.label.hasError = false → root.NumbersFit)) ∧
      ∀ failure, (lintTree files path root linter).result = .error failure →
        failure = .escape .numberTooLarge) ∧
    ∀ (parser : SourceParser) (paths : List Path) (report : Report),
      (∀ path ∈ paths, FileSpelled parser files path) →
      let progress := lintFilesWith parser files paths report linter
      (progress.failure = none ↔ ∀ path ∈ paths, FileFits parser files path) ∧
      (progress.failure = none →
        progress.report.filesChecked = report.filesChecked + paths.length) ∧
      ∀ failure, progress.failure = some failure → failure = .escape .numberTooLarge ∧
        ∃ before path behind, paths = before ++ path :: behind ∧
          (∀ earlier ∈ before, FileFits parser files earlier) ∧ ¬ FileFits parser files path ∧
          progress.report = (lintFilesWith parser files before report linter).report := by
  refine ⟨?_, ?_, ?_⟩
  · intro spelling spelled
    rw [Escape.succeeds_decode_iff, Escape.number?_fits_iff_of_spelled spelled]
  · intro path root spelled
    obtain ⟨-, succeeds_iff, fails⟩ := unstored.lintTree files path root
    rw [succeeds_iff, spelled.callsLegible_iff]
    exact ⟨Iff.rfl, fails⟩
  · intro parser paths report spelled progress
    obtain ⟨before, groups, checked, last, linted, ended⟩ :=
      exists_linted parser files paths linter
    rcases ended with rfl | ⟨path, behind, failure, after, rfl, stops⟩
    · have progress_eq : progress = ⟨none, grown report groups checked, last⟩ := linted.run report
      rw [progress_eq, ← linted.checked_eq fun path member => (spelled path member).readable]
      refine ⟨iff_of_true rfl fun path member => ?_, fun _ => rfl,
        fun _ impossible => by cases impossible⟩
      exact linted.fileFits unstored member (spelled path member)
    · have progress_eq : progress = ⟨some failure, grown report groups checked, after⟩ :=
        linted.run_of_stops stops behind report
      have here : path ∈ before ++ path :: behind := by simp
      obtain ⟨failure_eq, unfit⟩ :=
        stops.not_fileFits (linted.unstored unstored).1 (spelled path here)
      rw [progress_eq]
      refine ⟨iff_of_false (by simp) fun every => unfit (every path here),
        fun impossible => (by cases impossible), ?_⟩
      rintro _ ⟨rfl⟩
      refine ⟨failure_eq, before, path, behind, rfl, fun earlier member => ?_, unfit, ?_⟩
      · exact linted.fileFits unstored member (spelled earlier (List.mem_append_left _ member))
      · rw [linted.run]

/-- A file with the largest numeral that is not too large, and a file behind it. -/
theorem lintFiles_completes_iff_of_largest :
    let source := "f(\"\\u\x7b7FFFFFFF\x7d\");"
    let files := ((FileSystem.empty []).put ["a.js"] (.file source.toUTF8.toList)).put ["b.js"]
      (.file "mapGetters('a');".toUTF8.toList)
    let progress := lintFilesWith Script.parse files
      [⟨.relative, ["a.js"]⟩, ⟨.relative, ["b.js"]⟩] {}
      ⟨[.emptyCatch, .someModule (.sharing ⟨none, ["a"]⟩)], ⟨{}, []⟩⟩
    progress.failure = none ∧ progress.report.filesChecked = 2 := by
  intro source files progress
  let paths : List Path := [⟨.relative, ["a.js"]⟩, ⟨.relative, ["b.js"]⟩]
  let sources := [source.toList, "mapGetters('a');".toList]
  let body := 'u' :: '\x7b' :: ("7FFFFFFF".toList ++ ['\x7d'])
  have decoded : Utf8.decode source.toUTF8.toList = .ok source.toList ∧
      Utf8.decode "mapGetters('a');".toUTF8.toList = .ok "mapGetters('a');".toList := by
    decide +kernel
  have first : SourceFile.load files ⟨.relative, ["a.js"]⟩ =
      .ok ⟨⟨.relative, ["a.js"]⟩, source.toList⟩ :=
    SourceFile.load_of_file (by simp [FileSystem.hasNull]) rfl decoded.1 (by decide +kernel)
  have second : SourceFile.load files ⟨.relative, ["b.js"]⟩ =
      .ok ⟨⟨.relative, ["b.js"]⟩, "mapGetters('a');".toList⟩ :=
    SourceFile.load_of_file (by simp [FileSystem.hasNull]) rfl decoded.2 (by decide +kernel)
  have loaded : ∀ path ∈ paths, ∃ file, SourceFile.load files path = .ok file ∧
      file.characters ∈ sources := by
    rw [List.forall_mem_cons, List.forall_mem_singleton]
    exact ⟨⟨_, first, .head _⟩, ⟨_, second, .tail _ (.head _)⟩⟩
  have escapes : ∀ characters ∈ sources, ∀ literal ∈ (Script.parse characters).preorder,
      literal.kind = "string" → ∀ piece ∈ literal.namedChildren,
        piece.kind = "escape_sequence" → piece.text.toList = '\\' :: body := by
    decide +kernel
  have hex : ∀ digit ∈ "7FFFFFFF".toList, digit ∈ Numeral.hexCharacters :=
    Numeral.mem_hexCharacters_of_all (by decide)
  have spelled : Escape.Spelled ('\\' :: body) := ⟨body, rfl, .braced hex⟩
  have small : ¬ Escape.TooLarge ('\\' :: body) := by
    rw [← Escape.number?_fits_iff_of_spelled spelled, Escape.number?_of_braced hex]
    rintro _ ⟨⟩
    rw [Escape.Fits]
    decide
  obtain ⟨-, -, completes⟩ := lintFiles_completes_iff files
    ⟨[.emptyCatch, .someModule (.sharing ⟨none, ["a"]⟩)], ⟨{}, []⟩⟩
    (List.forall_mem_cons.mpr ⟨trivial, List.forall_mem_singleton.mpr rfl⟩)
  obtain ⟨fits_iff, counts, -⟩ := completes Script.parse paths {} fun path member => by
    obtain ⟨file, readable, known⟩ := loaded path member
    exact ⟨file, readable, fun literal inside quoted piece within escaped =>
      escapes _ known literal inside quoted piece within escaped ▸ spelled⟩
  have completed : progress.failure = none := by
    refine fits_iff.mpr fun path member other same _ => ?_
    obtain ⟨file, readable, known⟩ := loaded path member
    cases readable.symm.trans same
    exact Node.numbersFit_of_preorder fun literal inside quoted piece within escaped =>
      escapes _ known literal inside quoted piece within escaped ▸ small
  exact ⟨completed, counts completed⟩

/-- A numeral that is too large ends the run: the misuse in the file behind it is not reported. -/
theorem lintFiles_of_large_numeral :
    let source := "f(\"\\u\x7b80000000\x7d\");"
    let files := ((FileSystem.empty []).put ["a.js"] (.file source.toUTF8.toList)).put ["b.js"]
      (.file "mapGetters('a');".toUTF8.toList)
    let linter : Linter := ⟨[.emptyCatch, .someModule (.sharing ⟨none, ["a"]⟩)], ⟨{}, []⟩⟩
    linter.Unstored ∧ (Script.parse source.toList).EscapesSpelled ∧
      (lintFiles files [⟨.relative, ["b.js"]⟩] {} linter).report.diagnostics.length = 1 ∧
      ∃ last, lintFiles files [⟨.relative, ["a.js"]⟩, ⟨.relative, ["b.js"]⟩] {} linter =
        ⟨some (.escape .numberTooLarge), {}, last⟩ := by
  intro source files linter
  have decoded : Utf8.decode source.toUTF8.toList = .ok source.toList ∧
      Utf8.decode "mapGetters('a');".toUTF8.toList = .ok "mapGetters('a');".toList := by
    decide +kernel
  have first : SourceFile.load files ⟨.relative, ["a.js"]⟩ =
      .ok ⟨⟨.relative, ["a.js"]⟩, source.toList⟩ :=
    SourceFile.load_of_file (by simp [FileSystem.hasNull]) rfl decoded.1 (by decide +kernel)
  have second : SourceFile.load files ⟨.relative, ["b.js"]⟩ =
      .ok ⟨⟨.relative, ["b.js"]⟩, "mapGetters('a');".toList⟩ :=
    SourceFile.load_of_file (by simp [FileSystem.hasNull]) rfl decoded.2 (by decide +kernel)
  have fails : (lintTree files (some ⟨.relative, ["a.js"]⟩) (Script.parse source.toList)
      linter).result = .error (.escape .numberTooLarge) := by
    decide +kernel
  have lints : (lintTree files (some ⟨.relative, ["b.js"]⟩)
      (Script.parse "mapGetters('a');".toList) linter).result = .ok [
        { ruleId := "disallow-some-module"
          message := "mapGetters: not allowed to use a"
          span := ⟨1, 12, 1, 15, 11, 14⟩
          nodeKind := "string"
          filePath := some ⟨.relative, ["b.js"]⟩ }] := by
    decide +kernel
  have escapes : ∀ literal ∈ (Script.parse source.toList).preorder, literal.kind = "string" →
      ∀ piece ∈ literal.namedChildren, piece.kind = "escape_sequence" →
        piece.text.toList = '\\' :: 'u' :: '\x7b' :: ("80000000".toList ++ ['\x7d']) := by
    decide +kernel
  have stops : Stops Script.parse files linter ⟨.relative, ["a.js"]⟩ _ _ :=
    .failed first (Answer.eq_mk fails)
  have linted : Linted Script.parse files linter [⟨.relative, ["b.js"]⟩] _ 1 _ :=
    .checked second (Answer.eq_mk lints) (.nil _)
  refine ⟨?_, ?_, ?_, ?_⟩
  · exact List.forall_mem_cons.mpr ⟨trivial, List.forall_mem_singleton.mpr rfl⟩
  · exact fun literal inside quoted piece within escaped =>
      ⟨_, escapes literal inside quoted piece within escaped,
        .braced (Numeral.mem_hexCharacters_of_all (by decide))⟩
  · rw [lintFiles_eq_lintFilesWith, linted.run]
    rfl
  · rw [lintFiles_eq_lintFilesWith]
    exact ⟨_, (Linted.nil linter).run_of_stops stops _ {}⟩

end Linter

end ModuleFence
