import Mathlib.Data.List.Flatten
import ModuleFence.Lint.Files
import ModuleFence.Proofs.Firsts
import ModuleFence.Proofs.Lint.Independence

set_option autoImplicit false

namespace ModuleFence

open ModuleRule (Consultation consulted denied)

/-- How often a diagnostic is reported for each time that a run without repeated rules reports it: as
often as its rule was made, or once if it is of no rule. -/
def multiplicity (ids : List RuleId) (diagnostic : Diagnostic) : Nat :=
  match RuleId.ofName? diagnostic.ruleId with
  | some id => ids.count id
  | none => 1

/-- Some diagnostics are those of a run without repeated rules, each repeated as its rule is. -/
structure Repeats (ids : List RuleId) (whole once : List Diagnostic) : Prop where
  sublist : once.Sublist whole
  count_eq : ∀ diagnostic,
    whole.count diagnostic = multiplicity ids diagnostic * once.count diagnostic

namespace Repeats

variable {ids : List RuleId} {whole once further : List Diagnostic}

theorem nil (ids : List RuleId) : Repeats ids [] [] :=
  ⟨List.Sublist.refl _, fun _ => rfl⟩

theorem append {others : List Diagnostic} (here : Repeats ids whole once)
    (there : Repeats ids further others) : Repeats ids (whole ++ further) (once ++ others) := by
  refine ⟨here.sublist.append there.sublist, fun diagnostic => ?_⟩
  rw [List.count_append, List.count_append, here.count_eq, there.count_eq, Nat.mul_add]

/-- A diagnostic of no rule is not repeated. -/
theorem of_no_rule {diagnostic : Diagnostic} (unruled : RuleId.ofName? diagnostic.ruleId = none) :
    Repeats ids [diagnostic] [diagnostic] := by
  refine ⟨List.Sublist.refl _, fun other => ?_⟩
  by_cases same : diagnostic = other
  · subst same
    rw [multiplicity, unruled, Nat.one_mul]
  · rw [List.count_cons_of_ne same, List.count_nil, Nat.mul_zero]

theorem eq_nil_iff (repeats : Repeats ids whole once) : whole = [] ↔ once = [] := by
  constructor
  · rintro rfl
    exact List.sublist_nil.mp repeats.sublist
  · rintro rfl
    refine List.eq_nil_iff_forall_not_mem.mpr fun diagnostic member => ?_
    have count := repeats.count_eq diagnostic
    rw [List.count_nil, Nat.mul_zero] at count
    exact List.count_eq_zero.mp count member

/-- Nothing is repeated exactly if no rule with a finding is. -/
theorem eq_iff (repeats : Repeats ids whole once) :
    once = whole ↔ ∀ diagnostic ∈ once, multiplicity ids diagnostic = 1 := by
  constructor
  · rintro rfl diagnostic member
    have count := repeats.count_eq diagnostic
    have positive := List.count_pos_iff.mpr member
    exact Nat.eq_of_mul_eq_mul_right positive (by rw [← count, Nat.one_mul])
  · intro single
    have same : once.Perm whole := by
      refine List.perm_iff_count.mpr fun diagnostic => ?_
      rw [repeats.count_eq]
      by_cases member : diagnostic ∈ once
      · rw [single diagnostic member, Nat.one_mul]
      · rw [List.count_eq_zero.mpr member, Nat.mul_zero]
    exact repeats.sublist.eq_of_length same.length_eq

end Repeats

section Parts

variable {parts : RuleId → List Diagnostic}
  (own : ∀ id, ∀ diagnostic ∈ parts id, diagnostic.ruleId = Text.ofString id.name)

include own

theorem count_of_other {id other : RuleId} {diagnostic : Diagnostic}
    (named : RuleId.ofName? diagnostic.ruleId = some other) (different : id ≠ other) :
    (parts id).count diagnostic = 0 := by
  refine List.count_eq_zero.mpr fun member => ?_
  rw [own id diagnostic member, RuleId.ofName?_name] at named
  exact different (Option.some.inj named)

/-- Each rule of a list finds its own findings, as often as it is in the list. -/
theorem count_flatMap_of_rule {id : RuleId} {diagnostic : Diagnostic}
    (named : RuleId.ofName? diagnostic.ruleId = some id) (ids : List RuleId) :
    (ids.flatMap parts).count diagnostic = ids.count id * (parts id).count diagnostic := by
  induction ids with
  | nil => simp
  | cons first rest ih =>
    rw [List.flatMap_cons, List.count_append, ih]
    by_cases same : first = id
    · subst same
      rw [List.count_cons_self, Nat.succ_mul, Nat.add_comm]
    · rw [count_of_other own named same, List.count_cons_of_ne same, Nat.zero_add]

theorem count_flatMap_of_no_rule {diagnostic : Diagnostic}
    (unruled : RuleId.ofName? diagnostic.ruleId = none) (ids : List RuleId) :
    (ids.flatMap parts).count diagnostic = 0 := by
  refine List.count_eq_zero.mpr fun member => ?_
  obtain ⟨id, -, found⟩ := List.mem_flatMap.mp member
  rw [own id diagnostic found, RuleId.ofName?_name] at unruled
  cases unruled

/-- Repeated rules find what the rules find, as often as they are repeated. -/
theorem repeats_flatMap (ids : List RuleId) :
    Repeats ids (ids.flatMap parts) (ids.eraseDups.flatMap parts) := by
  refine ⟨(eraseDups_sublist ids).flatMap parts, fun diagnostic => ?_⟩
  rw [multiplicity]
  cases named : RuleId.ofName? diagnostic.ruleId with
  | none => rw [count_flatMap_of_no_rule own named, count_flatMap_of_no_rule own named, Nat.mul_zero]
  | some id =>
    rw [count_flatMap_of_rule own named, count_flatMap_of_rule own named]
    simp only
    by_cases member : id ∈ ids
    · rw [List.count_eq_one_of_mem (nodup_eraseDups ids) (List.mem_eraseDups.mpr member),
        Nat.one_mul]
    · rw [List.count_eq_zero.mpr member, Nat.zero_mul, Nat.zero_mul]

theorem filter_flatMap_of_not_mem {ids : List RuleId} {id : RuleId} (absent : id ∉ ids) :
    (ids.flatMap parts).filter (fun diagnostic => diagnostic.ruleId = Text.ofString id.name) =
      [] := by
  refine List.filter_eq_nil_iff.mpr fun diagnostic found named => absent ?_
  obtain ⟨other, member, byOther⟩ := List.mem_flatMap.mp found
  rw [own other diagnostic byOther, decide_eq_true_eq] at named
  have same := congrArg RuleId.ofName? named
  rw [RuleId.ofName?_name, RuleId.ofName?_name] at same
  rwa [← Option.some.inj same]

/-- Among the findings of rules that are not repeated, those with the name of a rule are what this
rule finds. -/
theorem filter_flatMap_of_mem {ids : List RuleId} (once : ids.Nodup) {id : RuleId}
    (member : id ∈ ids) :
    (ids.flatMap parts).filter (fun diagnostic => diagnostic.ruleId = Text.ofString id.name) =
      parts id := by
  have mine : (parts id).filter (fun diagnostic => diagnostic.ruleId = Text.ofString id.name) =
      parts id :=
    List.filter_eq_self.mpr fun diagnostic found => decide_eq_true (own id diagnostic found)
  induction ids with
  | nil => cases member
  | cons first rest ih =>
    obtain ⟨absent, later⟩ := List.nodup_cons.mp once
    rw [List.flatMap_cons, List.filter_append]
    rcases List.mem_cons.mp member with rfl | behind
    · rw [mine, filter_flatMap_of_not_mem own absent, List.append_nil]
    · have other : id ∉ [first] := fun same => absent (List.mem_singleton.mp same ▸ behind)
      have nothing := filter_flatMap_of_not_mem own other
      rw [List.flatMap_singleton] at nothing
      rw [nothing, ih later behind, List.nil_append]

end Parts

/-- The results of a run with repeated rules and of one without: both fail alike, or the first one
repeats what the second one reports. -/
inductive Matches (ids : List RuleId) :
    Except Failure (List Diagnostic) → Except Failure (List Diagnostic) → Prop where
  | ok {whole once : List Diagnostic} (repeats : Repeats ids whole once) :
      Matches ids (.ok whole) (.ok once)
  | error (failure : Failure) : Matches ids (.error failure) (.error failure)

namespace Matches

variable {ids : List RuleId} {result other : Except Failure (List Diagnostic)}

theorem cases (matching : Matches ids result other) :
    (∃ failure, result = .error failure ∧ other = .error failure) ∨
      ∃ whole once, result = .ok whole ∧ other = .ok once ∧ Repeats ids whole once := by
  cases matching with
  | ok repeats => exact .inr ⟨_, _, rfl, rfl, repeats⟩
  | error failure => exact .inl ⟨failure, rfl, rfl⟩

theorem map_append {whole once : List Diagnostic} (repeats : Repeats ids whole once)
    (matching : Matches ids result other) :
    Matches ids (result.map (whole ++ ·)) (other.map (once ++ ·)) := by
  cases matching with
  | ok later => exact .ok (repeats.append later)
  | error failure => exact .error failure

end Matches

/-- Parts of two runs that consult the store alike leave the same resolver and have matching results,
if what they find under any deny-list matches. -/
theorem ModuleRule.Consultation.matches_of_repeats {files : FileSystem} {options : ModuleOptions}
    {asks : Prop} {findings others : List Text → List Diagnostic} {before after last : Resolver}
    {result other : Except Failure (List Diagnostic)} {ids : List RuleId}
    (first : Consultation files options asks findings before after result)
    (second : Consultation files options asks others before last other)
    (each : ∀ names, Repeats ids (findings names) (others names)) :
    after = last ∧ Matches ids result other := by
  by_cases asked : asks
  · obtain ⟨rfl, rfl⟩ := first.asked asked
    obtain ⟨rfl, rfl⟩ := second.asked asked
    refine ⟨rfl, ?_⟩
    cases denied files options before with
    | error failure => exact .error failure
    | ok names => exact .ok (each names)
  · obtain ⟨rfl, here⟩ := first.idle asked
    obtain ⟨rfl, there⟩ := second.idle asked
    rw [here [], there []]
    exact ⟨rfl, .ok (each [])⟩

namespace Linter

variable {options : ModuleOptions} {ids : List RuleId}

/-- A linter with repeated rules and one in which each of these rules stands once, with resolvers that
agree. -/
structure Paired (options : ModuleOptions) (ids : List RuleId) (linter once : Linter) : Prop where
  coherent : linter.Coherent options ids
  coherentOnce : once.Coherent options ids.eraseDups
  resolver_eq : linter.shared.resolver = once.shared.resolver

variable {linter once : Linter}

theorem Paired.log (paired : Paired options ids linter once) (records : List LogRecord) :
    Paired options ids (linter.log records) (once.log records) :=
  ⟨⟨paired.coherent.ids_eq, paired.coherent.rules⟩,
    ⟨paired.coherentOnce.ids_eq, paired.coherentOnce.rules⟩, paired.resolver_eq⟩

/-- Showing something to paired linters leaves them paired and has matching results. -/
theorem Paired.visitAll (paired : Paired options ids linter once) (files : FileSystem)
    (path : Option Path) (visit : Visit) :
    Matches ids (Rule.visitAll files path visit linter.rules linter.shared).result
        (Rule.visitAll files path visit once.rules once.shared).result ∧
      Paired options ids
        ⟨(Rule.visitAll files path visit linter.rules linter.shared).rules,
          (Rule.visitAll files path visit linter.rules linter.shared).shared⟩
        ⟨(Rule.visitAll files path visit once.rules once.shared).rules,
          (Rule.visitAll files path visit once.rules once.shared).shared⟩ := by
  obtain ⟨here, after, ids_eq⟩ := Rule.coherent_visitAll paired.coherent.rules files path visit
  obtain ⟨there, behind, once_eq⟩ :=
    Rule.coherent_visitAll paired.coherentOnce.rules files path visit
  have asks_iff : (∃ rule ∈ once.rules, rule.Asks visit) ↔ ∃ rule ∈ linter.rules, rule.Asks visit := by
    rw [Rule.exists_asks_iff, Rule.exists_asks_iff, paired.coherentOnce.ids_eq,
      paired.coherent.ids_eq, List.mem_eraseDups]
  have each (names : List Text) :
      Repeats ids (linter.rules.flatMap fun rule => visit.findingsOf path names rule.id)
        (once.rules.flatMap fun rule => visit.findingsOf path names rule.id) := by
    have own (id : RuleId) : ∀ diagnostic ∈ visit.findingsOf path names id,
        diagnostic.ruleId = Text.ofString id.name :=
      fun _ found => Visit.ruleId_of_mem_findingsOf found
    have repeats := repeats_flatMap own ids
    rw [← paired.coherentOnce.ids_eq, List.flatMap_map] at repeats
    nth_rewrite 2 [← paired.coherent.ids_eq] at repeats
    rwa [List.flatMap_map] at repeats
  rw [← paired.resolver_eq] at there
  obtain ⟨resolver_eq, matching⟩ :=
    here.matches_of_repeats (there.of_iff asks_iff fun _ => rfl) each
  exact ⟨matching, ⟨ids_eq.trans paired.coherent.ids_eq, after⟩,
    ⟨once_eq.trans paired.coherentOnce.ids_eq, behind⟩, resolver_eq⟩

theorem Paired.visitNodes (paired : Paired options ids linter once) (files : FileSystem)
    (path : Option Path) (nodes : List Node) :
    Matches ids (Linter.visitNodes files path nodes linter).result
        (Linter.visitNodes files path nodes once).result ∧
      Paired options ids (Linter.visitNodes files path nodes linter).linter
        (Linter.visitNodes files path nodes once).linter := by
  induction nodes generalizing linter once with
  | nil => exact ⟨.ok (.nil ids), paired⟩
  | cons node rest ih =>
    rw [Linter.visitNodes, Linter.visitNodes]
    cases node.visit? with
    | none => exact ih paired
    | some shown =>
      cases shown with
      | error error => exact ⟨.error _, paired⟩
      | ok visit =>
        obtain ⟨matching, remain⟩ := paired.visitAll files path visit
        obtain ⟨later, last⟩ := ih remain
        rcases matching.cases with ⟨failure, here, there⟩ | ⟨whole, part, here, there, repeats⟩
        · simp only [here, there]
          exact ⟨.error failure, remain⟩
        · simp only [here, there]
          exact ⟨later.map_append repeats, last⟩

/-- A tree is linted alike by paired linters. -/
theorem Paired.lintTree (paired : Paired options ids linter once) (files : FileSystem)
    (path : Option Path) (root : Node) :
    Matches ids (Linter.lintTree files path root linter).result
        (Linter.lintTree files path root once).result ∧
      Paired options ids (Linter.lintTree files path root linter).linter
        (Linter.lintTree files path root once).linter := by
  rw [Linter.lintTree, Linter.lintTree]
  cases root.checked (path.map Path.toText) with
  | error error => exact ⟨.ok (.of_no_rule rfl), paired.log _⟩
  | ok root => exact paired.visitNodes files path root.walk

/-- The progress of paired linters: both are kept from going on by the same failure, if by any, have
checked the same files, and report the same but for repetitions. -/
structure ProgressPaired (options : ModuleOptions) (ids : List RuleId) (progress once : Progress) :
    Prop where
  failure_eq : progress.failure = once.failure
  filesChecked_eq : progress.report.filesChecked = once.report.filesChecked
  repeats : Repeats ids progress.report.diagnostics once.report.diagnostics
  paired : Paired options ids progress.linter once.linter

theorem Paired.lintFile (paired : Paired options ids linter once) (files : FileSystem) (path : Path)
    {report part : Report} (filesChecked_eq : report.filesChecked = part.filesChecked)
    (repeats : Repeats ids report.diagnostics part.diagnostics) :
    ProgressPaired options ids (Linter.lintFile files path report linter)
      (Linter.lintFile files path part once) := by
  rw [Linter.lintFile, Linter.lintFile]
  cases SourceFile.load files path with
  | error error =>
    simp only
    split
    · exact ⟨rfl, filesChecked_eq, repeats.append (.of_no_rule rfl), paired.log _⟩
    · exact ⟨rfl, filesChecked_eq, repeats, paired⟩
  | ok source =>
    obtain ⟨matching, remain⟩ :=
      paired.lintTree files (some path) (Script.parse source.characters)
    simp only [lintSource]
    rcases matching.cases with ⟨failure, here, there⟩ | ⟨whole, others, here, there, more⟩
    · simp only [here, there]
      exact ⟨rfl, filesChecked_eq, repeats, remain⟩
    · simp only [here, there]
      exact ⟨rfl, congrArg (· + 1) filesChecked_eq, repeats.append more, remain⟩

theorem Paired.lintFiles (paired : Paired options ids linter once) (files : FileSystem)
    (paths : List Path) {report part : Report}
    (filesChecked_eq : report.filesChecked = part.filesChecked)
    (repeats : Repeats ids report.diagnostics part.diagnostics) :
    ProgressPaired options ids (Linter.lintFiles files paths report linter)
      (Linter.lintFiles files paths part once) := by
  induction paths generalizing report part linter once with
  | nil => exact ⟨rfl, filesChecked_eq, repeats, paired⟩
  | cons path rest ih =>
    have first := paired.lintFile files path filesChecked_eq repeats
    rw [Linter.lintFiles, Linter.lintFiles]
    have failure_eq := first.failure_eq
    cases failed : (Linter.lintFile files path part once).failure with
    | some failure =>
      simp only [failure_eq, failed]
      exact first
    | none =>
      simp only [failure_eq, failed]
      exact ih first.paired first.filesChecked_eq first.repeats

end Linter

end ModuleFence
