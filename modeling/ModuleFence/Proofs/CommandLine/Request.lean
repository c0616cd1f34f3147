import ModuleFence.Proofs.CommandLine.Acceptance
import ModuleFence.Proofs.CommandLine.Presentation

set_option autoImplicit false

namespace ModuleFence.CommandLine

namespace Form

variable {form : Form}

theorem classify_ne_separator (spelling : String) : form.classify spelling ≠ .ok .separator := by
  intro kind
  rw [classify] at kind
  split at kind
  · rw [classifyDashed] at kind
    split at kind
    · cases kind
    · split at kind
      · split at kind <;> cases kind
      · cases kind
      · cases kind
  · cases kind

/-- In front of two dashes alone, the kind of a word hangs on the word only. -/
theorem words_append {front : List String} (early : "--" ∉ front) (behind : List String) :
    form.words (front ++ behind) = do
      return (← form.words front) ++ (← form.words behind) := by
  induction front with
  | nil =>
    rw [List.nil_append]
    cases form.words behind <;> rfl
  | cons spelling front ih =>
    rw [List.mem_cons, not_or] at early
    have dashes : ¬ spelling = "--" := fun same => early.1 same.symm
    rw [List.cons_append, Form.words, Form.words, if_neg dashes, if_neg dashes, ih early.2]
    cases form.classify spelling with
    | error stop => rfl
    | ok kind =>
      cases form.words front with
      | error stop => rfl
      | ok words => cases form.words behind <;> rfl

theorem words_append_eq_ok_iff {front : List String} (early : "--" ∉ front) {behind : List String}
    {words : List Word} :
    form.words (front ++ behind) = .ok words ↔ ∃ first second, form.words front = .ok first ∧
      form.words behind = .ok second ∧ first ++ second = words := by
  rw [words_append early]
  cases form.words front with
  | error stop => simp [bind, Except.bind]
  | ok first =>
    cases form.words behind with
    | error stop => simp [bind, Except.bind]
    | ok second => simp [bind, Except.bind, pure, Except.pure]

theorem not_separator_of_words {spellings : List String} {words : List Word}
    (early : "--" ∉ spellings) (classified : form.words spellings = .ok words) :
    ∀ word ∈ words, word.isSeparator = false := by
  induction spellings generalizing words with
  | nil =>
    cases classified
    exact fun _ impossible => absurd impossible List.not_mem_nil
  | cons spelling rest ih =>
    rw [List.mem_cons, not_or] at early
    have dashes : ¬ spelling = "--" := fun same => early.1 same.symm
    simp only [Form.words, if_neg dashes, bind_eq_ok_iff] at classified
    obtain ⟨kind, first, others, later, same⟩ := classified
    cases same
    refine List.forall_mem_cons.mpr ⟨?_, ih early.2 later⟩
    cases kind with
    | separator => exact absurd first (classify_ne_separator spelling)
    | _ => rfl

end Form

/-- Words that are options about the presentation, and nothing else. -/
structure ArePresentation (option : List String) : Prop where
  early : "--" ∉ option
  read : ∃ given, lintForm.read option = .ok { given } ∧
    ∀ one ∈ given, one.isPresentation = true

namespace ArePresentation

theorem nil : ArePresentation [] := by
  have read : lintForm.read [] = .ok {} :=
    Form.readWords_of_reads (.done {})
  exact ⟨List.not_mem_nil, [], read, fun _ impossible => absurd impossible List.not_mem_nil⟩

theorem format {name : String} (known : name ∈ formatNames) : ArePresentation ["--format", name] := by
  have all : ∀ name ∈ formatNames, "--" ∉ ["--format", name] ∧
      lintForm.read ["--format", name] = .ok { given := [⟨.format, name⟩] } := by
    decide +kernel
  exact ⟨(all name known).1, _, (all name known).2, List.forall_mem_singleton.mpr rfl⟩

theorem verbose : ArePresentation ["--verbose"] := by
  have read : lintForm.read ["--verbose"] = .ok { given := [⟨.verbose, ""⟩] } := by
    decide +kernel
  exact ⟨by decide, _, read, List.forall_mem_singleton.mpr rfl⟩

/-- The command is no option. -/
theorem not_command {more : List String} : ¬ ArePresentation ("lint" :: more) := by
  intro presentation
  obtain ⟨given, alone, -⟩ := presentation.read
  have operand : lintForm.classify "lint" = .ok .operand := by
    rfl
  have dashes : ¬ "lint" = "--" := by
    decide
  simp only [Form.read, Form.words, if_neg dashes, operand, bind_eq_ok_iff] at alone
  obtain ⟨words, ⟨kind, known, others, -, same⟩, alone⟩ := alone
  cases known
  cases same
  rw [Form.readWords_eq_ok_iff] at alone
  cases alone with
  | left _ later => exact absurd rfl later.not_left
  | option kind _ _ => cases kind
  | operands _ _ _ later => cases later.operands_eq rfl

/-- Options about the presentation can be taken out of a command line whose words are all taken. -/
theorem read_without {front option back : List String} {taken : Taken}
    (presentation : ArePresentation option) (early : "--" ∉ front)
    (read : lintForm.read (front ++ (option ++ back)) = .ok taken) (clean : taken.leftOver = []) :
    ∃ last, lintForm.read (front ++ back) = .ok last ∧ taken.Agrees last := by
  obtain ⟨given, alone, about⟩ := presentation.read
  rw [Form.read, bind_eq_ok_iff] at alone read
  obtain ⟨optionWords, optionKinds, alone⟩ := alone
  obtain ⟨all, kinds, read⟩ := read
  rw [Form.words_append_eq_ok_iff early] at kinds
  obtain ⟨frontWords, behind, frontKinds, behindKinds, rfl⟩ := kinds
  rw [Form.words_append_eq_ok_iff presentation.early] at behindKinds
  obtain ⟨optionWords', backWords, optionKinds', backKinds, rfl⟩ := behindKinds
  obtain rfl : optionWords = optionWords' := Except.ok.inj (optionKinds.symm.trans optionKinds')
  rw [Form.readWords_eq_ok_iff] at alone read
  have found : ∃ last, lintForm.Reads {} (frontWords ++ backWords) last ∧ taken.Agrees last := by
    by_cases nonempty : optionWords = []
    · rw [nonempty, List.nil_append] at read
      exact ⟨taken, read, .refl taken⟩
    · have frontEarly := Form.not_separator_of_words early frontKinds
      exact Form.Reads.of_insertion rfl alone about nonempty frontEarly read clean
  obtain ⟨last, reads, agrees⟩ := found
  refine ⟨last, ?_, agrees⟩
  rw [Form.read, (Form.words_append_eq_ok_iff early).mpr ⟨_, _, frontKinds, backKinds, rfl⟩]
  exact Form.readWords_of_reads reads

end ArePresentation

namespace LintArguments

/-- What is asked for, apart from its presentation. -/
def request (arguments : LintArguments) : LintArguments :=
  { arguments with inJson := false, isVerbose := false }

theorem request_take_presentation (arguments : LintArguments) {given : Given}
    (about : given.isPresentation = true) : (arguments.take given).request = arguments.request := by
  rw [Given.isPresentation, Bool.or_eq_true, decide_eq_true_iff, decide_eq_true_iff] at about
  rcases about with topic | topic
  · rw [take, topic]
    rfl
  · rw [take, topic]
    rfl

theorem request_take_request (arguments : LintArguments) (given : Given) :
    (arguments.request.take given).request = (arguments.take given).request := by
  rw [take, take]
  cases given.topic <;> rfl

/-- What is asked for hangs on the options that are not about the presentation. -/
theorem request_foldl {first second : LintArguments} (same : first.request = second.request)
    (given : List Given) :
    (given.foldl take first).request =
      ((given.filter (!·.isPresentation)).foldl take second).request := by
  induction given generalizing first second with
  | nil => exact same
  | cons one given ih =>
    cases about : one.isPresentation with
    | true =>
      rw [List.filter_cons_of_neg (by simp [about]), List.foldl_cons]
      exact ih ((request_take_presentation first about).trans same)
    | false =>
      rw [List.filter_cons_of_pos (by simp [about]), List.foldl_cons, List.foldl_cons]
      apply ih
      rw [← request_take_request first, same, request_take_request second]

theorem request_ofTaken {first second : Taken} (agrees : first.Agrees second)
    (paths : List String) :
    (ofTaken paths first.given).request = (ofTaken paths second.given).request := by
  rw [ofTaken, ofTaken, request_foldl rfl first.given, request_foldl rfl second.given, agrees.given]

end LintArguments

namespace Invocation

variable {front option back : List String} {given : LintArguments}

/-- Options about the presentation can be taken out of a command line that asks for linting: what is
left asks for the same. -/
theorem accepted_without (presentation : ArePresentation option) (early : "--" ∉ front)
    (accepted : ofWords (front ++ (option ++ back)) = .lint given) :
    ∃ bare, ofWords (front ++ back) = .lint bare ∧ bare.request = given.request := by
  obtain ⟨rest, classified, taken, paths, shape, kinds, read, clean, operands, rfl⟩ :=
    of_lint accepted
  cases front with
  | nil =>
    cases option with
    | nil => exact ⟨_, accepted, rfl⟩
    | cons first option =>
      obtain ⟨rfl, -⟩ := List.cons.inj shape
      exact absurd presentation ArePresentation.not_command
  | cons first front =>
    obtain ⟨rfl, rfl⟩ := List.cons.inj shape
    rw [List.mem_cons, not_or] at early
    obtain ⟨last, without, agrees⟩ := presentation.read_without early.2 read clean
    obtain ⟨frontWords, behind, frontKinds, behindKinds, -⟩ :=
      (Form.words_append_eq_ok_iff early.2).mp kinds
    obtain ⟨_, backWords, -, backKinds, -⟩ :=
      (Form.words_append_eq_ok_iff presentation.early).mp behindKinds
    have bareKinds := (Form.words_append_eq_ok_iff early.2).mpr ⟨_, _, frontKinds, backKinds, rfl⟩
    have bare := ofWords_of_read bareKinds without (agrees.leftOver.symm.trans clean)
      (agrees.operands.symm.trans operands)
    exact ⟨_, bare, (LintArguments.request_ofTaken agrees _).symm⟩

/-- Options about the presentation can be changed, added or taken out: the same is asked for, as long
as the command line is accepted. -/
theorem request_eq {other : List String} {changed : LintArguments}
    (presentation : ArePresentation option) (others : ArePresentation other)
    (early : "--" ∉ front) (accepted : ofWords (front ++ (option ++ back)) = .lint given)
    (also : ofWords (front ++ (other ++ back)) = .lint changed) :
    changed.request = given.request := by
  obtain ⟨bare, without, same⟩ := accepted_without presentation early accepted
  obtain ⟨bare', without', same'⟩ := accepted_without others early also
  obtain rfl : bare = bare' := Invocation.lint.inj (without.symm.trans without')
  rw [← same, ← same']

end Invocation

end ModuleFence.CommandLine
