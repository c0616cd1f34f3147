import ModuleFence.Proofs.CommandLine.Words

/-!
Command lines that ask for linting. They begin with the command: an option in front of it asks for
help or for the version, and everything else is left over.
-/

set_option autoImplicit false

namespace ModuleFence.CommandLine

variable {form : Form} {option : OptionForm} {found : FoundOption}

namespace Form

theorem mem_options_of_mem_spellings {pair : String × OptionForm} (member : pair ∈ form.spellings) :
    pair.2 ∈ form.options := by
  obtain ⟨option, known, spelled⟩ := List.mem_flatMap.mp member
  obtain ⟨spelling, -, rfl⟩ := List.mem_map.mp spelled
  exact known

theorem mem_options_of_option? {spelling : String} (known : form.option? spelling = some option) :
    option ∈ form.options := by
  obtain ⟨before, behind, split_, -⟩ := List.lookup_eq_some_iff.mp known
  have member : (spelling, option) ∈ form.spellings := by
    rw [split_]
    exact List.mem_append_right _ List.mem_cons_self
  exact mem_options_of_mem_spellings member

theorem mem_options_of_exactly {characters : List Char} (exactly : form.exact? characters = some found) :
    found.option ∈ form.options := by
  unfold Form.exact? at exactly
  dsimp only at exactly
  split at exactly
  · rename_i known
    cases exactly
    exact mem_options_of_option? known
  · split at exactly
    · cases exactly
    · obtain ⟨option, known, rfl⟩ := Option.map_eq_some_iff.mp exactly
      exact mem_options_of_option? known

theorem mem_options_of_mem_longMatches {characters : List Char}
    (candidate : found ∈ form.longMatches characters) : found.option ∈ form.options := by
  rw [longMatches] at candidate
  generalize splitEquals characters = parts at candidate
  obtain ⟨pair, member, matching⟩ := List.mem_filterMap.mp candidate
  have same : found.option = pair.2 := by
    dsimp only at matching
    split at matching
    · rw [← Option.some.inj matching]
    · cases matching
  rw [same]
  exact mem_options_of_mem_spellings member

theorem mem_options_of_mem_shortMatches {characters : List Char}
    (candidate : found ∈ form.shortMatches characters) : found.option ∈ form.options := by
  obtain ⟨pair, member, matching⟩ := List.mem_filterMap.mp candidate
  have same : found.option = pair.2 := by
    dsimp only at matching
    split at matching
    · rw [← Option.some.inj matching]
    · split at matching
      · rw [← Option.some.inj matching]
      · cases matching
  rw [same]
  exact mem_options_of_mem_spellings member

theorem mem_options_of_mem_candidates {characters : List Char}
    (candidate : found ∈ form.candidates characters) : found.option ∈ form.options := by
  rw [candidates] at candidate
  split at candidate
  · exact mem_options_of_mem_longMatches candidate
  · exact mem_options_of_mem_shortMatches candidate

/-- A word stands for an option of the form only. -/
theorem mem_options_of_classify {spelling : String}
    (kind : form.classify spelling = .ok (.option found)) : found.option ∈ form.options := by
  rw [classify] at kind
  split at kind
  · rw [classifyDashed] at kind
    split at kind
    · rename_i exact_
      cases kind
      exact mem_options_of_exactly exact_
    · split at kind
      · split at kind <;> cases kind
      · rename_i candidates
        cases kind
        apply mem_options_of_mem_candidates
        rw [candidates]
        exact List.mem_singleton_self _
      · cases kind
  · cases kind

theorem check_cons_eq_ok {pair : OptionForm × String} {rest : List (OptionForm × String)}
    {given : List Given} (checked : form.check (pair :: rest) = .ok given) :
    pair.1.topic ≠ .help ∧
      ∃ others, form.check rest = .ok others ∧ given = ⟨pair.1.topic, pair.2⟩ :: others := by
  rw [check] at checked
  split at checked
  · cases checked
  · rename_i asked
    refine ⟨asked, ?_⟩
    cases later : form.check rest with
    | error stop =>
      rw [later] at checked
      split at checked
      · split at checked <;> cases checked
      · cases checked
    | ok others =>
      simp only [later, Except.map] at checked
      refine ⟨others, rfl, ?_⟩
      split at checked
      · split at checked
        · exact (Except.ok.inj checked).symm
        · cases checked
      · exact (Except.ok.inj checked).symm

/-- Options that pass their checks are given, and help is not among them. -/
theorem check_eq_ok {pairs : List (OptionForm × String)} {given : List Given}
    (checked : form.check pairs = .ok given) :
    given = pairs.map (fun pair => ⟨pair.1.topic, pair.2⟩) ∧ ∀ pair ∈ pairs, pair.1.topic ≠ .help := by
  induction pairs generalizing given with
  | nil =>
    cases checked
    exact ⟨rfl, fun _ impossible => absurd impossible List.not_mem_nil⟩
  | cons pair rest ih =>
    obtain ⟨asked, others, later, rfl⟩ := check_cons_eq_ok checked
    obtain ⟨rfl, other⟩ := ih later
    exact ⟨rfl, List.forall_mem_cons.mpr ⟨asked, other⟩⟩

end Form

/-- The options of a word, the one that needs a value included. -/
def Chain.options (chain : Chain) : List OptionForm :=
  chain.complete.map (·.1) ++ chain.open?.toList

namespace Form

theorem letters_eq_ok {flag : OptionForm} {characters : List Char} {followed : Chain}
    (known : flag ∈ form.options)
    (success : Form.chain.letters form flag characters = .ok followed) :
    followed.options ≠ [] ∧ ∀ option ∈ followed.options, option ∈ form.options := by
  induction characters generalizing flag followed with
  | nil => cases success
  | cons letter rest ih =>
    rw [Form.chain.letters] at success
    split at success
    · cases success
    · rename_i option spelled
      have known_ := mem_options_of_option? spelled
      split at success
      · split at success <;> cases success
        all_goals
          refine ⟨List.cons_ne_nil _ _, ?_⟩
          simp [Chain.options, known, known_]
      · split at success
        · cases success
          refine ⟨List.cons_ne_nil _ _, ?_⟩
          simp [Chain.options, known, known_]
        · cases later : Form.chain.letters form option rest with
          | error stop =>
            rw [later] at success
            cases success
          | ok chain =>
            rw [later] at success
            cases success
            refine ⟨List.cons_ne_nil _ _, ?_⟩
            exact List.forall_mem_cons.mpr ⟨known, (ih known_ later).2⟩

/-- A word stands for some options, which are options of the form. -/
theorem chain_eq_ok {spelling : String} {value : Option (List Char)} {followed : Chain}
    (known : option ∈ form.options) (success : form.chain option spelling value = .ok followed) :
    followed.options ≠ [] ∧ ∀ option ∈ followed.options, option ∈ form.options := by
  cases value with
  | none =>
    rw [Form.chain] at success
    cases success
    split
    · exact ⟨List.cons_ne_nil _ _, List.forall_mem_singleton.mpr known⟩
    · exact ⟨List.cons_ne_nil _ _, List.forall_mem_singleton.mpr known⟩
  | some value =>
    rw [Form.chain] at success
    split at success
    · cases success
      exact ⟨List.cons_ne_nil _ _, List.forall_mem_singleton.mpr known⟩
    · split at success
      · cases success
      · exact letters_eq_ok known success

theorem options_of_complete {chain : Chain} {rest behind : List Word} {given : List Given}
    (completed : form.complete chain rest = .ok (given, behind)) :
    ∃ pairs, form.check pairs = .ok given ∧ pairs.map (·.1) = chain.options := by
  rw [Chain.options]
  cases needed : chain.open? with
  | none =>
    simp only [complete, needed, bind_eq_ok_iff] at completed
    obtain ⟨checked, check, same⟩ := completed
    cases same
    exact ⟨chain.complete, check, (List.append_nil _).symm⟩
  | some option =>
    cases rest with
    | nil =>
      simp only [complete, needed] at completed
      cases completed
    | cons value rest =>
      simp only [complete, needed] at completed
      split at completed
      · rw [bind_eq_ok_iff] at completed
        obtain ⟨checked, check, same⟩ := completed
        cases same
        exact ⟨_, check, List.map_append⟩
      · cases completed

/-- A word that is read as an option gives options of the form, and help is not among them. -/
theorem given_of_readOption {rest behind : List Word} {given : List Given}
    (known : found.option ∈ form.options)
    (read : form.readOption found rest = .ok (given, behind)) :
    given ≠ [] ∧ ∀ one ∈ given, ∃ option ∈ form.options, one.topic = option.topic ∧
      option.topic ≠ .help := by
  rw [readOption, bind_eq_ok_iff] at read
  obtain ⟨chain, followed, completed⟩ := read
  obtain ⟨some_, of_form⟩ := chain_eq_ok known followed
  obtain ⟨pairs, checked, same⟩ := options_of_complete completed
  obtain ⟨rfl, unasked⟩ := check_eq_ok checked
  constructor
  · intro empty
    rw [List.map_eq_nil_iff] at empty
    rw [← same, empty] at some_
    exact some_ rfl
  · intro one member
    obtain ⟨pair, listed, rfl⟩ := List.mem_map.mp member
    refine ⟨pair.1, of_form _ ?_, rfl, unasked pair listed⟩
    rw [← same]
    exact List.mem_map_of_mem listed

/-- The words of a command line keep their spellings, and stand for options of the form only. -/
theorem of_words {spellings : List String} {words : List Word}
    (classified : form.words spellings = .ok words) :
    words.map Word.spelling = spellings ∧
      ∀ word ∈ words, ∀ found, word.kind = .option found → found.option ∈ form.options := by
  induction spellings generalizing words with
  | nil =>
    cases classified
    exact ⟨rfl, fun _ impossible => absurd impossible List.not_mem_nil⟩
  | cons spelling rest ih =>
    rw [Form.words] at classified
    split at classified
    · cases classified
      refine ⟨?_, ?_⟩
      · rw [List.map_cons, List.map_map]
        exact congrArg _ (List.map_id _)
      · intro word member found kind
        rcases List.mem_cons.mp member with rfl | later
        · cases kind
        · obtain ⟨spelling, -, rfl⟩ := List.mem_map.mp later
          cases kind
    · simp only [bind_eq_ok_iff] at classified
      obtain ⟨kind, first, others, later, same⟩ := classified
      cases same
      obtain ⟨spelled, known⟩ := ih later
      refine ⟨by rw [List.map_cons, spelled], List.forall_mem_cons.mpr ⟨?_, known⟩⟩
      rintro found rfl
      exact mem_options_of_classify first

end Form

namespace Invocation

variable {words : List String} {arguments : LintArguments}

theorem topic_of_general (option : OptionForm) (known : option ∈ generalForm.options)
    (unasked : option.topic ≠ .help) : option.topic = .version := by
  have all : ∀ option ∈ generalForm.options, option.topic = .help ∨ option.topic = .version := by
    decide
  exact (all option known).resolve_left unasked

theorem takeOperands_command {words operands behind : List Word}
    (found : takeOperands .command words = some (operands, behind)) : operands = words := by
  rw [takeOperands] at found
  split at found
  · cases found
  · split at found
    · exact (Prod.mk.inj (Option.some.inj found)).1.symm
    · cases found

/-- All that stands in front of a command is read as options that end the reading or ask for the
version, or is left over. -/
theorem general_operands {taken : Taken} {operands : List String}
    (read : generalForm.read words = .ok taken) (clean : taken.leftOver = [])
    (lasting : asksVersion taken = false) (known : taken.operands = some operands) :
    operands = words := by
  rw [Form.read, bind_eq_ok_iff] at read
  obtain ⟨classified, kinds, read⟩ := read
  obtain ⟨spelled, of_form⟩ := Form.of_words kinds
  rw [Form.readWords_eq_ok_iff] at read
  cases read with
  | done => cases known
  | left _ later => exact absurd clean later.not_left
  | option kind here later =>
    obtain ⟨some_, topics⟩ := Form.given_of_readOption (of_form _ List.mem_cons_self _ kind) here
    obtain ⟨one, others, rfl⟩ := List.exists_cons_of_ne_nil some_
    obtain ⟨option, listed, same, unasked⟩ := topics one List.mem_cons_self
    have asked : asksVersion taken = true := by
      rw [asksVersion, List.any_eq_true]
      refine ⟨one, later.given_prefix.subset List.mem_cons_self, ?_⟩
      rw [same, topic_of_general option listed unasked]
      rfl
    rw [lasting] at asked
    cases asked
  | operands plain unknown found later =>
    have whole := later.operands_eq rfl
    rw [known, takeOperands_command found, spelled] at whole
    exact Option.some.inj whole

theorem formOf_eq_ok {command : String} {form : Form} (known : formOf command = .ok form) :
    command = "lint" ∧ form = lintForm ∨ command = "rules" ∧ form = rulesForm := by
  rw [formOf] at known
  split at known
  · rename_i found
    cases known
    obtain ⟨before, behind, split_, -⟩ := List.lookup_eq_some_iff.mp found
    have member : (command, form) ∈ commandForms := by
      rw [split_]
      exact List.mem_append_right _ List.mem_cons_self
    rcases List.mem_cons.mp member with same | member
    · exact Or.inl (Prod.mk.inj same)
    · exact Or.inr (Prod.mk.inj (List.mem_singleton.mp member))
  · cases known

/-- What is known of the rest of a command line that asks for linting. -/
theorem ofForm_eq_lint {form : Form} {taken : Taken} (asked : ofForm form taken = .ok (lint arguments)) :
    form.screen = .lint ∧ ∃ paths, taken.operands = some paths ∧
      arguments = LintArguments.ofTaken (paths.erase "--") taken.given := by
  rw [ofForm] at asked
  split at asked
  · cases asked
  · rename_i paths screen operands
    cases asked
    exact ⟨screen, paths, operands, rfl⟩
  · cases asked
  · cases asked

theorem read_of_accepted (accepted : ofWords words = .lint arguments) :
    Invocation.read words = .ok (.lint arguments) := by
  rw [ofWords] at accepted
  split at accepted
  · rename_i invocation read
    rw [read, accepted]
  · cases accepted

theorem checkLeftOver_eq_ok {leftOver : List String} (checked : checkLeftOver leftOver = .ok ()) :
    leftOver = [] := by
  rw [checkLeftOver] at checked
  split at checked
  · assumption
  · cases checked

theorem words_behind_command {form : Form} {command : String} {rest : List String}
    {classified : List Word} (kinds : form.words (command :: rest) = .ok classified)
    (dashes : command ≠ "--") : ∃ others, form.words rest = .ok others := by
  simp only [Form.words, if_neg dashes, bind_eq_ok_iff] at kinds
  obtain ⟨kind, -, others, kinds, -⟩ := kinds
  exact ⟨others, kinds⟩

/-- A command line that asks for linting begins with the command, and all that stands behind it is
taken. -/
theorem of_lint (accepted : ofWords words = .lint arguments) :
    ∃ rest classified taken paths, words = "lint" :: rest ∧ generalForm.words rest = .ok classified ∧
      lintForm.read rest = .ok taken ∧ taken.leftOver = [] ∧ taken.operands = some paths ∧
      arguments = LintArguments.ofTaken (paths.erase "--") taken.given := by
  have read := read_of_accepted accepted
  simp only [Invocation.read, bind_eq_ok_iff] at read
  obtain ⟨general, front, ⟨leftOver, invocation⟩, command, _, checked, chosen⟩ := read
  obtain ⟨generalClean, rfl⟩ := List.append_eq_nil_iff.mp (checkLeftOver_eq_ok checked)
  have chosen : (if asksVersion general then version else invocation) = lint arguments :=
    Except.ok.inj chosen
  split at chosen
  · cases chosen
  · rename_i lasting
    subst chosen
    cases operands : general.operands with
    | none =>
      rw [operands] at command
      cases command
    | some operands_ =>
      obtain rfl := general_operands front generalClean (Bool.eq_false_iff.mpr lasting) operands
      rw [operands, Option.getD_some] at command
      cases operands_ with
      | nil => cases command
      | cons name rest =>
        simp only [ofCommand, bind_eq_ok_iff] at command
        obtain ⟨form, named, taken, read, asked, formed, same⟩ := command
        obtain ⟨nothing, rfl⟩ := Prod.mk.inj (Except.ok.inj same)
        obtain ⟨screen, paths, found, rfl⟩ := ofForm_eq_lint formed
        rcases formOf_eq_ok named with ⟨rfl, rfl⟩ | ⟨rfl, rfl⟩
        · rw [Form.read, bind_eq_ok_iff] at front
          obtain ⟨_, kinds, -⟩ := front
          obtain ⟨classified, kinds⟩ := words_behind_command kinds (by decide)
          exact ⟨rest, classified, taken, paths, rfl, kinds, read, nothing, found, rfl⟩
        · cases screen

theorem general_read {rest : List String} {classified : List Word}
    (kinds : generalForm.words rest = .ok classified) :
    generalForm.read ("lint" :: rest) = .ok { operands := some ("lint" :: rest) } := by
  have operand : generalForm.classify "lint" = .ok .operand := by
    rfl
  have first : generalForm.words ("lint" :: rest) = .ok (⟨"lint", .operand⟩ :: classified) := by
    rw [Form.words, if_neg (by decide), operand, kinds]
    rfl
  rw [Form.read, first, ← (Form.of_words kinds).1]
  exact Form.readWords_of_reads (.operands rfl rfl rfl (.done _))

/-- A command line asks for linting if it begins with the command and all that stands behind it is
taken. -/
theorem ofWords_of_read {rest paths : List String} {classified : List Word} {taken : Taken}
    (kinds : generalForm.words rest = .ok classified) (read : lintForm.read rest = .ok taken)
    (clean : taken.leftOver = []) (operands : taken.operands = some paths) :
    ofWords ("lint" :: rest) = .lint (LintArguments.ofTaken (paths.erase "--") taken.given) := by
  have named : formOf "lint" = .ok lintForm := by
    rfl
  have formed : ofForm lintForm taken =
      .ok (.lint (LintArguments.ofTaken (paths.erase "--") taken.given)) := by
    simp only [ofForm, operands, lintForm]
  have command : ofCommand ("lint" :: rest) =
      .ok ([], .lint (LintArguments.ofTaken (paths.erase "--") taken.given)) := by
    simp only [ofCommand, named, read, formed, clean, bind, Except.bind, pure, Except.pure]
  simp only [ofWords, Invocation.read, general_read kinds, bind, Except.bind, Option.getD_some,
    command]
  rfl

end Invocation

end ModuleFence.CommandLine
