import ModuleFence.Proofs.CommandLine.Words

set_option autoImplicit false

namespace ModuleFence.CommandLine

/-- An option that is about the presentation: the form of the output, or how much is logged. -/
def Given.isPresentation (given : Given) : Bool :=
  given.topic = .format || given.topic = .verbose

/-- What is known differs in the presentation alone. -/
structure Taken.Agrees (first second : Taken) : Prop where
  operands : first.operands = second.operands
  leftOver : first.leftOver = second.leftOver
  given : first.given.filter (!·.isPresentation) = second.given.filter (!·.isPresentation)

namespace Taken.Agrees

variable {first second third : Taken}

theorem refl (taken : Taken) : taken.Agrees taken :=
  ⟨rfl, rfl, rfl⟩

theorem symm (agrees : first.Agrees second) : second.Agrees first :=
  ⟨agrees.operands.symm, agrees.leftOver.symm, agrees.given.symm⟩

theorem trans (agrees : first.Agrees second) (further : second.Agrees third) :
    first.Agrees third :=
  ⟨agrees.operands.trans further.operands, agrees.leftOver.trans further.leftOver,
    agrees.given.trans further.given⟩

theorem leave (agrees : first.Agrees second) (word : Word) :
    (first.leave word).Agrees (second.leave word) :=
  ⟨agrees.operands, congrArg (· ++ [word.spelling]) agrees.leftOver, agrees.given⟩

theorem give (agrees : first.Agrees second) (given : List Given) :
    (first.give given).Agrees (second.give given) := by
  refine ⟨agrees.operands, agrees.leftOver, ?_⟩
  simp only [Taken.give, List.filter_append, agrees.given]

theorem take (agrees : first.Agrees second) (operands : List String) :
    Taken.Agrees { first with operands := some operands } { second with operands := some operands } :=
  ⟨rfl, agrees.leftOver, agrees.given⟩

/-- Options about the presentation do not matter. -/
theorem give_presentation {given : List Given} (taken : Taken)
    (about : ∀ one ∈ given, one.isPresentation = true) : (taken.give given).Agrees taken := by
  refine ⟨rfl, rfl, ?_⟩
  have nothing : given.filter (!·.isPresentation) = [] := by
    rw [List.filter_eq_nil_iff]
    intro one member
    rw [about one member]
    exact Bool.false_ne_true
  simp only [Taken.give, List.filter_append, nothing, List.append_nil]

end Taken.Agrees

namespace Form.Reads

variable {form : Form} {taken result other : Taken} {words : List Word}

/-- What words come to does not hang on the presentation that was known before. -/
theorem congr (reads : form.Reads taken words result) (agrees : taken.Agrees other) :
    ∃ last, form.Reads other words last ∧ result.Agrees last := by
  induction reads generalizing other with
  | done taken => exact ⟨other, .done other, agrees⟩
  | left leaves _ ih =>
    obtain ⟨last, later, same⟩ := ih (agrees.leave _)
    refine ⟨last, .left ?_ later, same⟩
    rw [Leaves, ← agrees.operands]
    exact leaves
  | option kind read _ ih =>
    obtain ⟨last, later, same⟩ := ih (agrees.give _)
    exact ⟨last, .option kind read later, same⟩
  | operands plain unknown found _ ih =>
    obtain ⟨last, later, same⟩ := ih (agrees.take _)
    exact ⟨last, .operands plain (agrees.operands.symm.trans unknown) found later, same⟩

/-- Words that are all options are read by themselves, whatever stands behind them. -/
theorem readWords_append (reads : form.Reads taken words result) (optional : result.operands = none)
    (clean : result.leftOver = []) :
    ∃ given, result.given = taken.given ++ given ∧ ∀ before behind,
      form.readWords before (words ++ behind) = form.readWords (before.give given) behind := by
  induction reads with
  | done taken =>
    refine ⟨[], (List.append_nil _).symm, fun before behind => ?_⟩
    rw [Taken.give, List.append_nil, List.nil_append]
  | left _ later _ => exact absurd clean later.not_left
  | @option taken result word rest behind found here kind read _ ih =>
    obtain ⟨given, known, go⟩ := ih optional clean
    refine ⟨here ++ given, ?_, fun before more => ?_⟩
    · rw [known, Taken.give, List.append_assoc]
    · have read_more : form.readOption found (rest ++ more) = .ok (here, behind ++ more) := by
        rcases readOption_eq_ok read with ⟨rfl, always⟩ | ⟨value, rfl, -, always⟩
        · exact always _
        · exact always _
      rw [List.cons_append, readWords_option kind, read_more]
      change form.readWords (before.give here) (behind ++ more) = _
      rw [go, Taken.give, Taken.give, Taken.give, List.append_assoc]
  | operands _ _ _ later _ =>
    rw [later.operands_eq rfl] at optional
    cases optional

/-- Options about the presentation can be taken out in front of words. -/
theorem of_option_append {option behind : List Word} {given : List Given}
    (alone : form.Reads {} option { given })
    (about : ∀ one ∈ given, one.isPresentation = true)
    (reads : form.Reads taken (option ++ behind) result) :
    ∃ last, form.Reads taken behind last ∧ result.Agrees last := by
  obtain ⟨here, known, go⟩ := alone.readWords_append rfl rfl
  obtain rfl : given = here := known
  rw [← readWords_eq_ok_iff, go, readWords_eq_ok_iff] at reads
  exact reads.congr (Taken.Agrees.give_presentation taken about)

end Form.Reads

theorem takeOperands_paths {word : Word} (operand : word.isOperand = true) (rest : List Word) :
    takeOperands .paths (word :: rest) =
      some ((word :: rest).takeWhile Word.isPlain, (word :: rest).dropWhile Word.isPlain) := by
  have first : word.isSeparator = false := by
    rw [Word.isOperand] at operand
    rw [Word.isSeparator]
    split at operand
    · rename_i kind
      rw [kind]
    · cases operand
  rw [takeOperands, List.dropWhile_cons_of_neg (by rw [first]; exact Bool.false_ne_true)]
  simp only [List.head?_cons, operand, if_true]

/-- A run at the front ends within the front, or where it ends what stands behind does not go on
with it. -/
theorem run_append {p : Word → Bool} {behind : List Word} (front : List Word)
    (stops : front.dropWhile p = [] → ∀ word ∈ behind.head?, p word = false) :
    (front ++ behind).takeWhile p = front.takeWhile p ∧
      (front ++ behind).dropWhile p = front.dropWhile p ++ behind := by
  induction front with
  | nil =>
    cases behind with
    | nil => exact ⟨rfl, rfl⟩
    | cons word rest =>
      have stop : ¬ p word = true := by
        rw [stops rfl word rfl]
        exact Bool.false_ne_true
      exact ⟨List.takeWhile_cons_of_neg stop, List.dropWhile_cons_of_neg stop⟩
  | cons word front ih =>
    by_cases going : p word = true
    · rw [List.dropWhile_cons_of_pos going] at stops
      obtain ⟨taken, dropped⟩ := ih stops
      rw [List.cons_append, List.takeWhile_cons_of_pos going, List.takeWhile_cons_of_pos going,
        List.dropWhile_cons_of_pos going, List.dropWhile_cons_of_pos going, taken, dropped]
      exact ⟨rfl, rfl⟩
    · rw [List.cons_append, List.takeWhile_cons_of_neg going, List.takeWhile_cons_of_neg going,
        List.dropWhile_cons_of_neg going, List.dropWhile_cons_of_neg going]
      exact ⟨rfl, rfl⟩

/-- The operands at the front are the run there, whatever stands behind it. -/
theorem takeOperands_append {word : Word} {front behind : List Word}
    (operand : word.isOperand = true)
    (stops : (word :: front).dropWhile Word.isPlain = [] →
      ∀ next ∈ behind.head?, next.isPlain = false) :
    takeOperands .paths (word :: (front ++ behind)) =
      some ((word :: front).takeWhile Word.isPlain,
        (word :: front).dropWhile Word.isPlain ++ behind) := by
  obtain ⟨taken, dropped⟩ := run_append (word :: front) stops
  rw [takeOperands_paths operand]
  exact congrArg some (Prod.ext taken dropped)

namespace Form.Reads

variable {form : Form} {taken result : Taken} {front option back : List Word} {given : List Given}

/-- Options that are read by themselves begin with an option. -/
theorem head_not_plain {head : Word} {more : List Word}
    (alone : form.Reads {} (head :: more) { given }) : head.isPlain = false := by
  cases alone with
  | left _ later => exact absurd rfl later.not_left
  | option kind _ _ => simp only [Word.isPlain, Word.isOperand, Word.isSeparator, kind, Bool.or_self]
  | operands _ _ _ later => cases later.operands_eq rfl

/-- Operands are taken from the front alone if all words behind them are taken: a run that went on
behind the front would be left over. -/
theorem operands_append {first : Word} (paths : form.operands = .paths)
    (operand : first.isOperand = true) (unknown : taken.operands = none)
    (later : form.Reads
      { taken with operands := some (((first :: front).takeWhile Word.isPlain).map Word.spelling) }
      ((first :: front).dropWhile Word.isPlain ++ back) result)
    (clean : result.leftOver = []) : form.Reads taken (first :: front ++ back) result := by
  have plain : first.isPlain = true := by
    rw [Word.isPlain, operand, Bool.true_or]
  have stops : (first :: front).dropWhile Word.isPlain = [] →
      ∀ next ∈ back.head?, next.isPlain = false := by
    intro whole next headed
    rw [whole, List.nil_append] at later
    obtain ⟨rest, rfl⟩ : ∃ rest, back = next :: rest := List.head?_eq_some_iff.mp headed
    exact later.not_plain (Option.some_ne_none _) clean
  refine .operands plain unknown ?_ later
  rw [paths]
  exact takeOperands_append operand stops

/-- Options about the presentation can be taken out of words that are all taken, in front of any two
dashes alone: what is read without them differs in the presentation alone. -/
theorem of_insertion (paths : form.operands = .paths) (alone : form.Reads {} option { given })
    (about : ∀ one ∈ given, one.isPresentation = true) (nonempty : option ≠ [])
    (early : ∀ word ∈ front, word.isSeparator = false)
    (reads : form.Reads taken (front ++ (option ++ back)) result) (clean : result.leftOver = []) :
    ∃ last, form.Reads taken (front ++ back) last ∧ result.Agrees last := by
  obtain ⟨head, more, rfl⟩ := List.exists_cons_of_ne_nil nonempty
  have headed : head.isPlain = false := head_not_plain alone
  -- On the reading, with any front: each step takes its words from the front, because the option
  -- can be neither a value nor an operand.
  generalize shape : front ++ (head :: more ++ back) = words at reads
  induction reads generalizing front with
  | done taken =>
    cases front <;> cases shape
  | left _ later _ => exact absurd clean later.not_left
  | @option taken result word rest behind found here kind read later ih =>
    cases front with
    | nil =>
      rw [List.nil_append] at shape ⊢
      exact of_option_append alone about (shape ▸ Reads.option kind read later)
    | cons first front =>
      obtain ⟨rfl, rfl⟩ := List.cons.inj shape
      have rest_early := (List.forall_mem_cons.mp early).2
      rcases readOption_eq_ok read with ⟨rfl, always⟩ | ⟨value, split_, operand, always⟩
      · obtain ⟨last, reads, same⟩ := ih rest_early clean rfl
        exact ⟨last, .option kind (always _) reads, same⟩
      · cases front with
        | nil =>
          obtain ⟨rfl, -⟩ := List.cons.inj split_
          rw [Word.isPlain, operand, Bool.true_or] at headed
          cases headed
        | cons second front =>
          obtain ⟨rfl, rfl⟩ := List.cons.inj split_
          obtain ⟨last, reads, same⟩ := ih (List.forall_mem_cons.mp rest_early).2 clean rfl
          exact ⟨last, .option kind (always _) reads, same⟩
  | @operands taken result word rest run behind plain unknown found later ih =>
    cases front with
    | nil =>
      obtain ⟨rfl, -⟩ := List.cons.inj shape
      rw [headed] at plain
      cases plain
    | cons first front =>
      obtain ⟨rfl, rfl⟩ := List.cons.inj shape
      have operand : first.isOperand = true := by
        rw [Word.isPlain, (List.forall_mem_cons.mp early).1, Bool.or_false] at plain
        exact plain
      have inserted : takeOperands .paths (first :: (front ++ (head :: more ++ back))) = _ :=
        takeOperands_append operand fun _ next first => by
          rw [← Option.some.inj first]
          exact headed
      rw [paths] at found
      obtain ⟨rfl, rfl⟩ := Prod.mk.inj (Option.some.inj (found.symm.trans inserted))
      have later_early : ∀ word ∈ (first :: front).dropWhile Word.isPlain,
          word.isSeparator = false :=
        fun word member => early word ((List.dropWhile_sublist _).mem member)
      obtain ⟨last, reads, same⟩ := ih later_early clean rfl
      exact ⟨last, operands_append paths operand unknown reads (same.leftOver.symm.trans clean), same⟩

end Form.Reads

end ModuleFence.CommandLine
