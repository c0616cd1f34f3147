import ModuleFence.CommandLine.Invocation
import ModuleFence.Proofs.Success

/-!
Reading of words, step by step. A word is left over, or it is an option which is read with the value
that follows it, or the operands begin with it, which are taken once.
-/

set_option autoImplicit false

namespace ModuleFence.CommandLine

variable {form : Form} {taken result : Taken} {word : Word} {words rest : List Word}

namespace Form

/-- Completes the options of a word, the last of them with the next word if it needs a value. -/
def complete (form : Form) (chain : Chain) (rest : List Word) :
    Except Stop (List Given × List Word) :=
  match chain.open?, rest with
  | none, _ => do return (← form.check chain.complete, rest)
  | some option, [] => .error (.misuse form.screen (optionMessage option "expected one argument"))
  | some option, value :: behind =>
    if value.isOperand then
      do return (← form.check (chain.complete ++ [(option, value.spelling)]), behind)
    else .error (.misuse form.screen (optionMessage option "expected one argument"))

/-- Reads the option of a word, with the next word if its value is needed: the options that it stands
for, and the words behind it. -/
def readOption (form : Form) (found : FoundOption) (rest : List Word) :
    Except Stop (List Given × List Word) := do
  form.complete (← form.chain found.option found.spelling found.value) rest

theorem readWords_option {found : FoundOption} (kind : word.kind = .option found) :
    form.readWords taken (word :: rest) =
      form.readOption found rest >>= fun read => form.readWords (taken.give read.1) read.2 := by
  rw [readWords]
  split
  · simp_all
  · rename_i other same
    rw [kind] at same
    cases same
    rw [readOption]
    cases form.chain found.option found.spelling found.value with
    | error stop => rfl
    | ok chain =>
      simp only [bind, Except.bind, complete]
      cases chain.open? with
      | none => cases form.check chain.complete <;> rfl
      | some option =>
        cases rest with
        | nil => rfl
        | cons value behind =>
          dsimp only
          split
          · cases form.check (chain.complete ++ [(option, value.spelling)]) <;> rfl
          · rfl
  · simp_all
  · simp_all

/-- A word that is left over: an unknown option, or a plain word that is no operand. -/
def Leaves (form : Form) (taken : Taken) (word : Word) (rest : List Word) : Prop :=
  word.kind = .unknownOption ∨
    word.isPlain = true ∧
      (taken.operands ≠ none ∨ takeOperands form.operands (word :: rest) = none)

/-- How words are read, from what is known to what is known at their end. -/
inductive Reads (form : Form) : Taken → List Word → Taken → Prop where
  | done (taken : Taken) : Reads form taken [] taken
  | left {taken result : Taken} {word : Word} {rest : List Word}
      (leaves : form.Leaves taken word rest) (later : Reads form (taken.leave word) rest result) :
      Reads form taken (word :: rest) result
  | option {taken result : Taken} {word : Word} {rest behind : List Word} {found : FoundOption}
      {given : List Given} (kind : word.kind = .option found)
      (read : form.readOption found rest = .ok (given, behind))
      (later : Reads form (taken.give given) behind result) :
      Reads form taken (word :: rest) result
  | operands {taken result : Taken} {word : Word} {rest operands behind : List Word}
      (plain : word.isPlain = true) (unknown : taken.operands = none)
      (found : takeOperands form.operands (word :: rest) = some (operands, behind))
      (later : Reads form { taken with operands := some (operands.map Word.spelling) } behind result) :
      Reads form taken (word :: rest) result

theorem readWords_left (leaves : form.Leaves taken word rest) :
    form.readWords taken (word :: rest) = form.readWords (taken.leave word) rest := by
  rw [readWords]
  rcases leaves with kind | ⟨plain, known | absent⟩
  · split <;> simp_all
  · obtain ⟨operands, known⟩ := Option.ne_none_iff_exists'.mp known
    split
    · rfl
    · simp_all [Word.isPlain, Word.isOperand, Word.isSeparator]
    · rw [known]
    · rw [known]
  · split
    · rfl
    · simp_all [Word.isPlain, Word.isOperand, Word.isSeparator]
    · split
      · rfl
      · split <;> simp_all
    · split
      · rfl
      · split <;> simp_all

theorem readWords_operands {operands behind : List Word} (plain : word.isPlain = true)
    (unknown : taken.operands = none)
    (found : takeOperands form.operands (word :: rest) = some (operands, behind)) :
    form.readWords taken (word :: rest) =
      form.readWords { taken with operands := some (operands.map Word.spelling) } behind := by
  rw [readWords]
  split
  · simp_all [Word.isPlain, Word.isOperand, Word.isSeparator]
  · simp_all [Word.isPlain, Word.isOperand, Word.isSeparator]
  · rw [unknown]
    dsimp only
    split <;> simp_all
  · rw [unknown]
    dsimp only
    split <;> simp_all

theorem complete_eq_ok {chain : Chain} {given : List Given} {behind : List Word}
    (completed : form.complete chain rest = .ok (given, behind)) :
    (rest = behind ∧ ∀ other, form.complete chain other = .ok (given, other)) ∨
      ∃ value, rest = value :: behind ∧ value.isOperand = true ∧
        ∀ other, form.complete chain (value :: other) = .ok (given, other) := by
  cases needed : chain.open? with
  | none =>
    simp only [complete, needed, bind_eq_ok_iff] at completed
    obtain ⟨checked, check, same⟩ := completed
    cases same
    refine Or.inl ⟨rfl, fun other => ?_⟩
    simp only [complete, needed, check]
    rfl
  | some option =>
    cases rest with
    | nil =>
      simp only [complete, needed] at completed
      cases completed
    | cons value rest =>
      simp only [complete, needed] at completed
      split at completed
      · rename_i operand
        rw [bind_eq_ok_iff] at completed
        obtain ⟨checked, check, same⟩ := completed
        cases same
        refine Or.inr ⟨value, rfl, operand, fun other => ?_⟩
        simp only [complete, needed]
        rw [if_pos operand, check]
        rfl
      · cases completed

/-- An option is read with the words behind it, or with the next word as its value, and what it
stands for does not hang on the words behind. -/
theorem readOption_eq_ok {found : FoundOption} {given : List Given} {behind : List Word}
    (read : form.readOption found rest = .ok (given, behind)) :
    (rest = behind ∧ ∀ other, form.readOption found other = .ok (given, other)) ∨
      ∃ value, rest = value :: behind ∧ value.isOperand = true ∧
        ∀ other, form.readOption found (value :: other) = .ok (given, other) := by
  rw [readOption, bind_eq_ok_iff] at read
  obtain ⟨chain, chained, completed⟩ := read
  simp only [readOption, chained]
  exact complete_eq_ok completed

theorem length_of_readOption {found : FoundOption} {given : List Given} {behind : List Word}
    (read : form.readOption found rest = .ok (given, behind)) : behind.length ≤ rest.length := by
  rcases readOption_eq_ok read with ⟨rfl, -⟩ | ⟨value, rfl, -, -⟩
  · exact Nat.le_refl _
  · exact Nat.le_succ _

theorem reads_of_readWords (read : form.readWords taken words = .ok result) :
    form.Reads taken words result := by
  -- On the number of words: an option may take two of them, and operands take a whole run.
  induction size : words.length using Nat.strongRecOn generalizing taken words with
  | ind _ ih =>
    subst size
    cases words with
    | nil =>
      rw [readWords] at read
      cases read
      exact .done _
    | cons word rest =>
      have plainly (plain : word.isPlain = true) : form.Reads taken (word :: rest) result := by
        by_cases leaves : form.Leaves taken word rest
        · rw [readWords_left leaves] at read
          exact .left leaves (ih _ (Nat.lt_succ_self _) read rfl)
        · rw [Leaves, not_or, not_and_or, not_or, not_not] at leaves
          obtain ⟨-, strange | ⟨unknown, found⟩⟩ := leaves
          · exact absurd plain strange
          · obtain ⟨⟨operands, behind⟩, found⟩ := Option.ne_none_iff_exists'.mp found
            rw [readWords_operands plain unknown found] at read
            exact .operands plain unknown found (ih _ (length_takeOperands plain found) read rfl)
      cases kind : word.kind with
      | unknownOption =>
        have leaves : form.Leaves taken word rest := Or.inl kind
        rw [readWords_left leaves] at read
        exact .left leaves (ih _ (Nat.lt_succ_self _) read rfl)
      | option found =>
        rw [readWords_option kind, bind_eq_ok_iff] at read
        obtain ⟨⟨given, behind⟩, here, read⟩ := read
        exact .option kind here
          (ih _ (Nat.lt_succ_of_le (length_of_readOption here)) read rfl)
      | operand => exact plainly (by simp only [Word.isPlain, Word.isOperand, kind, Bool.true_or])
      | separator => exact plainly (by simp only [Word.isPlain, Word.isSeparator, kind, Bool.or_true])

theorem readWords_of_reads (reads : form.Reads taken words result) :
    form.readWords taken words = .ok result := by
  induction reads with
  | done taken => rw [readWords]
  | left leaves _ ih => rw [readWords_left leaves, ih]
  | option kind read _ ih =>
    rw [readWords_option kind, read]
    exact ih
  | operands plain unknown found _ ih => rw [readWords_operands plain unknown found, ih]

/-- Reading comes to a result exactly if the words can be read so, step by step. -/
theorem readWords_eq_ok_iff : form.readWords taken words = .ok result ↔ form.Reads taken words result :=
  ⟨reads_of_readWords, readWords_of_reads⟩

end Form

namespace Form.Reads

/-- Words that are left over stay left over. -/
theorem leftOver_prefix (reads : form.Reads taken words result) :
    taken.leftOver <+: result.leftOver := by
  induction reads with
  | done taken => exact List.prefix_refl _
  | left _ _ ih => exact (List.prefix_append _ _).trans ih
  | option _ _ _ ih => exact ih
  | operands _ _ _ _ ih => exact ih

/-- Operands that are taken stay as they are. -/
theorem operands_eq (reads : form.Reads taken words result) {operands : List String}
    (known : taken.operands = some operands) : result.operands = some operands := by
  induction reads with
  | done taken => exact known
  | left _ _ ih => exact ih known
  | option _ _ _ ih => exact ih known
  | operands _ unknown _ _ _ =>
    rw [known] at unknown
    cases unknown

/-- Options that are given stay given. -/
theorem given_prefix (reads : form.Reads taken words result) : taken.given <+: result.given := by
  induction reads with
  | done taken => exact List.prefix_refl _
  | left _ _ ih => exact ih
  | option _ _ _ ih => exact (List.prefix_append _ _).trans ih
  | operands _ _ _ _ ih => exact ih

theorem not_left (later : form.Reads (taken.leave word) rest result) : result.leftOver ≠ [] := by
  intro empty
  have kept := later.leftOver_prefix
  rw [empty, List.prefix_nil] at kept
  exact List.append_ne_nil_of_right_ne_nil _ (List.cons_ne_nil _ _) kept

/-- Where all words are taken, no plain word stands behind the operands. -/
theorem not_plain (reads : form.Reads taken (word :: rest) result) (full : taken.operands ≠ none)
    (clean : result.leftOver = []) : word.isPlain = false := by
  cases reads with
  | left _ later => exact absurd clean later.not_left
  | option kind _ _ => simp only [Word.isPlain, Word.isOperand, Word.isSeparator, kind, Bool.or_self]
  | operands _ unknown _ _ => exact absurd unknown full

end Form.Reads

end ModuleFence.CommandLine
