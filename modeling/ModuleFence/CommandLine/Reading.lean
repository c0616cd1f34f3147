import ModuleFence.CommandLine.Words

set_option autoImplicit false

namespace ModuleFence.CommandLine

/-- An option that was given, with its value; a flag has the empty one. -/
structure Given where
  topic : Topic
  value : String
deriving DecidableEq, Repr

/-- What was taken from a command line, and what is left over. -/
structure Taken where
  given : List Given := []
  operands : Option (List String) := none
  leftOver : List String := []
deriving DecidableEq, Repr

def optionMessage (option : OptionForm) (message : Text) : Text :=
  Text.concat ["argument ", option.title, ": ", message]

/-- The message about a value that is not among the choices. -/
def choiceMessage (value : String) (choices : List String) : Text :=
  Text.concat ["invalid choice: ", (Text.ofString value).quoted, " (choose from ",
    Text.commaList (choices.map fun choice => (Text.ofString choice).quoted), ")"]

/-- Refuses a value that a flag cannot have. -/
def refuseValue {α : Type} (screen : Screen) (option : OptionForm) (value : List Char) :
    Except Stop α :=
  .error (.misuse screen (optionMessage option
    (Text.concat ["ignored explicit argument ", (Text.ofString (String.ofList value)).quoted])))

/-- The options of one word, before their values are checked; the last may need a value from the
next word. -/
structure Chain where
  complete : List (OptionForm × String)
  open? : Option OptionForm

/-- Follows the options of one word: behind a flag of one letter stand further letters. -/
def Form.chain (form : Form) (option : OptionForm) (spelling : String) :
    Option (List Char) → Except Stop Chain
  | none =>
    .ok (if option.takesValue then ⟨[], some option⟩ else ⟨[(option, "")], none⟩)
  | some value =>
    if option.takesValue then .ok ⟨[(option, String.ofList value)], none⟩
    else if ['-', '-'].isPrefixOf spelling.toList then refuseValue form.screen option value
    else letters option value
where
  /-- Follows the letters behind a flag of one letter. -/
  letters (flag : OptionForm) : List Char → Except Stop Chain
    | [] => refuseValue form.screen flag []
    | letter :: rest =>
      match form.option? (String.ofList ['-', letter]) with
      | none => refuseValue form.screen flag (letter :: rest)
      | some option =>
        if option.takesValue then
          .ok (if rest.isEmpty then ⟨[(flag, "")], some option⟩
            else ⟨[(flag, ""), (option, String.ofList rest)], none⟩)
        else if rest.isEmpty then .ok ⟨[(flag, ""), (option, "")], none⟩
        else (letters option rest).map fun chain => { chain with complete := (flag, "") :: chain.complete }

/-- Checks the options of a word in order; help ends the reading at once. -/
def Form.check (form : Form) : List (OptionForm × String) → Except Stop (List Given)
  | [] => .ok []
  | (option, value) :: rest =>
    if option.topic = .help then .error (.help form.screen)
    else
      match option.choices with
      | some choices =>
        if choices.contains value then (form.check rest).map (⟨option.topic, value⟩ :: ·)
        else .error (.misuse form.screen (optionMessage option (choiceMessage value choices)))
      | none => (form.check rest).map (⟨option.topic, value⟩ :: ·)

def Word.isOperand (word : Word) : Bool :=
  match word.kind with
  | .operand => true
  | _ => false

/-- Whether a word is two dashes alone. -/
def Word.isSeparator (word : Word) : Bool :=
  match word.kind with
  | .separator => true
  | _ => false

/-- Whether a word is an operand or two dashes alone. -/
def Word.isPlain (word : Word) : Bool :=
  word.isOperand || word.isSeparator

/-- The operands at the front, and the words behind them. -/
def takeOperands (operands : Operands) (words : List Word) : Option (List Word × List Word) :=
  match (words.dropWhile Word.isSeparator).head? with
  | none => none
  | some first =>
    if first.isOperand then
      match operands with
      | .none => none
      | .paths => some (words.takeWhile Word.isPlain, words.dropWhile Word.isPlain)
      | .command => some (words, [])
    else none

/-- What is known with further options. -/
def Taken.give (taken : Taken) (given : List Given) : Taken :=
  { taken with given := taken.given ++ given }

/-- What is known with a further word left over. -/
def Taken.leave (taken : Taken) (word : Word) : Taken :=
  { taken with leftOver := taken.leftOver ++ [word.spelling] }

theorem length_takeOperands {operands : Operands} {word : Word} {words taken rest : List Word}
    (plain : word.isPlain = true)
    (found : takeOperands operands (word :: words) = some (taken, rest)) :
    rest.length < (word :: words).length := by
  unfold takeOperands at found
  split at found
  · contradiction
  · split at found
    · split at found
      · contradiction
      · obtain ⟨-, rfl⟩ := Prod.mk.inj (Option.some.inj found)
        rw [List.dropWhile_cons_of_pos plain]
        exact Nat.lt_succ_of_le (List.dropWhile_suffix _).length_le
      · obtain ⟨-, rfl⟩ := Prod.mk.inj (Option.some.inj found)
        exact Nat.succ_pos _
    · contradiction

def Form.readWords (form : Form) (taken : Taken) : List Word → Except Stop Taken
  | [] => .ok taken
  | word :: rest =>
    match kind : word.kind with
    | .unknownOption => form.readWords (taken.leave word) rest
    | .option found => do
      let chain ← form.chain found.option found.spelling found.value
      match chain.open? with
      | none => form.readWords (taken.give (← form.check chain.complete)) rest
      | some option =>
        match rest with
        | [] => missingValue option
        | value :: behind =>
          if value.isOperand then
            let given ← form.check (chain.complete ++ [(option, value.spelling)])
            form.readWords (taken.give given) behind
          else missingValue option
    | .operand | .separator =>
      match taken.operands with
      | some _ => form.readWords (taken.leave word) rest
      | none =>
        match found : takeOperands form.operands (word :: rest) with
        | none => form.readWords (taken.leave word) rest
        | some (operands, behind) =>
          have := length_takeOperands
            (by simp [Word.isPlain, Word.isOperand, Word.isSeparator, kind]) found
          form.readWords { taken with operands := some (operands.map Word.spelling) } behind
termination_by words => words.length
decreasing_by
  all_goals try assumption
  all_goals try exact Nat.lt_succ_self _
  exact Nat.lt_succ_of_lt (Nat.lt_succ_self _)
where
  /-- Refuses an option without the value that it needs. -/
  missingValue (option : OptionForm) : Except Stop Taken :=
    .error (.misuse form.screen (optionMessage option "expected one argument"))

def Form.read (form : Form) (spellings : List String) : Except Stop Taken := do
  form.readWords {} (← form.words spellings)

end ModuleFence.CommandLine
