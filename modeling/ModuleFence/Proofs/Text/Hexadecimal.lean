import Mathlib.Algebra.Group.Nat.Defs
import Mathlib.Data.List.Induction
import ModuleFence.Text.Numeral

/-!
Runs of hexadecimal digits. Reading such a run gives the number that it denotes in base sixteen,
however long it is: no sign, mark, blank or underscore can occur in it.
-/

set_option autoImplicit false

namespace ModuleFence

/-- A list that starts and ends with elements that fail a test loses nothing. -/
theorem trimBy_of_forall {α : Type} {test : α → Bool} {list : List α}
    (kept : ∀ element ∈ list, test element = false) : trimBy test list = list := by
  have untouched (some_list : List α) (each : ∀ element ∈ some_list, test element = false) :
      some_list.dropWhile test = some_list := by
    cases some_list with
    | nil => rfl
    | cons first rest => rw [List.dropWhile_cons, each first List.mem_cons_self]; rfl
  have reversed : ∀ element ∈ list.reverse, test element = false :=
    fun element member => kept element (List.mem_reverse.mp member)
  rw [trimBy, dropWhileEnd, untouched list kept, untouched _ reversed, List.reverse_reverse]

namespace Numeral

/-- The hexadecimal digits, in both cases. -/
def hexCharacters : List Char :=
  "0123456789abcdefABCDEF".toList

def digitNumber (digit : Char) : Nat :=
  if digit.isDigit then digit.toNat - '0'.toNat else digit.toLower.toNat - 'a'.toNat + 10

/-- The number that hexadecimal digits denote, the greatest place first. -/
def hexNumber (run : List Char) : Nat :=
  run.foldl (fun number digit => number * 16 + digitNumber digit) 0

/-- What can be checked of each hexadecimal digit holds of all of them. -/
theorem forall_hexCharacters {property : Char → Prop} [DecidablePred property]
    (checked : (hexCharacters.all fun digit => decide (property digit)) = true) :
    ∀ digit ∈ hexCharacters, property digit := by
  intro digit member
  exact of_decide_eq_true (List.all_eq_true.mp checked digit member)

theorem hexValue?_of_hexDigit :
    ∀ digit ∈ hexCharacters, hexValue? digit = some (digitNumber digit) :=
  forall_hexCharacters (by decide +kernel)

theorem digitNumber_lt : ∀ digit ∈ hexCharacters, digitNumber digit < 16 :=
  forall_hexCharacters (by decide +kernel)

theorem asciiForm?_of_hexDigit : ∀ digit ∈ hexCharacters, asciiForm? digit = some digit :=
  forall_hexCharacters (by decide +kernel)

theorem isPadding_of_hexDigit : ∀ digit ∈ hexCharacters, isPadding digit = false :=
  forall_hexCharacters (by decide +kernel)

/-- A run can be checked for being made of hexadecimal digits. -/
theorem mem_hexCharacters_of_all {run : List Char}
    (checked : (run.all fun digit => hexCharacters.contains digit) = true) :
    ∀ digit ∈ run, digit ∈ hexCharacters := by
  intro digit member
  exact List.contains_iff_mem.mp (List.all_eq_true.mp checked digit member)

section Run

variable {run : List Char} (hex : ∀ digit ∈ run, digit ∈ hexCharacters)

include hex

theorem mapM_asciiForm? : run.mapM asciiForm? = some run := by
  induction run with
  | nil => rfl
  | cons digit rest ih =>
    rw [List.forall_mem_cons] at hex
    rw [List.mapM_cons, asciiForm?_of_hexDigit digit hex.1, ih hex.2]
    rfl

theorem digitsFrom_of_hexCharacters (value : Nat) :
    digitsFrom value run =
      some (run.foldl (fun number digit => number * 16 + digitNumber digit) value) := by
  induction run generalizing value with
  | nil => rfl
  | cons digit rest ih =>
    rw [List.forall_mem_cons] at hex
    have plain : digit ≠ '_' := by
      rintro rfl
      exact absurd hex.1 (by decide)
    rw [digitsFrom.eq_3 value digit rest (fun _ _ same _ => plain same),
      hexValue?_of_hexDigit digit hex.1, List.foldl_cons, ← ih hex.2]
    rfl

theorem signed_of_hexCharacters : signed run = (digits run).map Int.ofNat := by
  have absent {mark : Char} (foreign : mark ∉ hexCharacters) : mark ∉ run :=
    fun member => foreign (hex mark member)
  have unmarked : unsigned run = digits run := by
    unfold unsigned
    split
    · exact absurd (by simp) (absent (show 'x' ∉ hexCharacters by decide))
    · exact absurd (by simp) (absent (show 'x' ∉ hexCharacters by decide))
    · exact absurd (by simp) (absent (show 'X' ∉ hexCharacters by decide))
    · exact absurd (by simp) (absent (show 'X' ∉ hexCharacters by decide))
    · rfl
  unfold signed
  split
  · exact absurd (by simp) (absent (show '-' ∉ hexCharacters by decide))
  · exact absurd (by simp) (absent (show '+' ∉ hexCharacters by decide))
  · rw [unmarked]

/-- Reading hexadecimal digits gives the number that they denote; without a digit there is none. -/
theorem readHex?_of_hexCharacters :
    readHex? run = if run = [] then none else some (hexNumber run : Int) := by
  have kept : ∀ digit ∈ run, isPadding digit = false :=
    fun digit member => isPadding_of_hexDigit digit (hex digit member)
  rw [readHex?, mapM_asciiForm? hex, Option.bind_eq_bind, Option.bind_some, trimBy_of_forall kept,
    signed_of_hexCharacters hex]
  cases run with
  | nil => rfl
  | cons digit rest =>
    rw [List.forall_mem_cons] at hex
    rw [if_neg (List.cons_ne_nil digit rest), digits, hexValue?_of_hexDigit digit hex.1,
      Option.bind_eq_bind, Option.bind_some, digitsFrom_of_hexCharacters hex.2, hexNumber,
      List.foldl_cons, Nat.zero_mul, Nat.zero_add]
    rfl

/-- Digits denote less than a number with one more place. -/
theorem hexNumber_lt : hexNumber run < 16 ^ run.length := by
  induction run using List.reverseRecOn with
  | nil => decide
  | append_singleton shorter digit ih =>
    have last := digitNumber_lt digit (hex digit (by simp))
    have before := ih fun other member => hex other (List.mem_append_left _ member)
    rw [hexNumber, List.foldl_append, List.foldl_cons, List.foldl_nil, List.length_append,
      List.length_singleton, Nat.pow_succ]
    change hexNumber shorter * 16 + digitNumber digit < 16 ^ shorter.length * 16
    omega

end Run

end Numeral

end ModuleFence
