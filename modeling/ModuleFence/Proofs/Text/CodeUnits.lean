import Mathlib.Data.List.Chain
import ModuleFence.Text.Basic

/-!
Code units of texts. A code point above the first plane has two units, which are surrogates, so that
two surrogates next to one another have the units of one code point. Texts without such pairs are
told apart by their units.
-/

set_option autoImplicit false

namespace ModuleFence

namespace CodePoint

def units (point : CodePoint) : List Nat :=
  if point.value < 0x10000 then [point.value]
  else [0xD800 + (point.value - 0x10000) / 0x400, 0xDC00 + (point.value - 0x10000) % 0x400]

/-- The first half of a pair of surrogates. -/
def IsLeading (point : CodePoint) : Prop :=
  0xD800 ≤ point.value ∧ point.value < 0xDC00

/-- The second half of a pair of surrogates. -/
def IsTrailing (point : CodePoint) : Prop :=
  0xDC00 ≤ point.value ∧ point.value < 0xE000

theorem units_of_low {point : CodePoint} (low : point.value < 0x10000) :
    point.units = [point.value] :=
  if_pos low

theorem units_of_high {point : CodePoint} (high : ¬ point.value < 0x10000) :
    point.units =
      [0xD800 + (point.value - 0x10000) / 0x400, 0xDC00 + (point.value - 0x10000) % 0x400] :=
  if_neg high

theorem units_ne_nil (point : CodePoint) : point.units ≠ [] := by
  rw [units]
  split <;> exact List.cons_ne_nil _ _

end CodePoint

namespace Text

def units (text : Text) : List Nat :=
  text.flatMap CodePoint.units

@[simp] theorem units_nil : units [] = [] := rfl

@[simp] theorem units_cons (point : CodePoint) (rest : Text) :
    units (point :: rest) = point.units ++ rest.units :=
  List.flatMap_cons

@[simp] theorem units_append (first second : Text) :
    units (first ++ second) = first.units ++ second.units :=
  List.flatMap_append

/-- No two neighbours in a text are the halves of a pair of surrogates. -/
def Unpaired (text : Text) : Prop :=
  text.IsChain fun point next => ¬ (point.IsLeading ∧ next.IsTrailing)

theorem Unpaired.of_cons {point : CodePoint} {rest : Text} (unpaired : Unpaired (point :: rest)) :
    Unpaired rest :=
  unpaired.tail

theorem eq_nil_of_units {text : Text} (empty : text.units = []) : text = [] := by
  cases text with
  | nil => rfl
  | cons point rest =>
    rw [units_cons, List.append_eq_nil_iff] at empty
    exact absurd empty.1 point.units_ne_nil

/-- The units of a code point above the first plane do not begin a text that starts with one of the
first plane, since that would start with a pair. -/
theorem units_ne_of_high {high low : CodePoint} (above : ¬ high.value < 0x10000)
    (below : low.value < 0x10000) {rest : Text} (unpaired : Unpaired (low :: rest))
    (behind : List Nat) : high.units ++ behind ≠ low.units ++ rest.units := by
  have bound := high.inRange
  rw [CodePoint.units_of_high above, CodePoint.units_of_low below]
  intro same
  simp only [List.cons_append, List.nil_append, List.cons.injEq] at same
  obtain ⟨leading_eq, rest_eq⟩ := same
  cases rest with
  | nil => cases rest_eq
  | cons next others =>
    have apart := (List.isChain_cons_cons.mp unpaired).1
    have leading : low.IsLeading := by
      rw [CodePoint.IsLeading]
      omega
    rw [units_cons] at rest_eq
    by_cases small : next.value < 0x10000
    · rw [CodePoint.units_of_low small, List.singleton_append, List.cons.injEq] at rest_eq
      refine apart ⟨leading, ?_⟩
      rw [CodePoint.IsTrailing]
      omega
    · have inRange := next.inRange
      rw [CodePoint.units_of_high small, List.cons_append, List.cons.injEq] at rest_eq
      omega

/-- Texts without pairs of surrogates that have the same units are the same. -/
theorem eq_of_units {first second : Text} (unpaired : Unpaired first) (apart : Unpaired second)
    (same : first.units = second.units) : first = second := by
  induction first generalizing second with
  | nil => exact (eq_nil_of_units same.symm).symm
  | cons point rest ih =>
    cases second with
    | nil => exact eq_nil_of_units same
    | cons other others =>
      rw [units_cons, units_cons] at same
      by_cases low : point.value < 0x10000
      · by_cases below : other.value < 0x10000
        · rw [CodePoint.units_of_low low, CodePoint.units_of_low below, List.singleton_append,
            List.singleton_append, List.cons.injEq] at same
          rw [CodePoint.ext_value same.1, ih unpaired.of_cons apart.of_cons same.2]
        · exact absurd same.symm (units_ne_of_high below low unpaired _)
      · by_cases below : other.value < 0x10000
        · exact absurd same (units_ne_of_high low below apart _)
        · rw [CodePoint.units_of_high low, CodePoint.units_of_high below] at same
          simp only [List.cons_append, List.nil_append, List.cons.injEq] at same
          obtain ⟨leading_eq, trailing_eq, rest_eq⟩ := same
          have value_eq : point.value = other.value := by omega
          rw [CodePoint.ext_value value_eq, ih unpaired.of_cons apart.of_cons rest_eq]

end Text

end ModuleFence
