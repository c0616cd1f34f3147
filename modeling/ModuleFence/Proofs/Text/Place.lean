import Mathlib.Algebra.GroupWithZero.Nat
import Mathlib.Data.List.DropRight
import ModuleFence.Script.Cursor

set_option autoImplicit false

namespace ModuleFence.Point

/-- The place behind the first characters of a text. -/
def behind (characters : List Char) : Point :=
  characters.foldl after origin

theorem behind_concat (characters : List Char) (character : Char) :
    behind (characters ++ [character]) = (behind characters).after character := by
  rw [behind, List.foldl_append]
  rfl

theorem row_behind (characters : List Char) : (behind characters).row = characters.count '\n' := by
  induction characters using List.reverseRecOn with
  | nil => rfl
  | append_singleton front character ih =>
    rw [behind_concat, after, List.count_append, List.count_singleton, ← ih]
    split
    · rename_i ends
      simp only [ends, beq_self_eq_true, if_true]
    · rename_i inside
      simp only [beq_iff_eq, inside, if_false, Nat.add_zero]

theorem column_behind (characters : List Char) :
    (behind characters).column =
      ((characters.rtakeWhile fun character => character ≠ '\n').map Utf8.width).sum := by
  induction characters using List.reverseRecOn with
  | nil => rfl
  | append_singleton front character ih =>
    rw [behind_concat, after, List.rtakeWhile_concat]
    by_cases ends : character = '\n'
    · simp only [ends, if_true, ne_eq, not_true_eq_false, decide_false, Bool.false_eq_true, if_false,
        List.map_nil, List.sum_nil]
    · simp only [ends, if_false, ne_eq, not_false_eq_true, decide_true, if_true, List.map_append,
        List.sum_append, List.map_singleton, List.sum_singleton, ih]

theorem byte_behind (characters : List Char) :
    (behind characters).byte = (characters.map Utf8.width).sum := by
  induction characters using List.reverseRecOn with
  | nil => rfl
  | append_singleton front character ih =>
    rw [behind_concat, after, List.map_append, List.sum_append, ← ih]
    split <;> rfl

theorem point_advance_eq_foldl (count : Nat) (cursor : Script.Cursor) :
    (cursor.advance count).point = (cursor.rest.take count).foldl after cursor.point := by
  induction count generalizing cursor with
  | zero => rfl
  | succ count ih =>
    rw [Script.Cursor.advance]
    cases rest_eq : cursor.rest with
    | nil => rfl
    | cons character rest => rw [ih, List.take_succ_cons, List.foldl_cons]

/-- A cursor stands behind the characters over which it was advanced. -/
theorem point_advance_start (source : List Char) (count : Nat) :
    ((Script.Cursor.start source).advance count).point = behind (source.take count) :=
  point_advance_eq_foldl count (Script.Cursor.start source)

end ModuleFence.Point
