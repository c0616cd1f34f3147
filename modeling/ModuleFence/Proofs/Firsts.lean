import Mathlib.Data.List.Induction
import Mathlib.Data.List.Nodup

set_option autoImplicit false

namespace ModuleFence

section Kept

variable {α : Type} [BEq α] [LawfulBEq α]

/-- A further element is kept if it did not come before. -/
theorem eraseDups_concat (elements : List α) (last : α) [Decidable (last ∈ elements)] :
    (elements ++ [last]).eraseDups =
      if last ∈ elements then elements.eraseDups else elements.eraseDups ++ [last] := by
  rw [List.eraseDups_append]
  split
  · rename_i known
    have nothing : [last].removeAll elements = [] := by simp [List.removeAll, known]
    rw [nothing]
    exact List.append_nil _
  · rename_i unknown
    have all : [last].removeAll elements = [last] := by simp [List.removeAll, unknown]
    rw [all]
    rfl

theorem nodup_eraseDups (elements : List α) : elements.eraseDups.Nodup := by
  classical
  induction elements using List.reverseRecOn with
  | nil => exact List.nodup_nil
  | append_singleton elements last ih =>
    rw [eraseDups_concat]
    split
    · exact ih
    · rename_i unknown
      rw [← List.concat_eq_append]
      exact ih.concat (mt List.mem_eraseDups.mp unknown)

theorem eraseDups_sublist (elements : List α) : elements.eraseDups.Sublist elements := by
  classical
  induction elements using List.reverseRecOn with
  | nil => exact List.Sublist.refl _
  | append_singleton elements last ih =>
    rw [eraseDups_concat]
    split
    · exact ih.trans (List.sublist_append_left _ _)
    · exact ih.append (List.Sublist.refl _)

/-- A list in which nothing is repeated consists of its first occurrences. -/
theorem eraseDups_of_nodup {elements : List α} (once : elements.Nodup) :
    elements.eraseDups = elements := by
  classical
  induction elements using List.reverseRecOn with
  | nil => rfl
  | append_singleton elements last ih =>
    obtain ⟨early, -, apart⟩ := List.nodup_append.mp once
    have new : last ∉ elements := fun member => apart last member last (List.mem_singleton.mpr rfl) rfl
    rw [eraseDups_concat, if_neg new, ih early]

end Kept

section Repeated

variable {α : Type} [DecidableEq α]

/-- The elements of a list at the places where they did not come first, in order. -/
def repeated (elements : List α) : List α :=
  (elements.zipIdx.filter fun (element, index) => element ∈ elements.take index).map Prod.fst

theorem repeated_concat (elements : List α) (last : α) :
    repeated (elements ++ [last]) =
      if last ∈ elements then repeated elements ++ [last] else repeated elements := by
  have early : (elements.zipIdx.filter fun (element, index) =>
        element ∈ (elements ++ [last]).take index) =
      elements.zipIdx.filter fun (element, index) => element ∈ elements.take index := by
    refine List.filter_congr fun ⟨element, index⟩ member => ?_
    have inside : index < elements.length := by
      simpa using List.snd_lt_of_mem_zipIdx member
    simp only [List.take_append_of_le_length (Nat.le_of_lt inside)]
  rw [repeated, List.zipIdx_append, List.filter_append, early, List.map_append]
  rw [List.zipIdx_singleton, Nat.zero_add]
  split
  · rename_i known
    rw [List.filter_cons_of_pos (by simpa using known), List.filter_nil]
    rfl
  · rename_i unknown
    rw [List.filter_cons_of_neg (by simpa using unknown), List.filter_nil]
    exact List.append_nil _

theorem repeated_eq_nil_iff (elements : List α) : repeated elements = [] ↔ elements.Nodup := by
  induction elements using List.reverseRecOn with
  | nil => exact iff_of_true rfl List.nodup_nil
  | append_singleton elements last ih =>
    rw [repeated_concat, List.nodup_append_comm, List.singleton_append, List.nodup_cons]
    split
    · rename_i known
      simp [known]
    · rename_i unknown
      rw [ih, and_iff_right unknown]

/-- What is kept and what goes are together all elements. -/
theorem eraseDups_append_repeated_perm [BEq α] [LawfulBEq α] (elements : List α) :
    (elements.eraseDups ++ repeated elements).Perm elements := by
  induction elements using List.reverseRecOn with
  | nil => exact List.Perm.refl _
  | append_singleton elements last ih =>
    rw [eraseDups_concat, repeated_concat]
    split
    · rw [← List.append_assoc]
      exact ih.append_right [last]
    · rw [List.append_assoc]
      exact (List.perm_append_comm.append_left _).trans
        ((List.append_assoc _ _ _).symm ▸ ih.append_right [last])

end Repeated

end ModuleFence
