import ModuleFence.Proofs.Firsts
import ModuleFence.Proofs.Rule.Making

/-!
Cleaning of the names that a rule is to forbid. Names that are not empty and hold no slash are kept,
each at the place where it comes first; any other name keeps the rule from being made.
-/

set_option autoImplicit false

namespace ModuleFence

namespace ModuleOptions

/-- A name that can be forbidden: not empty and without slash when its blanks are gone. -/
def CanForbid (name : Text) : Prop :=
  name.strip ≠ [] ∧ moduleSeparator ∉ name.strip

instance (name : Text) : Decidable (CanForbid name) :=
  inferInstanceAs (Decidable (_ ∧ _))

/-- What is wrong with a name that cannot be forbidden. -/
def faultOf (name : Text) : NameFault :=
  if name.strip = [] then .empty else .separator name.strip

theorem cleanFrom_cons (before : Cleaning) (entry : Text) (rest : List Text) :
    cleanFrom before (entry :: rest) =
      if entry.strip = [] then .error .empty
      else if moduleSeparator ∈ entry.strip then .error (.separator entry.strip)
      else if entry.strip ∈ before.kept then
        cleanFrom { before with dropped := before.dropped ++ [entry.strip] } rest
      else cleanFrom { before with kept := before.kept ++ [entry.strip] } rest :=
  rfl

/-- The cleaning that has met some stripped names. -/
def Cleaning.of (met : List Text) : Cleaning :=
  ⟨met.eraseDups, repeated met⟩

theorem cleanFrom_cons_of_canForbid {name : Text} (fine : CanForbid name) (met rest : List Text) :
    cleanFrom (.of met) (name :: rest) = cleanFrom (.of (met ++ [name.strip])) rest := by
  obtain ⟨some_, plain⟩ := fine
  rw [cleanFrom_cons, if_neg some_, if_neg plain]
  simp only [Cleaning.of, List.mem_eraseDups, eraseDups_concat, repeated_concat]
  by_cases known : name.strip ∈ met
  · rw [if_pos known, if_pos known, if_pos known]
  · rw [if_neg known, if_neg known, if_neg known]

/-- Names that can be forbidden are all met before what stands behind them is looked at. -/
theorem cleanFrom_append_of_canForbid {names : List Text} (valid : ∀ name ∈ names, CanForbid name)
    (met rest : List Text) :
    cleanFrom (.of met) (names ++ rest) =
      cleanFrom (.of (met ++ names.map Text.strip)) rest := by
  induction names generalizing met with
  | nil => rw [List.map_nil, List.append_nil, List.nil_append]
  | cons name names ih =>
    obtain ⟨fine, later⟩ := List.forall_mem_cons.mp valid
    rw [List.cons_append, cleanFrom_cons_of_canForbid fine, ih later, List.append_assoc,
      List.singleton_append, List.map_cons]

theorem cleanFrom_cons_of_not_canForbid {name : Text} (bad : ¬ CanForbid name) (before : Cleaning)
    (rest : List Text) : cleanFrom before (name :: rest) = .error (faultOf name) := by
  rw [cleanFrom_cons, faultOf]
  by_cases empty : name.strip = []
  · rw [if_pos empty, if_pos empty]
  · have slashed : moduleSeparator ∈ name.strip := by
      by_contra plain
      exact bad ⟨empty, plain⟩
    rw [if_neg empty, if_neg empty, if_pos slashed]

theorem clean_of_canForbid {names : List Text} (valid : ∀ name ∈ names, CanForbid name) :
    clean names = .ok (.of (names.map Text.strip)) := by
  have met := cleanFrom_append_of_canForbid valid [] []
  rwa [List.append_nil, List.nil_append] at met

/-- The first name that cannot be forbidden decides the fault, whatever stands behind it. -/
theorem clean_of_not_canForbid {before : List Text} (valid : ∀ name ∈ before, CanForbid name)
    {name : Text} (bad : ¬ CanForbid name) (behind : List Text) :
    clean (before ++ name :: behind) = .error (faultOf name) :=
  (cleanFrom_append_of_canForbid valid [] _).trans (cleanFrom_cons_of_not_canForbid bad _ behind)

/-- Names that can be forbidden make options that keep each where it comes first. -/
theorem ofNames_of_canForbid {names : List Text} (valid : ∀ name ∈ names, CanForbid name)
    (store : Option Path) :
    ofNames store names =
      (.ok ⟨store, (names.map Text.strip).eraseDups⟩,
        droppedRecords (repeated (names.map Text.strip))) := by
  simp only [ofNames, cleanField, clean_of_canForbid valid]
  rfl

theorem ofNames_at_fault {before : List Text} (valid : ∀ name ∈ before, CanForbid name) {name : Text}
    (bad : ¬ CanForbid name) (behind : List Text) (store : Option Path) :
    ofNames store (before ++ name :: behind) =
      (.error ⟨modelName, [⟨modulesField, none, .rejected (faultOf name).wording⟩]⟩, []) := by
  simp only [ofNames, cleanField, clean_of_not_canForbid valid bad]
  rfl

/-- A name that cannot be forbidden makes the options invalid. -/
theorem ofNames_of_not_canForbid {names : List Text} {name : Text} (member : name ∈ names)
    (bad : ¬ CanForbid name) (store : Option Path) :
    ∃ error, (ofNames store names).1 = .error error := by
  obtain ⟨first, found⟩ : ∃ first, names.find? (fun name => ¬ CanForbid name) = some first :=
    Option.isSome_iff_exists.mp
      (List.find?_isSome.mpr ⟨name, member, decide_eq_true bad⟩)
  obtain ⟨firstBad, before, behind, rfl, early⟩ := List.find?_eq_some_iff_append.mp found
  have valid : ∀ earlier ∈ before, CanForbid earlier := fun earlier inside => by
    simpa using early earlier inside
  exact ⟨_, congrArg Prod.fst (ofNames_at_fault valid (of_decide_eq_true firstBad) behind store)⟩

end ModuleOptions

end ModuleFence
