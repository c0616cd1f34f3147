import ModuleFence.Proofs.FileSystem.Following

/-!
The order in which directories list their entries. It decides nothing but that: where a path leads
and what a file holds stays the same, and every directory lists the same names.
-/

set_option autoImplicit false

namespace ModuleFence.FileSystem

/-- The same file system, but its directories may list their entries in another order. -/
structure Relisted (files other : FileSystem) : Prop where
  entries : other.entries.Perm files.entries
  workingDirectory : other.workingDirectory = files.workingDirectory

namespace Relisted

variable {files other third : FileSystem}

theorem refl (files : FileSystem) : Relisted files files :=
  ⟨List.Perm.refl _, rfl⟩

theorem symm (relisted : Relisted files other) : Relisted other files :=
  ⟨relisted.entries.symm, relisted.workingDirectory.symm⟩

theorem trans (first : Relisted files other) (second : Relisted other third) :
    Relisted files third :=
  ⟨second.entries.trans first.entries, second.workingDirectory.trans first.workingDirectory⟩

theorem list_perm (relisted : Relisted files other) (location : Location) :
    (other.list location).Perm (files.list location) :=
  relisted.entries.filterMap _

theorem mem_list_iff (relisted : Relisted files other) {location : Location} {name : String} :
    name ∈ other.list location ↔ name ∈ files.list location :=
  (relisted.list_perm location).mem_iff

theorem entryAt?_eq (relisted : Relisted files other) (sound : files.Sound) :
    other.entryAt? = files.entryAt? := by
  have distinct : (other.entries.map (·.1)).Nodup :=
    (relisted.entries.map _).nodup_iff.mpr sound.distinct
  funext location
  by_cases top : location = []
  · rw [top]
    rfl
  · refine Option.ext fun entry => ⟨fun found => ?_, fun found => ?_⟩
    · have member := mem_of_entryAt? found top
      exact sound.entryAt?_of_mem (relisted.entries.mem_iff.mp member)
    · have member := mem_of_entryAt? found top
      exact entryAt?_of_distinct distinct (relisted.entries.mem_iff.mpr member) top

theorem sound (relisted : Relisted files other) (sound : files.Sound) : other.Sound where
  distinct := (relisted.entries.map _).nodup_iff.mpr sound.distinct
  named := fun pair member => sound.named pair (relisted.entries.mem_iff.mp member)
  housed := fun pair member => by
    rw [relisted.entryAt?_eq sound]
    exact sound.housed pair (relisted.entries.mem_iff.mp member)

end Relisted

section Reading

variable {files other : FileSystem} (same : other.entryAt? = files.entryAt?)

include same

/-- Following looks at nothing but the entries at locations. -/
theorem followSteps_congr (onLink : Location → List String → Except PathFault (Location × Entry))
    (location : Location) (steps : List String) :
    other.followSteps onLink location steps = files.followSteps onLink location steps := by
  induction steps generalizing location with
  | nil => rw [followSteps, followSteps, same]
  | cons name rest ih =>
    rw [followSteps_cons, followSteps_cons, same]
    simp only [ih]

theorem follow_congr (links : Nat) : other.follow links = files.follow links := by
  induction links with
  | zero =>
    funext location steps
    exact followSteps_congr same _ location steps
  | succ links ih =>
    funext location steps
    rw [follow, follow, ih]
    exact followSteps_congr same _ location steps

end Reading

namespace Relisted

variable {files other : FileSystem} (relisted : Relisted files other) (sound : files.Sound)

include relisted sound

theorem locate_eq (path : Path) : other.locate path = files.locate path := by
  rw [locate, locate, follow_congr (relisted.entryAt?_eq sound), relisted.workingDirectory]

theorem lookUp_eq (path : Path) : Discovery.lookUp other path = Discovery.lookUp files path := by
  rw [Discovery.lookUp, Discovery.lookUp, find?, find?, relisted.locate_eq sound]

theorem readText_eq (path : Path) : other.readText path = files.readText path := by
  rw [readText, readText, readBytes, readBytes, relisted.locate_eq sound]

/-- The ignore patterns of a directory are the same in every order. -/
theorem ignorePatterns_eq (root : Path) :
    Discovery.ignorePatterns other root = Discovery.ignorePatterns files root := by
  rw [Discovery.ignorePatterns, Discovery.ignorePatterns, Discovery.ignoreLines,
    Discovery.ignoreLines, relisted.lookUp_eq sound, relisted.readText_eq sound]

end Relisted

/-- The file system with one entry listed behind all others. -/
def listedLast (files : FileSystem) (location : Location) : FileSystem :=
  { files with
    entries := files.entries.filter (·.1 ≠ location) ++ files.entries.filter (·.1 = location) }

theorem relisted_listedLast (files : FileSystem) (location : Location) :
    Relisted files (files.listedLast location) := by
  have split := List.filter_append_perm (fun pair : Location × Entry => decide (pair.1 ≠ location))
    files.entries
  simp only [decide_not, Bool.not_not] at split
  refine ⟨?_, rfl⟩
  simpa only [listedLast, ne_eq, decide_not] using split

theorem nameIn_concat_of_ne {house place : Location} (different : place ≠ house) (name : String)
    (entry : Entry) : nameIn place (house ++ [name], entry) = none := by
  rw [nameIn, List.dropLast_concat, if_neg different.symm]

theorem list_listedLast (files : FileSystem) (location house : Location) :
    (files.listedLast location).list house =
      (files.entries.filter (·.1 ≠ location)).filterMap (nameIn house) ++
        (files.entries.filter (·.1 = location)).filterMap (nameIn house) := by
  rw [list_eq, listedLast, List.filterMap_append]

/-- A directory lists last the entry that was moved behind all others. -/
theorem exists_list_listedLast {files : FileSystem} {house : Location} {name : String}
    (member : name ∈ files.list house) :
    ∃ others, (files.listedLast (house ++ [name])).list house = others ++ [name] := by
  have moved : files.entries.filter (·.1 = house ++ [name]) ≠ [] := by
    rw [list_eq, List.mem_filterMap] at member
    obtain ⟨pair, member, named⟩ := member
    have spelled := nameIn_eq_some_iff.mp named
    exact List.ne_nil_of_mem (List.mem_filter.mpr ⟨member, decide_eq_true spelled⟩)
  obtain ⟨front, last, split⟩ := (List.eq_nil_or_concat' _).resolve_left moved
  have spelled : last.1 = house ++ [name] := by
    have member : last ∈ files.entries.filter (·.1 = house ++ [name]) := by
      rw [split]
      exact List.mem_append_right _ List.mem_cons_self
    exact of_decide_eq_true (List.mem_filter.mp member).2
  have named : [last].filterMap (nameIn house) = [name] := by
    rw [List.filterMap_cons, nameIn_eq_some_iff.mpr spelled]
    rfl
  rw [list_listedLast, split, List.filterMap_append, ← List.append_assoc, named]
  exact ⟨_, rfl⟩

/-- The other directories list their entries as before. -/
theorem list_listedLast_of_ne {files : FileSystem} {house place : Location} (name : String)
    (different : place ≠ house) :
    (files.listedLast (house ++ [name])).list place = files.list place := by
  have away : ∀ pair : Location × Entry, pair.1 = house ++ [name] → nameIn place pair = none := by
    rintro ⟨location, entry⟩ rfl
    exact nameIn_concat_of_ne different name entry
  have moved : (files.entries.filter (·.1 = house ++ [name])).filterMap (nameIn place) = [] := by
    rw [List.filterMap_eq_nil_iff]
    intro pair member
    exact away pair (of_decide_eq_true (List.mem_filter.mp member).2)
  rw [list_listedLast, moved, List.append_nil, List.filterMap_filter, list_eq]
  refine List.filterMap_congr fun pair _ => ?_
  by_cases here : pair.1 = house ++ [name]
  · rw [away pair here, ite_self]
  · rw [if_pos (decide_eq_true here)]

end ModuleFence.FileSystem
