import Mathlib.Data.Prod.Lex
import Mathlib.Logic.Relation
import Mathlib.Order.WellFounded
import ModuleFence.Proofs.FileSystem.Following
import ModuleFence.Proofs.Success

/-!
The walk through a directory, one step after the other: it takes up an entry of the directory that
it lists, or a directory that waits. Steps are taken until none waits, or until an entry cannot be
looked up; they cannot go on for ever, because no real directory is listed twice.
-/

set_option autoImplicit false

namespace ModuleFence.Discovery

namespace Search

variable (search : Search)

/-- Steps lead to a directory. -/
def LeadsTo (steps : Steps) (place : Location) : Prop :=
  lookUp search.files (search.path steps) = .ok (some (place, .directory))

/-- A directory may be walked that has a name in another one. -/
def MayEnter (directory : Steps) (name : String) : Prop :=
  search.isPruned name = false ∧
    search.ignored (relativeSpelling (directory ++ [name]) ++ ['/']) = false

/-- A name in a directory leads to a source that is to be linted. -/
def Yields (directory : Steps) (name : String) : Prop :=
  ∃ location bytes,
    lookUp search.files (search.path (directory ++ [name])) = .ok (some (location, .file bytes)) ∧
    hasSourceSuffix (search.path (directory ++ [name])) = true ∧
    search.ignored (relativeSpelling (directory ++ [name])) = false ∧
    search.contains location = true

variable {search}

theorem LeadsTo.unique {steps : Steps} {place other : Location} (here : search.LeadsTo steps place)
    (there : search.LeadsTo steps other) : place = other := by
  rw [LeadsTo] at here there
  rw [here] at there
  cases there
  rfl

theorem LeadsTo.eq_of_lookUp {steps : Steps} {place location : Location} {entry : Entry}
    (leads : search.LeadsTo steps place)
    (looked : lookUp search.files (search.path steps) = .ok (some (location, entry))) :
    location = place ∧ entry = .directory := by
  rw [LeadsTo, looked] at leads
  cases leads
  exact ⟨rfl, rfl⟩

/-- A real directory is one of those that a walk may list. -/
theorem LeadsTo.mem_directoryLocations {steps : Steps} {place : Location}
    (leads : search.LeadsTo steps place) : place ∈ directoryLocations search.files := by
  have entry := entryAt?_of_lookUp leads
  rw [directoryLocations]
  by_cases top : place = []
  · rw [top]
    exact List.mem_cons_self
  · apply List.mem_cons_of_mem
    have member := FileSystem.mem_of_entryAt? entry top
    exact List.mem_map.mpr ⟨(place, .directory), List.mem_filter.mpr ⟨member, rfl⟩, rfl⟩

/-- Entries cannot be taken up exactly when they cannot be looked up. -/
theorem harvestEntry_eq_error_iff {directory : Steps} {name : String} {failure : Failure} :
    search.harvestEntry directory name = .error failure ↔
      lookUp search.files (search.path (directory ++ [name])) = .error failure := by
  rw [harvestEntry]
  cases lookUp search.files (search.path (directory ++ [name])) with
  | error fault => simp [bind, Except.bind]
  | ok found =>
    rcases found with _ | ⟨location, _ | _ | _⟩ <;> simp [bind, Except.bind, pure, Except.pure]

theorem mem_harvestDirectory_iff {directory steps : Steps} {name : String} :
    steps ∈ (search.harvestDirectory name (directory ++ [name])).directories ↔
      steps = directory ++ [name] ∧ search.MayEnter directory name := by
  rw [harvestDirectory, MayEnter]
  cases search.isPruned name <;>
    cases search.ignored (relativeSpelling (directory ++ [name]) ++ ['/']) <;> simp

theorem sources_harvestDirectory (name : String) (steps : Steps) :
    (search.harvestDirectory name steps).sources = [] := by
  rw [harvestDirectory]
  split <;> rfl

theorem mem_harvestFile_iff {location : Location} {steps : Steps} {path : Path} :
    path ∈ (search.harvestFile location steps).sources ↔
      path = search.path steps ∧ hasSourceSuffix (search.path steps) = true ∧
        search.ignored (relativeSpelling steps) = false ∧ search.contains location = true := by
  rw [harvestFile]
  cases hasSourceSuffix (search.path steps) <;> cases search.ignored (relativeSpelling steps) <;>
    cases search.contains location <;> simp

theorem directories_harvestFile (location : Location) (steps : Steps) :
    (search.harvestFile location steps).directories = [] := by
  rw [harvestFile]
  split <;> rfl

/-- What an entry gives depends on what it leads to. -/
theorem harvestEntry_cases {directory : Steps} {name : String} {harvest : Harvest}
    (taken : search.harvestEntry directory name = .ok harvest) :
    (∃ place, search.LeadsTo (directory ++ [name]) place ∧
        harvest = search.harvestDirectory name (directory ++ [name])) ∨
      (∃ location bytes, lookUp search.files (search.path (directory ++ [name])) =
          .ok (some (location, .file bytes)) ∧
        harvest = search.harvestFile location (directory ++ [name])) ∨
      ((∀ location entry, lookUp search.files (search.path (directory ++ [name])) =
          .ok (some (location, entry)) → entry.isLink = true) ∧ harvest = {}) := by
  rw [harvestEntry] at taken
  cases looked : lookUp search.files (search.path (directory ++ [name])) with
  | error failure =>
    rw [looked] at taken
    cases taken
  | ok found =>
    rw [looked] at taken
    rcases found with _ | ⟨location, bytes | _ | target⟩
    · cases taken
      refine Or.inr (Or.inr ⟨?_, rfl⟩)
      rintro _ _ ⟨⟩
    · cases taken
      exact Or.inr (Or.inl ⟨location, bytes, rfl, rfl⟩)
    · cases taken
      exact Or.inl ⟨location, looked, rfl⟩
    · cases taken
      refine Or.inr (Or.inr ⟨?_, rfl⟩)
      rintro _ _ ⟨⟩
      rfl

theorem mem_directories_iff {directory : Steps} {name : String} {harvest : Harvest}
    (taken : search.harvestEntry directory name = .ok harvest) {steps : Steps} :
    steps ∈ harvest.directories ↔
      steps = directory ++ [name] ∧ (∃ place, search.LeadsTo (directory ++ [name]) place) ∧
        search.MayEnter directory name := by
  rcases harvestEntry_cases taken with ⟨place, leads, rfl⟩ | ⟨location, bytes, looked, rfl⟩ |
    ⟨linked, rfl⟩
  · rw [mem_harvestDirectory_iff]
    exact and_congr_right fun _ => (and_iff_right ⟨place, leads⟩).symm
  · rw [directories_harvestFile]
    refine iff_of_false List.not_mem_nil ?_
    rintro ⟨-, ⟨place, leads⟩, -⟩
    rw [LeadsTo, looked] at leads
    cases leads
  · refine iff_of_false List.not_mem_nil ?_
    rintro ⟨-, ⟨place, leads⟩, -⟩
    cases linked place .directory leads

theorem mem_sources_iff {directory : Steps} {name : String} {harvest : Harvest}
    (taken : search.harvestEntry directory name = .ok harvest) {path : Path} :
    path ∈ harvest.sources ↔
      path = search.path (directory ++ [name]) ∧ search.Yields directory name := by
  rcases harvestEntry_cases taken with ⟨place, leads, rfl⟩ | ⟨location, bytes, looked, rfl⟩ |
    ⟨linked, rfl⟩
  · rw [sources_harvestDirectory]
    refine iff_of_false List.not_mem_nil ?_
    rintro ⟨-, location, bytes, looked, -⟩
    rw [leads] at looked
    cases looked
  · rw [mem_harvestFile_iff]
    refine and_congr_right fun _ => ⟨fun accepted => ⟨location, bytes, looked, accepted⟩, ?_⟩
    rintro ⟨other, content, again, accepted⟩
    rw [looked] at again
    cases again
    exact accepted
  · refine iff_of_false List.not_mem_nil ?_
    rintro ⟨-, location, bytes, looked, -⟩
    cases linked location (.file bytes) looked

end Search

/-- How far a walk has come: the directories that it has listed, the latest first, each with the
place where it really is; the names that are left of the latest; the directories that wait; and the
sources found. -/
structure Stage where
  listed : List (Steps × Location)
  names : List String
  pending : List Steps
  found : List Path

namespace Stage

def places (stage : Stage) : List Location :=
  stage.listed.map (·.2)

/-- Before the first step the root waits. -/
def start : Stage :=
  ⟨[], [], [[]], []⟩

/-- Nothing is left to do. -/
def IsFinal (stage : Stage) : Prop :=
  stage.names = [] ∧ stage.pending = []

end Stage

namespace Search

inductive Step (search : Search) : Stage → Stage → Prop
  | entry {directory : Steps} {place : Location} {listed : List (Steps × Location)} {name : String}
      {names : List String} {pending : List Steps} {found : List Path} {harvest : Harvest}
      (taken : search.harvestEntry directory name = .ok harvest) :
      Step search ⟨(directory, place) :: listed, name :: names, pending, found⟩
        ⟨(directory, place) :: listed, names, harvest.directories.reverse ++ pending,
          found ++ harvest.sources⟩
  | enter {listed : List (Steps × Location)} {steps : Steps} {pending : List Steps}
      {found : List Path} {place : Location} (leads : search.LeadsTo steps place)
      (fresh : place ∉ listed.map (·.2)) (inside : search.contains place = true) :
      Step search ⟨listed, [], steps :: pending, found⟩
        ⟨(steps, place) :: listed, search.files.list place, pending, found⟩
  | pass {listed : List (Steps × Location)} {steps : Steps} {pending : List Steps}
      {found : List Path} {place : Location} (leads : search.LeadsTo steps place)
      (known : place ∈ listed.map (·.2) ∨ search.contains place = false) :
      Step search ⟨listed, [], steps :: pending, found⟩ ⟨listed, [], pending, found⟩

/-- A walk ends early where the next entry cannot be looked up. -/
def Fails (search : Search) (stage : Stage) (failure : Failure) : Prop :=
  ∃ directory place listed name names,
    stage.listed = (directory, place) :: listed ∧ stage.names = name :: names ∧
      search.harvestEntry directory name = .error failure

/-- One stage comes after another by steps of a walk. -/
def Runs (search : Search) : Stage → Stage → Prop :=
  Relation.ReflTransGen search.Step

variable {search : Search}

/-- Steps leave no choice. -/
theorem Step.unique {stage next other : Stage} (one : search.Step stage next)
    (another : search.Step stage other) : next = other := by
  cases one with
  | entry taken =>
    cases another with
    | entry again =>
      rw [taken] at again
      cases again
      rfl
  | enter leads fresh inside =>
    cases another with
    | enter again _ _ =>
      rw [leads.unique again]
    | pass again known =>
      rw [leads.unique again] at fresh inside
      rcases known with known | outside
      · exact absurd known fresh
      · rw [outside] at inside
        cases inside
  | pass leads known =>
    cases another with
    | enter again fresh inside =>
      rw [← leads.unique again] at fresh inside
      rcases known with known | outside
      · exact absurd known fresh
      · rw [outside] at inside
        cases inside
    | pass _ _ => rfl

/-- The directories of a file system that were not listed yet. -/
def unlisted (search : Search) (stage : Stage) : List Location :=
  (directoryLocations search.files).filter fun location => !stage.places.contains location

/-- What grows smaller with each step: the directories that may still be listed, the names that are
left, and the directories that wait, in this order. -/
def remaining (search : Search) (stage : Stage) : Nat ×ₗ Nat ×ₗ Nat :=
  toLex ((search.unlisted stage).length, toLex (stage.names.length, stage.pending.length))

/-- The names that are left of a directory are taken up one after the other. -/
theorem runs_of_harvestAll {directory : Steps} {place : Location}
    {listed : List (Steps × Location)} {names : List String} {harvest : Harvest}
    (taken : search.harvestAll directory names = .ok harvest) (pending : List Steps)
    (found : List Path) :
    search.Runs ⟨(directory, place) :: listed, names, pending, found⟩
      ⟨(directory, place) :: listed, [], harvest.directories.reverse ++ pending,
        found ++ harvest.sources⟩ := by
  induction names generalizing harvest pending found with
  | nil =>
    cases taken
    rw [List.append_nil]
    exact Relation.ReflTransGen.refl
  | cons name rest ih =>
    obtain ⟨here, first, later⟩ := (bind_eq_ok_iff _ _ _).mp taken
    obtain ⟨others, remaining, same⟩ := (bind_eq_ok_iff _ _ _).mp later
    cases same
    have onward := ih remaining (here.directories.reverse ++ pending) (found ++ here.sources)
    rw [Harvest.append, List.reverse_append, List.append_assoc, ← List.append_assoc found]
    exact Relation.ReflTransGen.head (Step.entry first) onward

theorem exists_fails_of_harvestAll {directory : Steps} {place : Location}
    {listed : List (Steps × Location)} {names : List String} {failure : Failure}
    (failed : search.harvestAll directory names = .error failure) (pending : List Steps)
    (found : List Path) :
    ∃ stage, search.Runs ⟨(directory, place) :: listed, names, pending, found⟩ stage ∧
      search.Fails stage failure := by
  induction names generalizing pending found with
  | nil => cases failed
  | cons name rest ih =>
    rw [harvestAll] at failed
    cases first : search.harvestEntry directory name with
    | error fault =>
      rw [first] at failed
      cases failed
      exact ⟨_, Relation.ReflTransGen.refl, directory, place, listed, name, rest, rfl, rfl, first⟩
    | ok here =>
      rw [first] at failed
      cases later : search.harvestAll directory rest with
      | ok others =>
        rw [later] at failed
        cases failed
      | error fault =>
        rw [later] at failed
        cases failed
        obtain ⟨stage, runs, fails⟩ :=
          ih later (here.directories.reverse ++ pending) (found ++ here.sources)
        exact ⟨stage, Relation.ReflTransGen.head (Step.entry first) runs, fails⟩

theorem leadsTo_of_harvestAll {directory : Steps} {names : List String} {harvest : Harvest}
    (taken : search.harvestAll directory names = .ok harvest) :
    ∀ steps ∈ harvest.directories, ∃ place, search.LeadsTo steps place := by
  induction names generalizing harvest with
  | nil =>
    cases taken
    exact fun _ member => nomatch member
  | cons name rest ih =>
    obtain ⟨here, first, later⟩ := (bind_eq_ok_iff _ _ _).mp taken
    obtain ⟨others, remaining, same⟩ := (bind_eq_ok_iff _ _ _).mp later
    cases same
    intro steps member
    rcases List.mem_append.mp member with early | late
    · obtain ⟨rfl, leads, -⟩ := (mem_directories_iff first).mp early
      exact leads
    · exact ih remaining steps late

/-- A result is what the steps from a stage come to: the sources that they find until nothing is
left to do, or the failure that ends them. -/
def ComesTo (search : Search) (stage : Stage) : Except Failure (List Path) → Prop
  | .ok paths => ∃ final, search.Runs stage final ∧ final.IsFinal ∧ final.found = stage.found ++ paths
  | .error failure => ∃ last, search.Runs stage last ∧ search.Fails last failure

/-- What comes of a later stage comes of an earlier one, with what is found in between. -/
theorem ComesTo.of_runs {stage next : Stage} {result : Except Failure (List Path)}
    {between : List Path} (runs : search.Runs stage next) (comes : search.ComesTo next result)
    (found : next.found = stage.found ++ between) :
    search.ComesTo stage (result.map (between ++ ·)) := by
  cases result with
  | error failure =>
    obtain ⟨last, onward, fails⟩ := comes
    exact ⟨last, runs.trans onward, fails⟩
  | ok paths =>
    obtain ⟨final, onward, done, all⟩ := comes
    refine ⟨final, runs.trans onward, done, ?_⟩
    rw [all, found, List.append_assoc]

/-- The directories that a walk may still list are those that its steps did not list. -/
theorem walk_comesTo {unseen : List Location} {pending : List Steps}
    {listed : List (Steps × Location)} {found : List Path}
    (fresh : ∀ place, place ∈ unseen ↔
      place ∈ directoryLocations search.files ∧ place ∉ listed.map (·.2))
    (waiting : ∀ steps ∈ pending, ∃ place, search.LeadsTo steps place) :
    search.ComesTo ⟨listed, [], pending, found⟩ (search.walk unseen pending) := by
  induction unseen, pending using Search.walk.induct search generalizing listed found with
  | case1 unseen =>
    rw [walk]
    exact ⟨_, Relation.ReflTransGen.refl, ⟨rfl, rfl⟩, (List.append_nil _).symm⟩
  | case2 unseen steps rest failure looked =>
    obtain ⟨place, leads⟩ := waiting steps List.mem_cons_self
    rw [leads] at looked
    cases looked
  | case3 unseen steps rest looked =>
    obtain ⟨place, leads⟩ := waiting steps List.mem_cons_self
    rw [leads] at looked
    cases looked
  | case4 unseen steps rest location entry looked enterable failure failed =>
    obtain ⟨place, leads⟩ := waiting steps List.mem_cons_self
    obtain ⟨rfl, rfl⟩ := leads.eq_of_lookUp looked
    have enters : search.Step ⟨listed, [], steps :: rest, found⟩
        ⟨(steps, location) :: listed, search.files.list location, rest, found⟩ :=
      Step.enter leads ((fresh location).mp enterable.1).2 enterable.2
    obtain ⟨last, runs, fails⟩ := exists_fails_of_harvestAll failed rest found
    rw [walk, looked]
    simp only [if_pos enterable, failed]
    exact ⟨last, Relation.ReflTransGen.head enters runs, fails⟩
  | case5 unseen steps rest location entry looked enterable harvest taken ih =>
    rw [List.forall_mem_cons] at waiting
    obtain ⟨⟨place, leads⟩, waiting⟩ := waiting
    obtain ⟨rfl, rfl⟩ := leads.eq_of_lookUp looked
    have known := (fresh location).mp enterable.1
    have enters : search.Step ⟨listed, [], steps :: rest, found⟩
        ⟨(steps, location) :: listed, search.files.list location, rest, found⟩ :=
      Step.enter leads known.2 enterable.2
    have lists : search.Runs ⟨(steps, location) :: listed, search.files.list location, rest, found⟩
        ⟨(steps, location) :: listed, [], harvest.directories.reverse ++ rest,
          found ++ harvest.sources⟩ :=
      runs_of_harvestAll taken rest found
    have fresh_later : ∀ place, place ∈ without location unseen ↔
        place ∈ directoryLocations search.files ∧
          place ∉ ((steps, location) :: listed).map (·.2) := by
      intro place
      rw [without, List.mem_filter, fresh, List.map_cons, List.mem_cons, not_or, decide_eq_true_iff,
        and_assoc, and_congr_right_iff]
      exact fun _ => and_comm
    have waiting_later : ∀ steps ∈ harvest.directories.reverse ++ rest,
        ∃ place, search.LeadsTo steps place := by
      intro others member
      rcases List.mem_append.mp member with new | old
      · exact leadsTo_of_harvestAll taken others (List.mem_reverse.mp new)
      · exact waiting others old
    have onward : search.ComesTo
        ⟨(steps, location) :: listed, [], harvest.directories.reverse ++ rest,
          found ++ harvest.sources⟩
        (search.walk (without location unseen) (harvest.directories.reverse ++ rest)) :=
      ih fresh_later waiting_later
    have whole := ComesTo.of_runs (Relation.ReflTransGen.head enters lists) onward rfl
    rw [walk, looked]
    simp only [if_pos enterable, taken]
    exact whole
  | case6 unseen steps rest location entry looked closed ih =>
    rw [List.forall_mem_cons] at waiting
    obtain ⟨⟨place, leads⟩, waiting⟩ := waiting
    obtain ⟨rfl, rfl⟩ := leads.eq_of_lookUp looked
    have known : location ∈ listed.map (·.2) ∨ search.contains location = false := by
      by_contra! fresh_inside
      apply closed
      refine ⟨(fresh location).mpr ⟨leads.mem_directoryLocations, fresh_inside.1⟩, ?_⟩
      exact (Bool.not_eq_false _).mp fresh_inside.2
    have passes : search.Step ⟨listed, [], steps :: rest, found⟩ ⟨listed, [], rest, found⟩ :=
      Step.pass leads known
    have onward : search.ComesTo ⟨listed, [], rest, found⟩ (search.walk unseen rest) :=
      ih fresh waiting
    have whole := ComesTo.of_runs (Relation.ReflTransGen.single passes) onward
      (List.append_nil found).symm
    rw [walk, looked]
    simp only [if_neg closed]
    cases result : search.walk unseen rest with
    | error failure =>
      rw [result] at whole
      exact whole
    | ok paths =>
      rw [result] at whole
      exact whole

/-- A search starts at a directory, and takes the place of that for its root. -/
def Rooted (search : Search) : Prop :=
  search.LeadsTo [] search.realRoot

/-- A walk is its steps from the beginning. -/
theorem Rooted.walk_comesTo (rooted : search.Rooted) :
    search.ComesTo Stage.start (search.walk (directoryLocations search.files) [[]]) := by
  apply Search.walk_comesTo
  · intro place
    exact (and_iff_left List.not_mem_nil).symm
  · intro steps member
    cases List.mem_singleton.mp member
    exact ⟨search.realRoot, rooted⟩

end Search

end ModuleFence.Discovery
