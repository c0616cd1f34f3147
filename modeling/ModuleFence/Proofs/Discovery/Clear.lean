import ModuleFence.Proofs.Discovery.Tour

/-!
What lies below a root without a link in between. It is reached by the steps that spell its location;
where there are no links at all, nothing else is reached, and each directory has its one route.
-/

set_option autoImplicit false

namespace ModuleFence.Discovery

open FileSystem

/-- No entry is a link. -/
def Unlinked (files : FileSystem) : Prop :=
  ∀ pair ∈ files.entries, pair.2.isLink = false

theorem Unlinked.isLink_eq_false {files : FileSystem} (unlinked : Unlinked files)
    {location : Location} {entry : Entry} (found : files.entryAt? location = some entry) :
    entry.isLink = false := by
  by_cases top : location = []
  · rw [top] at found
    cases found
    rfl
  · exact unlinked _ (mem_of_entryAt? found top)

namespace Search

/-- Steps that spell the location of a directory, and enter none that may not be entered. -/
structure Clear (search : Search) (steps : Steps) : Prop where
  spelled : search.files.entryAt? (search.realRoot ++ steps) = some .directory
  entered : ∀ front name, front ++ [name] <+: steps → search.MayEnter front name

/-- A source that lies in such a directory itself. -/
structure Holds (search : Search) (directory : Steps) (name : String) : Prop where
  clear : search.Clear directory
  isFile : ∃ bytes, search.files.entryAt? (search.realRoot ++ (directory ++ [name])) =
    some (.file bytes)
  source : hasSourceSuffix (search.path (directory ++ [name])) = true
  unignored : search.ignored (relativeSpelling (directory ++ [name])) = false

/-- The same search in another file system. -/
def on (search : Search) (other : FileSystem) : Search :=
  { search with files := other }

variable {search : Search}

theorem Clear.on {other : FileSystem} (same : other.entryAt? = search.files.entryAt?) {steps : Steps}
    (clear : search.Clear steps) : (search.on other).Clear steps := by
  refine ⟨?_, clear.entered⟩
  rw [Search.on, same]
  exact clear.spelled

theorem Holds.on {other : FileSystem} (same : other.entryAt? = search.files.entryAt?)
    {directory : Steps} {name : String} (holds : search.Holds directory name) :
    (search.on other).Holds directory name := by
  refine ⟨holds.clear.on same, ?_, holds.source, holds.unignored⟩
  rw [Search.on, same]
  exact holds.isFile

theorem path_nil (search : Search) : search.path [] = search.root := by
  rw [path, List.append_nil]

theorem rooted_iff :
    search.Rooted ↔ lookUp search.files search.root = .ok (some (search.realRoot, .directory)) := by
  rw [Rooted, LeadsTo, path_nil]

theorem contains_append (search : Search) (steps : Steps) :
    search.contains (search.realRoot ++ steps) = true := by
  rw [contains, List.isPrefixOf_iff_prefix]
  exact List.prefix_append search.realRoot steps

theorem Clear.of_prefix (sound : search.files.Sound) {steps front : Steps}
    (clear : search.Clear steps) (early : front <+: steps) : search.Clear front := by
  obtain ⟨rest, rfl⟩ := early
  refine ⟨?_, fun outer name before => ?_⟩
  · cases rest with
    | nil => simpa only [List.append_nil] using clear.spelled
    | cons name others =>
      have below := clear.spelled
      rw [← List.append_assoc] at below
      exact sound.directory_of_below below (List.cons_ne_nil _ _)
  · exact clear.entered outer name (before.trans (List.prefix_append front rest))

theorem clear_concat_iff (sound : search.files.Sound) {directory : Steps} {name : String} :
    search.Clear (directory ++ [name]) ↔ search.Clear directory ∧
      search.files.entryAt? (search.realRoot ++ (directory ++ [name])) = some .directory ∧
      search.MayEnter directory name := by
  constructor
  · intro clear
    exact ⟨clear.of_prefix sound (List.prefix_append directory [name]), clear.spelled,
      clear.entered directory name List.prefix_rfl⟩
  · rintro ⟨clear, spelled, enters⟩
    refine ⟨spelled, fun front inner early => ?_⟩
    rcases List.prefix_concat_iff.mp early with same | before
    · obtain ⟨rfl, last⟩ := List.append_inj' same rfl
      cases last
      exact enters
    · exact clear.entered front inner before

section Rooted

variable (rooted : search.Rooted) (sound : search.files.Sound)

include rooted sound

/-- Where the steps to an entry spell its location, its path leads there unless it is too long. -/
theorem lookUp_spelled {steps : Steps} {entry : Entry}
    (found : search.files.entryAt? (search.realRoot ++ steps) = some entry)
    (plain : entry.isLink = false) :
    lookUp search.files (search.path steps) =
      if (search.path steps).IsShort then .ok (some (search.realRoot ++ steps, entry))
      else .error (.read (.path .nameTooLong (search.path steps))) := by
  exact lookUp_descend sound (rooted_iff.mp rooted) found plain

theorem isShort_of_succeeds {steps : Steps} {entry : Entry}
    (found : search.files.entryAt? (search.realRoot ++ steps) = some entry)
    (plain : entry.isLink = false)
    (success : Succeeds (lookUp search.files (search.path steps))) :
    (search.path steps).IsShort := by
  rw [lookUp_spelled rooted sound found plain] at success
  by_contra long
  rw [if_neg long] at success
  exact not_succeeds_error _ success

/-- Clear steps are a route. -/
theorem route_of_clear (legible : search.Legible) {steps : Steps} (clear : search.Clear steps) :
    ∃ above, search.Route steps (search.realRoot ++ steps) above ∧
      ∀ house ∈ above, house.length < (search.realRoot ++ steps).length := by
  induction steps using List.reverseRecOn with
  | nil =>
    rw [List.append_nil]
    exact ⟨[], Route.root rooted search.contains_realRoot, fun _ member => nomatch member⟩
  | append_singleton directory name ih =>
    obtain ⟨outer, spelled, enters⟩ := (clear_concat_iff sound).mp clear
    obtain ⟨above, route, shorter⟩ := ih outer
    have member : name ∈ search.files.list (search.realRoot ++ directory) := by
      rw [sound.mem_list_iff, List.append_assoc]
      exact ⟨.directory, spelled⟩
    have short := isShort_of_succeeds rooted sound spelled rfl (legible _ _ _ route name member)
    have leads : search.LeadsTo (directory ++ [name]) (search.realRoot ++ (directory ++ [name])) := by
      rw [LeadsTo, lookUp_spelled rooted sound spelled rfl, if_pos short]
    have longer : ∀ house ∈ (search.realRoot ++ directory) :: above,
        house.length < (search.realRoot ++ (directory ++ [name])).length := by
      have length : (search.realRoot ++ (directory ++ [name])).length =
          (search.realRoot ++ directory).length + 1 := by
        rw [← List.append_assoc]
        exact List.length_append
      rw [List.forall_mem_cons, length]
      exact ⟨Nat.lt_succ_self _, fun house met => Nat.lt_succ_of_lt (shorter house met)⟩
    have fresh : search.realRoot ++ (directory ++ [name]) ∉ (search.realRoot ++ directory) :: above :=
      fun met => absurd (longer _ met) (Nat.lt_irrefl _)
    exact ⟨_, Route.child route member leads enters (search.contains_append _) fresh, longer⟩

/-- A source that lies in a directory with clear steps is reached. -/
theorem reaches_of_holds (legible : search.Legible) {directory : Steps} {name : String}
    (holds : search.Holds directory name) : search.Reaches directory name := by
  obtain ⟨above, route, -⟩ := route_of_clear rooted sound legible holds.clear
  obtain ⟨bytes, found⟩ := holds.isFile
  have member : name ∈ search.files.list (search.realRoot ++ directory) := by
    rw [sound.mem_list_iff, List.append_assoc]
    exact ⟨.file bytes, found⟩
  have short := isShort_of_succeeds rooted sound found rfl (legible _ _ _ route name member)
  refine ⟨_, above, route, member, _, bytes, ?_, holds.source, holds.unignored,
    search.contains_append (directory ++ [name])⟩
  rw [lookUp_spelled rooted sound found rfl, if_pos short]

section Unlinked

variable (unlinked : Unlinked search.files)

include unlinked

/-- Where there are no links, paths lead to what their steps spell. -/
theorem spelled_of_lookUp {house : Location} {directory : Steps} {name : String}
    (same : house = search.realRoot ++ directory) (member : name ∈ search.files.list house)
    {location : Location} {entry : Entry}
    (found : lookUp search.files (search.path (directory ++ [name])) = .ok (some (location, entry))) :
    location = search.realRoot ++ (directory ++ [name]) ∧
      search.files.entryAt? (search.realRoot ++ (directory ++ [name])) = some entry := by
  rw [same, sound.mem_list_iff, List.append_assoc] at member
  obtain ⟨here, spelled⟩ := member
  rw [lookUp_spelled rooted sound spelled (unlinked.isLink_eq_false spelled)] at found
  split at found
  · cases found
    exact ⟨rfl, spelled⟩
  · cases found

/-- Where there are no links, routes are clear and spell the locations that they lead to. -/
theorem clear_of_route {steps : Steps} {place : Location} {above : List Location}
    (route : search.Route steps place above) :
    place = search.realRoot ++ steps ∧ search.Clear steps := by
  induction route with
  | root leads _ =>
    rw [LeadsTo.unique leads rooted, List.append_nil]
    refine ⟨rfl, ?_, fun front name early => ?_⟩
    · rw [List.append_nil]
      exact entryAt?_of_lookUp rooted
    · exact absurd (List.prefix_nil.mp early)
        (List.append_ne_nil_of_right_ne_nil _ (List.cons_ne_nil _ _))
  | child _ member leads enters _ _ ih =>
    obtain ⟨same, clear⟩ := ih
    have spelled := spelled_of_lookUp rooted sound unlinked same member leads
    exact ⟨spelled.1, (clear_concat_iff sound).mpr ⟨clear, spelled.2, enters⟩⟩

/-- Where there are no links, each directory has one route. -/
theorem sole_of_unlinked (steps : Steps) : search.Sole steps := by
  intro front house outer _ route other above second
  have first := (clear_of_route rooted sound unlinked route).1
  rw [(clear_of_route rooted sound unlinked second).1] at first
  exact List.append_cancel_left first

theorem holds_of_reaches {directory : Steps} {name : String}
    (reaches : search.Reaches directory name) : search.Holds directory name := by
  obtain ⟨place, above, route, member, location, bytes, looked, source, unignored, -⟩ := reaches
  obtain ⟨same, clear⟩ := clear_of_route rooted sound unlinked route
  have spelled := spelled_of_lookUp rooted sound unlinked same member looked
  exact ⟨clear, ⟨bytes, spelled.2⟩, source, unignored⟩

theorem legible_of_succeeds (success : Succeeds search.result) : search.Legible :=
  fun directory _ _ route _ member =>
    rooted.succeeds_of_sole success route (sole_of_unlinked rooted sound unlinked directory) member

/-- Where there are no links, all that may be looked at can be looked up exactly when the paths of
the entries of directories with clear steps are not too long. -/
theorem legible_iff : search.Legible ↔ ∀ directory name entry, search.Clear directory →
    search.files.entryAt? (search.realRoot ++ (directory ++ [name])) = some entry →
    (search.path (directory ++ [name])).IsShort := by
  constructor
  · intro legible directory name entry clear found
    obtain ⟨above, route, -⟩ := route_of_clear rooted sound legible clear
    have member : name ∈ search.files.list (search.realRoot ++ directory) := by
      rw [sound.mem_list_iff, List.append_assoc]
      exact ⟨entry, found⟩
    exact isShort_of_succeeds rooted sound found (unlinked.isLink_eq_false found)
      (legible _ _ _ route name member)
  · intro short directory place above route name member
    obtain ⟨rfl, clear⟩ := clear_of_route rooted sound unlinked route
    rw [sound.mem_list_iff, List.append_assoc] at member
    obtain ⟨entry, found⟩ := member
    rw [lookUp_spelled rooted sound found (unlinked.isLink_eq_false found),
      if_pos (short directory name entry clear found)]
    exact succeeds_ok _

/-- Where there are no links, a walk finds the sources that lie in directories with clear steps. -/
theorem mem_result_iff {paths : List Path} (given : search.result = .ok paths) {path : Path} :
    path ∈ paths ↔
      ∃ directory name, path = search.path (directory ++ [name]) ∧ search.Holds directory name := by
  constructor
  · intro member
    obtain ⟨directory, name, same, reaches⟩ := rooted.reaches_of_mem given member
    exact ⟨directory, name, same, holds_of_reaches rooted sound unlinked reaches⟩
  · rintro ⟨directory, name, rfl, holds⟩
    have legible := legible_of_succeeds rooted sound unlinked ⟨paths, given⟩
    have reaches := reaches_of_holds rooted sound legible holds
    exact rooted.mem_of_sole given reaches (sole_of_unlinked rooted sound unlinked directory)

end Unlinked

end Rooted

end Search

end ModuleFence.Discovery
