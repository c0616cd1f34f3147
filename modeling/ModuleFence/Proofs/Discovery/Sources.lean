import Mathlib
import ModuleFence.Proofs.Discovery.Clear
import ModuleFence.Proofs.Discovery.Gathering
import ModuleFence.Proofs.FileSystem.Relisting

set_option autoImplicit false

namespace ModuleFence.Discovery

open FileSystem

/-- What each root ignores. -/
abbrev Rules := Path → List Char → Bool

def searchAt (files : FileSystem) (skipped : List Text) (rules : Rules) (root : Path)
    (realRoot : Location) : Search :=
  ⟨files, root, realRoot, skipped, rules root⟩

/-- The sources that a named path stands for. -/
def sourcesBy (files : FileSystem) (skipped : List Text) (rules : Rules) (path : Path) :
    Except Failure (List Path) := do
  match ← lookUp files path with
  | some (_, .file _) => return [path]
  | some (location, .directory) => (searchAt files skipped rules path location).result
  | _ => return []

/-- The sources that some named paths stand for, each once and in order. -/
def discoverBy (files : FileSystem) (skipped : List Text) (rules : Rules) (paths : List Path) :
    Except Failure (List Path) :=
  gather (sourcesBy files skipped rules) paths

/-- The ignore patterns of the named directories can be read, and select what the rules ignore. -/
def Reads (files : FileSystem) (rules : Rules) (paths : List Path) : Prop :=
  ∀ path ∈ paths, ∀ location, lookUp files path = .ok (some (location, .directory)) →
    (ignorePatterns files path).1.map Ignore.selects = .ok (rules path)

section Reading

variable {files : FileSystem} {skipped : List Text} {rules : Rules}

theorem inDirectory_fst (files : FileSystem) (skipped : List Text) (root : Path)
    (realRoot : Location) :
    (inDirectory files skipped root realRoot).1 =
      (ignorePatterns files root).1.bind fun patterns =>
        Search.result ⟨files, root, realRoot, skipped, Ignore.selects patterns⟩ :=
  rfl

theorem ofPath_fst {path : Path} (reads : Reads files rules [path]) :
    (ofPath files skipped path).1 = sourcesBy files skipped rules path := by
  rw [ofPath, sourcesBy]
  cases looked : lookUp files path with
  | error failure => rfl
  | ok found =>
    rcases found with _ | ⟨location, _ | _ | _⟩
    · rfl
    · rfl
    · have readable := reads path List.mem_cons_self location looked
      change (inDirectory files skipped path location).1 =
        (searchAt files skipped rules path location).result
      rw [inDirectory_fst]
      cases given : (ignorePatterns files path).1 with
      | error failure =>
        rw [given] at readable
        cases readable
      | ok patterns =>
        rw [given] at readable
        rw [searchAt, ← Except.ok.inj readable]
        rfl
    · rfl

/-- Discovery goes by the ignore patterns of the named directories. -/
theorem discover_eq_discoverBy {paths : List Path} (reads : Reads files rules paths) :
    (discover files skipped paths).1 = discoverBy files skipped rules paths := by
  have each : ∀ path ∈ paths, (ofPath files skipped path).1 = sourcesBy files skipped rules path := by
    intro path member
    apply ofPath_fst
    intro other same
    rw [List.mem_singleton.mp same]
    exact reads path member
  have all : (paths.map id).mapM (fun path => (ofPath files skipped path).1) =
      paths.mapM (sourcesBy files skipped rules) := mapM_map_congr each
  rw [List.map_id] at all
  rw [discover_fst, discoverBy, gather, gather, all]

end Reading

/-- A named path stands for itself if it leads to a file, and for the unpruned sources below it if it
leads to a directory. -/
def StandsFor (files : FileSystem) (skipped : List Text) (rules : Rules) (path source : Path) :
    Prop :=
  (source = path ∧ ∃ location bytes, lookUp files path = .ok (some (location, .file bytes))) ∨
    ∃ location, lookUp files path = .ok (some (location, .directory)) ∧
      ∃ directory name, source = path.descend (directory ++ [name]) ∧
        (searchAt files skipped rules path location).Holds directory name

/-- A named path is not too long, and neither is that of any entry of a directory that is walked. -/
def IsAccessible (files : FileSystem) (skipped : List Text) (rules : Rules) (path : Path) : Prop :=
  Succeeds (lookUp files path) ∧
    ∀ location, lookUp files path = .ok (some (location, .directory)) →
      ∀ directory name entry, (searchAt files skipped rules path location).Clear directory →
        files.entryAt? (location ++ (directory ++ [name])) = some entry →
        (path.descend (directory ++ [name])).IsShort

section Walking

variable {files : FileSystem} {skipped : List Text} {rules : Rules}

/-- What a named path stands for depends on what it leads to. -/
theorem sourcesBy_cases (path : Path) :
    (∃ failure, lookUp files path = .error failure ∧
        sourcesBy files skipped rules path = .error failure) ∨
      (∃ location bytes, lookUp files path = .ok (some (location, .file bytes)) ∧
        sourcesBy files skipped rules path = .ok [path]) ∨
      (∃ location, lookUp files path = .ok (some (location, .directory)) ∧
        sourcesBy files skipped rules path =
          (searchAt files skipped rules path location).result) ∨
      ((∀ location entry, lookUp files path = .ok (some (location, entry)) → entry.isLink = true) ∧
        Succeeds (lookUp files path) ∧ sourcesBy files skipped rules path = .ok []) := by
  rw [sourcesBy]
  cases looked : lookUp files path with
  | error failure => exact Or.inl ⟨failure, rfl, rfl⟩
  | ok found =>
    rcases found with _ | ⟨location, bytes | _ | target⟩
    · refine Or.inr (Or.inr (Or.inr ⟨?_, succeeds_ok _, rfl⟩))
      rintro _ _ ⟨⟩
    · exact Or.inr (Or.inl ⟨location, bytes, rfl, rfl⟩)
    · exact Or.inr (Or.inr (Or.inl ⟨location, rfl, rfl⟩))
    · refine Or.inr (Or.inr (Or.inr ⟨?_, succeeds_ok _, rfl⟩))
      rintro _ _ ⟨⟩
      rfl

theorem failure_of_sourcesBy {path : Path} {failure : Failure}
    (failed : sourcesBy files skipped rules path = .error failure) :
    ∃ place, failure = .read (.path .nameTooLong place) := by
  rcases sourcesBy_cases path with ⟨fault, looked, same⟩ | ⟨_, _, _, same⟩ |
    ⟨location, looked, same⟩ | ⟨_, _, same⟩
  · rw [failed] at same
    cases same
    exact ⟨path, eq_of_lookUp_eq_error looked⟩
  · rw [failed] at same
    cases same
  · rw [failed] at same
    exact (Search.rooted_iff.mpr looked).failure_of_result same.symm
  · rw [failed] at same
    cases same

theorem isClean_sourcesBy (sound : files.Sound) {path : Path} (clean : path.IsClean)
    {found : List Path} (given : sourcesBy files skipped rules path = .ok found) :
    ∀ source ∈ found, source.IsClean := by
  rcases sourcesBy_cases path with ⟨failure, looked, same⟩ | ⟨location, bytes, looked, same⟩ |
    ⟨location, looked, same⟩ | ⟨linked, success, same⟩
  · rw [given] at same
    cases same
  · rw [given] at same
    cases same
    rw [List.forall_mem_singleton]
    exact clean
  · rw [given] at same
    have rooted : (searchAt files skipped rules path location).Rooted := Search.rooted_iff.mpr looked
    exact rooted.isClean sound clean same.symm
  · rw [given] at same
    cases same
    exact fun _ member => nomatch member

theorem tidy_sourcesBy (sound : files.Sound) {paths : List Path}
    (clean : ∀ path ∈ paths, path.IsClean) : Tidy (sourcesBy files skipped rules) paths :=
  fun path member _ given => isClean_sourcesBy sound (clean path member) given

section Unlinked

variable (sound : files.Sound) (unlinked : Unlinked files)

include sound unlinked

theorem succeeds_sourcesBy_iff (path : Path) :
    Succeeds (sourcesBy files skipped rules path) ↔ IsAccessible files skipped rules path := by
  rw [IsAccessible]
  rcases sourcesBy_cases path with ⟨failure, looked, same⟩ | ⟨location, bytes, looked, same⟩ |
    ⟨location, looked, same⟩ | ⟨linked, success, same⟩
  · rw [same, looked]
    simp only [not_succeeds_error, false_and]
  · rw [same, looked]
    simp only [succeeds_ok, true_and, true_iff]
    rintro _ ⟨⟩
  · have rooted : (searchAt files skipped rules path location).Rooted := Search.rooted_iff.mpr looked
    rw [same, looked]
    constructor
    · intro success
      refine ⟨succeeds_ok _, ?_⟩
      rintro _ ⟨⟩
      exact (Search.legible_iff rooted sound unlinked).mp
        (Search.legible_of_succeeds rooted sound unlinked success)
    · rintro ⟨-, short⟩
      exact rooted.succeeds_of_legible
        ((Search.legible_iff rooted sound unlinked).mpr (short location rfl))
  · rw [same]
    refine iff_of_true (succeeds_ok _) ⟨success, fun location looked => ?_⟩
    cases linked location .directory looked

theorem mem_sourcesBy_iff {path : Path} {found : List Path}
    (given : sourcesBy files skipped rules path = .ok found) {source : Path} :
    source ∈ found ↔ StandsFor files skipped rules path source := by
  rw [StandsFor]
  rcases sourcesBy_cases path with ⟨failure, looked, same⟩ | ⟨location, bytes, looked, same⟩ |
    ⟨location, looked, same⟩ | ⟨linked, success, same⟩
  · rw [given] at same
    cases same
  · rw [given] at same
    cases same
    rw [looked, List.mem_singleton]
    constructor
    · exact fun itself => Or.inl ⟨itself, location, bytes, rfl⟩
    · rintro (⟨itself, -⟩ | ⟨_, ⟨⟩, -⟩)
      exact itself
  · have rooted : (searchAt files skipped rules path location).Rooted := Search.rooted_iff.mpr looked
    rw [given] at same
    rw [Search.mem_result_iff rooted sound unlinked same.symm, looked]
    constructor
    · exact fun below => Or.inr ⟨location, rfl, below⟩
    · rintro (⟨-, _, _, ⟨⟩⟩ | ⟨_, ⟨⟩, below⟩)
      exact below
  · rw [given] at same
    cases same
    refine iff_of_false List.not_mem_nil ?_
    rintro (⟨-, location, bytes, looked⟩ | ⟨location, looked, -⟩)
    · cases linked _ _ looked
    · cases linked _ _ looked

end Unlinked

section Relisted

variable {other : FileSystem} (relisted : Relisted files other) (sound : files.Sound)

include relisted sound

theorem clear_relisted_iff {path : Path} {location : Location} {steps : Steps} :
    (searchAt other skipped rules path location).Clear steps ↔
      (searchAt files skipped rules path location).Clear steps :=
  have same := relisted.entryAt?_eq sound
  ⟨Search.Clear.on same.symm, Search.Clear.on same⟩

theorem holds_relisted_iff {path : Path} {location : Location} {directory : Steps} {name : String} :
    (searchAt other skipped rules path location).Holds directory name ↔
      (searchAt files skipped rules path location).Holds directory name :=
  have same := relisted.entryAt?_eq sound
  ⟨Search.Holds.on same.symm, Search.Holds.on same⟩

theorem standsFor_relisted_iff {path source : Path} :
    StandsFor other skipped rules path source ↔ StandsFor files skipped rules path source := by
  simp only [StandsFor, relisted.lookUp_eq sound, holds_relisted_iff relisted sound]

theorem isAccessible_relisted_iff {path : Path} :
    IsAccessible other skipped rules path ↔ IsAccessible files skipped rules path := by
  simp only [IsAccessible, relisted.lookUp_eq sound, clear_relisted_iff relisted sound,
    relisted.entryAt?_eq sound]

end Relisted

section Listing

theorem failure_of_discoverBy {paths : List Path} {failure : Failure}
    (failed : discoverBy files skipped rules paths = .error failure) :
    ∃ path, failure = .read (.path .nameTooLong path) := by
  obtain ⟨path, -, stuck⟩ := exists_error_of_gather failed
  exact failure_of_sourcesBy stuck

variable (sound : files.Sound) (unlinked : Unlinked files)

include sound unlinked

theorem succeeds_discoverBy_iff (paths : List Path) :
    Succeeds (discoverBy files skipped rules paths) ↔
      ∀ path ∈ paths, IsAccessible files skipped rules path := by
  rw [discoverBy, succeeds_gather_iff]
  simp only [succeeds_sourcesBy_iff sound unlinked]

/-- Where all paths are accessible, what they are expanded to is what they stand for. -/
theorem exists_sourcesBy_iff {paths : List Path}
    (accessible : ∀ path ∈ paths, IsAccessible files skipped rules path) {source : Path} :
    (∃ path ∈ paths, ∃ here, sourcesBy files skipped rules path = .ok here ∧ source ∈ here) ↔
      ∃ path ∈ paths, StandsFor files skipped rules path source := by
  refine exists_congr fun path => and_congr_right fun member => ?_
  obtain ⟨here, expanded⟩ := (succeeds_sourcesBy_iff sound unlinked path).mpr (accessible path member)
  rw [expanded, ← mem_sourcesBy_iff sound unlinked expanded]
  simp only [Except.ok.injEq, exists_eq_left']

theorem mem_discoverBy_iff {paths found : List Path}
    (given : discoverBy files skipped rules paths = .ok found) {source : Path} :
    source ∈ found ↔ ∃ path ∈ paths, StandsFor files skipped rules path source := by
  have accessible := (succeeds_discoverBy_iff sound unlinked paths).mp ⟨found, given⟩
  rw [mem_gather_iff given, exists_sourcesBy_iff sound unlinked accessible]

/-- Discovery from paths that stand for the same sources has the same result. -/
theorem discoverBy_congr {other : FileSystem} (apart : other.Sound) (plain : Unlinked other)
    {paths others found : List Path} (clean : ∀ path ∈ paths, path.IsClean)
    (tidy : ∀ path ∈ others, path.IsClean)
    (given : discoverBy files skipped rules paths = .ok found)
    (accessible : ∀ path ∈ others, IsAccessible other skipped rules path)
    (same : ∀ source, (∃ path ∈ others, StandsFor other skipped rules path source) ↔
      ∃ path ∈ paths, StandsFor files skipped rules path source) :
    discoverBy other skipped rules others = .ok found := by
  have before := (succeeds_discoverBy_iff sound unlinked paths).mp ⟨found, given⟩
  apply gather_eq_of_mem_iff (tidy_sourcesBy sound clean) (tidy_sourcesBy apart tidy) given
  · intro path member
    exact (succeeds_sourcesBy_iff apart plain path).mpr (accessible path member)
  · intro source
    rw [exists_sourcesBy_iff apart plain accessible, exists_sourcesBy_iff sound unlinked before, same]

variable {paths found : List Path} (clean : ∀ path ∈ paths, path.IsClean)
  (given : discoverBy files skipped rules paths = .ok found)

include clean given

/-- The order in which directories list their entries decides nothing. -/
theorem discoverBy_relisted {other : FileSystem} (relisted : Relisted files other) :
    discoverBy other skipped rules paths = .ok found := by
  have accessible := (succeeds_discoverBy_iff sound unlinked paths).mp ⟨found, given⟩
  have plain : Unlinked other := fun pair member =>
    unlinked pair (relisted.entries.mem_iff.mp member)
  apply discoverBy_congr sound unlinked (relisted.sound sound) plain clean clean given
  · intro path member
    exact (isAccessible_relisted_iff relisted sound).mpr (accessible path member)
  · intro source
    simp only [standsFor_relisted_iff relisted sound]

/-- Neither do the order and the repetitions of the paths. -/
theorem discoverBy_of_mem_iff {others : List Path} (same : ∀ path, path ∈ others ↔ path ∈ paths) :
    discoverBy files skipped rules others = .ok found := by
  have accessible := (succeeds_discoverBy_iff sound unlinked paths).mp ⟨found, given⟩
  have tidy : ∀ path ∈ others, path.IsClean := fun path member => clean path ((same path).mp member)
  apply discoverBy_congr sound unlinked sound unlinked clean tidy given
  · intro path member
    exact accessible path ((same path).mp member)
  · intro source
    simp only [same]

/-- More paths add what they stand for. -/
theorem exists_discoverBy_append {more further : List Path} (others : ∀ path ∈ more, path.IsClean)
    (added : discoverBy files skipped rules more = .ok further) :
    ∃ union, discoverBy files skipped rules (paths ++ more) = .ok union ∧
      union.Pairwise Path.Before ∧ ∀ source, source ∈ union ↔ source ∈ found ∨ source ∈ further := by
  have accessible : ∀ path ∈ paths ++ more, IsAccessible files skipped rules path := by
    rw [List.forall_mem_append]
    exact ⟨(succeeds_discoverBy_iff sound unlinked paths).mp ⟨found, given⟩,
      (succeeds_discoverBy_iff sound unlinked more).mp ⟨further, added⟩⟩
  have tidy : ∀ path ∈ paths ++ more, path.IsClean := List.forall_mem_append.mpr ⟨clean, others⟩
  obtain ⟨union, joined⟩ := (succeeds_discoverBy_iff sound unlinked _).mpr accessible
  refine ⟨union, joined, pairwise_gather (tidy_sourcesBy sound tidy) joined, fun source => ?_⟩
  rw [mem_discoverBy_iff sound unlinked joined, mem_discoverBy_iff sound unlinked given,
    mem_discoverBy_iff sound unlinked added]
  simp only [List.mem_append, or_and_right, exists_or]

end Listing

end Walking

def spelled (names : List String) : List Path :=
  names.map Path.ofString

theorem isClean_of_mem_spelled {names : List String} : ∀ path ∈ spelled names, path.IsClean := by
  intro path member
  obtain ⟨name, -, rfl⟩ := List.mem_map.mp member
  exact Path.isClean_ofString name

/-- Without links discovery succeeds when no path is too long, and then finds what the named paths
stand for: strictly increasing, whatever the order of listing, and whatever the order and the
repetitions of the names; more names add what they stand for. -/
theorem discoverBy_finds (files : FileSystem) (sound : files.Sound) (unlinked : Unlinked files)
    (skipped : List Text) (rules : Rules) (names : List String) :
    (Succeeds (discoverBy files skipped rules (spelled names)) ↔
      ∀ path ∈ spelled names, IsAccessible files skipped rules path) ∧
    (∀ failure, discoverBy files skipped rules (spelled names) = .error failure →
      ∃ path, failure = .read (.path .nameTooLong path)) ∧
    (∀ found, discoverBy files skipped rules (spelled names) = .ok found →
      (∀ source, source ∈ found ↔
        ∃ path ∈ spelled names, StandsFor files skipped rules path source) ∧
      found.Pairwise Path.Before ∧
      (∀ other, Relisted files other →
        discoverBy other skipped rules (spelled names) = .ok found) ∧
      (∀ others, (∀ name, name ∈ others ↔ name ∈ names) →
        discoverBy files skipped rules (spelled others) = .ok found) ∧
      ∀ more further, discoverBy files skipped rules (spelled more) = .ok further →
        ∃ union, discoverBy files skipped rules (spelled (names ++ more)) = .ok union ∧
          union.Pairwise Path.Before ∧ ∀ source, source ∈ union ↔ source ∈ found ∨ source ∈ further) ∧
    (Reads files rules (spelled names) →
      (discover files skipped (spelled names)).1 =
        discoverBy files skipped rules (spelled names)) := by
  refine ⟨succeeds_discoverBy_iff sound unlinked _, fun failure => failure_of_discoverBy,
    fun found given => ⟨fun source => mem_discoverBy_iff sound unlinked given,
      pairwise_gather (tidy_sourcesBy sound isClean_of_mem_spelled) given,
      fun other => discoverBy_relisted sound unlinked isClean_of_mem_spelled given, ?_, ?_⟩,
    discover_eq_discoverBy⟩
  · intro others same
    apply discoverBy_of_mem_iff sound unlinked isClean_of_mem_spelled given
    intro path
    rw [spelled, spelled, List.mem_map, List.mem_map]
    simp only [same]
  · intro more further added
    rw [spelled, List.map_append]
    exact exists_discoverBy_append sound unlinked isClean_of_mem_spelled given
      isClean_of_mem_spelled added

/-- A directory with a source, a text, a hidden and a skipped directory. -/
def pruned : FileSystem where
  entries := [(["r"], .directory), (["r", "b.JS"], .file []), (["r", "readme.md"], .file []),
    (["r", ".git"], .directory), (["r", ".git", "h.js"], .file []), (["r", "lib"], .directory),
    (["r", "lib", "s.js"], .file [])]
  workingDirectory := []

theorem sound_pruned : pruned.Sound where
  distinct := by decide
  named := by decide +kernel
  housed := by decide

theorem spelled_twice : spelled ["r", "r/"] = [⟨.relative, ["r"]⟩, ⟨.relative, ["r"]⟩] := by
  decide +kernel

theorem reads_pruned : Reads pruned (fun _ => Ignore.selects []) (spelled ["r", "r/"]) := by
  have patterns : (ignorePatterns pruned ⟨.relative, ["r"]⟩).1 = .ok [] := by cbv
  intro path member location _
  rw [spelled_twice, List.mem_pair, or_self] at member
  rw [member, patterns]
  rfl

theorem discoverBy_finds_of_pruned :
    (discover pruned ["lib"] (spelled ["r", "r/"])).1 = .ok [⟨.relative, ["r", "b.JS"]⟩] ∧
    ∀ other, Relisted pruned other →
      discoverBy other ["lib"] (fun _ => Ignore.selects []) (spelled ["r", "r/"]) =
        (discover pruned ["lib"] (spelled ["r", "r/"])).1 := by
  have unlinked : Unlinked pruned := by
    rw [Unlinked]
    decide
  have given : discoverBy pruned ["lib"] (fun _ => Ignore.selects []) (spelled ["r", "r/"]) =
      .ok [⟨.relative, ["r", "b.JS"]⟩] := by
    rw [spelled_twice]
    cbv
  obtain ⟨-, -, finds, agrees⟩ := discoverBy_finds pruned sound_pruned unlinked ["lib"]
    (fun _ => Ignore.selects []) ["r", "r/"]
  rw [agrees reads_pruned, given]
  exact ⟨rfl, (finds _ given).2.2.1⟩

/-- A name of one byte more than there may be. -/
def longName : String := String.ofList (List.replicate 256 'a')

theorem toList_longName : longName.toList = List.replicate 256 'a' :=
  String.toList_ofList

theorem longName_ne : longName ≠ ".." := by
  intro same
  have length := congrArg String.length same
  rw [← String.length_toList, toList_longName, List.length_replicate] at length
  exact absurd length (by decide)

theorem ofString_longName : Path.ofString longName = ⟨.relative, [longName]⟩ := by
  apply Path.ofString_of_no_slash
  · rw [toList_longName, List.mem_replicate]
    decide
  · rw [toList_longName]
    rfl

/-- A name that is too long ends the discovery, although nothing stands there. -/
theorem discover_of_long_name :
    (∀ source, ¬ StandsFor (FileSystem.empty []) [] (fun _ _ => false)
      ⟨.relative, [longName]⟩ source) ∧
    (discover (FileSystem.empty []) [] (spelled [longName])).1 =
      .error (.read (.path .nameTooLong ⟨.relative, [longName]⟩)) := by
  have path : spelled [longName] = [⟨.relative, [longName]⟩] := congrArg List.singleton ofString_longName
  have allowed : hasNull ⟨.relative, [longName]⟩ = false := by
    rw [hasNull, List.any_cons, List.any_nil, Bool.or_false, String.contains_char_eq,
      toList_longName, decide_eq_false_iff_not, List.mem_replicate]
    decide
  have looked : lookUp (FileSystem.empty []) ⟨.relative, [longName]⟩ =
      .error (.read (.path .nameTooLong ⟨.relative, [longName]⟩)) :=
    lookUp_of_long allowed rfl longName_ne (by decide +kernel)
  constructor
  · rintro source (⟨-, location, bytes, found⟩ | ⟨location, found, -⟩)
    · rw [looked] at found
      cases found
    · rw [looked] at found
      cases found
  · rw [path, discover, ofPaths, ofPath, looked]
    rfl

end ModuleFence.Discovery
