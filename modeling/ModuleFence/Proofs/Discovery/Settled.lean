import Mathlib
import ModuleFence.Proofs.Discovery.Order
import ModuleFence.Proofs.Discovery.Sources

set_option autoImplicit false

namespace ModuleFence.Discovery

open FileSystem

/-- Discovery searches a named directory. -/
def Searches (files : FileSystem) (skipped : List Text) (path : Path) (search : Search) : Prop :=
  ∃ location patterns, lookUp files path = .ok (some (location, .directory)) ∧
    (ignorePatterns files path).1 = .ok patterns ∧
    search = ⟨files, path, location, skipped, Ignore.selects patterns⟩

namespace Search

/-- The order of listing decides nothing: all that may be looked at can be looked up, and the way to
each source is the sole route to the directories on it. -/
structure Settled (search : Search) : Prop where
  legible : search.Legible
  sole : ∀ directory name, search.Reaches directory name → search.Sole directory

variable {search : Search}

/-- In every order a settled search finds the sources at the ends of routes. -/
theorem Settled.mem_iff (settled : search.Settled) (rooted : search.Rooted)
    (sound : search.files.Sound) {other : FileSystem} (relisted : Relisted search.files other)
    {paths : List Path} (given : (search.on other).result = .ok paths) {path : Path} :
    path ∈ paths ↔
      ∃ directory name, path = search.path (directory ++ [name]) ∧ search.Reaches directory name := by
  constructor
  · intro found
    obtain ⟨directory, name, spelled, reaches⟩ :=
      (rooted.on relisted sound).reaches_of_mem given found
    exact ⟨directory, name, spelled, (reaches_on_iff relisted sound).mp reaches⟩
  · rintro ⟨directory, name, rfl, reaches⟩
    exact mem_on_of_sole rooted sound reaches (settled.sole directory name reaches) relisted given

/-- Without links a search is settled when all that it may look at can be looked up. -/
theorem settled_of_unlinked (rooted : search.Rooted) (sound : search.files.Sound)
    (unlinked : Unlinked search.files) (legible : search.Legible) : search.Settled :=
  ⟨legible, fun directory _ _ => sole_of_unlinked rooted sound unlinked directory⟩

end Search

/-- A named path is settled: it can be looked up, and if it leads to a directory, that is searched
and the search is settled. -/
def IsSettled (files : FileSystem) (skipped : List Text) (path : Path) : Prop :=
  Succeeds (lookUp files path) ∧
    ∀ location, lookUp files path = .ok (some (location, .directory)) →
      ∃ search, Searches files skipped path search ∧ search.Settled

section Searching

variable {files other : FileSystem} {skipped : List Text} {path : Path} {search : Search}

theorem Searches.files_eq (searches : Searches files skipped path search) :
    search.files = files := by
  obtain ⟨location, patterns, -, -, rfl⟩ := searches
  rfl

theorem Searches.rooted (searches : Searches files skipped path search) : search.Rooted := by
  obtain ⟨location, patterns, looked, -, rfl⟩ := searches
  exact Search.rooted_iff.mpr looked

theorem Searches.ofPath_fst (searches : Searches files skipped path search) :
    (ofPath files skipped path).1 = search.result := by
  obtain ⟨location, patterns, looked, readable, rfl⟩ := searches
  rw [ofPath, looked]
  change (inDirectory files skipped path location).1 = _
  rw [inDirectory_fst, readable]
  rfl

/-- In another order the same directory is searched. -/
theorem Searches.on (searches : Searches files skipped path search) (relisted : Relisted files other)
    (sound : files.Sound) : Searches other skipped path (search.on other) := by
  obtain ⟨location, patterns, looked, readable, rfl⟩ := searches
  refine ⟨location, patterns, ?_, ?_, rfl⟩
  · rw [relisted.lookUp_eq sound, looked]
  · rw [relisted.ignorePatterns_eq sound, readable]

/-- Discovery from one directory lists what the search finds. -/
theorem Searches.discover_eq (searches : Searches files skipped path search) :
    (discover files skipped [path]).1 = listing <$> search.result := by
  rw [discover_fst, gather, List.mapM_cons, List.mapM_nil, searches.ofPath_fst]
  cases search.result with
  | error failure => rfl
  | ok paths =>
    change Except.ok (listing [paths].flatten) = _
    rw [List.flatten_singleton]
    rfl

/-- What a path is expanded to is what it stands for by some rules. -/
theorem exists_rules_of_ofPath {found : List Path}
    (given : (ofPath files skipped path).1 = .ok found) :
    ∃ rules, sourcesBy files skipped rules path = .ok found := by
  cases readable : (ignorePatterns files path).1 with
  | ok patterns =>
    refine ⟨fun _ => Ignore.selects patterns, ?_⟩
    rw [← given]
    refine (ofPath_fst fun other member location _ => ?_).symm
    rw [List.mem_singleton.mp member, readable]
    rfl
  | error failure =>
    refine ⟨fun _ _ => false, ?_⟩
    rw [← given]
    refine (ofPath_fst fun other member location looked => ?_).symm
    rw [List.mem_singleton.mp member] at looked
    rw [ofPath, looked] at given
    change (inDirectory files skipped path location).1 = _ at given
    rw [inDirectory_fst, readable] at given
    cases given

theorem tidy_ofPath (sound : files.Sound) {paths : List Path}
    (clean : ∀ path ∈ paths, path.IsClean) :
    Tidy (fun path => (ofPath files skipped path).1) paths := by
  intro path member found given
  obtain ⟨rules, same⟩ := exists_rules_of_ofPath given
  exact isClean_sourcesBy sound (clean path member) same

/-- What is not walked stands for the same in every order. -/
theorem ofPath_of_unwalked (same : lookUp other path = lookUp files path)
    (unwalked : ∀ location, lookUp files path ≠ .ok (some (location, .directory))) :
    ofPath other skipped path = ofPath files skipped path := by
  rw [ofPath, ofPath, same]
  cases looked : lookUp files path with
  | error failure => rfl
  | ok place =>
    rcases place with _ | ⟨location, _ | _ | _⟩
    · rfl
    · rfl
    · exact absurd looked (unwalked location)
    · rfl

theorem succeeds_ofPath_of_unwalked (success : Succeeds (lookUp files path))
    (unwalked : ∀ location, lookUp files path ≠ .ok (some (location, .directory))) :
    Succeeds (ofPath files skipped path).1 := by
  obtain ⟨place, looked⟩ := success
  rw [ofPath, looked]
  rcases place with _ | ⟨location, _ | _ | _⟩
  · exact succeeds_ok _
  · exact succeeds_ok _
  · exact absurd looked (unwalked location)
  · exact succeeds_ok _

/-- A settled path stands for the same sources in every order. -/
theorem IsSettled.ofPath (settled : IsSettled files skipped path) (sound : files.Sound) :
    ∃ found, (ofPath files skipped path).1 = .ok found ∧ ∀ other, Relisted files other →
      ∃ others, (ofPath other skipped path).1 = .ok others ∧
        ∀ source, source ∈ others ↔ source ∈ found := by
  obtain ⟨success, walked⟩ := settled
  by_cases directory : ∃ location, lookUp files path = .ok (some (location, .directory))
  · obtain ⟨location, looked⟩ := directory
    obtain ⟨search, searches, settled⟩ := walked location looked
    have here := searches.files_eq
    subst here
    have success := (Search.succeeds_on_iff searches.rooted sound).mpr settled.legible
    obtain ⟨found, given⟩ := success search.files (Relisted.refl _)
    refine ⟨found, searches.ofPath_fst.trans given, fun other relisted => ?_⟩
    obtain ⟨others, again⟩ := success other relisted
    refine ⟨others, (searches.on relisted sound).ofPath_fst.trans again, fun source => ?_⟩
    rw [settled.mem_iff searches.rooted sound relisted again,
      settled.mem_iff searches.rooted sound (Relisted.refl _) given]
  · have unwalked := not_exists.mp directory
    obtain ⟨found, given⟩ := succeeds_ofPath_of_unwalked success unwalked
    refine ⟨found, given, fun other relisted => ⟨found, ?_, fun _ => Iff.rfl⟩⟩
    rw [ofPath_of_unwalked (relisted.lookUp_eq sound path) unwalked, given]

/-- Where all named paths are settled, discovery gives the same list in every order. -/
theorem exists_discover_of_settled (sound : files.Sound) {paths : List Path}
    (clean : ∀ path ∈ paths, path.IsClean)
    (settled : ∀ path ∈ paths, IsSettled files skipped path) :
    ∃ found, ∀ other, Relisted files other → (discover other skipped paths).1 = .ok found := by
  simp only [discover_fst]
  have success : ∀ path ∈ paths, Succeeds (ofPath files skipped path).1 := by
    intro path member
    obtain ⟨here, given, -⟩ := (settled path member).ofPath sound
    exact ⟨here, given⟩
  obtain ⟨found, given⟩ := succeeds_gather_iff.mpr success
  refine ⟨found, fun other relisted => ?_⟩
  apply gather_eq_of_mem_iff (tidy_ofPath sound clean) (tidy_ofPath (relisted.sound sound) clean) given
  · intro path member
    obtain ⟨_, _, each⟩ := (settled path member).ofPath sound
    obtain ⟨others, again, -⟩ := each other relisted
    exact ⟨others, again⟩
  · intro source
    refine exists_congr fun path => and_congr_right fun member => ?_
    obtain ⟨one, alone, each⟩ := (settled path member).ofPath sound
    obtain ⟨two, elsewhere, same⟩ := each other relisted
    rw [alone, elsewhere]
    simp only [Except.ok.injEq, exists_eq_left', same]

/-- What discovery lists from one directory is what the search in it found. -/
theorem Searches.exists_result (searches : Searches files skipped path search) {found : List Path}
    (given : (discover files skipped [path]).1 = .ok found) :
    ∃ paths, search.result = .ok paths ∧ ∀ source, source ∈ found ↔ source ∈ paths := by
  rw [searches.discover_eq] at given
  obtain ⟨paths, walked, rfl⟩ := (map_eq_ok_iff _ _ _).mp given
  exact ⟨paths, walked, fun source => mem_listing⟩

/-- A source whose way is sole is found in every order. -/
theorem Searches.mem_discover (searches : Searches files skipped path search) (sound : files.Sound)
    {directory : Steps} {name : String} (reaches : search.Reaches directory name)
    (sole : search.Sole directory) {paths : List Path} (member : path ∈ paths)
    (relisted : Relisted files other) {found : List Path}
    (given : (discover other skipped paths).1 = .ok found) :
    search.path (directory ++ [name]) ∈ found := by
  rw [discover_fst] at given
  obtain ⟨here, alone⟩ := succeeds_gather_iff.mp ⟨found, given⟩ path member
  have walked := (searches.on relisted sound).ofPath_fst.symm.trans alone
  have same := searches.files_eq
  subst same
  have listed := Search.mem_on_of_sole searches.rooted sound reaches sole relisted walked
  exact (mem_gather_iff given).mpr ⟨path, member, here, alone, listed⟩

/-- Of a named directory, a source is found in every order only when its way is sole. -/
theorem Searches.sole_of_mem_discover (searches : Searches files skipped path search)
    (sound : files.Sound) (legible : search.Legible) {directory : Steps} (name : String)
    (always : ∀ other, Relisted files other → ∀ found,
      (discover other skipped [path]).1 = .ok found → search.path (directory ++ [name]) ∈ found) :
    search.Sole directory := by
  have same := searches.files_eq
  subst same
  by_contra shared
  obtain ⟨other, relisted, missing⟩ :=
    Search.exists_order_not_mem searches.rooted sound shared name
  obtain ⟨paths, walked⟩ :=
    (Search.succeeds_on_iff searches.rooted sound).mpr legible other relisted
  apply missing paths walked
  have given : (discover other skipped [path]).1 = .ok (listing paths) := by
    rw [(searches.on relisted sound).discover_eq, walked]
    rfl
  exact mem_listing.mp (always other relisted _ given)

/-- Of a named directory, discovery gives the same list in every order only when the search in it is
settled. -/
theorem Searches.settled (searches : Searches files skipped path search) (sound : files.Sound)
    {found : List Path} (always : ∀ other, Relisted files other →
      (discover other skipped [path]).1 = .ok found) : search.Settled := by
  have same := searches.files_eq
  subst same
  have legible : search.Legible := by
    refine (Search.succeeds_on_iff searches.rooted sound).mp fun other relisted => ?_
    obtain ⟨paths, walked, -⟩ := (searches.on relisted sound).exists_result (always other relisted)
    exact ⟨paths, walked⟩
  refine ⟨legible, fun directory name reaches => ?_⟩
  apply searches.sole_of_mem_discover sound legible name
  intro other relisted others given
  -- The source is found in some order, and the list is the same in each.
  obtain ⟨seen, kept, here⟩ := Search.exists_order_mem searches.rooted sound reaches
  obtain ⟨paths, walked, members⟩ := (searches.on kept sound).exists_result (always seen kept)
  rw [← Except.ok.inj ((always other relisted).symm.trans given), members]
  exact here paths walked

/-- Of a settled directory discovery gives the same list in every order. -/
theorem Searches.isSettled (searches : Searches files skipped path search)
    (settled : search.Settled) : IsSettled files skipped path := by
  have named := searches
  obtain ⟨location, patterns, looked, readable, rfl⟩ := searches
  refine ⟨by rw [looked]; exact succeeds_ok _, fun place again => ?_⟩
  rw [looked] at again
  cases again
  exact ⟨_, named, settled⟩

end Searching

/-- The order of listing decides nothing where all named paths are settled, and for one directory in
no other case. A source that is reached is found in every order when its way is the sole route to the
directories on it, and for one directory in no other case; a source below a directory without a link
in between is reached. -/
theorem discover_order (files : FileSystem) (sound : files.Sound) (skipped : List Text)
    (names : List String) :
    ((∀ path ∈ spelled names, IsSettled files skipped path) →
      ∃ found, ∀ other, Relisted files other →
        (discover other skipped (spelled names)).1 = .ok found) ∧
    (∀ path ∈ spelled names, ∀ search, Searches files skipped path search →
      ∀ directory file, search.Reaches directory file → search.Sole directory →
        ∀ other, Relisted files other → ∀ found,
          (discover other skipped (spelled names)).1 = .ok found →
            search.path (directory ++ [file]) ∈ found) ∧
    ∀ name search, Searches files skipped (Path.ofString name) search →
      ((∃ found, ∀ other, Relisted files other →
          (discover other skipped (spelled [name])).1 = .ok found) ↔ search.Settled) ∧
      (search.Legible → ∀ directory file, search.Reaches directory file →
        ((∀ other, Relisted files other → ∀ found,
            (discover other skipped (spelled [name])).1 = .ok found →
              search.path (directory ++ [file]) ∈ found) ↔ search.Sole directory)) ∧
      (search.Legible → ∀ directory file, search.Holds directory file →
        search.Reaches directory file) := by
  refine ⟨exists_discover_of_settled sound isClean_of_mem_spelled, ?_, ?_⟩
  · intro path member search searches directory file reaches sole other relisted found given
    exact searches.mem_discover sound reaches sole member relisted given
  · intro name search searches
    refine ⟨⟨?_, fun settled => ?_⟩, fun legible directory file reaches => ⟨fun always => ?_, ?_⟩,
      fun legible directory file holds => ?_⟩
    · rintro ⟨found, always⟩
      exact searches.settled sound always
    · apply exists_discover_of_settled sound isClean_of_mem_spelled
      intro path member
      rw [List.mem_singleton.mp member]
      exact searches.isSettled settled
    · exact searches.sole_of_mem_discover sound legible file always
    · intro sole other relisted found given
      exact searches.mem_discover sound reaches sole List.mem_cons_self relisted given
    · have same := searches.files_eq
      subst same
      exact Search.reaches_of_holds searches.rooted sound legible holds

/-- A directory with a source, and a link to it that is listed first. -/
def aliased : FileSystem where
  entries := [(["a"], .link "m"), (["m"], .directory), (["m", "x.js"], .file [])]
  workingDirectory := []

theorem sound_aliased : aliased.Sound where
  distinct := by decide
  named := by decide +kernel
  housed := by decide

theorem discover_aliased :
    (discover aliased [] (spelled ["."])).1 = .ok [⟨.relative, ["m", "x.js"]⟩] := by
  cbv

/-- The link is listed last, and so the directory is walked by it. -/
theorem discover_aliased_last :
    (discover (aliased.listedLast ["a"]) [] (spelled ["."])).1 = .ok [⟨.relative, ["a", "x.js"]⟩] := by
  cbv

theorem searches_aliased : Searches aliased [] (Path.ofString ".")
    ⟨aliased, Path.ofString ".", [], [], Ignore.selects []⟩ :=
  ⟨[], [], by cbv, by cbv, rfl⟩

theorem discover_order_of_aliased :
    aliased.Sound ∧
      ¬ Search.Settled ⟨aliased, Path.ofString ".", [], [], Ignore.selects []⟩ := by
  obtain ⟨-, -, each⟩ := discover_order aliased sound_aliased [] []
  refine ⟨sound_aliased, fun settled => ?_⟩
  obtain ⟨found, always⟩ := (each "." _ searches_aliased).1.mpr settled
  have here := always aliased (Relisted.refl aliased)
  have there := always _ (relisted_listedLast aliased ["a"])
  rw [discover_aliased] at here
  rw [discover_aliased_last, ← here] at there
  exact absurd there (by decide)

/-- A source without a link on its way is left out in one of two orders. -/
theorem discover_aliased_differs :
    Relisted aliased (aliased.listedLast ["a"]) ∧
    (discover aliased [] (spelled ["."])).1 = .ok [⟨.relative, ["m", "x.js"]⟩] ∧
    (discover (aliased.listedLast ["a"]) [] (spelled ["."])).1 = .ok [⟨.relative, ["a", "x.js"]⟩] :=
  ⟨relisted_listedLast aliased ["a"], discover_aliased, discover_aliased_last⟩

end ModuleFence.Discovery
