import ModuleFence.Proofs.FileSystem.Ordering
import ModuleFence.Proofs.Success

set_option autoImplicit false

namespace ModuleFence.Discovery

/-- What some paths are expanded to, listed together. -/
def gather (expand : Path → Except Failure (List Path)) (paths : List Path) :
    Except Failure (List Path) :=
  (fun found => listing found.flatten) <$> paths.mapM expand

/-- Clean paths are expanded to clean paths. -/
def Tidy (expand : Path → Except Failure (List Path)) (paths : List Path) : Prop :=
  ∀ path ∈ paths, ∀ here, expand path = .ok here → ∀ source ∈ here, source.IsClean

section Gathering

variable {expand explore : Path → Except Failure (List Path)} {paths others found : List Path}

theorem succeeds_gather_iff :
    Succeeds (gather expand paths) ↔ ∀ path ∈ paths, Succeeds (expand path) := by
  rw [gather, succeeds_map_iff, succeeds_mapM_iff]

theorem exists_error_of_gather {failure : Failure} (failed : gather expand paths = .error failure) :
    ∃ path ∈ paths, expand path = .error failure := by
  rw [gather] at failed
  cases result : paths.mapM expand with
  | ok groups =>
    rw [result] at failed
    cases failed
  | error fault =>
    rw [result] at failed
    cases failed
    exact exists_error_of_mapM result

theorem mem_gather_iff (given : gather expand paths = .ok found) {source : Path} :
    source ∈ found ↔ ∃ path ∈ paths, ∃ here, expand path = .ok here ∧ source ∈ here := by
  obtain ⟨groups, success, rfl⟩ := (map_eq_ok_iff _ _ _).mp given
  rw [mem_listing, mem_flatten_mapM_iff success]

theorem pairwise_gather (tidy : Tidy expand paths) (given : gather expand paths = .ok found) :
    found.Pairwise Path.Before := by
  have members : ∀ source ∈ found, source.IsClean := by
    intro source member
    obtain ⟨path, inside, here, expanded, listed⟩ := (mem_gather_iff given).mp member
    exact tidy path inside here expanded source listed
  obtain ⟨groups, success, rfl⟩ := (map_eq_ok_iff _ _ _).mp given
  exact pairwise_listing fun path member => members path (mem_listing.mpr member)

/-- Paths that are expanded to the same sources are listed as the same. -/
theorem gather_eq_of_mem_iff (tidy : Tidy expand paths) (clean : Tidy explore others)
    (given : gather expand paths = .ok found)
    (success : ∀ path ∈ others, Succeeds (explore path))
    (same : ∀ source, (∃ path ∈ others, ∃ here, explore path = .ok here ∧ source ∈ here) ↔
      ∃ path ∈ paths, ∃ here, expand path = .ok here ∧ source ∈ here) :
    gather explore others = .ok found := by
  obtain ⟨sources, again⟩ := succeeds_gather_iff.mpr success
  rw [again]
  apply congrArg Except.ok
  apply eq_of_pairwise_before (pairwise_gather clean again) (pairwise_gather tidy given)
  intro source
  rw [mem_gather_iff again, mem_gather_iff given, same]

end Gathering

theorem ofPaths_fst (files : FileSystem) (skipped : List Text) (paths : List Path) :
    (ofPaths files skipped paths).1 =
      (paths.mapM fun path => (ofPath files skipped path).1).map List.flatten := by
  induction paths with
  | nil => rfl
  | cons path rest ih =>
    rw [List.mapM_cons, ofPaths]
    rcases ofPath files skipped path with ⟨here | here, records⟩
    · rfl
    · change (ofPaths files skipped rest).1.map (here ++ ·) = _
      rw [ih]
      cases rest.mapM fun path => (ofPath files skipped path).1 <;> rfl

/-- Discovery lists what the single paths stand for. -/
theorem discover_fst (files : FileSystem) (skipped : List Text) (paths : List Path) :
    (discover files skipped paths).1 = gather (fun path => (ofPath files skipped path).1) paths := by
  change (ofPaths files skipped paths).1.map listing = _
  rw [ofPaths_fst, gather]
  cases paths.mapM fun path => (ofPath files skipped path).1 <;> rfl

end ModuleFence.Discovery
