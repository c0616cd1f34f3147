import ModuleFence.Proofs.Discovery.Route
import ModuleFence.Proofs.FileSystem.Ordering

/-!
What a whole walk gives. It succeeds when all that it may look at can be looked up. Then it gives
sources of directories at the ends of routes, and none is missing whose way is the sole route to each
of the directories on it.
-/

set_option autoImplicit false

namespace ModuleFence.Discovery

namespace Search

/-- What a walk from the root gives. -/
def result (search : Search) : Except Failure (List Path) :=
  search.walk (directoryLocations search.files) [[]]

/-- The entries of all directories at the ends of routes can be looked up. -/
def Legible (search : Search) : Prop :=
  ∀ directory place above, search.Route directory place above → ∀ name ∈ search.files.list place,
    Succeeds (lookUp search.files (search.path (directory ++ [name])))

/-- A source that a directory at the end of a route lists. -/
def Reaches (search : Search) (directory : Steps) (name : String) : Prop :=
  ∃ place above, search.Route directory place above ∧ name ∈ search.files.list place ∧
    search.Yields directory name

/-- No other route leads to a directory on the way. -/
def Sole (search : Search) (steps : Steps) : Prop :=
  ∀ front house outer, front <+: steps → search.Route front house outer →
    ∀ other above, search.Route other house above → other = front

variable {search : Search}

theorem path_injective (search : Search) : Function.Injective search.path := by
  intro steps others same
  exact List.append_cancel_left (congrArg Path.parts same)

theorem succeeds_harvestEntry_iff {directory : Steps} {name : String} :
    Succeeds (search.harvestEntry directory name) ↔
      Succeeds (lookUp search.files (search.path (directory ++ [name]))) := by
  cases looked : lookUp search.files (search.path (directory ++ [name])) with
  | error failure => rw [harvestEntry_eq_error_iff.mpr looked]
                     simp only [not_succeeds_error]
  | ok found =>
    refine iff_of_true ?_ (succeeds_ok found)
    cases taken : search.harvestEntry directory name with
    | ok harvest => exact succeeds_ok harvest
    | error failure =>
      rw [harvestEntry_eq_error_iff.mp taken] at looked
      cases looked

theorem Sole.of_prefix {steps front : Steps} (sole : search.Sole steps) (early : front <+: steps) :
    search.Sole front :=
  fun earlier house outer before => sole earlier house outer (before.trans early)

/-- A walk fails only where an entry cannot be looked up. -/
theorem Rooted.succeeds_of_legible (rooted : search.Rooted) (legible : search.Legible) :
    Succeeds search.result := by
  have comes := rooted.walk_comesTo
  rw [← result] at comes
  cases given : search.result with
  | ok paths => exact succeeds_ok paths
  | error failure =>
    rw [given] at comes
    obtain ⟨last, runs, directory, place, listed, name, names, latest, left, failed⟩ := comes
    have tracked := tracked_of_runs rooted runs
    have member : name ∈ last.names := by
      rw [left]
      exact List.mem_cons_self
    obtain ⟨_, _, _, same, inside⟩ := tracked.left name member
    rw [latest] at same
    cases same
    have visited : (directory, place) ∈ last.listed := by
      rw [latest]
      exact List.mem_cons_self
    obtain ⟨above, route, -⟩ := tracked.routed _ visited
    have readable := succeeds_harvestEntry_iff.mpr (legible directory place above route name inside)
    rw [failed] at readable
    exact absurd readable (not_succeeds_error failure)

/-- A walk fails for no other reason than a path that is too long. -/
theorem Rooted.failure_of_result (rooted : search.Rooted) {failure : Failure}
    (failed : search.result = .error failure) :
    ∃ path, failure = .read (.path .nameTooLong path) := by
  have comes := rooted.walk_comesTo
  rw [← result, failed] at comes
  obtain ⟨_, _, directory, _, _, name, _, _, _, stuck⟩ := comes
  exact ⟨_, eq_of_lookUp_eq_error (harvestEntry_eq_error_iff.mp stuck)⟩

/-- A walk that succeeds ends at a stage with nothing left to do. -/
theorem Rooted.exists_final (rooted : search.Rooted) {paths : List Path}
    (given : search.result = .ok paths) :
    ∃ final, search.Runs Stage.start final ∧ final.IsFinal ∧ final.found = paths := by
  have comes := rooted.walk_comesTo
  rw [← result, given] at comes
  exact comes

/-- At the end, the entries of every listed directory are dealt with. -/
theorem Tracked.handled {final : Stage} (tracked : search.Tracked final) (done : final.IsFinal)
    {directory : Steps} {place : Location} (visited : (directory, place) ∈ final.listed)
    {name : String} (member : name ∈ search.files.list place) :
    search.Handled final directory name := by
  rcases tracked.covered directory place visited name member with ⟨left, -⟩ | handled
  · rw [done.1] at left
    cases left
  · exact handled

/-- The root is listed first. -/
theorem Tracked.root_listed {final : Stage} (tracked : search.Tracked final)
    (done : final.IsFinal) {place : Location} (leads : search.LeadsTo [] place) :
    ([], place) ∈ final.listed := by
  rcases tracked.started with same | ⟨root, visited⟩
  · rw [same] at done
    cases done.2
  · obtain ⟨above, route, -⟩ := tracked.routed _ visited
    rwa [leads.unique route.leads]

/-- A directory is listed by its route when each directory on the way has no other. -/
theorem Tracked.listed_of_sole {final : Stage} (tracked : search.Tracked final)
    (done : final.IsFinal) {steps : Steps} {place : Location} {above : List Location}
    (route : search.Route steps place above) (sole : search.Sole steps) :
    (steps, place) ∈ final.listed := by
  induction route with
  | root leads _ => exact tracked.root_listed done leads
  | @child directory place inner above name outer member leads enters inside fresh ih =>
    have whole : search.Route (directory ++ [name]) inner (place :: above) :=
      Route.child outer member leads enters inside fresh
    have visited := ih (sole.of_prefix (List.prefix_append directory [name]))
    obtain ⟨-, -, covers⟩ := tracked.handled done visited member
    rcases covers inner leads enters with waits | listed | outside
    · rw [done.2] at waits
      cases waits
    · obtain ⟨⟨other, _⟩, elsewhere, rfl⟩ := List.mem_map.mp listed
      obtain ⟨further, second, -⟩ := tracked.routed _ elsewhere
      rwa [← sole _ _ _ List.prefix_rfl whole _ _ second]
    · rw [inside] at outside
      cases outside

/-- Directories above a listed one are listed by the beginnings of its route. -/
theorem Tracked.listed_of_prefix {stage : Stage} (tracked : search.Tracked stage) {steps : Steps}
    {place : Location} (visited : (steps, place) ∈ stage.listed) {front : Steps}
    (early : front <+: steps) : ∃ house, (front, house) ∈ stage.listed := by
  induction steps using List.reverseRecOn generalizing place with
  | nil =>
    rw [List.prefix_nil.mp early]
    exact ⟨place, visited⟩
  | append_singleton directory name ih =>
    rcases List.prefix_concat_iff.mp early with rfl | before
    · exact ⟨place, visited⟩
    · obtain ⟨house, outer⟩ := tracked.housed directory name place visited
      exact ih outer before

/-- What a walk gives is reached by routes. -/
theorem Rooted.reaches_of_mem (rooted : search.Rooted) {paths : List Path}
    (given : search.result = .ok paths) {path : Path} (member : path ∈ paths) :
    ∃ directory name, path = search.path (directory ++ [name]) ∧ search.Reaches directory name := by
  obtain ⟨final, runs, -, rfl⟩ := rooted.exists_final given
  have tracked := tracked_of_runs rooted runs
  obtain ⟨directory, place, name, spelled, visited, inside, yields⟩ := tracked.found path member
  obtain ⟨above, route, -⟩ := tracked.routed _ visited
  exact ⟨directory, name, spelled, place, above, route, inside, yields⟩

theorem Route.isName (sound : search.files.Sound) {steps : Steps} {place : Location}
    {above : List Location} (route : search.Route steps place above) :
    ∀ name ∈ steps, FileSystem.IsName name := by
  induction route with
  | root _ _ => exact fun _ member => nomatch member
  | child _ member _ _ _ _ ih =>
    rw [List.forall_mem_append, List.forall_mem_singleton]
    obtain ⟨entry, found⟩ := sound.mem_list_iff.mp member
    exact ⟨ih, sound.isName_of_below found List.mem_cons_self⟩

/-- What a walk below a clean path gives is clean. -/
theorem Rooted.isClean (rooted : search.Rooted) (sound : search.files.Sound)
    (clean : search.root.IsClean) {paths : List Path} (given : search.result = .ok paths) :
    ∀ path ∈ paths, path.IsClean := by
  intro path found
  obtain ⟨directory, name, rfl, place, above, route, member, -⟩ := rooted.reaches_of_mem given found
  obtain ⟨entry, here⟩ := sound.mem_list_iff.mp member
  intro part inside
  rcases List.mem_append.mp inside with root | below
  · exact clean part root
  · rcases List.mem_append.mp below with early | last
    · exact (route.isName sound part early).2.2.2.1
    · exact (sound.isName_of_below here last).2.2.2.1

/-- A source is found when the way to it is the sole route to each of the directories on it. -/
theorem Rooted.mem_of_sole (rooted : search.Rooted) {paths : List Path}
    (given : search.result = .ok paths) {directory : Steps} {name : String}
    (reaches : search.Reaches directory name) (sole : search.Sole directory) :
    search.path (directory ++ [name]) ∈ paths := by
  obtain ⟨final, runs, done, rfl⟩ := rooted.exists_final given
  have tracked := tracked_of_runs rooted runs
  obtain ⟨place, above, route, member, yields⟩ := reaches
  have visited := tracked.listed_of_sole done route sole
  exact (tracked.handled done visited member).2.1 yields

/-- A walk that succeeds could look up the entries of each directory whose way is the sole route to
each of the directories on it. -/
theorem Rooted.succeeds_of_sole (rooted : search.Rooted) (success : Succeeds search.result)
    {directory : Steps} {place : Location} {above : List Location}
    (route : search.Route directory place above) (sole : search.Sole directory) {name : String}
    (member : name ∈ search.files.list place) :
    Succeeds (lookUp search.files (search.path (directory ++ [name]))) := by
  obtain ⟨paths, given⟩ := success
  obtain ⟨final, runs, done, -⟩ := rooted.exists_final given
  have tracked := tracked_of_runs rooted runs
  have visited := tracked.listed_of_sole done route sole
  exact succeeds_harvestEntry_iff.mp (tracked.handled done visited member).1

end Search

end ModuleFence.Discovery
