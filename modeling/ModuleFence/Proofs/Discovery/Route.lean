import ModuleFence.Proofs.Discovery.Walk

/-!
Routes: ways from the root of a search into its directories that enter nothing but directories which
may be entered, lie within the root, and are not on the way already. A walk lists directories at the
ends of routes, each real one once, and leaves out none that an entry of a listed one leads to.
-/

set_option autoImplicit false

namespace ModuleFence.Discovery

namespace Search

/-- Steps that are a route to a place; the places above it are met on the way, the nearest first. -/
inductive Route (search : Search) : Steps → Location → List Location → Prop
  | root {place : Location} (leads : search.LeadsTo [] place)
      (inside : search.contains place = true) : Route search [] place []
  | child {directory : Steps} {place inner : Location} {above : List Location} {name : String}
      (outer : Route search directory place above) (member : name ∈ search.files.list place)
      (leads : search.LeadsTo (directory ++ [name]) inner)
      (enters : search.MayEnter directory name) (inside : search.contains inner = true)
      (fresh : inner ∉ place :: above) : Route search (directory ++ [name]) inner (place :: above)

namespace Route

variable {search : Search} {steps : Steps} {place : Location} {above : List Location}

theorem leads (route : search.Route steps place above) : search.LeadsTo steps place := by
  cases route with
  | root leads _ => exact leads
  | child _ _ leads _ _ _ => exact leads

theorem inside (route : search.Route steps place above) : search.contains place = true := by
  cases route with
  | root _ inside => exact inside
  | child _ _ _ _ inside _ => exact inside

/-- Each beginning of a route is a route, to a place on the way. -/
theorem of_prefix (route : search.Route steps place above) {front : Steps} (early : front <+: steps) :
    ∃ house outer, search.Route front house outer ∧ house ∈ place :: above ∧
      ∀ further ∈ outer, further ∈ above := by
  induction route with
  | root leads inside =>
    rw [List.prefix_nil] at early
    subst early
    exact ⟨_, [], Route.root leads inside, List.mem_cons_self, fun _ member => member⟩
  | @child directory place inner above name outer member leads enters inside fresh ih =>
    rcases List.prefix_concat_iff.mp early with rfl | early
    · exact ⟨inner, _, Route.child outer member leads enters inside fresh, List.mem_cons_self,
        fun _ member => member⟩
    · obtain ⟨house, others, route, met, further⟩ := ih early
      exact ⟨house, others, route, List.mem_cons_of_mem _ met,
        fun location member => List.mem_cons_of_mem _ (further location member)⟩

end Route

/-- An entry of a listed directory has been dealt with: it could be looked up, it was found if it is a
source, and if it is a directory that may be entered, it waits, or need not be listed. -/
def Handled (search : Search) (stage : Stage) (directory : Steps) (name : String) : Prop :=
  Succeeds (search.harvestEntry directory name) ∧
    (search.Yields directory name → search.path (directory ++ [name]) ∈ stage.found) ∧
    ∀ place, search.LeadsTo (directory ++ [name]) place → search.MayEnter directory name →
      directory ++ [name] ∈ stage.pending ∨ place ∈ stage.places ∨ search.contains place = false

/-- What holds at every stage of a walk. -/
structure Tracked (search : Search) (stage : Stage) : Prop where
  started : stage = Stage.start ∨ ∃ place, ([], place) ∈ stage.listed
  distinct : stage.places.Nodup
  routed : ∀ visit ∈ stage.listed, ∃ above, search.Route visit.1 visit.2 above ∧
    ∀ place ∈ above, place ∈ stage.places
  housed : ∀ directory name place, (directory ++ [name], place) ∈ stage.listed →
    ∃ house, (directory, house) ∈ stage.listed
  waiting : ∀ steps ∈ stage.pending, steps = [] ∨
    ∃ directory place name, steps = directory ++ [name] ∧ (directory, place) ∈ stage.listed ∧
      name ∈ search.files.list place ∧ search.MayEnter directory name ∧
      ∃ inner, search.LeadsTo (directory ++ [name]) inner
  left : ∀ name ∈ stage.names, ∃ directory place listed,
    stage.listed = (directory, place) :: listed ∧ name ∈ search.files.list place
  found : ∀ path ∈ stage.found, ∃ directory place name, path = search.path (directory ++ [name]) ∧
    (directory, place) ∈ stage.listed ∧ name ∈ search.files.list place ∧
    search.Yields directory name
  covered : ∀ directory place, (directory, place) ∈ stage.listed →
    ∀ name ∈ search.files.list place,
      (name ∈ stage.names ∧ stage.listed.head? = some (directory, place)) ∨
        search.Handled stage directory name

variable {search : Search}

theorem tracked_start : search.Tracked Stage.start where
  started := Or.inl rfl
  distinct := List.nodup_nil
  routed := fun _ member => nomatch member
  housed := fun _ _ _ member => nomatch member
  waiting := fun _ member => Or.inl (List.mem_singleton.mp member)
  left := fun _ member => nomatch member
  found := fun _ member => nomatch member
  covered := fun _ _ member => nomatch member

/-- What was dealt with stays so while sources are added, and while what waited either waits on or
need not be listed. -/
theorem Handled.mono {stage next : Stage} {directory : Steps} {name : String}
    (handled : search.Handled stage directory name) (found : stage.found ⊆ next.found)
    (places : stage.places ⊆ next.places)
    (pending : ∀ steps ∈ stage.pending, ∀ place, search.LeadsTo steps place →
      steps ∈ next.pending ∨ place ∈ next.places ∨ search.contains place = false) :
    search.Handled next directory name := by
  obtain ⟨success, yields, covers⟩ := handled
  refine ⟨success, fun source => found (yields source), fun place leads enters => ?_⟩
  rcases covers place leads enters with waits | listed | outside
  · exact pending _ waits place leads
  · exact Or.inr (Or.inl (places listed))
  · exact Or.inr (Or.inr outside)

/-- Taking up an entry deals with it, and changes nothing about the others. -/
theorem Tracked.entry {directory : Steps} {place : Location} {listed : List (Steps × Location)}
    {name : String} {names : List String} {pending : List Steps} {found : List Path}
    {harvest : Harvest} (taken : search.harvestEntry directory name = .ok harvest)
    (tracked : search.Tracked ⟨(directory, place) :: listed, name :: names, pending, found⟩) :
    search.Tracked ⟨(directory, place) :: listed, names, harvest.directories.reverse ++ pending,
      found ++ harvest.sources⟩ := by
  have member : name ∈ search.files.list place := by
    obtain ⟨_, _, _, same, member⟩ := tracked.left name List.mem_cons_self
    cases same
    exact member
  refine ⟨?_, tracked.distinct, tracked.routed, tracked.housed, ?_, ?_, ?_, ?_⟩
  · rcases tracked.started with same | begun
    · cases same
    · exact Or.inr begun
  · intro steps waits
    rcases List.mem_append.mp waits with new | old
    · obtain ⟨rfl, leads, enters⟩ := (mem_directories_iff taken).mp (List.mem_reverse.mp new)
      exact Or.inr ⟨directory, place, name, rfl, List.mem_cons_self, member, enters, leads⟩
    · exact tracked.waiting steps old
  · exact fun other later => tracked.left other (List.mem_cons_of_mem _ later)
  · intro path source
    rcases List.mem_append.mp source with old | new
    · exact tracked.found path old
    · obtain ⟨rfl, yields⟩ := (mem_sources_iff taken).mp new
      exact ⟨directory, place, name, rfl, List.mem_cons_self, member, yields⟩
  · intro other house visited entry inside
    rcases tracked.covered other house visited entry inside with ⟨left, latest⟩ | handled
    · rcases List.mem_cons.mp left with rfl | later
      · cases latest
        refine Or.inr ⟨⟨harvest, taken⟩, fun yields => ?_, fun inner leads enters => ?_⟩
        · have new := (mem_sources_iff taken).mpr ⟨rfl, yields⟩
          exact List.mem_append_right _ new
        · have new := (mem_directories_iff taken).mpr ⟨rfl, ⟨inner, leads⟩, enters⟩
          exact Or.inl (List.mem_append_left _ (List.mem_reverse.mpr new))
      · exact Or.inl ⟨later, latest⟩
    · refine Or.inr (handled.mono (List.subset_append_left _ _) (List.Subset.refl _) ?_)
      exact fun steps waits _ _ => Or.inl (List.mem_append_right _ waits)

/-- A directory that waited is at the end of a route when it lies within the root and was not listed
yet. -/
theorem Tracked.route_of_waiting {stage : Stage} (tracked : search.Tracked stage) {steps : Steps}
    {place : Location} (waits : steps ∈ stage.pending) (leads : search.LeadsTo steps place)
    (fresh : place ∉ stage.places) (inside : search.contains place = true) :
    ∃ above, search.Route steps place above ∧ ∀ house ∈ above, house ∈ stage.places := by
  rcases tracked.waiting steps waits with rfl | ⟨directory, house, name, rfl, visited, member, enters, -⟩
  · exact ⟨[], Route.root leads inside, fun _ member => nomatch member⟩
  · obtain ⟨above, route, listed⟩ := tracked.routed _ visited
    have met : ∀ further ∈ house :: above, further ∈ stage.places := by
      rw [List.forall_mem_cons]
      exact ⟨List.mem_map_of_mem visited, listed⟩
    have apart : place ∉ house :: above := fun same => fresh (met place same)
    exact ⟨house :: above, Route.child route member leads enters inside apart, met⟩

theorem Tracked.enter {listed : List (Steps × Location)} {steps : Steps} {pending : List Steps}
    {found : List Path} {place : Location} (leads : search.LeadsTo steps place)
    (fresh : place ∉ listed.map (·.2)) (inside : search.contains place = true)
    (tracked : search.Tracked ⟨listed, [], steps :: pending, found⟩) :
    search.Tracked ⟨(steps, place) :: listed, search.files.list place, pending, found⟩ := by
  refine ⟨?_, ?_, ?_, ?_, ?_, ?_, ?_, ?_⟩
  · rcases tracked.started with same | ⟨root, begun⟩
    · cases same
      exact Or.inr ⟨place, List.mem_cons_self⟩
    · exact Or.inr ⟨root, List.mem_cons_of_mem _ begun⟩
  · exact List.nodup_cons.mpr ⟨fresh, tracked.distinct⟩
  · intro visit visited
    rcases List.mem_cons.mp visited with rfl | earlier
    · obtain ⟨above, route, met⟩ :=
        tracked.route_of_waiting List.mem_cons_self leads fresh inside
      exact ⟨above, route, fun house member => List.mem_cons_of_mem _ (met house member)⟩
    · obtain ⟨above, route, met⟩ := tracked.routed visit earlier
      exact ⟨above, route, fun house member => List.mem_cons_of_mem _ (met house member)⟩
  · intro directory name inner visited
    rcases List.mem_cons.mp visited with same | earlier
    · cases same
      rcases tracked.waiting _ List.mem_cons_self with top | ⟨outer, house, last, spelled, visited, -⟩
      · exact absurd top (List.append_ne_nil_of_right_ne_nil _ (List.cons_ne_nil _ _))
      · obtain ⟨rfl, -⟩ := List.append_inj' spelled rfl
        exact ⟨house, List.mem_cons_of_mem _ visited⟩
    · obtain ⟨house, visited⟩ := tracked.housed directory name inner earlier
      exact ⟨house, List.mem_cons_of_mem _ visited⟩
  · intro others waits
    rcases tracked.waiting others (List.mem_cons_of_mem _ waits) with top |
      ⟨directory, house, name, rfl, visited, rest⟩
    · exact Or.inl top
    · exact Or.inr ⟨directory, house, name, rfl, List.mem_cons_of_mem _ visited, rest⟩
  · exact fun name member => ⟨steps, place, listed, rfl, member⟩
  · intro path source
    obtain ⟨directory, house, name, rfl, visited, rest⟩ := tracked.found path source
    exact ⟨directory, house, name, rfl, List.mem_cons_of_mem _ visited, rest⟩
  · intro directory house visited name member
    rcases List.mem_cons.mp visited with same | earlier
    · cases same
      exact Or.inl ⟨member, rfl⟩
    · rcases tracked.covered directory house earlier name member with ⟨impossible, -⟩ | handled
      · cases impossible
      · refine Or.inr (handled.mono (List.Subset.refl _) (List.subset_cons_self _ _) ?_)
        intro others waits inner leads_others
        rcases List.mem_cons.mp waits with rfl | later
        · rw [leads_others.unique leads]
          exact Or.inr (Or.inl List.mem_cons_self)
        · exact Or.inl later

theorem contains_realRoot (search : Search) : search.contains search.realRoot = true := by
  rw [contains]
  exact List.isPrefixOf_iff_prefix.mpr List.prefix_rfl

/-- Passing by a directory leaves out nothing: it was listed already, or lies outside. -/
theorem Tracked.pass (rooted : search.Rooted) {listed : List (Steps × Location)} {steps : Steps}
    {pending : List Steps} {found : List Path} {place : Location}
    (leads : search.LeadsTo steps place)
    (known : place ∈ listed.map (·.2) ∨ search.contains place = false)
    (tracked : search.Tracked ⟨listed, [], steps :: pending, found⟩) :
    search.Tracked ⟨listed, [], pending, found⟩ := by
  refine ⟨?_, tracked.distinct, tracked.routed, tracked.housed, ?_,
    (fun _ member => nomatch member), tracked.found, ?_⟩
  · rcases tracked.started with same | begun
    · cases same
      rw [leads.unique rooted, search.contains_realRoot] at known
      rcases known with impossible | impossible <;> cases impossible
    · exact Or.inr begun
  · exact fun others waits => tracked.waiting others (List.mem_cons_of_mem _ waits)
  · intro directory house visited name member
    rcases tracked.covered directory house visited name member with ⟨impossible, -⟩ | handled
    · cases impossible
    · refine Or.inr (handled.mono (List.Subset.refl _) (List.Subset.refl _) ?_)
      intro others waits inner leads_others
      rcases List.mem_cons.mp waits with rfl | later
      · rw [leads_others.unique leads]
        exact Or.inr known
      · exact Or.inl later

theorem Tracked.step (rooted : search.Rooted) {stage next : Stage} (step : search.Step stage next)
    (tracked : search.Tracked stage) : search.Tracked next := by
  cases step with
  | entry taken => exact tracked.entry taken
  | enter leads fresh inside => exact tracked.enter leads fresh inside
  | pass leads known => exact tracked.pass rooted leads known

/-- Every stage of a walk is tracked. -/
theorem tracked_of_runs (rooted : search.Rooted) {stage : Stage}
    (runs : search.Runs Stage.start stage) : search.Tracked stage := by
  induction runs with
  | refl => exact tracked_start
  | tail _ step ih => exact ih.step rooted step

end Search

end ModuleFence.Discovery
