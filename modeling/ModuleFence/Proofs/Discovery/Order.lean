import ModuleFence.Proofs.Discovery.Clear
import ModuleFence.Proofs.FileSystem.Relisting

set_option autoImplicit false

namespace ModuleFence.Discovery

open FileSystem

namespace Search

section Relisted

variable {search : Search} {other : FileSystem} (relisted : Relisted search.files other)
  (sound : search.files.Sound)

include relisted sound

theorem leadsTo_on_iff {steps : Steps} {place : Location} :
    (search.on other).LeadsTo steps place ↔ search.LeadsTo steps place := by
  rw [LeadsTo, LeadsTo, on, relisted.lookUp_eq sound]
  rfl

theorem Rooted.on (rooted : search.Rooted) : (search.on other).Rooted :=
  (leadsTo_on_iff relisted sound).mpr rooted

theorem yields_on_iff {directory : Steps} {name : String} :
    (search.on other).Yields directory name ↔ search.Yields directory name := by
  rw [Yields, Yields, Search.on, relisted.lookUp_eq sound]
  rfl

/-- Routes stay routes when directories list their entries in another order. -/
theorem Route.on {steps : Steps} {place : Location} {above : List Location}
    (route : search.Route steps place above) : (search.on other).Route steps place above := by
  induction route with
  | root leads inside => exact Route.root ((leadsTo_on_iff relisted sound).mpr leads) inside
  | child _ member leads enters inside fresh ih =>
    exact Route.child ih (relisted.mem_list_iff.mpr member)
      ((leadsTo_on_iff relisted sound).mpr leads) enters inside fresh

theorem route_on_iff {steps : Steps} {place : Location} {above : List Location} :
    (search.on other).Route steps place above ↔ search.Route steps place above := by
  have back : Relisted (search.on other).files search.files := relisted.symm
  exact ⟨Route.on back (relisted.sound sound), Route.on relisted sound⟩

theorem reaches_on_iff {directory : Steps} {name : String} :
    (search.on other).Reaches directory name ↔ search.Reaches directory name := by
  simp only [Reaches, route_on_iff relisted sound, yields_on_iff relisted sound]
  simp only [Search.on, relisted.mem_list_iff]

theorem sole_on_iff {steps : Steps} : (search.on other).Sole steps ↔ search.Sole steps := by
  simp only [Sole, route_on_iff relisted sound]

theorem legible_on_iff : (search.on other).Legible ↔ search.Legible := by
  simp only [Legible, route_on_iff relisted sound]
  simp only [Search.on, relisted.mem_list_iff, relisted.lookUp_eq sound]
  rfl

end Relisted

variable {search : Search}

/-- The end of a route is not met on the way. -/
theorem Route.place_not_mem {steps : Steps} {place : Location} {above : List Location}
    (route : search.Route steps place above) : place ∉ above := by
  cases route with
  | root _ _ => exact List.not_mem_nil
  | child _ _ _ _ _ fresh => exact fresh

/-- A route on which each directory lists the next step last, so that it is walked first. -/
inductive Straight (search : Search) : Steps → Location → List Location → Prop
  | root {place : Location} (leads : search.LeadsTo [] place)
      (inside : search.contains place = true) : Straight search [] place []
  | child {directory : Steps} {place inner : Location} {above : List Location} {name : String}
      {others : List String} (outer : Straight search directory place above)
      (last : search.files.list place = others ++ [name])
      (leads : search.LeadsTo (directory ++ [name]) inner)
      (enters : search.MayEnter directory name) (inside : search.contains inner = true)
      (fresh : inner ∉ place :: above) : Straight search (directory ++ [name]) inner (place :: above)

/-- A straight route stays straight when no directory on the way lists its entries otherwise. -/
theorem Straight.on {other : FileSystem} (relisted : Relisted search.files other)
    (sound : search.files.Sound) {steps : Steps} {place : Location} {above : List Location}
    (straight : search.Straight steps place above)
    (same : ∀ house ∈ above, other.list house = search.files.list house) :
    (search.on other).Straight steps place above := by
  induction straight with
  | root leads inside => exact Straight.root ((leadsTo_on_iff relisted sound).mpr leads) inside
  | child _ last leads enters inside fresh ih =>
    rw [List.forall_mem_cons] at same
    exact Straight.child (ih same.2) (same.1.trans last) ((leadsTo_on_iff relisted sound).mpr leads)
      enters inside fresh

/-- Every route is straight in some order. -/
theorem Route.exists_straight (sound : search.files.Sound) {steps : Steps} {place : Location}
    {above : List Location} (route : search.Route steps place above) :
    ∃ other, Relisted search.files other ∧ (search.on other).Straight steps place above := by
  induction route with
  | root leads inside => exact ⟨search.files, Relisted.refl _, Straight.root leads inside⟩
  | @child directory place inner above name outer member leads enters inside fresh ih =>
    obtain ⟨other, relisted, straight⟩ := ih
    -- Only the directory that the new step leaves from changes its order.
    obtain ⟨front, last⟩ := exists_list_listedLast (relisted.mem_list_iff.mpr member)
    have moved : Relisted other (other.listedLast (place ++ [name])) := relisted_listedLast other _
    have whole : Relisted search.files (other.listedLast (place ++ [name])) := relisted.trans moved
    have same : ∀ house ∈ above,
        (other.listedLast (place ++ [name])).list house = other.list house := by
      intro house met
      apply list_listedLast_of_ne
      intro equal
      rw [equal] at met
      exact outer.place_not_mem met
    have outer_straight := straight.on moved (relisted.sound sound) same
    exact ⟨_, whole, Straight.child outer_straight last ((leadsTo_on_iff whole sound).mpr leads)
      enters inside fresh⟩

/-- The next stage is the only one, so that a final stage comes after every other. -/
theorem runs_final {stage final : Stage} (runs : search.Runs Stage.start stage)
    (whole : search.Runs Stage.start final) (done : final.IsFinal) : search.Runs stage final := by
  have unique : Relator.RightUnique search.Step := fun _ _ _ one other => one.unique other
  rcases Relation.ReflTransGen.total_of_right_unique unique runs whole with onward | back
  · exact onward
  · cases back using Relation.ReflTransGen.head_induction_on with
    | refl => exact Relation.ReflTransGen.refl
    | head step _ =>
      rcases final with ⟨listed, names, pending, found⟩
      obtain ⟨rfl, rfl⟩ := done
      cases step

/-- Directories stay listed. -/
theorem Runs.listed_subset {stage next : Stage} (runs : search.Runs stage next) :
    stage.listed ⊆ next.listed := by
  induction runs with
  | refl => exact List.Subset.refl _
  | tail _ step ih =>
    cases step with
    | entry _ => exact ih
    | enter _ _ _ => exact List.subset_cons_of_subset _ ih
    | pass _ _ => exact ih

/-- Entries that can be looked up are taken up one after the other. -/
theorem exists_runs_past {directory : Steps} {place : Location} {listed : List (Steps × Location)}
    {names rest : List String} (readable : ∀ name ∈ names, Succeeds (search.harvestEntry directory name))
    (pending : List Steps) (found : List Path) :
    ∃ waiting sources, search.Runs ⟨(directory, place) :: listed, names ++ rest, pending, found⟩
      ⟨(directory, place) :: listed, rest, waiting, sources⟩ := by
  induction names generalizing pending found with
  | nil => exact ⟨pending, found, Relation.ReflTransGen.refl⟩
  | cons name names ih =>
    rw [List.forall_mem_cons] at readable
    obtain ⟨⟨harvest, taken⟩, readable⟩ := readable
    obtain ⟨waiting, sources, runs⟩ :=
      ih readable (harvest.directories.reverse ++ pending) (found ++ harvest.sources)
    exact ⟨waiting, sources, Relation.ReflTransGen.head (Step.entry taken) runs⟩

/-- A directory that may be entered is what its entry gives. -/
theorem harvestEntry_of_leadsTo {directory : Steps} {name : String} {place : Location}
    (leads : search.LeadsTo (directory ++ [name]) place) (enters : search.MayEnter directory name) :
    search.harvestEntry directory name = .ok { directories := [directory ++ [name]] } := by
  obtain ⟨unpruned, unignored⟩ := enters
  rw [LeadsTo] at leads
  rw [harvestEntry, leads]
  change Except.ok (search.harvestDirectory name (directory ++ [name])) = _
  rw [harvestDirectory, unpruned, unignored, Bool.or_false, if_neg Bool.false_ne_true]

/-- A walk that comes to an end goes down a straight route before it walks anything else. -/
theorem Straight.runs (rooted : search.Rooted) {final : Stage}
    (whole : search.Runs Stage.start final) (done : final.IsFinal) {steps : Steps}
    {place : Location} {above : List Location} (straight : search.Straight steps place above) :
    ∃ listed pending found, listed.map (·.2) = above ∧ search.Runs Stage.start
      ⟨(steps, place) :: listed, search.files.list place, pending, found⟩ := by
  induction straight with
  | root leads inside =>
    have first : search.Step Stage.start ⟨[([], _)], search.files.list _, [], []⟩ :=
      Step.enter leads List.not_mem_nil inside
    exact ⟨[], [], [], rfl, Relation.ReflTransGen.single first⟩
  | @child directory place inner above name others outer last leads enters inside fresh ih =>
    obtain ⟨listed, pending, found, houses, runs⟩ := ih
    -- The entries of the directory can be looked up, because it is among those listed at the end.
    have visited : (directory, place) ∈ final.listed :=
      (runs_final runs whole done).listed_subset List.mem_cons_self
    have readable : ∀ other ∈ others, Succeeds (search.harvestEntry directory other) := by
      intro other early
      have member : other ∈ search.files.list place := by
        rw [last]
        exact List.mem_append_left _ early
      exact ((tracked_of_runs rooted whole).handled done visited member).1
    rw [last] at runs
    obtain ⟨waiting, sources, past⟩ := exists_runs_past readable pending found
    have taken := harvestEntry_of_leadsTo leads enters
    have unlisted : inner ∉ ((directory, place) :: listed).map (·.2) := by
      rw [List.map_cons, houses]
      exact fresh
    refine ⟨(directory, place) :: listed, waiting, sources ++ [], ?_, ?_⟩
    · rw [List.map_cons, houses]
    · exact ((runs.trans past).tail (Step.entry taken)).tail (Step.enter leads unlisted inside)

/-- In some order a directory is walked by a given route to it. -/
theorem Route.exists_listed (rooted : search.Rooted) (sound : search.files.Sound) {steps : Steps}
    {place : Location} {above : List Location} (route : search.Route steps place above) :
    ∃ other, Relisted search.files other ∧
      ∀ final, (search.on other).Runs Stage.start final → final.IsFinal →
        (steps, place) ∈ final.listed := by
  obtain ⟨other, relisted, straight⟩ := route.exists_straight sound
  refine ⟨other, relisted, fun final whole done => ?_⟩
  obtain ⟨listed, pending, found, -, runs⟩ :=
    straight.runs (rooted.on relisted sound) whole done
  exact (runs_final runs whole done).listed_subset List.mem_cons_self

section Orders

variable (rooted : search.Rooted) (sound : search.files.Sound)

include rooted sound

/-- A walk succeeds in every order when all that it may look at can be looked up, and in no other
case. -/
theorem succeeds_on_iff :
    (∀ other, Relisted search.files other → Succeeds (search.on other).result) ↔
      search.Legible := by
  constructor
  · intro success directory place above route name member
    obtain ⟨other, relisted, listed⟩ := route.exists_listed rooted sound
    obtain ⟨paths, given⟩ := success other relisted
    obtain ⟨final, runs, done, -⟩ := (rooted.on relisted sound).exists_final given
    have tracked := tracked_of_runs (rooted.on relisted sound) runs
    have visited := listed final runs done
    have handled := tracked.handled done visited (relisted.mem_list_iff.mpr member)
    have readable := succeeds_harvestEntry_iff.mp handled.1
    rw [on, relisted.lookUp_eq sound] at readable
    exact readable
  · intro legible other relisted
    exact (rooted.on relisted sound).succeeds_of_legible ((legible_on_iff relisted sound).mpr legible)

/-- A source is found in every order when its way is sole. -/
theorem mem_on_of_sole {directory : Steps} {name : String} (reaches : search.Reaches directory name)
    (sole : search.Sole directory) {other : FileSystem} (relisted : Relisted search.files other)
    {paths : List Path} (given : (search.on other).result = .ok paths) :
    search.path (directory ++ [name]) ∈ paths :=
  (rooted.on relisted sound).mem_of_sole given ((reaches_on_iff relisted sound).mpr reaches)
    ((sole_on_iff relisted sound).mpr sole)

/-- Every source at the end of a route is found in some order. -/
theorem exists_order_mem {directory : Steps} {name : String} (reaches : search.Reaches directory name) :
    ∃ other, Relisted search.files other ∧
      ∀ paths, (search.on other).result = .ok paths → search.path (directory ++ [name]) ∈ paths := by
  obtain ⟨place, above, route, member, yields⟩ := reaches
  obtain ⟨other, relisted, listed⟩ := route.exists_listed rooted sound
  refine ⟨other, relisted, fun paths given => ?_⟩
  obtain ⟨final, runs, done, rfl⟩ := (rooted.on relisted sound).exists_final given
  have tracked := tracked_of_runs (rooted.on relisted sound) runs
  have handled := tracked.handled done (listed final runs done) (relisted.mem_list_iff.mpr member)
  exact handled.2.1 ((yields_on_iff relisted sound).mpr yields)

/-- A source is left out in some order when another route leads to a directory on its way. -/
theorem exists_order_not_mem {directory : Steps} (shared : ¬ search.Sole directory) (name : String) :
    ∃ other, Relisted search.files other ∧
      ∀ paths, (search.on other).result = .ok paths → search.path (directory ++ [name]) ∉ paths := by
  simp only [Sole, not_forall] at shared
  obtain ⟨front, house, outer, early, route, away, above, second, different⟩ := shared
  obtain ⟨other, relisted, listed⟩ := second.exists_listed rooted sound
  refine ⟨other, relisted, fun paths given found => different ?_⟩
  have again := rooted.on relisted sound
  obtain ⟨final, runs, done, rfl⟩ := again.exists_final given
  have tracked := tracked_of_runs again runs
  obtain ⟨walked, place, last, spelled, visited, -, -⟩ := tracked.found _ found
  obtain ⟨rfl, -⟩ := List.append_inj' (search.path_injective spelled) rfl
  -- The house is listed by both ways, but it is listed once.
  obtain ⟨place_front, first⟩ := tracked.listed_of_prefix visited early
  obtain ⟨_, reached, -⟩ := tracked.routed _ first
  have same : place_front = house :=
    reached.leads.unique ((leadsTo_on_iff relisted sound).mpr route.leads)
  have elsewhere := listed final runs done
  rw [← same] at elsewhere
  exact congrArg Prod.fst (List.inj_on_of_nodup_map tracked.distinct elsewhere first rfl)

end Orders

end Search

end ModuleFence.Discovery
