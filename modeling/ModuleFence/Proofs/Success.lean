import Mathlib.Data.List.Forall2

set_option autoImplicit false

namespace ModuleFence

variable {ε α β γ : Type}

/-- A computation that may fail ends with a value. -/
def Succeeds (result : Except ε α) : Prop :=
  ∃ value, result = .ok value

instance (result : Except ε α) : Decidable (Succeeds result) :=
  match result with
  | .ok value => .isTrue ⟨value, rfl⟩
  | .error _ => .isFalse fun ⟨_, impossible⟩ => by cases impossible

@[simp] theorem succeeds_ok (value : α) : Succeeds (.ok value : Except ε α) :=
  ⟨value, rfl⟩

@[simp] theorem not_succeeds_error (error : ε) : ¬ Succeeds (.error error : Except ε α) := by
  rintro ⟨value, impossible⟩
  cases impossible

@[simp] theorem ok_bind (value : α) (next : α → Except ε β) :
    (Except.ok value >>= next) = next value :=
  rfl

theorem bind_eq_ok_iff (first : Except ε α) (next : α → Except ε β) (value : β) :
    first >>= next = .ok value ↔ ∃ between, first = .ok between ∧ next between = .ok value := by
  cases first <;> simp [bind, Except.bind]

theorem bind_eq_error_iff (first : Except ε α) (next : α → Except ε β) (error : ε) :
    first >>= next = .error error ↔
      first = .error error ∨ ∃ between, first = .ok between ∧ next between = .error error := by
  cases first <;> simp [bind, Except.bind]

theorem map_eq_ok_iff (f : α → β) (result : Except ε α) (value : β) :
    f <$> result = .ok value ↔ ∃ inner, result = .ok inner ∧ f inner = value := by
  cases result <;> simp [Functor.map, Except.map]

@[simp] theorem succeeds_map_iff (f : α → β) (result : Except ε α) :
    Succeeds (f <$> result) ↔ Succeeds result := by
  simp only [Succeeds, map_eq_ok_iff]
  constructor
  · rintro ⟨value, inner, success, -⟩
    exact ⟨inner, success⟩
  · rintro ⟨inner, success⟩
    exact ⟨f inner, inner, success, rfl⟩

/-- Two computations succeed in a row when the second one succeeds whatever it is given. -/
theorem succeeds_bind_iff (first : Except ε α) (next : α → Except ε β) (second : Prop)
    (independent : ∀ between, Succeeds (next between) ↔ second) :
    Succeeds (first >>= next) ↔ Succeeds first ∧ second := by
  cases first with
  | error error => simp [bind, Except.bind]
  | ok between => simpa [bind, Except.bind] using independent between

theorem mapM_eq_ok_iff (f : α → Except ε β) (inputs : List α) (outputs : List β) :
    inputs.mapM f = .ok outputs ↔
      List.Forall₂ (fun input output => f input = .ok output) inputs outputs := by
  induction inputs generalizing outputs with
  | nil => simp [pure, Except.pure, eq_comm]
  | cons input rest ih =>
    rw [List.mapM_cons, bind_eq_ok_iff, List.forall₂_cons_left_iff]
    constructor
    · rintro ⟨output, first, remaining⟩
      obtain ⟨others, later, same⟩ := (bind_eq_ok_iff _ _ _).mp remaining
      cases same
      exact ⟨output, others, first, (ih others).mp later, rfl⟩
    · rintro ⟨output, others, first, later, rfl⟩
      exact ⟨output, first, (bind_eq_ok_iff _ _ _).mpr ⟨others, (ih others).mpr later, rfl⟩⟩

/-- Each element of a list is lined up with what its computation ends with. -/
theorem ok_of_mem_zip {f : α → Except ε β} {inputs : List α} {outputs : List β}
    (success : inputs.mapM f = .ok outputs) {input : α} {output : β}
    (aligned : (input, output) ∈ inputs.zip outputs) : f input = .ok output :=
  (List.forall₂_iff_zip.mp ((mapM_eq_ok_iff f inputs outputs).mp success)).2 aligned

theorem exists_mem_zip {f : α → Except ε β} {inputs : List α} {outputs : List β}
    (success : inputs.mapM f = .ok outputs) {input : α} (member : input ∈ inputs) :
    ∃ output, (input, output) ∈ inputs.zip outputs := by
  have related := (mapM_eq_ok_iff f inputs outputs).mp success
  rw [← List.map_fst_zip (Nat.le_of_eq related.length_eq)] at member
  obtain ⟨⟨_, output⟩, aligned, rfl⟩ := List.mem_map.mp member
  exact ⟨output, aligned⟩

/-- What the outputs hold together is what those of the single elements hold. -/
theorem mem_flatten_mapM_iff {f : α → Except ε (List β)} {inputs : List α} {outputs : List (List β)}
    (success : inputs.mapM f = .ok outputs) {element : β} :
    element ∈ outputs.flatten ↔
      ∃ input ∈ inputs, ∃ output, f input = .ok output ∧ element ∈ output := by
  have related := (mapM_eq_ok_iff f inputs outputs).mp success
  clear success
  induction related with
  | nil => exact iff_of_false List.not_mem_nil fun ⟨_, member, _⟩ => nomatch member
  | @cons input output inputs outputs here _ ih =>
    rw [List.flatten_cons, List.mem_append, List.exists_mem_cons_iff, here]
    refine or_congr ?_ ih
    constructor
    · exact fun member => ⟨output, rfl, member⟩
    · rintro ⟨_, ⟨⟩, member⟩
      exact member

/-- A computation for each element of a list succeeds when each one does. -/
theorem succeeds_mapM_iff (f : α → Except ε β) (inputs : List α) :
    Succeeds (inputs.mapM f) ↔ ∀ input ∈ inputs, Succeeds (f input) := by
  induction inputs with
  | nil => simp [pure, Except.pure]
  | cons input rest ih =>
    have tail (output : β) : Succeeds (do return output :: (← rest.mapM f)) ↔
        ∀ later ∈ rest, Succeeds (f later) := by
      rw [← ih]
      exact succeeds_map_iff (output :: ·) (rest.mapM f)
    rw [List.mapM_cons, succeeds_bind_iff _ _ _ tail, List.forall_mem_cons]

theorem exists_error_of_mapM {f : α → Except ε β} {inputs : List α} {error : ε}
    (failed : inputs.mapM f = .error error) : ∃ input ∈ inputs, f input = .error error := by
  induction inputs with
  | nil => cases failed
  | cons input rest ih =>
    rw [List.mapM_cons] at failed
    cases here : f input with
    | error fault =>
      rw [here] at failed
      cases failed
      exact ⟨input, List.mem_cons_self, here⟩
    | ok output =>
      rw [here] at failed
      cases others : rest.mapM f with
      | ok outputs =>
        rw [others] at failed
        cases failed
      | error fault =>
        rw [others] at failed ih
        cases failed
        obtain ⟨later, member, stuck⟩ := ih rfl
        exact ⟨later, List.mem_cons_of_mem input member, stuck⟩

theorem succeeds_optionMapM_iff (f : α → Except ε β) (input : Option α) :
    Succeeds (input.mapM f) ↔ ∀ value ∈ input, Succeeds (f value) := by
  cases input with
  | none => simp [pure, Except.pure]
  | some value => simp only [Option.mapM_some, succeeds_map_iff, Option.mem_def, Option.some.injEq,
      forall_eq']

/-- What is selected from the outputs can be selected from the inputs when that agrees on each. -/
theorem filterMap_of_mapM {f : α → Except ε β} {inputs : List α} {outputs : List β}
    (success : inputs.mapM f = .ok outputs) (select : β → Option γ) (choose : α → Option γ)
    (agree : ∀ input ∈ inputs, ∀ output, f input = .ok output → select output = choose input) :
    outputs.filterMap select = inputs.filterMap choose := by
  have related := (mapM_eq_ok_iff f inputs outputs).mp success
  clear success
  induction related with
  | nil => rfl
  | @cons input output inputs outputs here _ ih =>
    rw [List.filterMap_cons, List.filterMap_cons, agree input List.mem_cons_self output here,
      ih fun later member => agree later (List.mem_cons_of_mem _ member)]

theorem mapM_map_congr {f : β → Except ε γ} {g : α → Except ε γ} {change : α → β} {inputs : List α}
    (same : ∀ input ∈ inputs, f (change input) = g input) :
    (inputs.map change).mapM f = inputs.mapM g := by
  induction inputs with
  | nil => rfl
  | cons input rest ih =>
    rw [List.forall_mem_cons] at same
    rw [List.map_cons, List.mapM_cons, List.mapM_cons, same.1, ih same.2]

theorem optionMapM_map_congr {f : β → Except ε γ} {g : α → Except ε γ} {change : α → β}
    {input : Option α} (same : ∀ value ∈ input, f (change value) = g value) :
    (input.map change).mapM f = input.mapM g := by
  cases input with
  | none => rfl
  | some value => rw [Option.map_some, Option.mapM_some, Option.mapM_some, same value rfl]

/-- Lists whose elements have the same results, one by one, are gone through alike. -/
theorem mapM_of_map_eq {view : α → Except ε β} {elements others : List α}
    (same : elements.map view = others.map view) : elements.mapM view = others.mapM view := by
  have viewed (inputs : List α) : (inputs.map view).mapM id = inputs.mapM view :=
    mapM_map_congr fun _ _ => rfl
  rw [← viewed, ← viewed, same]

theorem optionMapM_of_map_eq {view : α → Except ε β} {element other : Option α}
    (same : element.map view = other.map view) : element.mapM view = other.mapM view := by
  have viewed (input : Option α) : (input.map view).mapM id = input.mapM view :=
    optionMapM_map_congr fun _ _ => rfl
  rw [← viewed, ← viewed, same]

end ModuleFence
