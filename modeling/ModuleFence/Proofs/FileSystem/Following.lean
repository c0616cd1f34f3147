import Mathlib.Data.List.Induction
import Mathlib.Data.List.Nodup
import ModuleFence.Source.Discovery

/-!
Where paths lead. What is behind a directory is followed from that directory, and steps that pass no
link below it lead to the location that they spell, unless they are too long.
-/

set_option autoImplicit false

namespace ModuleFence

def Entry.isLink : Entry → Bool
  | .link _ => true
  | _ => false

namespace FileSystem

/-- A name that an entry of a directory can have. -/
def IsName (name : String) : Prop :=
  name ≠ "" ∧ name ≠ "." ∧ name ≠ ".." ∧ '/' ∉ name.toList ∧ '\x00' ∉ name.toList

instance (name : String) : Decidable (IsName name) :=
  inferInstanceAs (Decidable (_ ∧ _))

/-- A file system as it can be: each location holds one entry, consists of names that entries can
have, and lies in a directory. -/
structure Sound (files : FileSystem) : Prop where
  distinct : (files.entries.map (·.1)).Nodup
  named : ∀ pair ∈ files.entries, pair.1 ≠ [] ∧ ∀ name ∈ pair.1, IsName name
  housed : ∀ pair ∈ files.entries, files.entryAt? pair.1.dropLast = some .directory

theorem entryAt?_of_ne_nil (files : FileSystem) {location : Location} (below : location ≠ []) :
    files.entryAt? location = files.entries.lookup location := by
  obtain ⟨name, rest, rfl⟩ := List.exists_cons_of_ne_nil below
  rfl

theorem mem_of_entryAt? {files : FileSystem} {location : Location} {entry : Entry}
    (found : files.entryAt? location = some entry) (below : location ≠ []) :
    (location, entry) ∈ files.entries := by
  rw [entryAt?_of_ne_nil files below, List.lookup_eq_some_iff] at found
  obtain ⟨front, back, split, -⟩ := found
  rw [split]
  exact List.mem_append_right front List.mem_cons_self

/-- A location holds what is listed for it, and nothing else. -/
theorem entryAt?_of_distinct {files : FileSystem} (distinct : (files.entries.map (·.1)).Nodup)
    {location : Location} {entry : Entry} (member : (location, entry) ∈ files.entries)
    (below : location ≠ []) : files.entryAt? location = some entry := by
  obtain ⟨front, back, split⟩ := List.append_of_mem member
  rw [entryAt?_of_ne_nil files below, List.lookup_eq_some_iff]
  refine ⟨front, back, split, fun pair early => ?_⟩
  rw [split, List.map_append, List.map_cons, List.nodup_middle, List.nodup_cons] at distinct
  rw [bne_iff_ne]
  intro same
  apply distinct.1
  dsimp only
  rw [same]
  exact List.mem_append_left _ (List.mem_map_of_mem early)

/-- The name under which a directory lists an entry. -/
def nameIn (house : Location) (pair : Location × Entry) : Option String :=
  if pair.1.dropLast = house then pair.1.getLast? else none

theorem list_eq (files : FileSystem) (house : Location) :
    files.list house = files.entries.filterMap (nameIn house) :=
  rfl

theorem nameIn_concat (house : Location) (name : String) (entry : Entry) :
    nameIn house (house ++ [name], entry) = some name := by
  rw [nameIn, if_pos List.dropLast_concat, List.getLast?_concat]

theorem nameIn_eq_some_iff {house : Location} {pair : Location × Entry} {name : String} :
    nameIn house pair = some name ↔ pair.1 = house ++ [name] := by
  constructor
  · intro named
    rw [nameIn] at named
    split at named
    · rename_i same
      obtain ⟨front, spelled⟩ := List.getLast?_eq_some_iff.mp named
      rw [spelled, List.dropLast_concat] at same
      rw [spelled, same]
    · cases named
  · obtain ⟨location, entry⟩ := pair
    rintro rfl
    exact nameIn_concat house name entry

namespace Sound

variable {files : FileSystem} (sound : files.Sound)

include sound

theorem ne_nil_of_mem {location : Location} {entry : Entry}
    (member : (location, entry) ∈ files.entries) : location ≠ [] :=
  (sound.named _ member).1

theorem entryAt?_of_mem {location : Location} {entry : Entry}
    (member : (location, entry) ∈ files.entries) : files.entryAt? location = some entry :=
  entryAt?_of_distinct sound.distinct member (sound.ne_nil_of_mem member)

/-- What lies below a location makes it a directory. -/
theorem directory_of_below {location : Location} {steps : List String} {entry : Entry}
    (found : files.entryAt? (location ++ steps) = some entry) (below : steps ≠ []) :
    files.entryAt? location = some .directory := by
  induction steps using List.reverseRecOn generalizing entry with
  | nil => exact absurd rfl below
  | append_singleton front name ih =>
    have inside : location ++ (front ++ [name]) ≠ [] := by simp
    have house := sound.housed _ (mem_of_entryAt? found inside)
    rw [← List.append_assoc, List.dropLast_concat] at house
    cases front with
    | nil => rwa [List.append_nil] at house
    | cons first others => exact ih house (List.cons_ne_nil _ _)

theorem isName_of_below {location : Location} {steps : List String} {entry : Entry}
    (found : files.entryAt? (location ++ steps) = some entry) {name : String}
    (member : name ∈ steps) : IsName name := by
  have inside : location ++ steps ≠ [] := by
    intro empty
    rw [(List.append_eq_nil_iff.mp empty).2] at member
    cases member
  exact (sound.named _ (mem_of_entryAt? found inside)).2 name (List.mem_append_right _ member)

/-- The names that a directory lists are those of the entries in it. -/
theorem mem_list_iff {location : Location} {name : String} :
    name ∈ files.list location ↔ ∃ entry, files.entryAt? (location ++ [name]) = some entry := by
  rw [list_eq, List.mem_filterMap]
  constructor
  · rintro ⟨⟨place, entry⟩, member, named⟩
    have spelled : place = location ++ [name] := nameIn_eq_some_iff.mp named
    rw [← spelled]
    exact ⟨entry, sound.entryAt?_of_mem member⟩
  · rintro ⟨entry, found⟩
    have inside : location ++ [name] ≠ [] := by simp
    exact ⟨(location ++ [name], entry), mem_of_entryAt? found inside, nameIn_concat location name entry⟩

end Sound

section Following

variable {files : FileSystem}

theorem followSteps_cons (onLink : Location → List String → Except PathFault (Location × Entry))
    (location : Location) (name : String) (rest : List String) :
    files.followSteps onLink location (name :: rest) =
      if name = ".." then files.followSteps onLink location.dropLast rest
      else if maxNameBytes < name.utf8ByteSize then .error .nameTooLong
      else
        match files.entryAt? (location ++ [name]) with
        | none => .error .notFound
        | some (.link target) => followLink onLink location target rest
        | some .directory => files.followSteps onLink (location ++ [name]) rest
        | some (.file bytes) =>
          if rest = [] then .ok (location ++ [name], .file bytes) else .error .notADirectory :=
  rfl

theorem eq_ok_of_onlyDirectory {reply : Except PathFault (Location × Entry)}
    {found : Location × Entry} (success : onlyDirectory reply = .ok found) : reply = .ok found := by
  rcases reply with fault | ⟨location, entry⟩
  · cases success
  · cases entry with
    | directory => exact success
    | file bytes => cases success
    | link target => cases success

section Links

variable {onLink : Location → List String → Except PathFault (Location × Entry)}
  {location place : Location} {target : String} {rest : List String} {found : Location × Entry}

theorem onLink_of_followLink (success : followLink onLink location target rest = .ok found) :
    onLink (linkBase location target) ((Path.ofString target).parts ++ rest) = .ok found := by
  unfold followLink at success
  split at success
  · rw [List.append_nil]
    exact eq_ok_of_onlyDirectory success
  · exact success

theorem followLink_of_ne_nil (more : rest ≠ []) :
    followLink onLink location target rest =
      onLink (linkBase location target) ((Path.ofString target).parts ++ rest) := by
  unfold followLink
  split
  · exact absurd rfl more
  · rfl

end Links

/-- Steps that end in a directory can be gone on from, when links can. -/
theorem followSteps_append {onLink : Location → List String → Except PathFault (Location × Entry)}
    {steps : List String} {location : Location}
    (linked : ∀ base rest, onLink base rest = .ok (location, .directory) →
      ∃ links, onLink base (rest ++ steps) = files.follow links location steps)
    {start : Location} {parts : List String}
    (found : files.followSteps onLink start parts = .ok (location, .directory)) :
    files.followSteps onLink start (parts ++ steps) = files.followSteps onLink location steps ∨
      ∃ links, files.followSteps onLink start (parts ++ steps) = files.follow links location steps := by
  induction parts generalizing start with
  | nil =>
    rw [followSteps] at found
    split at found
    · cases found
      exact Or.inl rfl
    · cases found
  | cons name rest ih =>
    rw [followSteps_cons] at found
    rw [List.cons_append, followSteps_cons]
    by_cases up : name = ".."
    · rw [if_pos up] at found ⊢
      exact ih found
    · rw [if_neg up] at found ⊢
      by_cases long : maxNameBytes < name.utf8ByteSize
      · rw [if_pos long] at found
        cases found
      · rw [if_neg long] at found ⊢
        cases here : files.entryAt? (start ++ [name]) with
        | none =>
          rw [here] at found
          cases found
        | some entry =>
          rw [here] at found
          cases entry with
          | file bytes =>
            dsimp only at found
            split at found <;> cases found
          | directory => exact ih found
          | link target =>
            have reached := onLink_of_followLink found
            cases steps with
            | nil =>
              rw [List.append_nil]
              obtain ⟨links, onward⟩ := linked _ _ reached
              rw [List.append_nil, reached] at onward
              exact Or.inr ⟨links, found.trans onward⟩
            | cons step others =>
              have more : rest ++ step :: others ≠ [] := by simp
              dsimp only
              rw [followLink_of_ne_nil more, ← List.append_assoc]
              exact Or.inr (linked _ _ reached)

/-- Going on behind a directory is going on from it, with the links that are left. -/
theorem exists_follow_append {links : Nat} {start location : Location} {parts : List String}
    (found : files.follow links start parts = .ok (location, .directory)) (steps : List String) :
    ∃ left, files.follow links start (parts ++ steps) = files.follow left location steps := by
  induction links generalizing start parts with
  | zero =>
    have unlinked : ∀ (base : Location) (rest : List String),
        (Except.error .tooManyLinks : Except PathFault (Location × Entry)) =
          .ok (location, .directory) →
        ∃ links, (Except.error .tooManyLinks : Except PathFault (Location × Entry)) =
          files.follow links location steps := by
      intro _ _ impossible
      cases impossible
    rcases followSteps_append unlinked found with here | there
    · exact ⟨0, here⟩
    · exact there
  | succ links ih =>
    rcases followSteps_append (fun _ _ later => ih later) found with here | there
    · exact ⟨links + 1, here⟩
    · exact there

/-- Steps that pass no link lead to the location that they spell, unless one is too long. -/
theorem follow_of_entry (sound : files.Sound) {location : Location} {steps : List String}
    {entry : Entry} (found : files.entryAt? (location ++ steps) = some entry)
    (plain : entry.isLink = false) (links : Nat) :
    files.follow links location steps =
      if ∀ name ∈ steps, name.utf8ByteSize ≤ maxNameBytes then .ok (location ++ steps, entry)
      else .error .nameTooLong := by
  have unfolded : ∃ onLink, files.follow links = files.followSteps onLink := by
    cases links with
    | zero => exact ⟨_, rfl⟩
    | succ links => exact ⟨_, rfl⟩
  obtain ⟨onLink, unfolded⟩ := unfolded
  rw [unfolded]
  clear unfolded
  induction steps generalizing location with
  | nil =>
    rw [List.append_nil] at found ⊢
    rw [followSteps, found, if_pos (fun _ member => nomatch member)]
  | cons name rest ih =>
    have named := sound.isName_of_below found List.mem_cons_self
    have onward : files.entryAt? ((location ++ [name]) ++ rest) = some entry := by
      rwa [List.append_assoc, List.singleton_append]
    rw [followSteps_cons, if_neg named.2.2.1]
    by_cases long : maxNameBytes < name.utf8ByteSize
    · rw [if_pos long, if_neg]
      intro short
      exact absurd (short name List.mem_cons_self) (Nat.not_le.mpr long)
    · have later := ih onward
      have tails : (∀ other ∈ name :: rest, other.utf8ByteSize ≤ maxNameBytes) ↔
          ∀ other ∈ rest, other.utf8ByteSize ≤ maxNameBytes := by
        rw [List.forall_mem_cons]
        exact and_iff_right (Nat.not_lt.mp long)
      have spelled : location ++ name :: rest = (location ++ [name]) ++ rest := List.append_cons _ _ _
      rw [if_neg long, spelled]
      simp only [tails]
      cases rest with
      | nil =>
        rw [List.append_nil] at onward
        rw [onward]
        cases entry with
        | file bytes =>
          have short : ∀ other ∈ ([] : List String), other.utf8ByteSize ≤ maxNameBytes :=
            fun _ member => nomatch member
          rw [if_pos short, List.append_nil]
          rfl
        | directory => exact later
        | link target => cases plain
      | cons second others =>
        rw [sound.directory_of_below onward (List.cons_ne_nil _ _)]
        exact later

/-- Steps that lead somewhere are names that are not too long. -/
theorem short_of_followSteps
    {onLink : Location → List String → Except PathFault (Location × Entry)} {found : Location × Entry}
    (linked : ∀ base rest, onLink base rest = .ok found →
      ∀ name ∈ rest, name.utf8ByteSize ≤ maxNameBytes)
    {start : Location} {steps : List String}
    (success : files.followSteps onLink start steps = .ok found) :
    ∀ name ∈ steps, name.utf8ByteSize ≤ maxNameBytes := by
  induction steps generalizing start with
  | nil => exact fun _ member => nomatch member
  | cons name rest ih =>
    rw [followSteps_cons] at success
    rw [List.forall_mem_cons]
    by_cases up : name = ".."
    · rw [if_pos up] at success
      exact ⟨by rw [up]; decide, ih success⟩
    · rw [if_neg up] at success
      by_cases long : maxNameBytes < name.utf8ByteSize
      · rw [if_pos long] at success
        cases success
      · rw [if_neg long] at success
        refine ⟨Nat.not_lt.mp long, ?_⟩
        split at success
        · cases success
        · have both := linked _ _ (onLink_of_followLink success)
          exact fun other member => both other (List.mem_append_right _ member)
        · exact ih success
        · split at success
          · rename_i last
            rw [last]
            exact fun _ member => nomatch member
          · cases success

theorem short_of_follow {links : Nat} {start : Location} {steps : List String}
    {found : Location × Entry} (success : files.follow links start steps = .ok found) :
    ∀ name ∈ steps, name.utf8ByteSize ≤ maxNameBytes := by
  induction links generalizing start steps with
  | zero =>
    have unlinked : ∀ (base : Location) (rest : List String),
        (Except.error .tooManyLinks : Except PathFault (Location × Entry)) = .ok found →
        ∀ name ∈ rest, name.utf8ByteSize ≤ maxNameBytes := by
      intro _ _ impossible
      cases impossible
    exact short_of_followSteps unlinked success
  | succ links ih => exact short_of_followSteps (fun _ _ later => ih later) success

/-- What following ends at is what stands there. -/
theorem entryAt?_of_followSteps
    {onLink : Location → List String → Except PathFault (Location × Entry)} {location : Location}
    {entry : Entry} (linked : ∀ base rest, onLink base rest = .ok (location, entry) →
      files.entryAt? location = some entry)
    {start : Location} {steps : List String}
    (success : files.followSteps onLink start steps = .ok (location, entry)) :
    files.entryAt? location = some entry := by
  induction steps generalizing start with
  | nil =>
    rw [followSteps] at success
    split at success
    · rename_i here
      cases success
      exact here
    · cases success
  | cons name rest ih =>
    rw [followSteps_cons] at success
    split at success
    · exact ih success
    · split at success
      · cases success
      · split at success
        · cases success
        · exact linked _ _ (onLink_of_followLink success)
        · exact ih success
        · rename_i here
          split at success
          · cases success
            exact here
          · cases success

theorem entryAt?_of_follow {links : Nat} {start location : Location} {steps : List String}
    {entry : Entry} (success : files.follow links start steps = .ok (location, entry)) :
    files.entryAt? location = some entry := by
  induction links generalizing start steps with
  | zero =>
    have unlinked : ∀ (base : Location) (rest : List String),
        (Except.error .tooManyLinks : Except PathFault (Location × Entry)) = .ok (location, entry) →
        files.entryAt? location = some entry := by
      intro _ _ impossible
      cases impossible
    exact entryAt?_of_followSteps unlinked success
  | succ links ih => exact entryAt?_of_followSteps (fun _ _ later => ih later) success

end Following

end FileSystem

/-- The path at the end of some steps from another one. -/
def Path.descend (root : Path) (steps : List String) : Path :=
  { root with parts := root.parts ++ steps }

/-- A path that is not too long, and has no part that is. -/
def Path.IsShort (path : Path) : Prop :=
  path.toString.utf8ByteSize ≤ FileSystem.maxPathBytes ∧
    ∀ part ∈ path.parts, part.utf8ByteSize ≤ FileSystem.maxNameBytes

instance (path : Path) : Decidable path.IsShort :=
  inferInstanceAs (Decidable (_ ∧ _))

namespace Discovery

open FileSystem

variable {files : FileSystem}

theorem lookUp_eq_some_iff {path : Path} {found : Location × Entry} :
    lookUp files path = .ok (some found) ↔
      hasNull path = false ∧ files.locate path = .ok found := by
  rw [lookUp, find?]
  cases hasNull path with
  | true => simp [Except.mapError]
  | false =>
    simp only [Bool.false_eq_true, if_false, true_and]
    cases files.locate path with
    | ok place => simp [Except.mapError]
    | error fault => cases fault <;> simp [Except.mapError]

/-- The only fault that a path may have when it is looked up is its length. -/
theorem eq_of_lookUp_eq_error {path : Path} {failure : Failure}
    (failed : lookUp files path = .error failure) :
    failure = .read (.path .nameTooLong path) := by
  rw [lookUp, find?] at failed
  split at failed
  · cases failed
  · split at failed
    · cases failed
    · cases failed
      rfl
    · cases failed

/-- What a path leads to is what stands at the end of it. -/
theorem entryAt?_of_lookUp {path : Path} {location : Location} {entry : Entry}
    (found : lookUp files path = .ok (some (location, entry))) :
    files.entryAt? location = some entry := by
  have located := (lookUp_eq_some_iff.mp found).2
  rw [locate] at located
  split at located
  · cases located
  · exact entryAt?_of_follow located

/-- A first part that is too long is a fault, whatever the file system. -/
theorem lookUp_of_long {path : Path} {name : String} {rest : List String}
    (allowed : hasNull path = false) (parts : path.parts = name :: rest) (proper : name ≠ "..")
    (long : maxNameBytes < name.utf8ByteSize) :
    lookUp files path = .error (.read (.path .nameTooLong path)) := by
  have located : files.locate path = .error .nameTooLong := by
    rw [locate, parts, maxLinks, follow, followSteps_cons, if_neg proper, if_pos long]
    exact ite_self _
  rw [lookUp, find?, allowed, if_neg Bool.false_ne_true, located]
  rfl

theorem hasNull_descend {root : Path} {steps : List String} (allowed : hasNull root = false)
    (named : ∀ name ∈ steps, IsName name) : hasNull (root.descend steps) = false := by
  rw [hasNull, Path.descend, List.any_append, Bool.or_eq_false_iff]
  refine ⟨allowed, List.any_eq_false.mpr fun name member => ?_⟩
  rw [String.contains_char_eq, decide_eq_true_iff]
  exact (named name member).2.2.2.2

/-- A path behind a directory leads to the entry that its steps spell, when it passes no link below
the directory and is not too long. -/
theorem lookUp_descend (sound : files.Sound) {root : Path} {location : Location}
    (rooted : lookUp files root = .ok (some (location, .directory))) {steps : List String}
    {entry : Entry} (found : files.entryAt? (location ++ steps) = some entry)
    (plain : entry.isLink = false) :
    lookUp files (root.descend steps) =
      if (root.descend steps).IsShort then .ok (some (location ++ steps, entry))
      else .error (.read (.path .nameTooLong (root.descend steps))) := by
  rw [lookUp_eq_some_iff] at rooted
  obtain ⟨allowed, located⟩ := rooted
  have named : ∀ name ∈ steps, IsName name := fun _ member => sound.isName_of_below found member
  rw [lookUp, find?, hasNull_descend allowed named, if_neg Bool.false_ne_true]
  rw [locate] at located ⊢
  by_cases long : maxPathBytes < (root.descend steps).toString.utf8ByteSize
  · rw [if_pos long, if_neg fun short => absurd short.1 (Nat.not_le.mpr long)]
    rfl
  · rw [if_neg long]
    split at located
    · cases located
    · have start : (root.descend steps).root = root.root := rfl
      have parts : (root.descend steps).parts = root.parts ++ steps := rfl
      have early := short_of_follow located
      obtain ⟨left, onward⟩ := exists_follow_append located steps
      have short_iff : (root.descend steps).IsShort ↔
          ∀ name ∈ steps, name.utf8ByteSize ≤ maxNameBytes := by
        rw [Path.IsShort, parts, List.forall_mem_append]
        exact ⟨fun short => short.2.2, fun short => ⟨Nat.not_lt.mp long, early, short⟩⟩
      rw [start, parts, onward, follow_of_entry sound found plain left]
      by_cases short : ∀ name ∈ steps, name.utf8ByteSize ≤ maxNameBytes
      · rw [if_pos short, if_pos (short_iff.mpr short)]
        rfl
      · rw [if_neg short, if_neg fun whole => short (short_iff.mp whole)]
        rfl

end Discovery

end ModuleFence
