import Mathlib.Data.List.Sort
import ModuleFence.Proofs.Firsts
import ModuleFence.Source.Discovery

set_option autoImplicit false

namespace ModuleFence

theorem PathRoot.spelling_injective {root base : PathRoot} (same : root.spelling = base.spelling) :
    root = base := by
  cases root <;> cases base <;> first | rfl | exact absurd same (by decide)

namespace Path

/-- A path comes before another one when the first parts that differ do, or it ends earlier. -/
def Before (first second : Path) : Prop :=
  List.Lex (· < ·) first.sortKey second.sortKey

/-- Parts without slashes, as paths that are read or met in a directory have them. -/
def IsClean (path : Path) : Prop :=
  ∀ part ∈ path.parts, '/' ∉ part.toList

theorem namesLe_iff (first second : List String) :
    namesLe first second = true ↔ List.Lex (· < ·) first second ∨ first = second := by
  induction first generalizing second with
  | nil =>
    cases second with
    | nil => simp only [namesLe, or_true]
    | cons other others => simp only [namesLe, List.Lex.nil, true_or]
  | cons name rest ih =>
    cases second with
    | nil => simp only [namesLe, Bool.false_eq_true, List.not_lex_nil, reduceCtorEq, or_self]
    | cons other others =>
      rw [namesLe, List.cons_lex_cons_iff, List.cons.injEq]
      by_cases same : name = other
      · have irrefl : ¬ other < other := String.lt_irrefl other
        rw [if_pos same, ih, same]
        simp only [irrefl, true_and, false_or]
      · rw [if_neg same, decide_eq_true_iff]
        simp only [same, false_and, or_false]

theorem namesLe_total (first second : List String) :
    namesLe first second = true ∨ namesLe second first = true := by
  induction first generalizing second with
  | nil => exact Or.inl (by rw [namesLe])
  | cons name rest ih =>
    cases second with
    | nil => exact Or.inr (by rw [namesLe])
    | cons other others =>
      rw [namesLe, namesLe]
      by_cases same : name = other
      · rw [if_pos same, if_pos same.symm]
        exact ih others
      · rw [if_neg same, if_neg (Ne.symm same), decide_eq_true_iff, decide_eq_true_iff]
        by_contra! neither
        exact same (String.le_antisymm neither.2 neither.1)

theorem le_iff (first second : Path) :
    first.le second = true ↔ first.Before second ∨ first.sortKey = second.sortKey :=
  namesLe_iff first.sortKey second.sortKey

theorem Before.irrefl (path : Path) : ¬ path.Before path :=
  List.lex_irrefl String.lt_irrefl path.sortKey

theorem Before.asymm {first second : Path} (before : first.Before second) :
    ¬ second.Before first :=
  List.lex_asymm String.lt_asymm before

theorem le_trans {first second third : Path} (early : first.le second = true)
    (late : second.le third = true) : first.le third = true := by
  rw [le_iff] at early late ⊢
  rcases early with before | same
  · rcases late with after | equal
    · exact Or.inl (List.lex_trans String.lt_trans before after)
    · rw [Before, ← equal]
      exact Or.inl before
  · rw [Before, same]
    exact late

theorem le_total (first second : Path) : (first.le second || second.le first) = true := by
  rw [Bool.or_eq_true]
  exact namesLe_total first.sortKey second.sortKey

theorem IsClean.ne_spelling {path : Path} (clean : path.IsClean) {part : String}
    (member : part ∈ path.parts) {root : PathRoot} (absolute : root ≠ .relative) :
    part ≠ root.spelling := by
  intro same
  apply clean part member
  rw [same]
  cases root with
  | relative => exact absurd rfl absolute
  | slash => decide
  | doubleSlash => decide

/-- Clean paths are told apart by what orders them. -/
theorem sortKey_injective {first second : Path} (clean : first.IsClean) (other : second.IsClean)
    (same : first.sortKey = second.sortKey) : first = second := by
  obtain ⟨root, parts⟩ := first
  obtain ⟨base, others⟩ := second
  rw [sortKey, sortKey] at same
  dsimp only at same
  by_cases relative : root = .relative <;> by_cases bare : base = .relative
  · rw [if_pos relative, if_pos bare] at same
    rw [relative, bare, same]
  · rw [if_pos relative, if_neg bare] at same
    exact absurd rfl (clean.ne_spelling (by rw [same]; exact List.mem_cons_self) bare)
  · rw [if_neg relative, if_pos bare] at same
    exact absurd rfl (other.ne_spelling (by rw [← same]; exact List.mem_cons_self) relative)
  · rw [if_neg relative, if_neg bare] at same
    obtain ⟨roots, rfl⟩ := List.cons.inj same
    rw [PathRoot.spelling_injective roots]

/-- Of two clean paths that are not the same, one comes before the other. -/
theorem before_of_le {first second : Path} (clean : first.IsClean) (other : second.IsClean)
    (early : first.le second = true) (different : first ≠ second) : first.Before second := by
  rcases (le_iff first second).mp early with before | same
  · exact before
  · exact absurd (sortKey_injective clean other same) different

theorem slash_not_mem_segments (characters : List Char) :
    ∀ segment ∈ segments characters, '/' ∉ segment := by
  induction characters with
  | nil =>
    intro segment member
    rw [List.mem_singleton.mp member]
    exact List.not_mem_nil
  | cons character rest ih =>
    by_cases slash : character = '/'
    · rw [slash, segments, List.forall_mem_cons]
      exact ⟨List.not_mem_nil, ih⟩
    · rw [segments]
      · split
        · exact fun segment member => by
            rw [List.mem_singleton.mp member, List.mem_singleton]
            exact Ne.symm slash
        · rename_i segment others split
          rw [split, List.forall_mem_cons] at ih
          rw [List.forall_mem_cons]
          exact ⟨List.not_mem_cons_of_ne_of_not_mem (Ne.symm slash) ih.1, ih.2⟩
      · exact slash

theorem isClean_ofString (spelling : String) : (ofString spelling).IsClean := by
  intro part member
  rw [ofString] at member
  obtain ⟨segment, inside, rfl⟩ := List.mem_map.mp member
  rw [String.toList_ofList]
  exact slash_not_mem_segments _ segment (List.mem_filter.mp inside).1

theorem segments_of_no_slash {characters : List Char} (plain : '/' ∉ characters) :
    segments characters = [characters] := by
  induction characters with
  | nil => rfl
  | cons character rest ih =>
    rw [List.mem_cons, not_or] at plain
    rw [segments, ih plain.2]
    exact Ne.symm plain.1

/-- A name without slashes is a path of one part. -/
theorem ofString_of_no_slash {name : String} (plain : '/' ∉ name.toList)
    (part : isPart name.toList = true) : ofString name = ⟨.relative, [name]⟩ := by
  have relative : rootOf name.toList = .relative := by
    cases spelled : name.toList with
    | nil => rfl
    | cons first rest =>
      rw [spelled, List.mem_cons, not_or] at plain
      rw [rootOf]
      · exact fun _ same => plain.1 (List.cons.inj same).1.symm
      · exact fun _ same => plain.1 (List.cons.inj same).1.symm
      · exact fun _ same => plain.1 (List.cons.inj same).1.symm
  rw [ofString, relative, segments_of_no_slash plain, List.filter_cons_of_pos part, List.filter_nil,
    List.map_singleton, String.ofList_toList]

end Path

/-- The paths of a list, each once and in order. -/
def listing (paths : List Path) : List Path :=
  paths.eraseDups.mergeSort Path.le

theorem mem_listing {paths : List Path} {path : Path} : path ∈ listing paths ↔ path ∈ paths := by
  rw [listing, List.mem_mergeSort, List.mem_eraseDups]

/-- Listings of clean paths are strictly increasing. -/
theorem pairwise_listing {paths : List Path} (clean : ∀ path ∈ paths, path.IsClean) :
    (listing paths).Pairwise Path.Before := by
  have sorted : (listing paths).Pairwise fun first second => first.le second = true := by
    apply List.pairwise_mergeSort
    · intro _ _ _ early late
      exact Path.le_trans early late
    · exact Path.le_total
  have once : (listing paths).Nodup := (List.mergeSort_perm _ _).nodup_iff.mpr (nodup_eraseDups paths)
  refine (sorted.and once).imp_of_mem fun {first second} here there both => ?_
  exact Path.before_of_le (clean first (mem_listing.mp here)) (clean second (mem_listing.mp there))
    both.1 both.2

/-- Two strictly increasing lists with the same members are the same. -/
theorem eq_of_pairwise_before {paths others : List Path} (increasing : paths.Pairwise Path.Before)
    (rising : others.Pairwise Path.Before) (same : ∀ path, path ∈ paths ↔ path ∈ others) :
    paths = others := by
  have irrefl : Std.Irrefl Path.Before := ⟨Path.Before.irrefl⟩
  have antisymm : Std.Antisymm Path.Before := ⟨fun _ _ one two => absurd two one.asymm⟩
  exact increasing.eq_of_mem_iff rising same

end ModuleFence
