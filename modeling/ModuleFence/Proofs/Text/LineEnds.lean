import ModuleFence.Proofs.Text.Place
import ModuleFence.Text.Lines

set_option autoImplicit false

namespace ModuleFence.Lines

/-- The number of returns that a newline follows. -/
def pairs : List Char → Nat
  | [] => 0
  | '\r' :: '\n' :: rest => pairs rest + 1
  | _ :: rest => pairs rest

/-- The characters behind the last end of a line, be that a return or a newline. -/
def lastLine (characters : List Char) : List Char :=
  characters.rtakeWhile fun character => character ≠ '\r' ∧ character ≠ '\n'

/-- Two parts of a text do not have a return and the newline that follows it between them. -/
def Apart (front rest : List Char) : Prop :=
  front.getLast? = some '\r' → rest.head? ≠ some '\n'

instance (front rest : List Char) : Decidable (Apart front rest) :=
  inferInstanceAs (Decidable (_ → _))

theorem Apart.tail {first : Char} {front rest : List Char} (apart : Apart (first :: front) rest) :
    Apart front rest := by
  intro ends
  apply apart
  rw [List.getLast?_cons, ends]
  rfl

theorem apart_return (front rest : List Char) : Apart front ('\r' :: rest) := by
  intro _
  simp

theorem normalize_append {front rest : List Char} (apart : Apart front rest) :
    normalize (front ++ rest) = normalize front ++ normalize rest := by
  fun_induction normalize front with
  | case1 => rfl
  | case2 front ih =>
    rw [List.cons_append, List.cons_append, normalize, ih apart.tail.tail]
    rfl
  | case3 front alone ih =>
    have still_alone (others : List Char) : front ++ rest ≠ '\n' :: others := by
      intro paired
      cases front with
      | nil =>
        rw [List.nil_append] at paired
        exact apart rfl (by rw [paired]; rfl)
      | cons second front =>
        cases (List.cons_eq_cons.mp paired).1
        exact alone front rfl
    rw [List.cons_append, normalize.eq_3 _ still_alone, ih apart.tail]
    rfl
  | case4 first front _ plain ih =>
    rw [List.cons_append, normalize.eq_4 _ _ (fun _ returns => absurd returns plain) plain,
      ih apart.tail]
    rfl

theorem sum_width_normalize (characters : List Char) :
    (characters.map Utf8.width).sum =
      ((normalize characters).map Utf8.width).sum + pairs characters := by
  have narrow : Utf8.width '\r' = 1 ∧ Utf8.width '\n' = 1 := ⟨rfl, rfl⟩
  fun_induction normalize characters with
  | case1 => rfl
  | case2 rest ih =>
    simp only [List.map_cons, List.sum_cons, ih, pairs, narrow]
    omega
  | case3 rest alone ih =>
    rw [pairs.eq_3 _ _ fun others _ => alone others]
    simp only [List.map_cons, List.sum_cons, ih, narrow]
    omega
  | case4 first rest paired _ ih =>
    rw [pairs.eq_3 _ _ paired]
    simp only [List.map_cons, List.sum_cons, ih]
    omega

theorem count_normalize (characters : List Char) :
    (normalize characters).count '\n' + pairs characters =
      characters.count '\r' + characters.count '\n' := by
  have returns (rest : List Char) : ('\r' :: rest).count '\n' = rest.count '\n' :=
    List.count_cons_of_ne (by decide)
  have newlines (rest : List Char) : ('\n' :: rest).count '\r' = rest.count '\r' :=
    List.count_cons_of_ne (by decide)
  fun_induction normalize characters with
  | case1 => rfl
  | case2 rest ih =>
    simp only [List.count_cons_self, returns, newlines, pairs]
    omega
  | case3 rest alone ih =>
    rw [pairs.eq_3 _ _ fun others _ => alone others]
    simp only [List.count_cons_self, returns]
    omega
  | case4 first rest paired plain ih =>
    rw [pairs.eq_3 _ _ paired, List.count_cons_of_ne plain, List.count_cons, List.count_cons]
    omega

theorem normalize_concat {front : List Char} {last : Char} (apart : Apart front [last]) :
    normalize (front ++ [last]) = normalize front ++ [if last = '\r' then '\n' else last] := by
  rw [normalize_append apart]
  by_cases returns : last = '\r'
  · rw [returns]
    rfl
  · rw [if_neg returns, normalize.eq_4 _ _ (fun _ same => absurd same returns) returns]
    rfl

/-- The last line of a text is the same, whatever ends the lines before it. -/
theorem lastLine_normalize (characters : List Char) :
    (normalize characters).rtakeWhile (fun character => character ≠ '\n') = lastLine characters := by
  induction characters using List.reverseRecOn with
  | nil => rfl
  | append_singleton front last ih =>
    rw [lastLine] at ih ⊢
    by_cases apart : Apart front [last]
    · rw [normalize_concat apart, List.rtakeWhile_concat, List.rtakeWhile_concat, ih]
      by_cases returns : last = '\r' <;> simp [returns]
    · -- The newline belongs to the return before it, with which it has become one character.
      obtain ⟨returns, newline⟩ := Classical.not_imp.mp apart
      obtain ⟨before, rfl⟩ := List.getLast?_eq_some_iff.mp returns
      obtain rfl : last = '\n' := Option.some.inj (Classical.not_not.mp newline)
      rw [List.append_assoc, List.singleton_append, normalize_append (apart_return before _)]
      simp [normalize]

/-- The place behind a part of a text, once its line ends have become newlines: as many line ends lie
before it, its line is as wide, and it has lost a byte for each return that a newline follows. -/
theorem behind_normalize (front : List Char) :
    let place := Point.behind (normalize front)
    place.row + pairs front = front.count '\r' + front.count '\n' ∧
      ((lastLine front).map Utf8.width).sum = place.column ∧
      (front.map Utf8.width).sum = place.byte + pairs front := by
  intro place
  refine ⟨?_, ?_, ?_⟩
  · rw [← count_normalize, Point.row_behind]
  · rw [← lastLine_normalize, Point.column_behind]
  · rw [sum_width_normalize, Point.byte_behind]

end ModuleFence.Lines
