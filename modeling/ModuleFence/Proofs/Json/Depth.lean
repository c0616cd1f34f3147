import ModuleFence.Proofs.Json.Front

set_option autoImplicit false

namespace ModuleFence.Json

/-- The fault of a list for which no calls are left. -/
def deepList : ReadFault :=
  .exhausted " while decoding a JSON array from a unicode string"

/-- One bracket more than can be entered ends the reading of a value. -/
theorem readValue_of_deep {limits : Limits} {room : Nat} (bounded : limits.nesting = some room)
    {fuel : Nat} (enough : 2 * room < fuel) (rest : Text) :
    readValue limits fuel (List.replicate (room + 1) (CodePoint.ofChar '[') ++ rest) =
      .error deepList := by
  have noQuote : CodePoint.ofChar '[' ≠ CodePoint.ofChar '"' := by decide
  induction room generalizing limits fuel with
  | zero =>
    obtain ⟨fuel, rfl⟩ : ∃ less, fuel = less + 1 := ⟨fuel - 1, by omega⟩
    have stuck : limits.enter "array" = .error deepList := by
      rw [Limits.enter, bounded]
      rfl
    rw [List.replicate_one, List.singleton_append, readValue, readWord?_bracket]
    simp only [if_neg noQuote, if_true, stuck]
    rfl
  | succ room ih =>
    obtain ⟨fuel, rfl⟩ : ∃ less, fuel = less + 2 := ⟨fuel - 2, by omega⟩
    have enters : limits.enter "array" = .ok { limits with nesting := some room } := by
      rw [Limits.enter, bounded]
    have behind : List.replicate (room + 1) (CodePoint.ofChar '[') ++ rest =
        CodePoint.ofChar '[' :: (List.replicate room (CodePoint.ofChar '[') ++ rest) := by
      rw [List.replicate_succ, List.cons_append]
    have front : skipSpaces (List.replicate (room + 1) (CodePoint.ofChar '[') ++ rest) =
        List.replicate (room + 1) (CodePoint.ofChar '[') ++ rest := by
      rw [behind, skipSpaces_cons (by decide)]
    have open_ : expect? "]" (List.replicate (room + 1) (CodePoint.ofChar '[') ++ rest) = none := by
      rw [behind]
      exact expect?_cons_of_ne (rfl : "]".toList = [']']) (by decide) _
    have inside : readValue { limits with nesting := some room } fuel
        (List.replicate (room + 1) (CodePoint.ofChar '[') ++ rest) = .error deepList :=
      ih rfl (by omega)
    rw [List.replicate_succ, List.cons_append, readValue, readWord?_bracket]
    simp only [if_neg noQuote, if_true, enters, ok_bind, front, open_, readItems, inside]
    rfl

theorem readWithin_of_deep (room : Nat) (rest : Text) :
    readWithin (.standard room) (List.replicate (room + 1) (CodePoint.ofChar '[') ++ rest) =
      .error deepList := by
  have front : skipSpaces (List.replicate (room + 1) (CodePoint.ofChar '[') ++ rest) =
      List.replicate (room + 1) (CodePoint.ofChar '[') ++ rest := by
    rw [List.replicate_succ, List.cons_append, skipSpaces_cons (by decide)]
  rw [readWithin, front, readValue_of_deep rfl]
  · rfl
  · rw [List.length_append, List.length_replicate]
    omega

end ModuleFence.Json
