import ModuleFence.Proofs.FileSystem.Reading
import ModuleFence.Proofs.Store.OneShot

/-!
Stores that cannot be used. A resolver that fails closed ends with an error of the store, except for
a path that cannot be handed to the file system at all.
-/

set_option autoImplicit false

namespace ModuleFence

namespace Resolver

/-- A store file that cannot be read or parsed, and what is said of it. -/
def Unusable (parser : SourceParser) (files : FileSystem) (store : Path) (reason : Text) : Prop :=
  (∃ error, files.readText store = .error error ∧ error.message = reason) ∨
    ∃ source error, files.readText store = .ok source ∧
      (parser source).checked (some store.toText) = .error error ∧ error.message = reason

/-- The failure of a resolver that fails closed on a store that cannot be used. -/
def closedFailure (store : Path) (reason : Text) : Failure :=
  if FileSystem.hasNull store then .read .embeddedNull else .store ⟨store.toText, reason⟩

theorem closedFailure_eq_store_iff (store : Path) (reason : Text) :
    (∃ error, closedFailure store reason = .store error) ↔ FileSystem.hasNull store = false := by
  rw [closedFailure]
  cases FileSystem.hasNull store with
  | true =>
    refine iff_of_false ?_ (by decide)
    rintro ⟨error, impossible⟩
    cases impossible
  | false => exact iff_of_true ⟨⟨store.toText, reason⟩, rfl⟩ rfl

theorem attempt_of_unusable {parser : SourceParser} {files : FileSystem} {store : Path}
    {reason : Text} (bad : Unusable parser files store reason) :
    (attempt parser files .closed store).result = .error (closedFailure store reason) := by
  rw [attempt, closedFailure]
  rcases bad with ⟨error, unread, rfl⟩ | ⟨source, error, read, refused, rfl⟩
  · simp only [unread]
    by_cases null : FileSystem.hasNull store = true
    · rw [(files.readText_eq_embeddedNull_iff store).mpr null] at unread
      cases unread
      rw [if_neg (by decide), if_pos null]
      rfl
    · have expected : error.isExpected = true := by
        rw [ReadError.isExpected_iff]
        rintro rfl
        exact null ((files.readText_eq_embeddedNull_iff store).mp unread)
      rw [if_pos expected, if_neg null]
      rfl
  · have null : ¬ FileSystem.hasNull store = true := by
      intro null
      rw [(files.readText_eq_embeddedNull_iff store).mpr null] at read
      cases read
    simp only [read, refused]
    rw [if_neg null]
    rfl

end Resolver

end ModuleFence
