import ModuleFence.Rule.ForbiddenModule

set_option autoImplicit false

namespace ModuleFence.ModuleRule

/-- The set of a rule holds the names on its deny-list, and none as long as there is no list. -/
def Agrees (rule : ModuleRule) : Prop :=
  rule.forbidden = (rule.denyList.getD []).eraseDups

@[simp] theorem unasked_options (options : ModuleOptions) (held : RuleResolver) :
    (unasked options held).options = options :=
  rfl

@[simp] theorem unasked_denyList (options : ModuleOptions) (held : RuleResolver) :
    (unasked options held).denyList = none :=
  rfl

theorem agrees_unasked (options : ModuleOptions) (held : RuleResolver) :
    (unasked options held).Agrees :=
  rfl

theorem agrees_caching (names : List Text) (rule : ModuleRule) : (rule.caching names).Agrees :=
  rfl

theorem Agrees.mem_forbidden_iff {rule : ModuleRule} (agrees : rule.Agrees) (module : Text) :
    module ∈ rule.forbidden ↔ ∃ names, rule.denyList = some names ∧ module ∈ names := by
  rw [agrees, List.mem_eraseDups]
  cases rule.denyList <;> simp

theorem askDenyList_of_remembered {rule : ModuleRule} {names : List Text}
    (remembered : rule.denyList = some names) (files : FileSystem) (shared : Shared) :
    askDenyList files rule shared = ⟨.ok names, rule, shared⟩ := by
  rw [askDenyList, remembered]

section Asking

variable (files : FileSystem) (rule : ModuleRule) (shared : Shared)

theorem askResolver_keeps (path : Path) :
    (askResolver files path rule shared).rule.denyList = rule.denyList ∧
      (askResolver files path rule shared).rule.forbidden = rule.forbidden := by
  rw [askResolver]
  split <;> exact ⟨rfl, rfl⟩

/-- Making a deny-list writes neither cache: an error on the way leaves both as they were. -/
theorem buildDenyList_keeps :
    (buildDenyList files rule shared).rule.denyList = rule.denyList ∧
      (buildDenyList files rule shared).rule.forbidden = rule.forbidden := by
  rw [buildDenyList]
  split
  · exact ⟨rfl, rfl⟩
  · exact ⟨rfl, rfl⟩
  · dsimp only
    split <;> exact askResolver_keeps files rule shared _

/-- A rule that got its deny-list remembers it. -/
theorem denyList_of_asked {files : FileSystem} {rule : ModuleRule} {shared : Shared}
    {names : List Text} (success : (askDenyList files rule shared).result = .ok names) :
    (askDenyList files rule shared).rule.denyList = some names := by
  cases remembered : rule.denyList with
  | some list =>
    rw [askDenyList_of_remembered remembered] at success ⊢
    cases success
    exact remembered
  | none =>
    rw [askDenyList, remembered] at success ⊢
    cases built : (buildDenyList files rule shared).result with
    | error failure =>
      simp only [built] at success
      cases success
    | ok list =>
      simp only [built] at success ⊢
      cases success
      rfl

variable {rule}

theorem Agrees.askDenyList (agrees : rule.Agrees) : (askDenyList files rule shared).rule.Agrees := by
  cases remembered : rule.denyList with
  | some names =>
    rw [askDenyList_of_remembered remembered]
    exact agrees
  | none =>
    rw [ModuleRule.askDenyList, remembered]
    cases built : (buildDenyList files rule shared).result with
    | error failure =>
      obtain ⟨list_eq, set_eq⟩ := buildDenyList_keeps files rule shared
      simp only [built]
      rw [Agrees, list_eq, set_eq]
      exact agrees
    | ok names =>
      simp only [built]
      exact agrees_caching names _

/-- Asking the set comes to asking the deny-list. -/
theorem Agrees.isForbidden_eq (agrees : rule.Agrees) (module : Text) :
    isForbidden files module rule shared =
      ⟨(ModuleRule.askDenyList files rule shared).result.map fun names => names.contains module,
        (ModuleRule.askDenyList files rule shared).rule,
        (ModuleRule.askDenyList files rule shared).shared⟩ := by
  rw [isForbidden]
  cases asked : (ModuleRule.askDenyList files rule shared).result with
  | error failure => rfl
  | ok names =>
    have same : (ModuleRule.askDenyList files rule shared).rule.forbidden.contains module =
        names.contains module := by
      rw [agrees.askDenyList, denyList_of_asked asked, Option.getD_some, Bool.eq_iff_iff,
        List.contains_iff_mem, List.contains_iff_mem, List.mem_eraseDups]
    simp only [Except.map, same]

theorem Agrees.checkUses (agrees : rule.Agrees) (path : Option Path) (uses : List Use) :
    (checkUses files path uses rule shared).rule.Agrees := by
  induction uses generalizing rule shared with
  | nil => exact agrees
  | cons use rest ih =>
    rw [ModuleRule.checkUses, agrees.isForbidden_eq]
    have after := agrees.askDenyList files shared
    cases (ModuleRule.askDenyList files rule shared).result with
    | error failure => exact after
    | ok names => exact ih _ after

end Asking

end ModuleFence.ModuleRule
