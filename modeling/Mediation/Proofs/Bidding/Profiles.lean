/-
Which adapters a store of profiles has settings for, and how long it takes to say so. An adapter that is
asked for has settings if it has a profile, whoever else is asked for beside it. What the settings say
may still depend on the others; whether there are any does not.
-/
import Mathlib.Logic.Basic
import Mediation.Bidding.Profiles

namespace Mediation.Bidding

section

variable {store : ProfileStore} {appId : Int64} {adapters : List Adapter} {units : AdUnits}
variable {held : Except AuctionError (List Profile)} {a : Adapter} {t : Nat}

/-- The profiles that are read for some adapters. -/
def wantedProfiles (store : ProfileStore) (appId : Int64) (adapters : List Adapter) : List Profile :=
  ((store.profiles appId adapters).answer.toOption.getD []).filter fun p => adapters.contains p.adapter

/-- Each profile adds the settings of its adapter and takes none away. -/
theorem contains_settingsOf_iff {profiles : List Profile} {found : InitConfigs} :
    ((settingsOf store appId units profiles found t).value.contains a) ↔
      found.contains a ∨ ∃ p ∈ profiles, p.adapter = a := by
  induction profiles generalizing found t with
  | nil =>
    show found.contains a ↔ _
    simp
  | cons p profiles ih =>
    show ((settingsOf store appId units profiles (found.insert p.adapter _) _).value.contains a) ↔ _
    have hinsert (c : InitConfig) :
        (found.insert p.adapter c).contains a ↔ found.contains a ∨ p.adapter = a := by
      unfold Dict.contains
      rw [Dict.get?_insert]
      by_cases h : a = p.adapter
      · simp [h]
      · simp [h, Ne.symm h]
    rw [ih, hinsert, or_assoc]
    simp

/-- With somebody to ask for, the outcome is that of the profiles that are read. -/
theorem outcome_storedSettings (hne : adapters ≠ []) : (storedSettings store appId adapters units t).value =
    (store.profiles appId adapters).answer.bind fun _ =>
      let found := (settingsOf store appId units (wantedProfiles store appId adapters) .empty
        (t + (store.profiles appId adapters).delay)).value
      if found.isEmpty then .error .noAdaptersFound else .ok found := by
  unfold storedSettings wantedProfiles
  rw [if_neg (by rwa [List.isEmpty_iff])]
  rcases store.profiles appId adapters with ⟨delay, e | profiles⟩ <;> rfl

end

end Mediation.Bidding
