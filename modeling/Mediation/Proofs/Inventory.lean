/-
Which stored units fit an opportunity, told by conditions. The conditions on the adapters and on the
format are those that a request can change: with fewer adapters the units that fit are those of the
adapters that are left, in their order. More adapters, or more named units, only add units; the format
matters for banners only.
-/
import Mathlib.Logic.Basic
import Mediation.Inventory
import Mediation.Proofs.Lists

namespace Mediation

/-! ## Formats -/

/-- A banner of one format may be filled with one of another on a device: with its own, a banner or a
leaderboard with an adaptive one, and an adaptive one with the fixed one for the device. -/
inductive AdFormat.FilledWith (device : DeviceType) : AdFormat → AdFormat → Prop
  | own (f : AdFormat) : FilledWith device f f
  | bannerByAdaptive : FilledWith device .banner .adaptive
  | leaderboardByAdaptive : FilledWith device .leaderboard .adaptive
  | onPhone : device = .phone → FilledWith device .adaptive .banner
  | onTablet : device = .tablet → FilledWith device .adaptive .leaderboard

theorem AdFormat.mem_compatible_iff {wanted offered : AdFormat} {device : DeviceType} :
    offered ∈ wanted.compatible device ↔ wanted.FilledWith device offered := by
  constructor
  · intro h
    cases wanted with
    | banner =>
      rcases List.mem_pair.1 h with rfl | rfl
      · exact .own _
      · exact .bannerByAdaptive
    | leaderboard =>
      rcases List.mem_pair.1 h with rfl | rfl
      · exact .own _
      · exact .leaderboardByAdaptive
    | mrec =>
      obtain rfl := List.mem_singleton.1 h
      exact .own _
    | adaptive =>
      cases device with
      | phone =>
        rcases List.mem_pair.1 h with rfl | rfl
        · exact .own _
        · exact .onPhone rfl
      | tablet =>
        rcases List.mem_pair.1 h with rfl | rfl
        · exact .own _
        · exact .onTablet rfl
      | unknown =>
        obtain rfl := List.mem_singleton.1 h
        exact .own _
  · intro h
    cases h with
    | own => cases wanted <;> cases device <;> exact List.mem_cons_self
    | bannerByAdaptive => exact List.mem_cons_of_mem _ List.mem_cons_self
    | leaderboardByAdaptive => exact List.mem_cons_of_mem _ List.mem_cons_self
    | onPhone h =>
      subst h
      exact List.mem_cons_of_mem _ List.mem_cons_self
    | onTablet h =>
      subst h
      exact List.mem_cons_of_mem _ List.mem_cons_self

/-! ## Units that fit -/

namespace Opportunity

/-- A stored unit fits: it is of the app and the placement type, of an adapter that takes part, among the
named units if some are named, and for a banner of a format that the wanted one may be filled with. -/
structure Fits (o : Opportunity) (s : StoredAdUnit) : Prop where
  app : s.appId = o.appId
  adType : s.adType = o.adType
  adapter : s.adapter ∈ o.adapters
  named : o.adUnitIds ≠ [] → s.id ∈ o.adUnitIds
  format : o.adType = .banner → ∃ wanted offered, o.format = some wanted ∧ s.format = some offered ∧
    offered ∈ wanted.compatible o.deviceType

theorem fitsFormat_iff {o : Opportunity} {s : StoredAdUnit} : o.fitsFormat s ↔
    (o.adType = .banner → ∃ wanted offered, o.format = some wanted ∧ s.format = some offered ∧
      offered ∈ wanted.compatible o.deviceType) := by
  unfold fitsFormat
  split
  · rename_i hbanner
    rw [hbanner, forall_prop_of_true rfl]
    split
    · rename_i wanted offered hwanted hoffered
      simp [hwanted, hoffered]
    · rename_i hnone
      refine iff_of_false Bool.false_ne_true ?_
      rintro ⟨wanted, offered, hwanted, hoffered, -⟩
      exact hnone wanted offered hwanted hoffered
  · rename_i hother
    exact iff_of_true rfl fun hbanner => absurd hbanner hother

theorem fits_iff {o : Opportunity} {s : StoredAdUnit} : o.fits s ↔ o.Fits s := by
  unfold fits
  simp only [Bool.and_eq_true, Bool.or_eq_true, beq_iff_eq, List.contains_iff_mem, List.isEmpty_iff,
    fitsFormat_iff]
  constructor
  · rintro ⟨⟨⟨⟨happ, htype⟩, hadapter⟩, hid⟩, hformat⟩
    exact ⟨happ, htype, hadapter, fun hne => hid.resolve_left hne, hformat⟩
  · rintro ⟨happ, htype, hadapter, hid, hformat⟩
    exact ⟨⟨⟨⟨happ, htype⟩, hadapter⟩, or_iff_not_imp_left.2 hid⟩, hformat⟩

instance {o : Opportunity} {s : StoredAdUnit} : Decidable (o.Fits s) := decidable_of_iff _ fits_iff

section

variable {o : Opportunity} {s : StoredAdUnit}

/-- More adapters and more named units leave a unit that fits. -/
theorem Fits.mono {adapters : List Adapter} {ids : List Int64} (h : o.Fits s) (hadapters : o.adapters ⊆ adapters)
    (hids : ids ≠ [] → o.adUnitIds ≠ [] ∧ o.adUnitIds ⊆ ids) :
    ({ o with adapters := adapters, adUnitIds := ids } : Opportunity).Fits s where
  app := h.app
  adType := h.adType
  adapter := hadapters h.adapter
  named hne := (hids hne).2 (h.named (hids hne).1)
  format := h.format

/-- The units of two lists of adapters are those of the one and those of the other. -/
theorem fits_append_iff (l l' : List Adapter) : ({ o with adapters := l ++ l' } : Opportunity).Fits s ↔
    ({ o with adapters := l } : Opportunity).Fits s ∨ ({ o with adapters := l' } : Opportunity).Fits s := by
  constructor
  · intro h
    rcases List.mem_append.1 h.adapter with hl | hl
    · exact .inl { h with adapter := hl }
    · exact .inr { h with adapter := hl }
  · rintro (h | h)
    · exact { h with adapter := List.mem_append_left _ h.adapter }
    · exact { h with adapter := List.mem_append_right _ h.adapter }

/-- What is no banner fits whatever its format, the format that is wanted and the device. -/
theorem fits_reformatted_iff (h : o.adType ≠ .banner) (wanted offered : Option AdFormat) (device : DeviceType) :
    ({ o with format := wanted, deviceType := device } : Opportunity).Fits { s with format := offered } ↔
      o.Fits s := by
  constructor <;> intro hfits <;> exact { hfits with format := fun hbanner => absurd hbanner h }

end

end Opportunity

namespace Inventory

variable {inventory : Inventory} {o : Opportunity}

theorem mem_matching_iff {u : AdUnit} :
    u ∈ inventory.matching o ↔ ∃ s ∈ inventory, o.Fits s ∧ s.toAdUnit = u := by
  unfold matching
  simp only [List.mem_map, List.mem_filter, Opportunity.fits_iff, and_assoc]

theorem matching_eq_filter : inventory.matching o = (inventory.filter (o.Fits ·)).map StoredAdUnit.toAdUnit := by
  unfold matching
  refine congrArg _ (List.filter_congr fun s _ => ?_)
  rw [Bool.eq_iff_iff, Opportunity.fits_iff, decide_eq_true_iff]

/-- The units that fit are offered as they are stored, in their order and as often as they are stored: those of the app
and the placement type, of an adapter that takes part, among the named units if some are named, and for a banner of a
format that the wanted one may be filled with. A banner of no stated format gets none. For anything else the formats
and the device make no difference. With more adapters, or more units named where some are named, there are further
units among the same ones; and the units of two lists of adapters are those of either. -/
theorem matching_by_conditions (inventory : Inventory) (o : Opportunity) :
    inventory.matching o = (inventory.filter (o.Fits ·)).map StoredAdUnit.toAdUnit ∧
    (∀ wanted offered : AdFormat, offered ∈ wanted.compatible o.deviceType ↔ wanted.FilledWith o.deviceType offered) ∧
    (o.adType = .banner → o.format = none → inventory.matching o = []) ∧
    (o.adType ≠ .banner → ∀ wanted device (offered : StoredAdUnit → Option AdFormat),
      matching (inventory.map fun s => { s with format := offered s })
        { o with format := wanted, deviceType := device } = inventory.matching o) ∧
    (∀ adapters ids, o.adapters ⊆ adapters → ids = o.adUnitIds ∨ o.adUnitIds ≠ [] ∧ o.adUnitIds ⊆ ids →
      (inventory.matching o).Sublist (inventory.matching { o with adapters := adapters, adUnitIds := ids })) ∧
    ∀ l l' s, ({ o with adapters := l ++ l' } : Opportunity).Fits s ↔
      ({ o with adapters := l } : Opportunity).Fits s ∨ ({ o with adapters := l' } : Opportunity).Fits s := by
  refine ⟨matching_eq_filter, fun _ _ => AdFormat.mem_compatible_iff, fun hbanner hnone => ?_,
    fun hbanner wanted device offered => ?_, fun adapters ids hadapters hids => ?_,
    fun l l' s => Opportunity.fits_append_iff l l'⟩
  · rw [matching_eq_filter, List.map_eq_nil_iff, List.filter_eq_nil_iff]
    intro s _ hfits
    obtain ⟨wanted, offered, hwanted, -⟩ := (of_decide_eq_true hfits).format hbanner
    rw [hnone] at hwanted
    cases hwanted
  · rw [matching_eq_filter, matching_eq_filter, List.filter_map, List.map_map]
    have hfilter : (inventory.filter fun s => ({ o with format := wanted, deviceType := device } : Opportunity).Fits
        { s with format := offered s }) = inventory.filter (o.Fits ·) :=
      List.filter_congr fun s _ => by simp only [Opportunity.fits_reformatted_iff hbanner]
    exact congrArg _ hfilter
  · rw [matching_eq_filter, matching_eq_filter]
    refine (filter_sublist_filter fun s _ hfits => ?_).map _
    rw [decide_eq_true_iff] at hfits ⊢
    refine hfits.mono hadapters fun hne => ?_
    rcases hids with rfl | hids
    · exact ⟨hne, List.Subset.refl _⟩
    · exact hids

/-- Banners of three formats, one of which is stored twice, and a rewarded unit that states a format. -/
def mixedInventory : Inventory :=
  [⟨1, 7, .banner, some .leaderboard, .gam, 11, "", false, some 1.0, {}⟩,
    ⟨2, 7, .banner, some .adaptive, .gam, 12, "", false, none, {}⟩,
    ⟨3, 7, .banner, some .banner, .admob, 13, "", true, some 2.0, {}⟩,
    ⟨1, 7, .banner, some .leaderboard, .gam, 11, "", false, some 1.0, {}⟩,
    ⟨4, 7, .rewarded, some .mrec, .admob, 14, "", false, none, {}⟩]

/-- An adaptive banner on a tablet, of one adapter and two named units. -/
def tabletBanner : Opportunity := ⟨7, .banner, some .adaptive, .tablet, [.gam], [1, 3]⟩

def anyRewarded : Opportunity := ⟨7, .rewarded, none, .unknown, [.admob], []⟩

/-- The leaderboard is offered twice; with a further adapter and a further name it still is; a banner of no format gets
nothing; and a rewarded unit is offered whatever formats are stated. -/
theorem matching_by_conditions_mixed :
    (mixedInventory.matching tabletBanner).map (·.uid) = ["11", "11"] ∧
      (mixedInventory.matching tabletBanner).Sublist
        (mixedInventory.matching { tabletBanner with adapters := [.admob, .gam], adUnitIds := [2, 3, 1] }) ∧
      mixedInventory.matching { tabletBanner with format := none } = [] ∧
      matching (mixedInventory.map fun s => { s with format := none })
        { anyRewarded with format := some .banner, deviceType := .phone } = mixedInventory.matching anyRewarded := by
  obtain ⟨hmatching, -, -, -, hmore, -⟩ := matching_by_conditions mixedInventory tabletBanner
  refine ⟨?_, hmore _ _ (by decide) (.inr (by decide)), ?_, ?_⟩
  · rw [hmatching]
    decide +kernel
  · exact (matching_by_conditions mixedInventory { tabletBanner with format := none }).2.2.1 rfl rfl
  · exact (matching_by_conditions mixedInventory anyRewarded).2.2.2.1 (by decide) _ _ _

end Inventory

end Mediation
