/-
Where the units of a response come from. Answers are free text to an auction: they may name adapters that
nobody asked and slots that nobody has. Yet each unit that a response shows or holds back is one that the
publisher stored, for the app and the placement, named by the configuration, and of an adapter that is
installed and not throttled. Matching lets nothing else in, and all that follows picks from what it let in.
-/
import Mediation.Proofs.Auction.ChildDirected
import Mediation.Proofs.Auction.Outcome
import Mediation.Proofs.Inventory

namespace Mediation.Auction

/-! ## Units of answers -/

section

variable {a : Bidding.Response} {u : AdUnit}

theorem mem_all_of_unitOf {units : AdUnits} (h : unitOf a units = some u) :
    u ∈ units.all a.adapter .rtb := by
  unfold unitOf at h
  split at h
  · obtain ⟨slot, -, hfind⟩ := Option.bind_eq_some_iff.1 h
    exact List.mem_of_find?_eq_some hfind
  · exact List.mem_of_head? h

/-- The unit of an answer is one that its adapter fills by bids. -/
theorem mem_of_unitOf {units : List AdUnit} (h : unitOf a (.ofUnits units) = some u) :
    u ∈ units ∧ u.adapter = a.adapter ∧ u.bidType = .rtb := by
  have hmem := mem_all_of_unitOf h
  rw [AdUnits.all_ofUnits, List.mem_filter, decide_eq_true_iff] at hmem
  obtain ⟨hunits, hbucket⟩ := hmem
  exact ⟨hunits, congrArg Bucket.adapter hbucket, congrArg Bucket.bidType hbucket⟩

end

/-! ## Stored units -/

/-- A unit of a response comes from a stored one, which may take part in the auction. -/
structure ComesFrom (policy : Policy) (x : Subject) (c : Config) (stored : StoredAdUnit) (u : AdUnit) :
    Prop where
  adapter : u.adapter = stored.adapter
  label : u.label = stored.label
  uid : u.uid = toString stored.publicUid.toInt
  app : stored.appId = x.appId
  adType : stored.adType = x.request.adType
  named : stored.id ∈ c.adUnitIds
  /-- A banner is of a format that the wanted one may be filled with on the device. -/
  format : x.request.adType = .banner → ∃ wanted offered, x.request.format = some wanted ∧
    stored.format = some offered ∧ offered ∈ wanted.compatible x.request.device.deviceType
  installed : x.request.adapters.contains stored.adapter.wire
  belowLimit : Adapter.cachedCount x.request.adCache stored.adapter <
    Adapter.cacheLimit policy.cacheLimit x.request.device.family stored.adapter x.request.adType
  bidType : u.bidType = .rtb ↔ stored.bidding
  /-- A unit that is not filled by bids keeps its price, and the configuration lists its adapter. -/
  fixed : u.bidType = .cpm → u.priceFloor = stored.bidFloor ∧ u.adapter ∈ c.demands

section

variable {policy : Policy} {s : Services} {x : Subject} {t : Nat} {inventory : Inventory} {c : Config}

/-- A unit that an auction is offered has a stored one behind it. -/
theorem comesFrom_of_mem_offered {u v : AdUnit} (hids : c.adUnitIds ≠ [])
    (hv : v ∈ offered policy x inventory c) (hadapter : u.adapter = v.adapter)
    (hlabel : u.label = v.label) (huid : u.uid = v.uid) (htype : u.bidType = v.bidType)
    (hfixed : u.bidType = .cpm → u.priceFloor = v.priceFloor ∧ u.adapter ∈ c.demands) :
    ∃ stored ∈ inventory, ComesFrom policy x c stored u := by
  obtain ⟨stored, hstored, hfits, rfl⟩ := Inventory.mem_matching_iff.1 hv
  obtain ⟨hinstalled, hlimit⟩ := mem_available_iff.1 hfits.adapter
  have hbidding : u.bidType = .rtb ↔ stored.bidding := by
    rw [htype]
    unfold StoredAdUnit.toAdUnit
    cases stored.bidding <;> simp
  refine ⟨stored, hstored, hadapter, hlabel, huid, hfits.app, hfits.adType, hfits.named hids,
    hfits.format, hinstalled, hlimit, hbidding, fun hcpm => ?_⟩
  obtain ⟨hprice, hlisted⟩ := hfixed hcpm
  refine ⟨?_, hlisted⟩
  have hnot : stored.bidding = false := by
    rw [← Bool.not_eq_true, ← hbidding, hcpm]
    exact BidType.noConfusion
  rw [hprice]
  simp [StoredAdUnit.toAdUnit, hnot]

/-- Each unit of a response, shown or held back, comes from a stored unit of the inventory, whatever the
bidders answer and however the round is held. -/
theorem run_comesFrom (hunits : Stocks s inventory) {response : Response}
    (h : ((run policy s x).run t).value = .ok response) :
    ∃ c, resolution s x = .ok c ∧ response.configId = c.id ∧ response.configUid = c.uid ∧
      ∀ u ∈ response.adUnits ++ response.noBids, ∃ stored ∈ inventory,
        ComesFrom policy x c stored u := by
  obtain ⟨result, hb, rfl⟩ := run_ok h
  obtain ⟨g, round, hg, -, rfl⟩ := build_ok hb
  obtain ⟨hfounded, hgroundwork⟩ := founded_of_prepare hunits hg
  have hoffered : g.units = offered policy x inventory g.config := by rw [hgroundwork]
  refine ⟨g.config, hfounded.resolved, rfl, rfl, fun u hu => ?_⟩
  rw [mem_units_respond_iff] at hu
  rcases hu with hu | ⟨a, -, ha⟩
  · -- a unit with a fixed price, which keeps all but what it says of the mediator
    obtain ⟨v, hv, rfl⟩ := List.mem_map.1 hu
    have hcpm : v ∈ g.cpm policy x.request := hv
    rw [cpm_eq_filter, List.mem_filter, decide_eq_true_iff] at hcpm
    obtain ⟨hv, -, hlisted, -⟩ := hcpm
    exact comesFrom_of_mem_offered (v := v) hfounded.namesUnits (hoffered ▸ hv) rfl rfl rfl rfl
      fun _ => ⟨rfl, hlisted⟩
  · -- an answer, which is shown as the first unit of its adapter or as the one of its slot
    unfold convert at ha
    obtain ⟨v, hv, rfl⟩ := Option.map_eq_some_iff.1 ha
    obtain ⟨hv, hadapter, htype⟩ := mem_of_unitOf hv
    exact comesFrom_of_mem_offered (v := v) hfounded.namesUnits (hoffered ▸ hv) hadapter.symm rfl rfl
      htype.symm
      fun hcpm => BidType.noConfusion hcpm

end

/-- What Bidmachine bids for Meta is shown as the unit that Meta has for bids, and not as the other one. -/
theorem run_comesFrom_misnaming : ∃ response,
    ((run {} misnamingServices misnamingSubject).run 0).value = .ok response ∧
      response.adUnits.map (·.uid) = ["12"] ∧
      ∃ inventory c, Stocks misnamingServices inventory ∧
        ∀ u ∈ response.adUnits ++ response.noBids, ∃ stored ∈ inventory,
          ComesFrom {} misnamingSubject c stored u := by
  have hrun : ((run {} misnamingServices misnamingSubject).run 0).value.toOption.map
      (fun response => response.adUnits.map (·.uid)) = some ["12"] := by
    decide +kernel
  rcases h : ((run {} misnamingServices misnamingSubject).run 0).value with e | response <;>
    rw [h] at hrun
  · cases hrun
  · have hunits : Stocks misnamingServices _ := fun _ => rfl
    obtain ⟨c, -, -, -, hcomes⟩ := run_comesFrom hunits h
    exact ⟨response, rfl, Option.some.inj hrun, _, c, hunits, hcomes⟩

end Mediation.Auction
