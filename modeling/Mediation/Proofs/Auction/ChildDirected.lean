/-
Child-directed auctions. The networks that do not serve child-directed traffic are kept out of both lists
of adapters that an auction turns to. Their units stay among the matched ones, though, and an answer finds
its unit by the adapter that it names, not by the one that was asked. So one of these networks is in a
response exactly if some other adapter answers in its name.
-/
import Mediation.Proofs.Auction.Assembly
import Mediation.Proofs.Auction.Eligibility

namespace Mediation.Auction

section

variable {policy : Policy} {s : Services} {x : Subject} {t : Nat}
variable {bidders : Bidding.Bidders} {listener : Bidding.Listener}

/-- The units of a response are of the adapters of which the auction has a unit with a fixed price, and
of those that a block of its round names and that have a unit for it. -/
theorem exists_unit_run_iff (hs : s.rounds = .fanOut bidders listener) {g : Groundwork}
    {configs : InitConfigs} {now : Nat} (hd : Dispatches policy s x t g configs now) {response : Response}
    (h : ((run policy s x).run t).value = .ok response) (P : Adapter → Prop) :
    (∃ u ∈ response.adUnits ++ response.noBids, P u.adapter) ↔
      (∃ u ∈ g.cpm policy x.request, P u.adapter) ∨
        ∃ a ∈ g.config.bidding, MayBid policy x.request configs a ∧
          ∃ r ∈ Bidding.block (g.params policy s x configs now) now a (bidders.get? a),
            (unitOf r (.ofUnits g.units)).isSome ∧ P r.adapter := by
  obtain ⟨result, hb, rfl⟩ := run_ok h
  rw [exists_unit_respond_iff, build_ok_of_dispatches hs hd hb]
  refine or_congr Iff.rfl ?_
  show (∃ r ∈ (Bidding.holdRound _ _ _ _ _).value.responses, _) ↔ _
  rw [value_holdRound_params]
  constructor
  · rintro ⟨r, hr, hunit, hP⟩
    obtain ⟨r', hr', rfl⟩ := List.mem_map.1 hr
    obtain ⟨a, ha, hr'⟩ := List.mem_flatMap.1 hr'
    rw [List.mem_filter, decide_eq_true_iff] at ha
    exact ⟨a, ha.1, ha.2, r', hr', hunit, hP⟩
  · rintro ⟨a, ha, hmay, r, hr, hunit, hP⟩
    refine ⟨_, List.mem_map_of_mem (List.mem_flatMap.2 ⟨a, ?_, hr⟩), hunit, hP⟩
    exact List.mem_filter.2 ⟨ha, decide_eq_true hmay⟩

/-- Among the adapters that may bid is one whose bidder answers in time in the name of another one, which
is blocked and has a unit for the answer. -/
def NamesBlocked (policy : Policy) (s : Services) (x : Subject) (t : Nat) (bidders : Bidding.Bidders) :
    Prop :=
  ∃ g configs now, Dispatches policy s x t g configs now ∧
    ∃ a ∈ g.config.bidding, MayBid policy x.request configs a ∧
      ∃ b, bidders.get? a = some b ∧
        ∃ r ∈ Bidding.heardFrom (g.params policy s x configs now) now b,
          r.adapter ≠ a ∧ r.adapter ∈ Adapter.childDirectedBlocked ∧
            (unitOf r (.ofUnits g.units)).isSome

/-- A child-directed auction that succeeds shows or holds back a unit of a blocked network exactly if a
bidder answers in the name of that network. -/
theorem exists_blocked_iff_namesBlocked (hs : s.rounds = .fanOut bidders listener)
    (hc : x.request.isCoppa) {response : Response}
    (h : ((run policy s x).run t).value = .ok response) :
    (∃ u ∈ response.adUnits ++ response.noBids, u.adapter ∈ Adapter.childDirectedBlocked) ↔
      NamesBlocked policy s x t bidders := by
  constructor
  · intro hblocked
    obtain ⟨result, hb, -⟩ := run_ok h
    obtain ⟨g, -, hg, -, -⟩ := build_ok hb
    obtain ⟨configs, now, hd⟩ : ∃ configs now, Dispatches policy s x t g configs now :=
      ⟨_, _, hg, rfl, rfl⟩
    rcases (exists_unit_run_iff hs hd h (· ∈ Adapter.childDirectedBlocked)).1 hblocked with
      ⟨u, hu, hblocked⟩ | ⟨a, ha, hmay, r, hr, hunit, hblocked⟩
    · -- units with a fixed price are of adapters that take part, which no blocked one does
      rw [cpm_eq_filter, List.mem_filter, decide_eq_true_iff] at hu
      exact absurd hblocked (hu.2.2.2.serves hc)
    · -- the adapter that was asked may bid, so a blocked one that is named is another one
      have hne : r.adapter ≠ a := by
        rintro rfl
        exact hmay.serves hc hblocked
      rcases Bidding.mem_block hr with ⟨b, hb, hr⟩ | he
      · exact ⟨g, configs, now, hd, a, ha, hmay, b, hb, r, hr, hne, hblocked, hunit⟩
      · exact absurd he hne
  · rintro ⟨g, configs, now, hd, a, ha, hmay, b, hb, r, hr, -, hblocked, hunit⟩
    refine (exists_unit_run_iff hs hd h (· ∈ Adapter.childDirectedBlocked)).2 (.inr ?_)
    refine ⟨a, ha, hmay, r, ?_, hunit, hblocked⟩
    rw [hb]
    exact Bidding.heardFrom_subset_block _ _ _ _ hr

end

/-- Bidmachine is asked and answers with a bid of Meta, which has a unit for bids and one with a price. -/
def misnamingServices : Services :=
  fixedServices
    { id := 1, uid := "1", demands := [.metaNetwork], bidding := [.bidmachine], adUnitIds := [1, 2] }
    [⟨1, 1, .interstitial, none, .metaNetwork, 11, "", false, some 9.0, {}⟩,
      ⟨2, 1, .interstitial, none, .metaNetwork, 12, "", true, none, {}⟩]
    [.bidmachine] [(.bidmachine, ⟨fun _ _ _ => ⟨1, .ok [.ofBid .metaNetwork { price := 5.0 }]⟩⟩)]

def misnamingSubject : Subject :=
  ⟨1, childRequest [.bidmachine, .metaNetwork] [.bidmachine], {}⟩

/-- The response to a child-directed request shows the unit of Meta. -/
theorem exists_blocked_of_misnaming : ∃ response,
    ((run {} misnamingServices misnamingSubject).run 0).value = .ok response ∧
      misnamingSubject.request.isCoppa ∧
      response.adUnits.map (·.adapter) = [.metaNetwork] ∧
      NamesBlocked {} misnamingServices misnamingSubject 0 (.ofList
        [(.bidmachine, ⟨fun _ _ _ => ⟨1, .ok [.ofBid .metaNetwork { price := 5.0 }]⟩⟩)]) := by
  have hrun : ((run {} misnamingServices misnamingSubject).run 0).value.toOption.map
      (fun response => response.adUnits.map (·.adapter)) = some [.metaNetwork] := by
    decide +kernel
  rcases h : ((run {} misnamingServices misnamingSubject).run 0).value with e | response <;>
    rw [h] at hrun
  · cases hrun
  · have hunits : response.adUnits.map (·.adapter) = [.metaNetwork] := Option.some.inj hrun
    have hmeta : Adapter.metaNetwork ∈ response.adUnits.map (·.adapter) := by
      rw [hunits]
      exact List.mem_cons_self
    obtain ⟨u, hu, he⟩ := List.mem_map.1 hmeta
    refine ⟨response, rfl, rfl, hunits, ?_⟩
    refine (exists_blocked_iff_namesBlocked rfl rfl h).1 ⟨u, List.mem_append_left _ hu, ?_⟩
    rw [he]
    exact List.mem_cons_self

end Mediation.Auction
