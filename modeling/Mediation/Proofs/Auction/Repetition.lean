/-
How often an adapter is asked. A configuration lists its bidding adapters, and neither its reader nor
any of the lists that an auction intersects on its way leaves a listing out. So an adapter that may bid
is asked once for each time that it is listed, and every time its answers come into the round anew. Only
a configuration that lists no such adapter twice has each of them asked once.
-/
import Mediation.Proofs.Auction.Eligibility
import Mediation.Proofs.Lists

namespace Mediation.Auction

/-! ## Calls -/

/-- The adapters whose bidders are called, in the order of the calls. -/
def calledAdapters (l : List (Timed Step)) : List Adapter :=
  (roundSteps l).filterMap fun u =>
    match u.step with
    | .called c => some c.adapter
    | .notified _ => none

section

variable {policy : Policy} {s : Services} {x : Subject} {t : Nat}
variable {bidders : Bidding.Bidders} {listener : Bidding.Listener}
variable {g : Groundwork} {configs : InitConfigs} {now : Nat}

/-- The calls of an auction are to the bidders of the adapters that are asked, one call for each time
that an adapter is. -/
theorem calledAdapters_run (hs : s.rounds = .fanOut bidders listener)
    (hd : Dispatches policy s x t g configs now) : calledAdapters ((run policy s x).run t).steps =
      (g.config.bidding.filter (MayBid policy x.request configs ·)).filter bidders.contains := by
  unfold calledAdapters
  rw [roundSteps_run hs hd, ← dispatched_params g policy s x configs now]
  by_cases hn : (g.params policy s x configs now).dispatched = []
  · rw [Bidding.holdRound_of_nil _ _ _ _ _ hn, hn]
    rfl
  · -- the notice at the end of the round is no call
    rw [Bidding.steps_holdRound _ _ _ _ _ hn, List.filterMap_append, List.filterMap_map]
    unfold Bidding.calls
    rw [List.filterMap_map]
    exact (List.append_nil _).trans List.filterMap_some

/-- An adapter that may bid is asked as often as the configuration lists it, its bidder is called and its
answers come into the round as often, and no other adapter is asked at all. So no bidder is called twice
exactly if the configuration lists no adapter twice that may bid and has a bidder. -/
theorem count_calledAdapters_run (hs : s.rounds = .fanOut bidders listener)
    (h : ReachesDispatch policy s x t) :
    ∃ g configs now asked, Dispatches policy s x t g configs now ∧
      asked = g.config.bidding.filter (MayBid policy x.request configs ·) ∧
      (∀ a, asked.count a =
        if MayBid policy x.request configs a then g.config.bidding.count a else 0) ∧
      calledAdapters ((run policy s x).run t).steps = asked.filter bidders.contains ∧
      (∀ result, ((build policy s x).run t).value = .ok result →
        ∃ endTs, result.round.responses =
          (asked.flatMap fun a =>
            Bidding.block (g.params policy s x configs now) now a (bidders.get? a)).map
              (Bidding.stamp (g.params policy s x configs now) endTs)) ∧
      ((∀ a, (calledAdapters ((run policy s x).run t).steps).count a ≤ 1) ↔
        ∀ a, MayBid policy x.request configs a → bidders.contains a → g.config.bidding.count a ≤ 1) := by
  obtain ⟨g, configs, now, hd⟩ := exists_dispatches h
  have hcount : ∀ a, (g.config.bidding.filter (MayBid policy x.request configs ·)).count a =
      if MayBid policy x.request configs a then g.config.bidding.count a else 0 := by
    intro a
    rw [count_filter_ite]
    simp only [decide_eq_true_eq]
  refine ⟨g, configs, now, _, hd, rfl, hcount, calledAdapters_run hs hd, ?_, ?_⟩
  · intro result hb
    rw [build_ok_of_dispatches hs hd hb]
    exact ⟨_, congrArg Bidding.Round.responses (value_holdRound_params g configs now)⟩
  · rw [calledAdapters_run hs hd]
    refine forall_congr' fun a => ?_
    rw [count_filter_ite, hcount]
    by_cases hmay : MayBid policy x.request configs a <;> by_cases hb : bidders.contains a = true <;>
      simp [hmay, hb]

end

/-- A configuration as it is stored, with one bidding adapter listed twice. -/
def repeatingDocument : Json :=
  .record [("id", .int 1), ("uid", .str "1"), ("ad_unit_ids", .arr [.int 1]),
    ("bidding", .arr [.str "bidmachine", .str "bidmachine"])]

def repeatingConfig : Config where
  id := 1
  uid := "1"
  adUnitIds := [1]
  bidding := [.bidmachine, .bidmachine]

/-- Bidmachine has a unit, a profile and a bidder that answers with one bid. -/
def repeatingServices : Services :=
  fixedServices repeatingConfig [⟨1, 1, .interstitial, none, .bidmachine, 11, "", true, none, {}⟩]
    [.bidmachine] [(.bidmachine, ⟨fun _ _ _ => ⟨1, .ok [.ofBid .bidmachine { price := 5.0 }]⟩⟩)]

def repeatingSubject : Subject := ⟨1, childRequest [.bidmachine] [.bidmachine], {}⟩

/-- A configuration is read with its repetition, and its auction calls the bidder twice. -/
theorem calledAdapters_repeating : Config.ofJson? repeatingDocument = some repeatingConfig ∧
    ReachesDispatch {} repeatingServices repeatingSubject 0 ∧
    ∃ configs, MayBid {} repeatingSubject.request configs .bidmachine ∧
      calledAdapters ((run {} repeatingServices repeatingSubject).run 0).steps =
        [.bidmachine, .bidmachine] ∧
      ¬ ∀ a, (calledAdapters ((run {} repeatingServices repeatingSubject).run 0).steps).count a ≤ 1 := by
  have h : ReachesDispatch {} repeatingServices repeatingSubject 0 := by
    unfold ReachesDispatch
    decide +kernel
  obtain ⟨g, configs, now, asked, hd, hasked, -, hcalled, -, hiff⟩ := count_calledAdapters_run rfl h
  have hg : ∀ g ∈ ((prepare {} repeatingServices repeatingSubject).run 0).value.toOption,
      g.config = repeatingConfig ∧ MayBid {} repeatingSubject.request
        ((settingsCourse {} repeatingServices repeatingSubject 0 g).value.toOption.getD .empty)
          .bidmachine := by decide +kernel
  obtain ⟨hconfig, hmay⟩ := hg g (by rw [hd.prepared]; rfl)
  rw [← hd.configs] at hmay
  rw [hconfig] at hasked hiff
  have hall : repeatingConfig.bidding.filter (MayBid {} repeatingSubject.request configs ·) =
      [.bidmachine, .bidmachine] := by simp [repeatingConfig, hmay]
  refine ⟨by decide +kernel, h, configs, hmay, ?_, fun hle => ?_⟩
  · rw [hcalled, hasked, hall]
    rfl
  · exact absurd (hiff.1 hle .bidmachine hmay rfl) (by decide)

end Mediation.Auction
