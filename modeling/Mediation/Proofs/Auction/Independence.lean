/-
What bidders cannot touch. Whether an auction answers, and all of the response but the bids themselves,
is told by the stores alone: bids stand between the units with a fixed price, but none of these is moved
against another one. The observer of two auctions who leaves the bids out sees the same of both.
-/
import Mediation.Proofs.Auction.Outcome
import Mediation.Proofs.Auction.Ranking

namespace Mediation.Auction

/-- A response as it is without bids. -/
def Response.withoutBids (r : Response) : Response :=
  { r with adUnits := r.adUnits.filter (·.isCpm), noBids := [] }

/-! ## Units with a fixed price -/

section

variable {r : Request} {result : Result}

theorem not_isCpm_of_mem_converted {answers : List Bidding.Response} {u : AdUnit}
    (h : u ∈ converted r result answers) : u.isCpm = false := by
  obtain ⟨a, -, ha⟩ := (mem_converted_iff r result).1 h
  unfold convert at ha
  obtain ⟨v, -, rfl⟩ := Option.map_eq_some_iff.1 ha
  rfl

theorem filter_isCpm_insertedUnits (hcpm : ∀ u ∈ result.cpmAdUnits, u.isCpm) :
    (insertedUnits r result).filter (·.isCpm) = result.cpmAdUnits.map (withMediator r.mediator) := by
  have hfixed : (result.cpmAdUnits.map (withMediator r.mediator)).filter (·.isCpm) =
      result.cpmAdUnits.map (withMediator r.mediator) := by
    rw [List.filter_eq_self]
    intro u hu
    obtain ⟨v, hv, rfl⟩ := List.mem_map.1 hu
    exact hcpm v hv
  have hbids : (converted r result (result.round.responses.filter (clears result.priceFloor))).filter
      (·.isCpm) = [] := by
    rw [List.filter_eq_nil_iff]
    intro u hu
    simp [not_isCpm_of_mem_converted hu]
  unfold insertedUnits
  rw [List.filter_append, hfixed, hbids, List.append_nil]

/-- Between the bids the units with a fixed price stand as they would by themselves. -/
theorem ranks_filter_isCpm_respond (hcpm : ∀ u ∈ result.cpmAdUnits, u.isCpm) :
    Ranks ((respond r result).adUnits.filter (·.isCpm))
      (result.cpmAdUnits.map (withMediator r.mediator)) := by
  have h := (ranks_respond r result).filter (·.isCpm)
  rwa [filter_isCpm_insertedUnits hcpm] at h

end

/-! ## Responses without bids -/

theorem isCpm_of_mem_cpm {g : Groundwork} {policy : Policy} {r : Request} {u : AdUnit}
    (h : u ∈ g.cpm policy r) : u.isCpm := by
  rw [cpm_eq_filter, List.mem_filter, decide_eq_true_iff] at h
  exact h.2.1

/-- Without the bids of its round a response is the response to a round in which nobody answered. -/
theorem withoutBids_respond (g : Groundwork) (policy : Policy) (r r' : Request) (round : Bidding.Round) :
    (respond r' (g.result policy r round)).withoutBids = respond r' (g.result policy r {}) := by
  have hcpm : ∀ u ∈ (g.result policy r round).cpmAdUnits, u.isCpm := fun u hu => isCpm_of_mem_cpm hu
  have hempty : insertedUnits r' (g.result policy r {}) =
      (g.result policy r round).cpmAdUnits.map (withMediator r'.mediator) := List.append_nil _
  have hunits : (respond r' (g.result policy r round)).adUnits.filter (·.isCpm) =
      (respond r' (g.result policy r {})).adUnits := by
    refine (ranks_filter_isCpm_respond hcpm).unique ?_
    rw [← hempty]
    exact ranks_respond r' (g.result policy r {})
  unfold Response.withoutBids
  rw [hunits]
  rfl

theorem withoutBids_conclusion (g : Groundwork) (policy : Policy) (x : Subject) (round : Bidding.Round) :
    (conclusion x (g.result policy x.request round)).map Response.withoutBids =
      conclusion x (g.result policy x.request {}) := by
  unfold conclusion
  split
  · exact congrArg Except.ok (withoutBids_respond ..)
  · rfl

/-- The result of an auction when nobody bids, told by its stores. -/
def bidlessResult (policy : Policy) (s : Services) (x : Subject) (t : Nat) : Except AuctionError Result :=
  ((prepare policy s x).run t).value.bind fun g =>
    (settingsCourse policy s x t g).value.bind fun configs =>
      if (g.cpm policy x.request).isEmpty &&
          (g.config.bidding.filter (MayBid policy x.request configs ·)).isEmpty then .error .noAdsFound
      else .ok (g.result policy x.request {})

/-! ## Two auctions -/

section

variable {policy : Policy} {s : Services} {x : Subject} {t : Nat}
variable {bidders : Bidding.Bidders} {listener : Bidding.Listener}

theorem value_run_withoutBids (hs : s.rounds = .fanOut bidders listener) :
    ((run policy s x).run t).value.map Response.withoutBids =
      ((bidlessResult policy s x t).mapError .failed).bind (conclusion x) := by
  unfold bidlessResult
  rw [value_run]
  rcases hp : ((prepare policy s x).run t).value with e | g
  · rw [(resolve_of_error hp).1]
    rfl
  · rw [value_resolve hs hp]
    dsimp only [Except.bind]
    rcases (settingsCourse policy s x t g).value with e | configs
    · rfl
    · -- whether there is anyone to ask is settled before anyone answers
      dsimp only [Except.bind]
      cases (g.cpm policy x.request).isEmpty &&
        (g.config.bidding.filter (MayBid policy x.request configs ·)).isEmpty with
      | true => rfl
      | false => exact withoutBids_conclusion ..

/-- Up to the adapters, auctions at different times differ in the time at which they started. -/
theorem bind_value_prepare {α : Type} {f f' : Groundwork → Except AuctionError α} {t' : Nat}
    (h : ∀ g, f g = f' { g with started := t' }) :
    ((prepare policy s x).run t).value.bind f = ((prepare policy s x).run t').value.bind f' := by
  rw [value_prepare, value_prepare]
  rcases resolution s x with e | c
  · rfl
  dsimp only [Except.bind]
  rcases withUnitIds s x c with e | _
  · rfl
  dsimp only
  rcases (s.adUnits (opportunity policy x c)).answer with e | units
  · rfl
  dsimp only
  rcases withAdapters policy x.request c units with e | units
  · rfl
  · exact h _

theorem bidlessResult_steady (t t' : Nat) : bidlessResult policy s x t = bidlessResult policy s x t' := by
  unfold bidlessResult
  refine bind_value_prepare fun g => ?_
  rw [value_settingsCourse, value_settingsCourse]
  rfl

/-- Two auctions with other bidders, and with another listener to their rounds, both fail with one error
or both answer, and then they answer the same but for the bids: the same units with a fixed price in the
same order, and whatever else a response says. -/
theorem run_withoutBids (bidders' : Bidding.Bidders) (listener' : Bidding.Listener) (t' : Nat) :
    ((run policy { s with rounds := .fanOut bidders listener } x).run t).value.map Response.withoutBids =
      ((run policy { s with rounds := .fanOut bidders' listener' } x).run t').value.map
        Response.withoutBids := by
  rw [value_run_withoutBids rfl, value_run_withoutBids rfl, bidlessResult_steady t t']
  -- nobody bids in either of them
  rfl

end

end Mediation.Auction
