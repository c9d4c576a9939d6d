/-
What an auction that succeeds tells of itself. Every answer of its round has one event, a bid has a
second one right after it, and the request has the last one. All of them are handed over, in this order,
or none is: that lies with the extension of the request, which is the same on every row.
-/
import Mediation.Proofs.Auction.Stages
import Mediation.Proofs.Event.Handing

namespace Mediation.Auction

open Event (NamesObject handed reported)

/-! ## Rows -/

/-- What the events of a round are about, in order: each answer, after it its bid if it is one, and last
the request. -/
def accounts (round : Bidding.Round) : List EventLabel :=
  round.responses.flatMap (fun r =>
    ⟨"bid_request", r.adapter.wire, r.status.wire⟩ ::
      if r.isBid then [⟨"bid", r.adapter.wire, "SUCCESS"⟩] else []) ++
    [⟨"auction_request", "", "SUCCESS"⟩]

theorem length_accounts (round : Bidding.Round) :
    (accounts round).length = 1 + round.responses.length + round.bidCount := by
  unfold accounts Bidding.Round.bidCount
  rw [List.length_append, List.length_singleton]
  induction round.responses with
  | nil => rfl
  | cons r l ih =>
    have hblock : (⟨"bid_request", r.adapter.wire, r.status.wire⟩ ::
        if r.isBid then [⟨"bid", r.adapter.wire, "SUCCESS"⟩] else [] : List EventLabel).length =
          1 + if r.isBid then 1 else 0 := by
      cases r.isBid <;> rfl
    rw [List.flatMap_cons, List.length_append, hblock, List.length_cons, List.countP_cons]
    omega

/-- Times and tokens do not matter for what the events of a round are about. -/
theorem accounts_stamp (p : Bidding.Params) (endTs : Int64) (l : List Bidding.Response) :
    accounts ⟨l.map (Bidding.stamp p endTs), 0⟩ = accounts ⟨l, 0⟩ := by
  unfold accounts
  rw [List.flatMap_map]
  rfl

/-- All rows of an auction, in the order in which they are handed over. -/
def eventRows (c : EventContext) (result : Result) : List AdEvent :=
  (events c result).flatMap AdEventGroup.rows

theorem label_eventRows (c : EventContext) (result : Result) :
    (eventRows c result).map AdEvent.label = accounts result.round := by
  unfold eventRows events EventContext.roundEvents accounts
  rw [List.flatMap_append, List.map_append, List.flatMap_map, List.map_flatMap]
  refine congrArg₂ (· ++ ·) (List.flatMap_congr fun r _ => ?_) rfl
  unfold AdEventGroup.rows EventContext.answerEvents
  cases r.isBid <;> rfl

/-- What both rows of an answer have: the extension of the request, the adapter that the answer names, its
price, and the unit that it is for. -/
theorem shared_of_mem_rows {c : EventContext} {units : AdUnits} {a : Bidding.Response} {e : AdEvent}
    (he : e ∈ (c.answerEvents units a).rows) :
    e.ext = c.request.ext ∧ e.demandId = a.adapter.wire ∧ e.ecpm = a.price ∧
      e.adUnitUid = ((unitOf a units).bind fun u => Text.int64? u.uid).getD 0 ∧
      e.adUnitLabel = ((unitOf a units).map (·.label)).getD "" := by
  unfold AdEventGroup.rows EventContext.answerEvents at he
  rcases List.mem_cons.1 he with rfl | he
  · exact ⟨rfl, rfl, rfl, rfl, rfl⟩
  · dsimp only at he
    split at he
    · cases List.mem_singleton.1 he
      exact ⟨rfl, rfl, rfl, rfl, rfl⟩
    · cases he

/-- The extension is that of the request on every row. -/
theorem ext_of_mem_rows {c : EventContext} {result : Result} {g : AdEventGroup} (hg : g ∈ events c result)
    {e : AdEvent} (he : e ∈ g.rows) : e.ext = c.request.ext := by
  rcases List.mem_append.1 hg with hg | hg
  · obtain ⟨r, -, rfl⟩ := List.mem_map.1 hg
    exact (shared_of_mem_rows he).1
  · cases List.mem_singleton.1 hg
    cases List.mem_singleton.1 he
    rfl

/-! ## Hand-over -/

section

variable {c : EventContext} {result : Result} (engine : Event.Engine)

/-- Where the extension can be read every row is handed over, with what the extension says. -/
theorem log_events_of_ok {ext : Dict String Json} (h : Event.parseExt c.request.ext = .ok ext) :
    ((events c result).flatMap fun g => g.toBatch.log engine) =
      ((eventRows c result).map (·.message ext)).flatMap (Event.handOver engine) := by
  unfold eventRows
  rw [List.map_flatMap, List.flatMap_assoc]
  exact List.flatMap_congr fun g hg =>
    AdEventGroup.log_of_ok engine (fun e he => ext_of_mem_rows hg he) h

/-- With an extension that names an object every row is handed over, and says what it is about. -/
theorem handed_events (h : NamesObject c.request.ext) :
    ∃ ext, handed ((events c result).flatMap fun g => g.toBatch.log engine) =
      (eventRows c result).map (·.message ext) := by
  obtain ⟨ext, hext⟩ := Event.parseExt_of_namesObject h
  refine ⟨ext, ?_⟩
  rw [log_events_of_ok engine hext, Event.handed_flatMap_handOver]

/-- With any other extension every row is reported. -/
theorem log_events_of_not (h : ¬ NamesObject c.request.ext) :
    ((events c result).flatMap fun g => g.toBatch.log engine) =
      (eventRows c result).map fun _ => .reported (.event "unmarshal ext") := by
  unfold eventRows
  rw [List.map_flatMap]
  exact List.flatMap_congr fun g hg => AdEventGroup.log_of_error engine
    (fun e he => ext_of_mem_rows hg he) (Event.parseExt_of_not_namesObject h)

end

/-! ## Auctions -/

/-- What the steps of an auction are for its events. -/
def loggedSteps (l : List (Timed Step)) : List Event.LogStep :=
  l.filterMap fun u =>
    match u.step with
    | .logged k => some k
    | _ => none

theorem loggedSteps_append (l l' : List (Timed Step)) :
    loggedSteps (l ++ l') = loggedSteps l ++ loggedSteps l' := List.filterMap_append

theorem loggedSteps_eq_nil {l : List (Timed Step)} (h : ∀ u ∈ l, ∀ k, u.step ≠ .logged k) :
    loggedSteps l = [] := by
  unfold loggedSteps
  rw [List.filterMap_eq_nil_iff]
  intro u hu
  split
  · rename_i k hk
    exact absurd hk (h u hu k)
  · rfl

theorem loggedSteps_map (time : Nat) (l : List Event.LogStep) :
    loggedSteps ((l.map Step.logged).map (⟨time, ·⟩)) = l := by
  unfold loggedSteps
  rw [List.map_map, List.filterMap_map]
  exact List.filterMap_some

section

variable {policy : Policy} {s : Services} {x : Subject} {t : Nat}

/-- An auction that comes to a result logs the events of it and answers with the response to it, if the time
of its session fits. -/
theorem run_of_build_ok {result : Result} {now : Nat} {l : List (Timed Step)}
    (h : (build policy s x).run t = ⟨.ok result, now, l⟩) (hfits : x.request.session.Fits) :
    (run policy s x).run t = ⟨.ok (respond (resolvedRequest x.request result) result), now,
      l ++ ⟨now, .entered .assembling⟩ ::
        ((((events (eventContext s x result now) result).flatMap fun g =>
          g.toBatch.log s.engine).map Step.logged).map (⟨now, ·⟩))⟩ := by
  rw [run_run, h]
  dsimp only
  rw [run_conclude, if_pos hfits]

/-- Otherwise it logs nothing and is broken off. -/
theorem run_of_build_overflow {result : Result} {now : Nat} {l : List (Timed Step)}
    (h : (build policy s x).run t = ⟨.ok result, now, l⟩) (hfits : ¬ x.request.session.Fits) :
    (run policy s x).run t = ⟨.error .overflow, now, l ++ [⟨now, .entered .assembling⟩]⟩ := by
  rw [run_run, h]
  dsimp only
  rw [run_conclude, if_neg hfits]

theorem run_of_build_error {e : AuctionError} {now : Nat} {l : List (Timed Step)}
    (h : (build policy s x).run t = ⟨.error e, now, l⟩) :
    (run policy s x).run t = ⟨.error (.failed e), now, l⟩ := by
  rw [run_run, h]

theorem loggedSteps_build : loggedSteps ((build policy s x).run t).steps = [] :=
  loggedSteps_eq_nil (takes_build policy s x t)

/-- What an auction does by way of events is to log those of its result. -/
theorem loggedSteps_of_build_ok {result : Result} (h : ((build policy s x).run t).value = .ok result)
    (hfits : x.request.session.Fits) : loggedSteps ((run policy s x).run t).steps =
      (events (eventContext s x result ((build policy s x).run t).finish) result).flatMap fun g =>
        g.toBatch.log s.engine := by
  have hl : loggedSteps ((build policy s x).run t).steps = [] := loggedSteps_build
  rcases hb : (build policy s x).run t with ⟨e | result', now, l⟩ <;> rw [hb] at h hl <;> cases h
  rw [run_of_build_ok hb hfits]
  dsimp only
  rw [loggedSteps_append, hl, List.nil_append]
  exact loggedSteps_map now _

/-- One that does not answer logs nothing. -/
theorem loggedSteps_run_of_error {stop : Stop} (h : ((run policy s x).run t).value = .error stop) :
    loggedSteps ((run policy s x).run t).steps = [] := by
  have hl : loggedSteps ((build policy s x).run t).steps = [] := loggedSteps_build
  rcases hb : (build policy s x).run t with ⟨e | result, now, l⟩ <;> rw [hb] at hl
  · rw [run_of_build_error hb]
    exact hl
  · by_cases hfits : x.request.session.Fits
    · rw [run_of_build_ok hb hfits] at h
      cases h
    · rw [run_of_build_overflow hb hfits, loggedSteps_append, hl]
      rfl

/-- The events that are logged have the columns of the resolved request. -/
theorem loggedSteps_run {result : Result} {response : Response}
    (h : ((build policy s x).run t).value = .ok result)
    (hok : ((run policy s x).run t).value = .ok response) :
    ∃ c : EventContext, c.request = resolvedRequest x.request result ∧
      loggedSteps ((run policy s x).run t).steps =
        (events c result).flatMap fun g => g.toBatch.log s.engine :=
  ⟨_, rfl, loggedSteps_of_build_ok h (fits_of_run_ok hok)⟩

/-- An auction that succeeds answers with the response to its result and tells of the same result by
events. If the extension of the request is nothing or names an object, the engine is handed one message
for each answer, right after it one for its bid if it is one, and last one for the request. With any other
extension it is handed none, and each of these events is reported. -/
theorem run_accounts {response : Response} (h : ((run policy s x).run t).value = .ok response) :
    ∃ result, ((build policy s x).run t).value = .ok result ∧
      response = respond (resolvedRequest x.request result) result ∧
      let told := loggedSteps ((run policy s x).run t).steps
      let count := 1 + result.round.responses.length + result.round.bidCount
      (NamesObject x.request.ext →
        (handed told).map (·.label?) = (accounts result.round).map some ∧
        (∀ m ∈ handed told, m.topic = .adEvents) ∧ (handed told).length = count) ∧
      (¬ NamesObject x.request.ext →
        handed told = [] ∧ reported told = List.replicate count (.event "unmarshal ext")) := by
  obtain ⟨result, hb, hresponse⟩ := run_ok h
  obtain ⟨c, hrequest, htold⟩ := loggedSteps_run hb h
  have hext : c.request.ext = x.request.ext := by rw [hrequest]; rfl
  have hlength : (eventRows c result).length =
      1 + result.round.responses.length + result.round.bidCount := by
    rw [← length_accounts, ← label_eventRows c, List.length_map]
  refine ⟨result, hb, hresponse, ?_⟩
  dsimp only
  rw [htold, ← hext]
  constructor
  · intro hnames
    obtain ⟨ext, hhanded⟩ := @handed_events c result s.engine hnames
    rw [hhanded]
    refine ⟨?_, ?_, ?_⟩
    · rw [← label_eventRows c, List.map_map, List.map_map]
      exact List.map_congr_left fun e _ => label?_message e ext
    · intro m hm
      obtain ⟨e, -, rfl⟩ := List.mem_map.1 hm
      rfl
    · rw [List.length_map, hlength]
  · intro hnames
    rw [log_events_of_not s.engine hnames, Event.handed_map_reported, Event.reported_map_reported,
      List.map_const', hlength]
    exact ⟨rfl, rfl⟩

end

def objectText : String := "\x7b\"a\":1\x7d"

def listText : String := "[1]"

/-- The picky auction, with an extension. -/
def extendedSubject (ext : String) : Subject :=
  { pickySubject with request := { pickySubject.request with ext := ext } }

def bidsOnce : Bidding.Bidder := ⟨fun _ _ _ => ⟨1, .ok [.ofBid .bidmachine { price := 4.0 }]⟩⟩

def bidsNever : Bidding.Bidder := ⟨fun _ _ _ => ⟨0, .ok []⟩⟩

def pickyBidders : Bidding.Bidders := .ofList [(.bidmachine, bidsOnce), (.vungle, bidsNever)]

def pickyAccounts : List EventLabel :=
  [⟨"bid_request", "mintegral", "ERROR"⟩, ⟨"bid_request", "bidmachine", "BID"⟩,
    ⟨"bid", "bidmachine", "SUCCESS"⟩, ⟨"auction_request", "", "SUCCESS"⟩]

/-- With the stores of the picky auction there is a unit with a fixed price, and two adapters are asked. -/
theorem stores_picky : ∀ ext ∈ [objectText, listText],
    ((prepare {} pickyServices (extendedSubject ext)).run 0).value.toOption.isSome ∧
    ∀ g ∈ ((prepare {} pickyServices (extendedSubject ext)).run 0).value.toOption,
      (g.cpm {} (extendedSubject ext).request).isEmpty = false ∧
      let c := settingsCourse {} pickyServices (extendedSubject ext) 0 g
      c.value.toOption.isSome ∧ ∀ configs ∈ c.value.toOption,
        accounts ⟨(g.config.bidding.filter (MayBid {} (extendedSubject ext).request configs ·)).flatMap
          fun a => Bidding.block (g.params {} pickyServices (extendedSubject ext) configs c.finish)
            c.finish a (pickyBidders.get? a), 0⟩ = pickyAccounts := by
  decide +kernel

/-- The picky auction succeeds whatever bidders say, and its round has two answers, one of them a bid. -/
theorem accounts_picky {ext : String} (hext : ext ∈ [objectText, listText]) :
    (∃ response, ((run {} pickyServices (extendedSubject ext)).run 0).value = .ok response) ∧
    ∀ result, ((build {} pickyServices (extendedSubject ext)).run 0).value = .ok result →
      accounts result.round = pickyAccounts := by
  have hrounds : pickyServices.rounds = .fanOut pickyBidders fun _ => ⟨0, .ok ()⟩ := rfl
  obtain ⟨hsome, hall⟩ := stores_picky ext hext
  rcases hp : ((prepare {} pickyServices (extendedSubject ext)).run 0).value with e | g <;>
    rw [hp] at hsome hall
  · cases hsome
  obtain ⟨hcpm, hall⟩ := hall g rfl
  dsimp only at hall
  rcases hc : settingsCourse {} pickyServices (extendedSubject ext) 0 g with ⟨e | configs, now, l⟩ <;>
    rw [hc] at hall
  · cases hall.1
  have hd : Dispatches {} pickyServices (extendedSubject ext) 0 g configs now :=
    ⟨hp, by rw [hc]; rfl, by rw [hc]⟩
  have hfits : ({} : Request.Session).Fits := by decide
  constructor
  · rw [value_run, value_resolve hrounds hp, hc]
    dsimp only [Except.bind]
    rw [hcpm, Bool.false_and, if_neg Bool.false_ne_true]
    exact ⟨_, if_pos hfits⟩
  · intro result hb
    rw [build_ok_of_dispatches hrounds hd hb]
    show accounts (Bidding.holdRound _ _ _ _ _).value = _
    rw [value_holdRound_params]
    exact (accounts_stamp _ _ _).trans (hall.2 configs rfl)

/-- An adapter without a bidder and one that bids have three events between them, and the request has
one. They are handed over with an object for an extension, and reported with a list. -/
theorem run_accounts_picky :
    (handed (loggedSteps ((run {} pickyServices (extendedSubject objectText)).run 0).steps)).map
        (·.label?) = pickyAccounts.map some ∧
    handed (loggedSteps ((run {} pickyServices (extendedSubject listText)).run 0).steps) = [] ∧
    reported (loggedSteps ((run {} pickyServices (extendedSubject listText)).run 0).steps) =
      List.replicate 4 (.event "unmarshal ext") := by
  obtain ⟨⟨response, hok⟩, haccounts⟩ :=
    accounts_picky (List.mem_cons_self : objectText ∈ [objectText, listText])
  obtain ⟨⟨response', hok'⟩, haccounts'⟩ :=
    accounts_picky (List.mem_cons_of_mem _ List.mem_cons_self : listText ∈ [objectText, listText])
  obtain ⟨result, hb, -, hobject, -⟩ := run_accounts hok
  obtain ⟨result', hb', -, -, hlist⟩ := run_accounts hok'
  have hcount : 1 + result'.round.responses.length + result'.round.bidCount = 4 := by
    rw [← length_accounts, haccounts' result' hb']
    rfl
  obtain ⟨hhanded, -, -⟩ := hobject (by decide +kernel)
  rw [haccounts result hb] at hhanded
  obtain ⟨hnone, hreported⟩ := hlist (by decide +kernel)
  rw [hcount] at hreported
  exact ⟨hhanded, hnone, hreported⟩

end Mediation.Auction
