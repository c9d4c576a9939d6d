/-
The two readings of the extension of a request. An auction takes an extension that is not the text of an
object for an empty one, and its events are refused for it. Nothing else of an auction looks at the
extension. So an auction with such an extension is the auction without any, step by step and to its end,
but for the events, each of which is reported in the one and handed over in the other.
-/
import Mediation.Proofs.Auction.Accounting

namespace Mediation

open Event (NamesObject)

/-! ## Readings -/

theorem Json.settleObject_eq (v : Json) : v.settleObject = match v.settle with
    | some (.obj members) => some (.ofList members)
    | _ => none := by
  unfold settleObject
  rcases v.settle with _ | w
  · rfl
  · cases w <;> rfl

namespace Request

/-- An auction reads the extension of its request as events do, and takes it for empty where they refuse
it. -/
theorem extData_eq (r : Request) : r.extData = (Event.parseExt r.ext).toOption.getD .empty := by
  unfold extData Event.parseExt
  split
  · rfl
  · rcases Json.parse r.ext with _ | v
    · rfl
    · rw [Option.bind_some, Option.bind_some, Json.settleObject_eq]
      rcases v.settle with _ | w
      · rfl
      · cases w <;> rfl

theorem extData_of_ok {r : Request} {d : Dict String Json} (h : Event.parseExt r.ext = .ok d) :
    r.extData = d := by
  rw [extData_eq, h]
  rfl

theorem extData_of_error {r : Request} {e : AuctionError} (h : Event.parseExt r.ext = .error e) :
    r.extData = .empty := by
  rw [extData_eq, h]
  rfl

end Request

/-! ## Rounds -/

namespace Bidding

/-- What a round is held with, the request with another extension. -/
def Params.withExt (p : Params) (ext : String) : Params :=
  { p with request := { p.request with ext := ext } }

/-- A bidder does not look at the extension of the request. -/
def Bidder.IgnoresExt (b : Bidder) : Prop :=
  ∀ base r configs ext, b.fetch base { r with ext := ext } configs = b.fetch base r configs

section

variable {bidders : Bidders} (h : ∀ a b, bidders.get? a = some b → b.IgnoresExt) (p : Params)
variable (ext : String)

include h

theorem arrival_withExt (start place : Nat) (a : Adapter) :
    arrival bidders (p.withExt ext) start place a = arrival bidders p start place a := by
  unfold arrival
  rcases hb : bidders.get? a with _ | b
  · rfl
  · have hfetch : b.fetch ((p.withExt ext).baseRequest start) (p.withExt ext).request
        (p.withExt ext).initConfigs = b.fetch (p.baseRequest start) p.request p.initConfigs :=
      h a b hb _ _ _ ext
    dsimp only
    rw [hfetch]
    rfl

/-- A round is the same whatever the extension is. Neither does the bid request hold it, nor is the
listener told of it. -/
theorem holdRound_withExt (clock : Clock) (listener : Listener) :
    holdRound clock bidders listener (p.withExt ext) = holdRound clock bidders listener p := by
  have harrivals (start : Nat) :
      arrivals bidders (p.withExt ext) start = arrivals bidders p start := by
    unfold arrivals
    simp only [arrival_withExt h]
    rfl
  have hgather : gather clock bidders (p.withExt ext) = gather clock bidders p := by
    funext start
    unfold gather
    rw [harrivals]
    rfl
  unfold holdRound
  rw [hgather]
  rfl

end

end Bidding

namespace Auction

/-- Whoever holds the rounds of an auction does not look at the extension of the request. -/
inductive RoundHolder.IgnoresExt : RoundHolder → Prop
  | fanOut {bidders : Bidding.Bidders} {listener : Bidding.Listener} :
      (∀ a b, bidders.get? a = some b → b.IgnoresExt) → IgnoresExt (.fanOut bidders listener)
  | given {hold : Bidding.Params → Reply (Except AuctionError Bidding.Round)} :
      (∀ p ext, hold (p.withExt ext) = hold p) → IgnoresExt (.given hold)

theorem Services.holdRound_withExt {s : Services} (h : s.rounds.IgnoresExt) (p : Bidding.Params)
    (ext : String) : s.holdRound (p.withExt ext) = s.holdRound p := by
  unfold holdRound
  generalize s.rounds = holder at h
  cases h with
  | fanOut hbidders =>
    dsimp only
    rw [Bidding.holdRound_withExt hbidders]
  | given hhold =>
    dsimp only
    rw [hhold]

/-! ## Results -/

/-- What is auctioned, with another extension of the request. -/
def Subject.withExt (x : Subject) (ext : String) : Subject :=
  { x with request := { x.request with ext := ext } }

section

variable {policy : Policy} {s : Services} {x : Subject} {ext : String}

/-- All that an auction makes of the extension is the mediator and the price of the previous auction. -/
theorem mediator_withExt (h : (x.withExt ext).request.extData = x.request.extData) :
    (x.withExt ext).request.mediator = x.request.mediator := by
  unfold Request.mediator
  rw [h]

theorem priceFloor_withExt (h : (x.withExt ext).request.extData = x.request.extData)
    (mediators : List String) (c : Config) :
    priceFloor mediators (x.withExt ext).request c = priceFloor mediators x.request c := by
  have hcascading : isCascading mediators (x.withExt ext).request = isCascading mediators x.request := by
    unfold isCascading
    rw [mediator_withExt h]
  have hprevious :
      (x.withExt ext).request.previousAuctionPrice = x.request.previousAuctionPrice := by
    unfold Request.previousAuctionPrice
    rw [h]
  unfold priceFloor
  rw [hcascading, hprevious]
  rfl

theorem params_withExt (h : (x.withExt ext).request.extData = x.request.extData) (g : Groundwork)
    (configs : InitConfigs) (now : Nat) : g.params policy s (x.withExt ext) configs now =
      (g.params policy s x configs now).withExt ext := by
  unfold Groundwork.params
  rw [priceFloor_withExt h]
  rfl

theorem result_withExt (h : (x.withExt ext).request.extData = x.request.extData) (g : Groundwork)
    (round : Bidding.Round) : g.result policy (x.withExt ext).request round =
      g.result policy x.request round := by
  unfold Groundwork.result
  rw [priceFloor_withExt h]
  rfl

theorem bid_withExt (hs : s.rounds.IgnoresExt) (h : (x.withExt ext).request.extData = x.request.extData)
    (g : Groundwork) : bid policy s (x.withExt ext) g = bid policy s x g := by
  unfold bid
  simp only [params_withExt h, Services.holdRound_withExt hs]
  rfl

/-- Up to its result an auction is the same with any extension that the auction reads alike. -/
theorem build_withExt (hs : s.rounds.IgnoresExt)
    (h : (x.withExt ext).request.extData = x.request.extData) :
    build policy s (x.withExt ext) = build policy s x := by
  have hprepare : prepare policy s (x.withExt ext) = prepare policy s x := rfl
  unfold build resolve
  simp only [hprepare, bid_withExt hs h, result_withExt h]

theorem respond_withExt (h : (x.withExt ext).request.extData = x.request.extData) (result : Result) :
    respond (resolvedRequest (x.withExt ext).request result) result =
      respond (resolvedRequest x.request result) result := by
  have hmediator : (resolvedRequest (x.withExt ext).request result).mediator =
      (resolvedRequest x.request result).mediator := mediator_withExt h
  unfold respond
  rw [hmediator]
  rfl

end

/-! ## Events -/

/-- The rows of an auction say the same with another extension, but for what that says. -/
theorem message_eventRows_withExt (s : Services) (x : Subject) (result : Result) (now : Nat) (ext : String)
    (d : Dict String Json) :
    (eventRows (eventContext s (x.withExt ext) result now) result).map (·.message d) =
      (eventRows (eventContext s x result now) result).map (·.message d) := by
  unfold eventRows events EventContext.roundEvents
  simp only [List.flatMap_append, List.map_append, List.flatMap_map, List.map_flatMap]
  refine congrArg₂ (· ++ ·) (List.flatMap_congr fun r _ => ?_) rfl
  unfold AdEventGroup.rows EventContext.answerEvents
  cases r.isBid <;> rfl

/-- A step of logging events. -/
def Step.isLogged : Step → Bool
  | .logged _ => true
  | _ => false

/-- The second of two courses of an auction goes as the first one, to the same end at the same time, but
for the events: what the first one reports as unreadable, the second one hands to the engine. -/
structure ProducesInstead (engine : Event.Engine) (rows : List AdEvent)
    (c c' : Course Step (Except Stop Response)) : Prop where
  value : c'.value = c.value
  finish : c'.finish = c.finish
  steps : c'.steps.filter (!·.step.isLogged) = c.steps.filter (!·.step.isLogged)
  reported : loggedSteps c.steps = rows.map fun _ => .reported (.event "unmarshal ext")
  handed : loggedSteps c'.steps = (rows.map (·.message .empty)).flatMap (Event.handOver engine)

section

variable {policy : Policy} {s : Services} {x : Subject} {t : Nat}

theorem filter_isLogged_map (now : Nat) (l : List Event.LogStep) :
    ((l.map Step.logged).map (⟨now, ·⟩ : Step → Timed Step)).filter (!·.step.isLogged) = [] := by
  rw [List.filter_eq_nil_iff]
  intro u hu
  simp only [List.map_map, List.mem_map] at hu
  obtain ⟨k, -, rfl⟩ := hu
  exact Bool.false_ne_true

/-- An auction whose extension is no object against the same one without an extension. -/
theorem producesInstead_of_not_namesObject (hs : s.rounds.IgnoresExt)
    (h : ¬ NamesObject x.request.ext) : ∃ rows,
      ProducesInstead s.engine rows ((run policy s x).run t) ((run policy s (x.withExt "")).run t) ∧
      (∀ stop, ((run policy s x).run t).value = .error stop → rows = []) ∧
      ∀ response, ((run policy s x).run t).value = .ok response →
        ∃ result, ((build policy s x).run t).value = .ok result ∧
          rows.map AdEvent.label = accounts result.round := by
  have hrefused := Event.parseExt_of_not_namesObject h
  have hext : (x.withExt "").request.extData = x.request.extData := by
    rw [Request.extData_of_error hrefused]
    rfl
  have hbuild : (build policy s (x.withExt "")).run t = (build policy s x).run t := by
    rw [build_withExt hs hext]
  have hlogged : loggedSteps ((build policy s x).run t).steps = [] := loggedSteps_build
  -- an auction that does not answer logs nothing
  have hquiet {stop : Stop} (hsame : (run policy s (x.withExt "")).run t = (run policy s x).run t)
      (hstop : ((run policy s x).run t).value = .error stop) : ∃ rows,
        ProducesInstead s.engine rows ((run policy s x).run t) ((run policy s (x.withExt "")).run t) ∧
        (∀ stop, ((run policy s x).run t).value = .error stop → rows = []) ∧
        ∀ response, ((run policy s x).run t).value = .ok response →
          ∃ result, ((build policy s x).run t).value = .ok result ∧
            rows.map AdEvent.label = accounts result.round := by
    have hnone := loggedSteps_run_of_error hstop
    refine ⟨[], ⟨congrArg _ hsame, congrArg _ hsame, ?_, hnone, ?_⟩, fun _ _ => rfl, fun response hok => ?_⟩
    · rw [hsame]
    · rw [hsame]
      exact hnone
    · rw [hstop] at hok
      cases hok
  rcases hb : (build policy s x).run t with ⟨e | result, now, l⟩ <;> rw [hb] at hbuild hlogged hquiet
  · have hrun := run_of_build_error hb
    exact hquiet ((run_of_build_error hbuild).trans hrun.symm) (congrArg Course.value hrun)
  by_cases hfits : x.request.session.Fits
  · -- one that answers logs the rows of its result, which say the same but for the extension
    have hrun := run_of_build_ok hb hfits
    have hrun' := run_of_build_ok hbuild hfits
    refine ⟨eventRows (eventContext s x result now) result, ⟨?_, ?_, ?_, ?_, ?_⟩, ?_, ?_⟩
    · rw [hrun, hrun']
      exact congrArg Except.ok (respond_withExt hext result)
    · rw [hrun, hrun']
    · rw [hrun, hrun']
      simp only [List.filter_append, List.filter_cons, filter_isLogged_map]
    · rw [hrun]
      dsimp only
      rw [loggedSteps_append, hlogged, List.nil_append, log_events_of_not s.engine (by exact h)]
      exact loggedSteps_map now _
    · rw [hrun']
      dsimp only
      have hempty : Event.parseExt "" = .ok .empty := rfl
      rw [loggedSteps_append, hlogged, List.nil_append, log_events_of_ok s.engine hempty,
        message_eventRows_withExt]
      exact loggedSteps_map now _
    · intro stop hstop
      rw [hrun] at hstop
      cases hstop
    · exact fun _ _ => ⟨result, rfl, label_eventRows _ _⟩
  · have hrun := run_of_build_overflow hb hfits
    exact hquiet ((run_of_build_overflow hbuild hfits).trans hrun.symm) (congrArg Course.value hrun)

end

/-- Auction and events read an extension alike: what events read is what the auction reads, and what they
refuse, since it is not the text of an object, the auction takes for empty. So an auction with such an
extension goes as it goes without any, with the same floor, the same calls and the same answer at the same
time, provided that nobody who bids looks at the extension. Only its events do not reach the engine. -/
theorem ext_readings_agree :
    (∀ (r : Request) d, Event.parseExt r.ext = .ok d → r.extData = d) ∧
    (∀ (r : Request) e, Event.parseExt r.ext = .error e →
      ¬ NamesObject r.ext ∧ r.extData = .empty) ∧
    ∀ (policy : Policy) (s : Services) (x : Subject) (t : Nat), s.rounds.IgnoresExt →
      ¬ NamesObject x.request.ext →
      (∀ c, priceFloor policy.mediators (x.withExt "").request c =
        priceFloor policy.mediators x.request c) ∧
      ∃ rows, ProducesInstead s.engine rows ((run policy s x).run t)
          ((run policy s (x.withExt "")).run t) ∧
        (∀ stop, ((run policy s x).run t).value = .error stop → rows = []) ∧
        ∀ response, ((run policy s x).run t).value = .ok response →
          ∃ result, ((build policy s x).run t).value = .ok result ∧
            rows.map AdEvent.label = accounts result.round := by
  refine ⟨fun r d => Request.extData_of_ok, fun r e he => ⟨fun hnames => ?_, Request.extData_of_error he⟩,
    fun policy s x t hs h => ⟨fun c => ?_, producesInstead_of_not_namesObject hs h⟩⟩
  · obtain ⟨d, hd⟩ := Event.parseExt_of_namesObject hnames
    rw [hd] at he
    cases he
  · refine priceFloor_withExt ?_ policy.mediators c
    rw [Request.extData_of_error (Event.parseExt_of_not_namesObject h)]
    rfl

/-- An object that holds lists in lists, one more than can be read. -/
def deepText : String :=
  "\x7b\"a\":" ++ String.ofList (List.replicate 127 '[' ++ List.replicate 127 ']') ++ "\x7d"

/-- The bidders of the picky auction say the same to everybody. -/
theorem ignoresExt_picky : pickyServices.rounds.IgnoresExt := by
  refine .fanOut fun a b hb => ?_
  rw [Dict.get?_ofList] at hb
  simp only [List.reverse_cons, List.reverse_nil, List.nil_append, List.cons_append,
    Dict.lookupEntry] at hb
  split at hb
  · cases hb
    exact fun _ _ _ _ => rfl
  · split at hb <;> cases hb
    exact fun _ _ _ _ => rfl

/-- An extension that is too deep keeps the four events of the picky auction from the engine, and changes
nothing else. -/
theorem ext_readings_agree_deep : ∃ rows, rows.map AdEvent.label = pickyAccounts ∧
    ProducesInstead pickyServices.engine rows
      ((run {} pickyServices (pickySubject.withExt deepText)).run 0)
      ((run {} pickyServices (pickySubject.withExt "")).run 0) := by
  have hdeep : ¬ NamesObject deepText := by decide +kernel
  have hlist : ¬ NamesObject listText := by decide +kernel
  obtain ⟨-, -, hdropped⟩ := ext_readings_agree
  obtain ⟨-, rows, hproduces, -, hrows⟩ :=
    hdropped {} pickyServices (pickySubject.withExt deepText) 0 ignoresExt_picky hdeep
  refine ⟨rows, ?_, hproduces⟩
  -- what the round comes to is known for another extension that is no object
  obtain ⟨⟨response, hok⟩, haccounts⟩ :=
    accounts_picky (List.mem_cons_of_mem _ List.mem_cons_self : listText ∈ [objectText, listText])
  obtain ⟨result, hb, -⟩ := run_ok hok
  have hsame : ((extendedSubject listText).withExt deepText).request.extData =
      (extendedSubject listText).request.extData :=
    (Request.extData_of_error (Event.parseExt_of_not_namesObject hdeep)).trans
      (Request.extData_of_error (Event.parseExt_of_not_namesObject hlist)).symm
  have hbuild : build {} pickyServices ((extendedSubject listText).withExt deepText) =
      build {} pickyServices (extendedSubject listText) := build_withExt ignoresExt_picky hsame
  rw [← hbuild] at hb
  have hfits : ({} : Request.Session).Fits := by decide
  obtain ⟨result', hb', hlabels⟩ := hrows _ (value_run_of_fits hb hfits)
  obtain rfl : result = result' := Except.ok.inj (hb.symm.trans hb')
  rw [hlabels]
  rw [hbuild] at hb
  exact haccounts result hb

end Auction

end Mediation
