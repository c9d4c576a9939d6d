/-
What comes before what in an auction. Each stage waits for the one before it, so a step of a later stage
has the earlier ones behind it: over, and with success. An auction that fails has called no bidder, has
told nobody of a round, and has handed over no event. For that one has to know that the only failure
after the bidders' turn is that there was none to ask: whoever is asked has an answer in the round.
-/
import Mediation.Proofs.Auction.Stages

namespace Mediation.Auction

open Activity Attempt

/-! ## Forward in time -/

theorem forward_gather (clock : Clock) (bidders : Bidding.Bidders) (p : Bidding.Params) :
    Forward (Bidding.gather clock bidders p) := by
  refine fun start => ⟨(Bidding.le_lastArrival _ _).1, fun u hu => ?_⟩
  obtain ⟨c, -, rfl⟩ := List.mem_map.1 hu
  exact Nat.le_refl start

theorem forward_holdRound (clock : Clock) (bidders : Bidding.Bidders) (listener : Bidding.Listener)
    (p : Bidding.Params) : Forward (Bidding.holdRound clock bidders listener p) := by
  unfold Bidding.holdRound
  split
  · exact forward_pure _
  · exact (forward_gather _ _ _).bind fun _ => (forward_ask _ _).bind fun _ => forward_pure _

section

variable (policy : Policy) (s : Services) (x : Subject)

theorem forward_enter {ε : Type} (e : Stage) : Forward (Action.enter e : Attempt ε Step Unit).run :=
  Forward.lift (forward_step _)

theorem forward_matchUnits (c : Config) : Forward (matchUnits policy s x c).run := by
  intro t
  rw [run_matchUnits]
  refine ⟨Nat.le_add_right _ _, fun u hu => ?_⟩
  simp only [List.mem_cons, List.not_mem_nil, or_false] at hu
  obtain rfl | rfl := hu <;> exact Nat.le_refl t

theorem forward_roundSettings (adapters : List Adapter) (units : AdUnits) :
    Forward (roundSettings s x adapters units).run := by
  unfold roundSettings
  split
  · exact forward_pure _
  · refine (forward_settingsFor s _ _ _ _).bind fun answer => ?_
    split <;> exact forward_pure _

theorem forward_heldRound (p : Bidding.Params) : Forward (s.holdRound p) := by
  unfold Services.holdRound
  split
  · exact (Forward.mapSteps (forward_holdRound _ _ _ _) _).bind fun _ => forward_pure _
  · exact (forward_await _).bind fun _ => forward_pure _

theorem forward_bid (g : Groundwork) : Forward (bid policy s x g).run := by
  refine (forward_enter _).attempt_bind fun _ => ?_
  refine (forward_roundSettings s x _ _).attempt_bind fun configs => ?_
  split
  · exact forward_pure _
  · exact (Forward.lift forward_now).attempt_bind fun now => forward_heldRound s _

/-- What follows on the preparation goes forward. -/
theorem forward_afterPrepare (g : Groundwork) : Forward
    (do let round ← bid policy s x g
        let result := g.result policy x.request round
        if result.cpmAdUnits.isEmpty && round.responses.isEmpty then throw .noAdsFound
        pure result : Action Result).run := by
  refine (forward_bid policy s x g).attempt_bind fun round => ?_
  dsimp only
  split <;> exact forward_pure _

theorem forward_conclude (result : Result) : Forward (conclude s x result).run := by
  refine (forward_enter _).attempt_bind fun _ => Forward.attempt_bind ?_ fun _ => forward_pure _
  refine (Forward.lift forward_now).attempt_bind fun _ => ?_
  split
  · exact forward_pure _
  · exact Forward.lift (forward_allSteps _)

end

/-! ## Before a step -/

/-- The configuration is settled by an instant: the segments were asked for, then, when they were there,
the configuration; it was found, it is there, and it names units. -/
structure Settled (s : Services) (x : Subject) (t : Nat) (l : ConfigLookup) (c : Config)
    (before : List (Timed Step)) (now : Nat) : Prop where
  lookup : lookupOf s x = .ok l
  found : (s.configs.reply l).answer = .ok c
  units : c.adUnitIds ≠ []
  asked : [⟨t, .segmentsFetched x.appId⟩, ⟨t + (s.segments x.appId).delay, .configLooked l⟩] <:+: before
  answered : t + (s.segments x.appId).delay + (s.configs.reply l).delay ≤ now

/-- Which stages an auction that starts at `t` has behind it when it takes a step of a later stage. -/
def EarlierStages (policy : Policy) (s : Services) (x : Subject) (t : Nat) (bidders : Bidding.Bidders)
    (before : List (Timed Step)) (u : Timed Step) : Prop :=
  match u.step with
  | .entered _ | .segmentsFetched _ | .configLooked _ => True
  | .unitsMatched o => ∃ segment c, Behind (settle s x) t (segment, c) before u.time ∧
      o = opportunity policy x c
  | .profilesLooked _ => ∃ g, Behind (prepare policy s x) t g before u.time
  | .round r => ∃ g configs, Behind (prepare policy s x) t g before u.time ∧
      Behind (roundSettings s x (g.allowed policy x.request) (.ofUnits g.units))
        ((prepare policy s x).run t).finish configs before u.time ∧
      ∀ n, r = .notified n →
        let now := (settingsCourse policy s x t g).finish
        let p := g.params policy s x configs now
        (Bidding.calls bidders p now).map (fun c => ⟨now, .round (.called c)⟩) <:+: before ∧
          ∀ e ∈ Bidding.arrivals bidders p now, e.time ≤ u.time
  | .logged _ => ∃ result, Behind (build policy s x) t result before u.time

section

variable {policy : Policy} {s : Services} {x : Subject} {t : Nat}
variable {before after : List (Timed Step)} {u : Timed Step} {now : Nat}

/-- Who has the configuration behind it has it settled. -/
theorem settled_of_behind {segment : Segment} {c : Config}
    (h : Behind (settle s x) t (segment, c) before now) : ∃ l, Settled s x t l c before now := by
  obtain ⟨hvalue, hsteps, hended⟩ := h
  rw [run_settle] at hvalue hsteps hended
  rcases hl : lookupOf s x with e | l <;> rw [hl] at hvalue hsteps hended
  · cases hvalue
  · dsimp only at hvalue hsteps hended
    rcases hr : (s.configs.reply l).answer with e | c' <;> rw [hr] at hvalue
    · cases hvalue
    · dsimp only [Except.bind, withUnitIds] at hvalue
      split at hvalue
      · cases hvalue
      · rename_i hunits
        cases hvalue
        refine ⟨l, hl, hr, fun h => hunits (List.isEmpty_iff.2 h), ?_, hended⟩
        exact (List.suffix_cons _ _).isInfix.trans hsteps

theorem behind_settle {g : Groundwork} (h : Behind (prepare policy s x) t g before now) :
    Behind (settle s x) t (g.segment, g.config) before now := by
  obtain ⟨hvalue, hsteps, hended⟩ := h
  unfold prepare at hvalue hsteps hended
  rw [run_bind_of_ok (run_now t)] at hvalue hsteps hended
  obtain ⟨⟨segment, c⟩, hsettle, hrest⟩ := Behind.first ⟨hvalue, hsteps, hended⟩ fun p =>
    (forward_matchUnits policy s x p.2).attempt_bind fun _ => forward_pure _
  obtain ⟨units, -, hg, -⟩ := run_bind_ok hrest
  cases hg
  exact hsettle

/-- What has the result of an auction behind it has all behind it that the result needs. -/
theorem behind_prepare {result : Result} (h : Behind (build policy s x) t result before now) :
    ∃ g, Behind (prepare policy s x) t g before now := by
  obtain ⟨hvalue, hsteps, hended⟩ := h
  rw [run_build] at hvalue hsteps hended
  have hresolve : Behind (resolve policy s x) t result before now :=
    ⟨hvalue, (List.prefix_append _ _).isInfix.trans hsteps, hended⟩
  obtain ⟨g, hg, -⟩ := hresolve.first (forward_afterPrepare policy s x)
  exact ⟨g, hg⟩

/-! ## Steps of the stages -/

/-- A step that is not one of the assembly is a step of reaching the result. -/
theorem split_resolve (h : ((run policy s x).run t).steps = before ++ u :: after)
    (hassembling : u.step.stage ≠ .assembling) (hentered : ∀ e, u.step ≠ .entered e) :
    ∃ after', ((resolve policy s x).run t).steps = before ++ u :: after' := by
  obtain ⟨after', h⟩ := split_bind_left (fun result => takes_conclude s x result) h hassembling
  rw [run_adapt, run_build] at h
  refine split_append_left (P := fun v => ∃ e, v = .entered e) h ?_ fun ⟨e, he⟩ => hentered e he
  intro v hv
  cases List.mem_singleton.1 hv
  exact ⟨_, rfl⟩

/-- The units are matched once the configuration is settled. -/
theorem earlier_unitsMatched {o : Opportunity}
    (h : ((run policy s x).run t).steps = before ++ u :: after) (hu : u.step = .unitsMatched o) :
    ∃ segment c, Behind (settle s x) t (segment, c) before u.time ∧ o = opportunity policy x c := by
  have hstage : u.step.stage = .matching := by rw [hu]; rfl
  obtain ⟨after', h⟩ := split_resolve h (by rw [hstage]; decide) (by simp [hu])
  -- the bidding matches nothing, so this is a step of the preparation
  obtain ⟨after', h⟩ := split_bind_left (P := fun v => v.stage = .dispatching) (fun g =>
    (takes_bid policy s x g).attempt_bind fun round => takes_check policy x g round) h
    (by rw [hstage]; decide)
  unfold prepare at h
  rw [run_bind_of_ok (run_now t), List.nil_append] at h
  obtain ⟨⟨segment, c⟩, rest, hsettle, -, h⟩ := behind_of_bind (takes_settle s x)
    (fun p => (forward_matchUnits policy s x p.2).attempt_bind fun _ => forward_pure _) h
    (by rw [hstage]; decide)
  obtain ⟨after', h⟩ := split_bind_left (P := fun _ => False) (fun _ => takes_pure _) h not_false
  rw [run_matchUnits] at h
  have hmem : u ∈ rest ++ u :: after' := List.mem_append_right _ List.mem_cons_self
  rw [← h] at hmem
  simp only [List.mem_cons, List.not_mem_nil, or_false] at hmem
  obtain rfl | rfl := hmem
  · cases hu
  · cases hu
    exact ⟨segment, c, hsettle, rfl⟩

/-- A step of turning to the adapters has the preparation behind it, and is a step of the bidding. -/
theorem earlier_dispatching (h : ((run policy s x).run t).steps = before ++ u :: after)
    (hu : u.step.stage = .dispatching) (hentered : ∀ e, u.step ≠ .entered e) :
    ∃ g rest after', Behind (prepare policy s x) t g before u.time ∧
      before = ((prepare policy s x).run t).steps ++ rest ∧
      ((bid policy s x g).run ((prepare policy s x).run t).finish).steps = rest ++ u :: after' := by
  obtain ⟨after', h⟩ := split_resolve h (by rw [hu]; decide) hentered
  obtain ⟨g, rest, hg, hbefore, h⟩ := behind_of_bind (takes_prepare policy s x)
    (forward_afterPrepare policy s x) h (by rw [hu]; decide)
  obtain ⟨after', h⟩ := split_bind_left (P := fun _ => False)
    (fun round => takes_check policy x g round) h not_false
  exact ⟨g, rest, after', hg, hbefore, h⟩

variable {bidders : Bidding.Bidders} {listener : Bidding.Listener} {g : Groundwork}

/-- The listener is told of a round when all calls were made and have ended. -/
theorem earlier_notified {clock : Clock} {p : Bidding.Params} {start : Nat} {n : Bidding.Notice}
    {before after : List (Timed Bidding.RoundStep)} {u : Timed Bidding.RoundStep}
    (h : (Bidding.holdRound clock bidders listener p start).steps = before ++ u :: after)
    (hu : u.step = .notified n) :
    before = (Bidding.calls bidders p start).map (fun c => ⟨start, .called c⟩) ∧
      ∀ e ∈ Bidding.arrivals bidders p start, e.time ≤ u.time := by
  by_cases hn : p.dispatched = []
  · rw [Bidding.holdRound_of_nil _ _ _ _ _ hn] at h
    exact absurd h (by simp)
  · rw [Bidding.steps_holdRound _ _ _ _ _ hn] at h
    obtain ⟨rest, rfl, hrest⟩ := split_append (P := fun v => ∃ c, v = .called c) h
      (fun v hv => by obtain ⟨c, -, rfl⟩ := List.mem_map.1 hv; exact ⟨c, rfl⟩)
      (fun ⟨c, hc⟩ => by rw [hu] at hc; cases hc)
    obtain ⟨rfl, hrest⟩ | ⟨-, hrest⟩ := List.singleton_eq_append_iff.1 hrest
    · obtain ⟨rfl, -⟩ := List.cons.inj hrest
      exact ⟨List.append_nil _, (Bidding.le_lastArrival start _).2⟩
    · cases hrest

/-- No step up to the settings is one of the round. -/
theorem not_round_of_profilesLooked {l : List (Timed Step)}
    (hl : ∀ v ∈ l, ∃ k, v.step = .profilesLooked k) (start : Nat) :
    ∀ v ∈ (⟨start, .entered .dispatching⟩ : Timed Step) :: l, ∀ r, v.step ≠ .round r := by
  intro v hv r hr
  rcases List.mem_cons.1 hv with rfl | hv
  · cases hr
  · obtain ⟨k, hk⟩ := hl v hv
    rw [hr] at hk
    cases hk

/-- A step of the round has the settings behind it. -/
theorem earlier_round {start : Nat} {r : Bidding.RoundStep} (hs : s.rounds = .fanOut bidders listener)
    (h : ((bid policy s x g).run start).steps = before ++ u :: after) (hu : u.step = .round r) :
    ∃ configs rest after', Behind (roundSettings s x (g.allowed policy x.request) (.ofUnits g.units))
        start configs before u.time ∧ rest.map (fun v => ⟨v.time, .round v.step⟩) <:+: before ∧
      let now := ((roundSettings s x (g.allowed policy x.request) (.ofUnits g.units)).run start).finish
      (Bidding.holdRound s.clock bidders listener (g.params policy s x configs now) now).steps =
        rest ++ ⟨u.time, r⟩ :: after' := by
  have hl := takes_roundSettings s x (g.allowed policy x.request) (.ofUnits g.units) start
  rw [run_bid hs] at h
  rcases hc : (roundSettings s x (g.allowed policy x.request) (.ofUnits g.units)).run start with
    ⟨e | configs, now, l⟩ <;> rw [hc] at h hl <;> dsimp only at h hl
  · -- without settings there is no round
    have hmem : u ∈ before ++ u :: after := List.mem_append_right _ List.mem_cons_self
    rw [← h] at hmem
    exact absurd hu (not_round_of_profilesLooked hl start u hmem r)
  · -- the steps of the round are those after the settings, and they are the round's own
    obtain ⟨told, rfl, htold⟩ := split_append (P := fun v => ∀ r, v ≠ .round r)
      (l := ⟨start, .entered .dispatching⟩ :: l) h
      (not_round_of_profilesLooked hl start) fun hr => hr r hu
    obtain ⟨rest, held, hsteps, rfl, hheld⟩ := List.map_eq_append_iff.1 htold
    obtain ⟨v, after', rfl, rfl, -⟩ := List.map_eq_cons_iff.1 hheld
    cases hu
    refine ⟨configs, rest, after', ⟨by rw [hc], ?_, ?_⟩, List.suffix_append _ _ |>.isInfix, ?_⟩
    · rw [hc]
      exact ⟨[⟨start, .entered .dispatching⟩], rest.map _, rfl⟩
    · rw [hc]
      refine (forward_holdRound s.clock bidders listener (g.params policy s x configs now) now).2 v ?_
      rw [hsteps]
      exact List.mem_append_right _ List.mem_cons_self
    · exact hsteps

/-! ## Failures -/

theorem not_round_of_roundSteps {l : List (Timed Step)} (h : roundSteps l = []) :
    ∀ u ∈ l, ∀ r, u.step ≠ .round r := by
  intro u hu r hr
  have hmem : (⟨u.time, r⟩ : Timed Bidding.RoundStep) ∈ roundSteps l :=
    List.mem_filterMap.2 ⟨u, hu, by rw [hr]⟩
  rw [h] at hmem
  cases hmem

/-- An auction that fails does nothing by way of a round: it ends before, or finds nobody to ask. -/
theorem roundSteps_run_of_error (hs : s.rounds = .fanOut bidders listener) {e : AuctionError}
    (h : ((run policy s x).run t).value = .error (.failed e)) :
    roundSteps ((run policy s x).run t).steps = [] := by
  rcases hp : ((prepare policy s x).run t).value with e' | g
  · -- neither the preparation nor what may follow on a failure has a step of the round
    obtain ⟨l, hl, hassembling⟩ := @steps_run policy s x t
    rw [hl, run_build, (resolve_of_error hp).2, roundSteps_append, roundSteps_append,
      roundSteps_of_takes (takes_prepare policy s x) (by rintro r (h | h) <;> cases h)]
    refine roundSteps_eq_nil fun u hu r hr => ?_
    have hstage := hassembling u hu
    rw [hr] at hstage
    cases hstage
  · -- the round is that of nobody: without settings, or because an answer would have saved the auction
    have hd : Dispatches policy s x t g _ _ := ⟨hp, rfl, rfl⟩
    rw [roundSteps_run hs hd, Bidding.holdRound_of_nil]
    rw [value_run, value_resolve hs hp] at h
    rcases hc : (settingsCourse policy s x t g).value with e' | configs <;> rw [hc] at h
    · exact Bidding.dispatched_of_isEmpty rfl
    · rw [dispatched_params]
      dsimp only [Except.bind] at h
      by_cases hnothing : ((g.cpm policy x.request).isEmpty &&
          (g.config.bidding.filter (MayBid policy x.request configs ·)).isEmpty) = true
      · exact List.isEmpty_iff.1 (Bool.and_eq_true_iff.1 hnothing).2
      · rw [if_neg hnothing] at h
        exact absurd h (conclusion_ne_failed _ _)

theorem steps_run_of_error {e : AuctionError} (h : ((run policy s x).run t).value = .error (.failed e)) :
    ((run policy s x).run t).steps = ((build policy s x).run t).steps := by
  rw [run_run]
  rcases hb : (build policy s x).run t with ⟨e' | result, now, l⟩
  · rfl
  · rw [value_run, ← value_build, hb] at h
    exact absurd h (conclusion_ne_failed _ _)

/-- An auction that fails has called no bidder, told nobody of a round, and handed over no event. In any
auction a step of a later stage has the earlier stages behind it, over and with success: the segments
and the configuration were asked for and were there, and so on up to the step. -/
theorem run_failStop (hs : s.rounds = .fanOut bidders listener) :
    (∀ e, ((run policy s x).run t).value = .error (.failed e) → ∀ u ∈ ((run policy s x).run t).steps,
      (∀ r, u.step ≠ .round r) ∧ ∀ l, u.step ≠ .logged l) ∧
    ∀ before u after, ((run policy s x).run t).steps = before ++ u :: after →
      (∀ e, u.step ≠ .entered e) → u.step.stage ≠ .resolving →
        (∃ l c, Settled s x t l c before u.time) ∧
          EarlierStages policy s x t bidders before u := by
  constructor
  · intro e he u hu
    refine ⟨not_round_of_roundSteps (roundSteps_run_of_error hs he) u hu, ?_⟩
    rw [steps_run_of_error he] at hu
    exact takes_build policy s x t u hu
  · intro before u after h hentered hresolving
    obtain ⟨time, step⟩ := u
    cases step with
    | entered e => exact absurd rfl (hentered e)
    | segmentsFetched appId => exact absurd rfl hresolving
    | configLooked l => exact absurd rfl hresolving
    | unitsMatched o =>
      obtain ⟨segment, c, hsettle, ho⟩ := earlier_unitsMatched h rfl
      obtain ⟨l, hl⟩ := settled_of_behind hsettle
      exact ⟨⟨l, c, hl⟩, segment, c, hsettle, ho⟩
    | profilesLooked k =>
      obtain ⟨g, -, -, hg, -⟩ := earlier_dispatching h rfl hentered
      obtain ⟨l, hl⟩ := settled_of_behind (behind_settle hg)
      exact ⟨⟨l, _, hl⟩, g, hg⟩
    | round r =>
      obtain ⟨g, told, after', hg, rfl, hbid⟩ := earlier_dispatching h rfl hentered
      obtain ⟨configs, rest, after', hsettings, hrest, hheld⟩ := earlier_round hs hbid rfl
      obtain ⟨l, hl⟩ := settled_of_behind (behind_settle hg)
      have hsuffix := (List.suffix_append ((prepare policy s x).run t).steps told).isInfix
      refine ⟨⟨l, _, hl⟩, g, configs, hg, hsettings.mono hsuffix, ?_⟩
      rintro n rfl
      obtain ⟨rfl, hended⟩ := earlier_notified hheld rfl
      rw [List.map_map] at hrest
      exact ⟨hrest.trans hsuffix, hended⟩
    | logged k =>
      obtain ⟨result, -, hadapt, -⟩ := behind_of_bind (takes_build policy s x).adapt
        (fun result => forward_conclude s x result) h fun hk => hk k rfl
      have hbuild := hadapt.of_adapt
      obtain ⟨g, hg⟩ := behind_prepare hbuild
      obtain ⟨l, hl⟩ := settled_of_behind (behind_settle hg)
      exact ⟨⟨l, _, hl⟩, result, hbuild⟩

end

/-- Bidmachine has a unit, a profile and a bidder. -/
def soleBidderServices : Services :=
  fixedServices { id := 1, uid := "1", adUnitIds := [1], bidding := [.bidmachine] }
    [⟨1, 1, .interstitial, none, .bidmachine, 11, "", true, none, {}⟩]
    [.bidmachine] [(.bidmachine, ⟨fun _ _ _ => ⟨1, .ok [.ofBid .bidmachine { price := 5.0 }]⟩⟩)]

/-- The client has no token for the bidder, nor anything else to show. -/
def tokenlessSubject : Subject := ⟨1, childRequest [.bidmachine] [], {}⟩

/-- An auction fails after it has looked up the settings of its one bidder, and has not called it. When
it looked them up the units were matched. -/
theorem run_failStop_tokenless :
    ((run {} soleBidderServices tokenlessSubject).run 0).value = .error (.failed .noAdsFound) ∧
    (∀ u ∈ ((run {} soleBidderServices tokenlessSubject).run 0).steps,
      (∀ r, u.step ≠ .round r) ∧ ∀ l, u.step ≠ .logged l) ∧
    ∃ before u after, ((run {} soleBidderServices tokenlessSubject).run 0).steps =
        before ++ u :: after ∧
      u.step = .profilesLooked (.profiles 1 [.bidmachine]) ∧
      (∃ l c, Settled soleBidderServices tokenlessSubject 0 l c before u.time) ∧
      ∃ g, Behind (prepare {} soleBidderServices tokenlessSubject) 0 g before u.time := by
  have hvalue : ((run {} soleBidderServices tokenlessSubject).run 0).value =
      .error (.failed .noAdsFound) := rfl
  obtain ⟨hfail, horder⟩ := @run_failStop {} soleBidderServices tokenlessSubject 0 _ _ rfl
  have hsplit : ((run {} soleBidderServices tokenlessSubject).run 0).steps =
      [⟨0, .entered .resolving⟩, ⟨0, .segmentsFetched 1⟩,
        ⟨1, .configLooked (.matching 1 .interstitial 0 "")⟩, ⟨3, .entered .matching⟩,
        ⟨3, .unitsMatched ⟨1, .interstitial, none, .unknown, [.bidmachine], [1]⟩⟩,
        ⟨3, .entered .dispatching⟩] ++
      ⟨3, .profilesLooked (.profiles 1 [.bidmachine])⟩ ::
        [⟨6, .profilesLooked (.placements 1)⟩, ⟨6, .entered .failed⟩] := by decide +kernel
  obtain ⟨hsettled, hprepared⟩ := horder _ _ _ hsplit (by rintro e ⟨⟩) (by rintro ⟨⟩)
  exact ⟨hvalue, hfail _ hvalue, _, _, _, hsplit, rfl, hsettled, hprepared⟩

end Mediation.Auction
