/-
The stages of an auction one by one: of each, the value that it comes to, the instant at which it ends
and the steps that it takes, all in terms of what the stores answer and how long they take. What an
auction comes to does not depend on the instant at which it starts.
-/
import Mediation.Proofs.Auction.Eligibility

namespace Mediation.Auction

open Activity

/-! ## Resolving -/

/-- The segment of a request, as the store of segments has it. -/
def segmentOf (s : Services) (x : Subject) : Segment :=
  match (s.segments x.appId).answer with
  | .ok segments => .firstMatch segments ⟨x.geo.country, x.request.segment.ext⟩
  | .error _ => .zero

/-- The lookup that finds the configuration of a request, unless it is pinned to something unreadable. -/
def lookupOf (s : Services) (x : Subject) : Except AuctionError ConfigLookup :=
  if x.request.impression.auctionKey.isEmpty then
    .ok (.matching x.appId x.request.adType (segmentOf s x).id x.request.sdkVersion)
  else (decodeKey x.request.impression.auctionKey).map (.byUid x.appId "0")

/-- What a lookup comes to. -/
def ConfigStore.reply (c : ConfigStore) : ConfigLookup → Reply (Except AuctionError Config)
  | .matching appId t segmentId sdkVersion =>
    let r := c.matching appId t segmentId sdkVersion
    ⟨r.delay, r.answer.mapError fun _ => .noAdsFound⟩
  | .byUid appId id uid =>
    let r := c.byUid appId id uid
    ⟨r.delay, match r.answer with
      | some found => .ok found
      | none => .error .invalidAuctionKey⟩

/-- What a request resolves to. -/
def resolution (s : Services) (x : Subject) : Except AuctionError Config := do
  (s.configs.reply (← lookupOf s x)).answer

section

variable (policy : Policy) (s : Services) (x : Subject) (t : Nat)

theorem run_resolveSegment : (resolveSegment s x).run t =
    ⟨.ok (segmentOf s x), t + (s.segments x.appId).delay, [⟨t, .segmentsFetched x.appId⟩]⟩ := by
  unfold resolveSegment segmentOf
  rcases s.segments x.appId with ⟨delay, e | segments⟩ <;> rfl

theorem run_resolveConfig : (resolveConfig s.configs x.appId x.request.adType (segmentOf s x).id
      x.request.impression.auctionKey x.request.sdkVersion).run t =
    match lookupOf s x with
    | .error e => ⟨.error e, t, []⟩
    | .ok l => ⟨(s.configs.reply l).answer, t + (s.configs.reply l).delay, [⟨t, .configLooked l⟩]⟩ := by
  unfold resolveConfig lookupOf
  by_cases h : x.request.impression.auctionKey.isEmpty = true
  · rw [if_pos h, if_pos h]
    rfl
  · rw [if_neg h, if_neg h]
    rcases decodeKey x.request.impression.auctionKey with e | uid
    · rfl
    · dsimp only [ConfigStore.reply, Except.map]
      rcases s.configs.byUid x.appId "0" uid with ⟨delay, _ | c⟩ <;> rfl

/-- The configuration that an auction settles on names units. -/
def withUnitIds (s : Services) (x : Subject) (c : Config) : Except AuctionError (Segment × Config) :=
  if c.adUnitIds.isEmpty then .error .noAdsFound else .ok (segmentOf s x, c)

/-- Settling reads the segments, then looks the configuration up. -/
theorem run_settle : (settle s x).run t =
    match lookupOf s x with
    | .error e => ⟨.error e, t + (s.segments x.appId).delay,
        [⟨t, .entered .resolving⟩, ⟨t, .segmentsFetched x.appId⟩]⟩
    | .ok l => ⟨(s.configs.reply l).answer.bind (withUnitIds s x),
        t + (s.segments x.appId).delay + (s.configs.reply l).delay,
        [⟨t, .entered .resolving⟩, ⟨t, .segmentsFetched x.appId⟩,
          ⟨t + (s.segments x.appId).delay, .configLooked l⟩]⟩ := by
  unfold settle
  rw [Attempt.run_bind_of_ok (run_enter .resolving t), Attempt.run_bind_of_ok (run_resolveSegment s x t),
    Attempt.run_bind, run_resolveConfig]
  rcases lookupOf s x with e | l
  · rfl
  · dsimp only
    rcases s.configs.reply l with ⟨delay, e | c⟩
    · rfl
    · dsimp only [Except.bind, withUnitIds]
      by_cases h : c.adUnitIds.isEmpty = true
      · rw [if_pos h, if_pos h]
        rfl
      · rw [if_neg h, if_neg h]
        rfl

theorem value_settle : ((settle s x).run t).value = (resolution s x).bind (withUnitIds s x) := by
  rw [run_settle]
  unfold resolution
  rcases lookupOf s x <;> rfl

/-! ## Matching -/

/-- The units that an auction goes on with: there are some, and some adapter takes part. -/
def withAdapters (policy : Policy) (r : Request) (c : Config) (units : List AdUnit) :
    Except AuctionError (List AdUnit) :=
  if units.isEmpty then .error .noAdsFound
  else if (Adapter.common (available policy r) c.demands).isEmpty &&
      (Adapter.common (available policy r) c.bidding).isEmpty then .error .noAdsFound
  else .ok units

theorem run_matchUnits (c : Config) : (matchUnits policy s x c).run t =
    ⟨(s.adUnits (opportunity policy x c)).answer.bind (withAdapters policy x.request c),
      t + (s.adUnits (opportunity policy x c)).delay,
      [⟨t, .entered .matching⟩, ⟨t, .unitsMatched (opportunity policy x c)⟩]⟩ := by
  have hask : (Action.ask (.unitsMatched (opportunity policy x c))
      (s.adUnits (opportunity policy x c))).run t =
        ⟨(s.adUnits (opportunity policy x c)).answer, t + (s.adUnits (opportunity policy x c)).delay,
          [⟨t, .unitsMatched (opportunity policy x c)⟩]⟩ := rfl
  unfold matchUnits
  rw [Attempt.run_bind_of_ok (run_enter .matching t)]
  dsimp only
  rw [Attempt.run_bind, hask]
  rcases s.adUnits (opportunity policy x c) with ⟨delay, e | units⟩
  · rfl
  · dsimp only [Except.bind, withAdapters]
    by_cases hunits : units.isEmpty = true
    · rw [if_pos hunits, if_pos hunits]
      rfl
    · rw [if_neg hunits, if_neg hunits]
      by_cases hadapters : ((Adapter.common (available policy x.request) c.demands).isEmpty &&
          (Adapter.common (available policy x.request) c.bidding).isEmpty) = true
      · rw [if_pos hadapters, if_pos hadapters]
        rfl
      · rw [if_neg hadapters, if_neg hadapters]
        rfl

/-! ## Up to the adapters -/

theorem value_prepare : ((prepare policy s x).run t).value =
    (resolution s x).bind fun c => (withUnitIds s x c).bind fun _ =>
      ((s.adUnits (opportunity policy x c)).answer.bind (withAdapters policy x.request c)).map
        fun units => ⟨t, segmentOf s x, c, units⟩ := by
  unfold prepare
  rw [Attempt.run_bind_of_ok (run_now t), Attempt.value_bind, value_settle]
  rcases resolution s x with e | c
  · rfl
  · dsimp only [Except.bind, withUnitIds]
    by_cases hids : c.adUnitIds.isEmpty = true
    · rw [if_pos hids]
    · rw [if_neg hids]
      dsimp only
      rw [Attempt.value_bind, run_matchUnits]
      rcases (s.adUnits (opportunity policy x c)).answer with e | units
      · rfl
      · dsimp only [Except.bind]
        rcases withAdapters policy x.request c units <;> rfl

/-! ## Turning to the adapters -/

/-- What the source of settings says of some adapters. -/
def Services.settingsAnswer (s : Services) (x : Subject) (adapters : List Adapter) (units : AdUnits) :
    Except AuctionError InitConfigs :=
  (s.settingsFor x.appId adapters x.request.impression units 0).value

/-- Reading settings from profiles is nothing but asking. -/
theorem compositional_storedSettings {K : (α : Type) → Activity Bidding.ProfileLookup α → Prop}
    (hK : Compositional K) (store : Bidding.ProfileStore) (appId : Int64)
    (adapters : List Adapter) (units : AdUnits) :
    K _ (Bidding.storedSettings store appId adapters units) := by
  have hcomputed (a : Adapter) : K _ (Bidding.computedFields store appId units a) := by
    unfold Bidding.computedFields
    split
    · refine hK.bind (hK.ask _ _) fun answer => ?_
      cases answer <;> exact hK.pure _
    · exact hK.pure _
    · exact hK.pure _
  have hsettings (profiles : List Bidding.Profile) (found : InitConfigs) :
      K _ (Bidding.settingsOf store appId units profiles found) := by
    induction profiles generalizing found with
    | nil => exact hK.pure _
    | cons p profiles ih => exact hK.bind (hcomputed p.adapter) fun _ => ih _
  unfold Bidding.storedSettings
  split
  · exact hK.pure _
  · refine hK.bind (hK.ask _ _) fun answer => ?_
    cases answer with
    | error e => exact hK.pure _
    | ok profiles => exact hK.bind (hsettings _ _) fun _ => hK.pure _

theorem uniform_settingsFor (appId : Int64) (adapters : List Adapter) (i : Request.Impression)
    (units : AdUnits) : Uniform (s.settingsFor appId adapters i units) := by
  unfold Services.settingsFor
  split
  · exact (compositional_storedSettings compositional_uniform _ _ _ _).mapSteps _
  · exact uniform_await _

theorem forward_settingsFor (appId : Int64) (adapters : List Adapter) (i : Request.Impression)
    (units : AdUnits) : Forward (s.settingsFor appId adapters i units) := by
  unfold Services.settingsFor
  split
  · exact (compositional_storedSettings compositional_forward _ _ _ _).mapSteps _
  · exact forward_await _

/-- The settings of a round: none if there is nobody to ask for, or nobody has any. -/
theorem value_roundSettings (adapters : List Adapter) (units : AdUnits) :
    ((roundSettings s x adapters units).run t).value =
      if adapters.isEmpty then .ok .empty
      else match s.settingsAnswer x adapters units with
        | .error .noAdaptersFound => .ok .empty
        | answer => answer := by
  unfold roundSettings
  by_cases h : adapters.isEmpty = true
  · rw [if_pos h, if_pos h]
    rfl
  · rw [if_neg h, if_neg h, ExceptT.run_mk]
    show ((fun answer => (match answer with
      | .error .noAdaptersFound => pure (.ok .empty)
      | answer => pure answer : Activity Step (Except AuctionError InitConfigs)))
        (s.settingsFor x.appId adapters x.request.impression units t).value _).value = _
    rw [(uniform_settingsFor s x.appId adapters x.request.impression units).steady t 0]
    unfold Services.settingsAnswer
    rcases (s.settingsFor x.appId adapters x.request.impression units 0).value with e | configs
    · cases e <;> rfl
    · rfl

end

/-! ## Durations -/

section

variable {policy : Policy} {s : Services} {x : Subject} {t : Nat}

end

/-! ## Kinds of steps -/

section

variable (policy : Policy) (s : Services) (x : Subject)

theorem takes_holdRound (p : Bidding.Params) : Takes (fun u => ∃ r, u = .round r) (s.holdRound p) := by
  unfold Services.holdRound
  split
  · exact (takes_mapSteps (fun r => ⟨r, rfl⟩) _).bind fun _ => takes_pure _
  · exact (takes_await _).bind fun _ => takes_pure _

theorem takes_bid (g : Groundwork) : Takes (·.stage = .dispatching) (bid policy s x g).run := by
  refine Takes.attempt_bind (takes_enter rfl) fun _ => ?_
  refine Takes.attempt_bind ((takes_roundSettings s x _ _).imp ?_) fun configs => ?_
  · rintro _ ⟨l, rfl⟩
    rfl
  · split
    · exact takes_pure _
    · refine Takes.attempt_bind (Takes.lift takes_now) fun now => (takes_holdRound s _).imp ?_
      rintro _ ⟨r, rfl⟩
      rfl

/-- The check at the end takes no step. -/
theorem takes_check (g : Groundwork) (round : Bidding.Round) {P : Step → Prop} : Takes P
    (do let result := g.result policy x.request round
        if result.cpmAdUnits.isEmpty && round.responses.isEmpty then throw .noAdsFound
        pure result : Action Result).run := by
  dsimp only
  split <;> exact takes_pure _

/-- An auction hands over no event before its result is there. -/
theorem takes_build : Takes (fun u => ∀ l, u ≠ .logged l) (build policy s x).run := by
  have hresolve : Takes (fun u => ∀ l, u ≠ .logged l) (resolve policy s x).run := by
    refine ((takes_prepare policy s x).imp ?_).attempt_bind fun g =>
      ((takes_bid policy s x g).imp ?_).attempt_bind fun round => takes_check policy x g round
    · rintro _ (h | h) l rfl <;> cases h
    · rintro _ h l rfl
      cases h
  intro t u hu
  rw [run_build] at hu
  rcases List.mem_append.1 hu with hu | hu
  · exact hresolve t u hu
  · cases List.mem_singleton.1 hu
    rintro l ⟨⟩

end

/-! ## Results -/

/-- An action that gives something unless a condition ends it. -/
theorem value_ite_throw {α : Type} (ends : Bool) (e : AuctionError) (a : α) (t : Nat) :
    ((do
      if ends then throw e
      pure a : Action α).run t).value = if ends then .error e else .ok a := by
  cases ends <;> rfl

section

variable {policy : Policy} {s : Services} {x : Subject} {t : Nat}
variable {bidders : Bidding.Bidders} {listener : Bidding.Listener}

/-- With the settings an auction comes to a result, unless it has neither a unit with a fixed price nor
anyone to ask. What the bidders say, and when, does not matter for that. -/
theorem value_resolve (hs : s.rounds = .fanOut bidders listener) {g : Groundwork}
    (h : ((prepare policy s x).run t).value = .ok g) :
    ((resolve policy s x).run t).value = (settingsCourse policy s x t g).value.bind fun configs =>
      if (g.cpm policy x.request).isEmpty &&
          (g.config.bidding.filter (MayBid policy x.request configs ·)).isEmpty then
        .error .noAdsFound
      else .ok (g.result policy x.request (Bidding.holdRound s.clock bidders listener
        (g.params policy s x configs (settingsCourse policy s x t g).finish)
        (settingsCourse policy s x t g).finish).value) := by
  unfold resolve settingsCourse
  rw [Attempt.value_bind, h]
  show (((bid policy s x g) >>= _).run ((prepare policy s x).run t).finish).value = _
  rw [Attempt.value_bind, run_bid hs]
  rcases (roundSettings s x (g.allowed policy x.request) (.ofUnits g.units)).run
    ((prepare policy s x).run t).finish with ⟨e | configs, now, l⟩
  · rfl
  · have hempty : ((Bidding.holdRound s.clock bidders listener
          (g.params policy s x configs now) now).value.responses).isEmpty =
        (g.config.bidding.filter (MayBid policy x.request configs ·)).isEmpty := by
      rw [Bool.eq_iff_iff, List.isEmpty_iff, List.isEmpty_iff, Bidding.responses_eq_nil_iff,
        dispatched_params]
    dsimp only [Except.bind]
    rw [← hempty]
    exact value_ite_throw _ _ _ _

theorem value_build : ((build policy s x).run t).value = ((resolve policy s x).run t).value := by
  rw [run_build]

/-- An auction that comes to no result fails as that does, and else comes to what its result does. -/
theorem value_run : ((run policy s x).run t).value =
    (((resolve policy s x).run t).value.mapError .failed).bind (conclusion x) := by
  rw [run_run, ← value_build]
  rcases (build policy s x).run t with ⟨e | result, now, l⟩
  · rfl
  · exact value_conclude result now

theorem value_run_of_fits {result : Result} (h : ((build policy s x).run t).value = .ok result)
    (hfits : x.request.session.Fits) : ((run policy s x).run t).value =
      .ok (respond (resolvedRequest x.request result) result) := by
  rw [value_run, ← value_build, h]
  exact if_pos hfits

/-- An auction is broken off if it has a result and the time of its session does not fit. -/
theorem overflow_iff : ((run policy s x).run t).value = .error .overflow ↔
    (∃ result, ((build policy s x).run t).value = .ok result) ∧ ¬ x.request.session.Fits := by
  rw [value_run, ← value_build]
  rcases ((build policy s x).run t).value with e | result
  · exact iff_of_false nofun nofun
  · show conclusion x result = _ ↔ _
    unfold conclusion
    split
    · exact iff_of_false nofun fun h => h.2 ‹_›
    · exact iff_of_true rfl ⟨⟨result, rfl⟩, ‹_›⟩

end

end Mediation.Auction
