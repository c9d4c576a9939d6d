/-
When an auction succeeds, and with which error it fails otherwise. Both are told here by conditions on
the request and on what the stores hold, in the order in which an auction comes upon them. Neither a
price nor a bidder nor the time that anything takes is among the conditions. So auctions that differ in
these alone have the same outcome. An auction that meets all of them answers, unless the instants of its
session lie so far apart that it is broken off.
-/
import Mediation.Proofs.Auction.Stages

namespace Mediation.Auction

/-! ## Conditions -/

/-- The units that services match are those of an inventory. -/
def Stocks (s : Services) (inventory : Inventory) : Prop :=
  ∀ o, (s.adUnits o).answer = .ok (inventory.matching o)

/-- The adapters of a configuration that take part in its bidding. -/
def biddingAdapters (policy : Policy) (r : Request) (c : Config) : List Adapter :=
  c.bidding.filter (TakesPart policy r ·)

section

variable (policy : Policy) (s : Services) (x : Subject) (inventory : Inventory)

/-- The units that an auction is offered. -/
def offered (c : Config) : List AdUnit := inventory.matching (opportunity policy x c)

/-- An auction can turn to the adapters: its configuration resolves and names units, some of these fit,
and of the adapters that are installed and not throttled some are in the configuration. -/
structure Founded (c : Config) : Prop where
  resolved : resolution s x = .ok c
  namesUnits : c.adUnitIds ≠ []
  hasUnits : offered policy x inventory c ≠ []
  hasAdapters : ∃ a ∈ available policy x.request, a ∈ c.demands ∨ a ∈ c.bidding

/-- The settings of the adapters that take part in the bidding. They are asked for if there are any such
adapters, and that none has any is no failure. -/
inductive HasSettings (c : Config) : InitConfigs → Prop
  | nobody : biddingAdapters policy x.request c = [] → HasSettings c .empty
  | found {configs : InitConfigs} : biddingAdapters policy x.request c ≠ [] →
      s.settingsAnswer x (biddingAdapters policy x.request c) (.ofUnits (offered policy x inventory c)) =
        .ok configs → HasSettings c configs
  | none : biddingAdapters policy x.request c ≠ [] →
      s.settingsAnswer x (biddingAdapters policy x.request c) (.ofUnits (offered policy x inventory c)) =
        .error .noAdaptersFound → HasSettings c .empty

/-- There is something to show: a unit with a fixed price of an adapter that takes part, or an adapter
that may bid. -/
def HasOffer (c : Config) (configs : InitConfigs) : Prop :=
  (∃ u ∈ offered policy x inventory c,
    u.isCpm ∧ u.adapter ∈ c.demands ∧ TakesPart policy x.request u.adapter) ∨
  ∃ a ∈ biddingAdapters policy x.request c, HoldsToken x.request.impression a ∧ configs.contains a

/-- An auction meets all conditions. -/
structure Succeeds (c : Config) (configs : InitConfigs) : Prop extends
    Founded policy s x inventory c where
  settings : HasSettings policy s x inventory c configs
  offer : HasOffer policy x inventory c configs

/-- An auction fails with an error at the first condition that it does not meet. -/
inductive Fails : AuctionError → Prop
  | unresolved {e : AuctionError} : resolution s x = .error e → Fails e
  | noUnitIds {c : Config} : resolution s x = .ok c → c.adUnitIds = [] → Fails .noAdsFound
  | noUnits {c : Config} : resolution s x = .ok c → c.adUnitIds ≠ [] →
      offered policy x inventory c = [] → Fails .noAdsFound
  | noAdapters {c : Config} : resolution s x = .ok c → c.adUnitIds ≠ [] →
      offered policy x inventory c ≠ [] →
      (∀ a ∈ available policy x.request, a ∉ c.demands ∧ a ∉ c.bidding) → Fails .noAdsFound
  | settings {c : Config} {e : AuctionError} : Founded policy s x inventory c →
      biddingAdapters policy x.request c ≠ [] →
      s.settingsAnswer x (biddingAdapters policy x.request c) (.ofUnits (offered policy x inventory c)) =
        .error e → e ≠ .noAdaptersFound → Fails e
  | noOffer {c : Config} {configs : InitConfigs} : Founded policy s x inventory c →
      HasSettings policy s x inventory c configs → ¬ HasOffer policy x inventory c configs →
      Fails .noAdsFound

end

/-! ## Values -/

section

variable {policy : Policy} {s : Services} {x : Subject} {t : Nat} {inventory : Inventory} {c : Config}

theorem common_isEmpty_iff {l l' : List Adapter} : (Adapter.common l l').isEmpty ↔ ∀ a ∈ l, a ∉ l' := by
  rw [List.isEmpty_iff, List.eq_nil_iff_forall_not_mem]
  simp only [Adapter.mem_common]
  exact ⟨fun h a ha ha' => h a ⟨ha', ha⟩, fun h a ha => h a ha.2 ha.1⟩

theorem withAdapters_eq (units : List AdUnit) (hunits : units ≠ []) :
    withAdapters policy x.request c units =
      if ∀ a ∈ available policy x.request, a ∉ c.demands ∧ a ∉ c.bidding then .error .noAdsFound
      else .ok units := by
  unfold withAdapters
  rw [if_neg (by rwa [List.isEmpty_iff])]
  refine if_congr ?_ rfl rfl
  rw [Bool.and_eq_true, common_isEmpty_iff, common_isEmpty_iff]
  exact ⟨fun h a ha => ⟨h.1 a ha, h.2 a ha⟩, fun h => ⟨fun a ha => (h a ha).1, fun a ha => (h a ha).2⟩⟩

/-- Up to the adapters, an auction whose configuration names units depends on what these are. -/
theorem value_prepare_of_named (hunits : Stocks s inventory) (hc : resolution s x = .ok c)
    (hids : c.adUnitIds ≠ []) : ((prepare policy s x).run t).value =
      (withAdapters policy x.request c (offered policy x inventory c)).map fun units =>
        ⟨t, segmentOf s x, c, units⟩ := by
  rw [value_prepare, hc]
  dsimp only [Except.bind, withUnitIds]
  rw [if_neg (by rwa [List.isEmpty_iff]), hunits]
  rfl

theorem Founded.prepare (hunits : Stocks s inventory) (h : Founded policy s x inventory c) :
    ((prepare policy s x).run t).value =
      .ok ⟨t, segmentOf s x, c, offered policy x inventory c⟩ := by
  obtain ⟨a, ha, hlisted⟩ := h.hasAdapters
  rw [value_prepare_of_named hunits h.resolved h.namesUnits, withAdapters_eq _ h.hasUnits, if_neg]
  · rfl
  · exact fun hnone => hlisted.elim (hnone a ha).1 (hnone a ha).2

/-- What an auction has settled when it turns to the adapters is its configuration with the units that
it is offered. -/
theorem founded_of_prepare {g : Groundwork} (hunits : Stocks s inventory)
    (h : ((prepare policy s x).run t).value = .ok g) :
    Founded policy s x inventory g.config ∧
      g = ⟨t, segmentOf s x, g.config, offered policy x inventory g.config⟩ := by
  rcases hr : resolution s x with e | c
  · rw [value_prepare, hr] at h
    cases h
  by_cases hids : c.adUnitIds = []
  · rw [value_prepare, hr] at h
    dsimp only [Except.bind, withUnitIds] at h
    rw [if_pos (List.isEmpty_iff.2 hids)] at h
    cases h
  rw [value_prepare_of_named hunits hr hids] at h
  by_cases hsome : offered policy x inventory c = []
  · rw [hsome] at h
    cases h
  rw [withAdapters_eq _ hsome] at h
  split at h
  · cases h
  · rename_i hadapters
    cases h
    refine ⟨⟨hr, hids, hsome, ?_⟩, rfl⟩
    by_contra hnone
    exact hadapters fun a ha => ⟨fun h => hnone ⟨a, ha, .inl h⟩, fun h => hnone ⟨a, ha, .inr h⟩⟩

/-- The settings of an auction are those of the adapters that take part in its bidding. -/
theorem value_settingsCourse (g : Groundwork) : (settingsCourse policy s x t g).value =
    if (biddingAdapters policy x.request g.config).isEmpty then .ok .empty
    else match s.settingsAnswer x (biddingAdapters policy x.request g.config) (.ofUnits g.units) with
      | .error .noAdaptersFound => .ok .empty
      | answer => answer := by
  unfold settingsCourse Groundwork.allowed
  rw [permitted_common, value_roundSettings]
  rfl

theorem HasSettings.value {g : Groundwork} {configs : InitConfigs}
    (h : HasSettings policy s x inventory c configs) (hconfig : g.config = c)
    (hunits : g.units = offered policy x inventory c) :
    (settingsCourse policy s x t g).value = .ok configs := by
  rw [value_settingsCourse, hconfig, hunits]
  cases h with
  | nobody hnil => rw [if_pos (List.isEmpty_iff.2 hnil)]
  | found hne hanswer => rw [if_neg (by rwa [List.isEmpty_iff]), hanswer]
  | none hne hanswer => rw [if_neg (by rwa [List.isEmpty_iff]), hanswer]

/-- Whoever may bid takes part in the bidding, with a token and with settings. -/
theorem mem_filter_mayBid_iff {r : Request} {configs : InitConfigs} {a : Adapter} :
    a ∈ c.bidding.filter (MayBid policy r configs ·) ↔
      a ∈ biddingAdapters policy r c ∧ HoldsToken r.impression a ∧ configs.contains a := by
  unfold biddingAdapters
  simp only [List.mem_filter, decide_eq_true_iff, mayBid_iff, and_assoc]

theorem not_hasOffer_iff {g : Groundwork} {configs : InitConfigs} (hconfig : g.config = c)
    (hunits : g.units = offered policy x inventory c) :
    ¬ HasOffer policy x inventory c configs ↔ ((g.cpm policy x.request).isEmpty &&
      (g.config.bidding.filter (MayBid policy x.request configs ·)).isEmpty) = true := by
  unfold HasOffer
  rw [Bool.and_eq_true, List.isEmpty_iff, List.isEmpty_iff, cpm_eq_filter, hconfig, hunits, not_or,
    List.filter_eq_nil_iff, List.eq_nil_iff_forall_not_mem]
  simp only [mem_filter_mayBid_iff, decide_eq_true_iff, not_exists, not_and]

variable {bidders : Bidding.Bidders} {listener : Bidding.Listener}

/-- An auction that meets all conditions comes to a result. -/
theorem Succeeds.value_resolve {configs : InitConfigs} (hs : s.rounds = .fanOut bidders listener)
    (hunits : Stocks s inventory) (h : Succeeds policy s x inventory c configs) :
    ∃ result, ((resolve policy s x).run t).value = .ok result := by
  rw [Auction.value_resolve hs (h.prepare hunits), h.settings.value rfl rfl]
  dsimp only [Except.bind]
  rw [if_neg fun hnone => (not_hasOffer_iff rfl rfl).2 hnone h.offer]
  exact ⟨_, rfl⟩

/-- So it answers if the time of its session fits. -/
theorem Succeeds.value {configs : InitConfigs} (hs : s.rounds = .fanOut bidders listener)
    (hunits : Stocks s inventory) (h : Succeeds policy s x inventory c configs)
    (hfits : x.request.session.Fits) : ∃ response, ((run policy s x).run t).value = .ok response := by
  obtain ⟨result, hresult⟩ := h.value_resolve (t := t) hs hunits
  rw [value_run, hresult]
  exact ⟨_, if_pos hfits⟩

/-- Otherwise it is broken off. -/
theorem Succeeds.overflow {configs : InitConfigs} (hs : s.rounds = .fanOut bidders listener)
    (hunits : Stocks s inventory) (h : Succeeds policy s x inventory c configs)
    (hfits : ¬ x.request.session.Fits) : ((run policy s x).run t).value = .error .overflow := by
  obtain ⟨result, hresult⟩ := h.value_resolve (t := t) hs hunits
  rw [value_run, hresult]
  exact if_neg hfits

/-- An auction that misses a condition comes to the error of the first one that it misses. -/
theorem Fails.value_resolve {e : AuctionError} (hs : s.rounds = .fanOut bidders listener)
    (hunits : Stocks s inventory) (h : Fails policy s x inventory e) :
    ((resolve policy s x).run t).value = .error e := by
  cases h with
  | unresolved hr =>
    refine (resolve_of_error ?_).1
    rw [value_prepare, hr]
    rfl
  | noUnitIds hr hids =>
    refine (resolve_of_error ?_).1
    rw [value_prepare, hr]
    dsimp only [Except.bind, withUnitIds]
    rw [if_pos (List.isEmpty_iff.2 hids)]
  | noUnits hr hids hnone =>
    refine (resolve_of_error ?_).1
    rw [value_prepare_of_named hunits hr hids, hnone]
    rfl
  | noAdapters hr hids hsome hnone =>
    refine (resolve_of_error ?_).1
    rw [value_prepare_of_named hunits hr hids, withAdapters_eq _ hsome, if_pos hnone]
    rfl
  | settings hf hne hanswer he =>
    rw [Auction.value_resolve hs (hf.prepare hunits), value_settingsCourse,
      if_neg (by rwa [List.isEmpty_iff]), hanswer]
    -- the one error that would be swallowed is another one
    split
    · rename_i heq
      exact absurd (Except.error.inj heq) he
    · rfl
  | noOffer hf hsettings hnone =>
    rw [Auction.value_resolve hs (hf.prepare hunits), hsettings.value rfl rfl]
    dsimp only [Except.bind]
    rw [if_pos ((not_hasOffer_iff rfl rfl).1 hnone)]

/-- So it fails, with that error. -/
theorem Fails.value {e : AuctionError} (hs : s.rounds = .fanOut bidders listener)
    (hunits : Stocks s inventory) (h : Fails policy s x inventory e) :
    ((run policy s x).run t).value = .error (.failed e) := by
  rw [value_run, h.value_resolve hs hunits]
  rfl

/-- An auction does not both meet and miss the conditions. -/
theorem Fails.not_succeeds {e : AuctionError} (hs : s.rounds = .fanOut bidders listener)
    (hunits : Stocks s inventory) (h : Fails policy s x inventory e) :
    ¬ ∃ c configs, Succeeds policy s x inventory c configs := by
  rintro ⟨c, configs, h'⟩
  obtain ⟨result, hresult⟩ := h'.value_resolve (t := 0) hs hunits
  rw [h.value_resolve hs hunits] at hresult
  cases hresult

/-- The conditions leave no auction out. -/
theorem succeeds_or_fails : (∃ c configs, Succeeds policy s x inventory c configs) ∨
    ∃ e, Fails policy s x inventory e := by
  rcases hr : resolution s x with e | c
  · exact .inr ⟨e, .unresolved hr⟩
  by_cases hids : c.adUnitIds = []
  · exact .inr ⟨_, .noUnitIds hr hids⟩
  by_cases hsome : offered policy x inventory c = []
  · exact .inr ⟨_, .noUnits hr hids hsome⟩
  by_cases hnone : ∀ a ∈ available policy x.request, a ∉ c.demands ∧ a ∉ c.bidding
  · exact .inr ⟨_, .noAdapters hr hids hsome hnone⟩
  have hf : Founded policy s x inventory c := by
    refine ⟨hr, hids, hsome, ?_⟩
    by_contra hno
    exact hnone fun a ha => ⟨fun h => hno ⟨a, ha, .inl h⟩, fun h => hno ⟨a, ha, .inr h⟩⟩
  have hsettled {configs : InitConfigs} (h : HasSettings policy s x inventory c configs) :
      (∃ c configs, Succeeds policy s x inventory c configs) ∨ ∃ e, Fails policy s x inventory e := by
    by_cases hoffer : HasOffer policy x inventory c configs
    · exact .inl ⟨c, configs, hf, h, hoffer⟩
    · exact .inr ⟨_, .noOffer hf h hoffer⟩
  by_cases hnobody : biddingAdapters policy x.request c = []
  · exact hsettled (.nobody hnobody)
  · rcases hanswer : s.settingsAnswer x (biddingAdapters policy x.request c)
      (.ofUnits (offered policy x inventory c)) with e | configs
    · by_cases he : e = .noAdaptersFound
      · exact hsettled (.none hnobody (he ▸ hanswer))
      · exact .inr ⟨e, .settings hf hnobody hanswer he⟩
    · exact hsettled (.found hnobody hanswer)

end

/-! ## Same conditions -/

/-- What the conditions look at in a configuration. -/
def Config.parties (c : Config) : List Adapter × List Adapter × List Int64 :=
  (c.demands, c.bidding, c.adUnitIds)

theorem Config.parties_eq_iff {c c' : Config} : c.parties = c'.parties ↔
    c.demands = c'.demands ∧ c.bidding = c'.bidding ∧ c.adUnitIds = c'.adUnitIds := by
  simp [Config.parties]

/-- Two auctions have the same conditions to meet, with sessions whose times fit both or neither. They may
differ in all that bidders say and when, in every price, and in the time they have. -/
structure SameGrounds (policy : Policy) (s : Services) (x : Subject) (policy' : Policy) (s' : Services)
    (x' : Subject) : Prop where
  resolution : (resolution s x).map Config.parties = (resolution s' x').map Config.parties
  opportunity : ∀ c, opportunity policy x c = opportunity policy' x' c
  coppa : x.request.isCoppa = x'.request.isCoppa
  token : ∀ a, HoldsToken x.request.impression a ↔ HoldsToken x'.request.impression a
  settings : ∀ adapters units, s.settingsAnswer x adapters units = s'.settingsAnswer x' adapters units
  session : x.request.session.Fits ↔ x'.request.session.Fits

namespace SameGrounds

variable {policy policy' : Policy} {s s' : Services} {x x' : Subject} {inventory : Inventory}
variable {c c' : Config} {configs : InitConfigs}

theorem resolved (h : SameGrounds policy s x policy' s' x') (hc : Auction.resolution s x = .ok c) :
    ∃ c', Auction.resolution s' x' = .ok c' ∧ c.parties = c'.parties := by
  have hmap := h.resolution
  rw [hc] at hmap
  rcases hr : Auction.resolution s' x' with e | c' <;> rw [hr] at hmap
  · cases hmap
  · exact ⟨c', rfl, Except.ok.inj hmap⟩

theorem unresolved {e : AuctionError} (h : SameGrounds policy s x policy' s' x')
    (he : Auction.resolution s x = .error e) : Auction.resolution s' x' = .error e := by
  have hmap := h.resolution
  rw [he] at hmap
  rcases hr : Auction.resolution s' x' with e' | c' <;> rw [hr] at hmap <;> cases hmap
  rfl

theorem available (h : SameGrounds policy s x policy' s' x') (c : Config) :
    Auction.available policy x.request = Auction.available policy' x'.request :=
  congrArg Opportunity.adapters (h.opportunity c)

theorem takesPart (h : SameGrounds policy s x policy' s' x') (c : Config) (a : Adapter) :
    TakesPart policy x.request a ↔ TakesPart policy' x'.request a := by
  rw [takesPart_iff, takesPart_iff, ← and_assoc, ← and_assoc, ← mem_available_iff, ← mem_available_iff,
    h.available c, h.coppa]

section

variable (h : SameGrounds policy s x policy' s' x') (hc : c.parties = c'.parties)

include h hc

theorem offered : offered policy x inventory c = Auction.offered policy' x' inventory c' := by
  unfold Auction.offered
  rw [h.opportunity c]
  unfold Auction.opportunity
  rw [(Config.parties_eq_iff.1 hc).2.2]

theorem biddingAdapters :
    biddingAdapters policy x.request c = Auction.biddingAdapters policy' x'.request c' := by
  unfold Auction.biddingAdapters
  rw [(Config.parties_eq_iff.1 hc).2.1]
  exact List.filter_congr fun a _ => decide_eq_decide.2 (h.takesPart c a)

theorem founded (hr : Auction.resolution s' x' = .ok c') (hf : Founded policy s x inventory c) :
    Founded policy' s' x' inventory c' := by
  obtain ⟨hdemands, hbidding, hids⟩ := Config.parties_eq_iff.1 hc
  obtain ⟨-, hnames, hunits, hadapters⟩ := hf
  rw [h.offered hc] at hunits
  rw [h.available c, hdemands, hbidding] at hadapters
  exact ⟨hr, hids ▸ hnames, hunits, hadapters⟩

theorem hasSettings (hf : HasSettings policy s x inventory c configs) :
    HasSettings policy' s' x' inventory c' configs := by
  cases hf with
  | nobody hnil =>
    rw [h.biddingAdapters hc] at hnil
    exact .nobody hnil
  | found hne hanswer =>
    rw [h.settings, h.biddingAdapters hc, h.offered hc] at hanswer
    rw [h.biddingAdapters hc] at hne
    exact .found hne hanswer
  | none hne hanswer =>
    rw [h.settings, h.biddingAdapters hc, h.offered hc] at hanswer
    rw [h.biddingAdapters hc] at hne
    exact .none hne hanswer

theorem hasOffer_iff : HasOffer policy x inventory c configs ↔ HasOffer policy' x' inventory c' configs := by
  unfold HasOffer
  rw [h.offered hc, h.biddingAdapters hc, (Config.parties_eq_iff.1 hc).1]
  simp only [h.takesPart c, h.token]

end

theorem succeeds (h : SameGrounds policy s x policy' s' x') (hf : Succeeds policy s x inventory c configs) :
    ∃ c', Succeeds policy' s' x' inventory c' configs := by
  obtain ⟨c', hr, hc⟩ := h.resolved hf.resolved
  exact ⟨c', h.founded hc hr hf.toFounded, h.hasSettings hc hf.settings, (h.hasOffer_iff hc).1 hf.offer⟩

theorem fails {e : AuctionError} (h : SameGrounds policy s x policy' s' x')
    (hf : Fails policy s x inventory e) : Fails policy' s' x' inventory e := by
  cases hf with
  | unresolved he => exact .unresolved (h.unresolved he)
  | noUnitIds hr hids =>
    obtain ⟨c', hr', hc⟩ := h.resolved hr
    exact .noUnitIds hr' ((Config.parties_eq_iff.1 hc).2.2 ▸ hids)
  | noUnits hr hids hnone =>
    obtain ⟨c', hr', hc⟩ := h.resolved hr
    rw [h.offered hc] at hnone
    exact .noUnits hr' ((Config.parties_eq_iff.1 hc).2.2 ▸ hids) hnone
  | noAdapters hr hids hsome hnone =>
    obtain ⟨c', hr', hc⟩ := h.resolved hr
    obtain ⟨hdemands, hbidding, hids'⟩ := Config.parties_eq_iff.1 hc
    rw [h.offered hc] at hsome
    rw [h.available c', hdemands, hbidding] at hnone
    exact .noAdapters hr' (hids' ▸ hids) hsome hnone
  | settings hf hne hanswer he =>
    obtain ⟨c', hr', hc⟩ := h.resolved hf.resolved
    rw [h.settings, h.biddingAdapters hc, h.offered hc] at hanswer
    rw [h.biddingAdapters hc] at hne
    exact .settings (h.founded hc hr' hf) hne hanswer he
  | noOffer hf hsettings hnone =>
    obtain ⟨c', hr', hc⟩ := h.resolved hf.resolved
    rw [h.hasOffer_iff hc] at hnone
    exact .noOffer (h.founded hc hr' hf) (h.hasSettings hc hsettings) hnone

end SameGrounds

/-! ## Outcomes -/

section

variable {policy : Policy} {s : Services} {x : Subject} {t : Nat} {inventory : Inventory}
variable {bidders : Bidding.Bidders} {listener : Bidding.Listener}

/-- An auction over an inventory that does not meet all conditions fails, with the error of the first one
that it misses. If it meets them it succeeds, but for a session whose time takes more than 64 bits: then it
is broken off. Auctions with the same conditions to meet have the same outcome, whatever their bidders
answer and when, and whatever the prices and the times are. -/
theorem run_outcome (hs : s.rounds = .fanOut bidders listener) (hunits : Stocks s inventory) :
    ((∃ response, ((run policy s x).run t).value = .ok response) ↔
      (∃ c configs, Succeeds policy s x inventory c configs) ∧ x.request.session.Fits) ∧
    (∀ e, ((run policy s x).run t).value = .error (.failed e) ↔ Fails policy s x inventory e) ∧
    (((run policy s x).run t).value = .error .overflow ↔
      (∃ c configs, Succeeds policy s x inventory c configs) ∧ ¬ x.request.session.Fits) ∧
    ∀ policy' s' x' t' bidders' listener', s'.rounds = .fanOut bidders' listener' →
      Stocks s' inventory → SameGrounds policy s x policy' s' x' →
        (((run policy s x).run t).value.map fun _ => ()) =
          ((run policy' s' x').run t').value.map fun _ => () := by
  rcases @succeeds_or_fails policy s x inventory with ⟨c, configs, h⟩ | ⟨e, h⟩
  · have hnofail {e : AuctionError} (he : Fails policy s x inventory e) : False :=
      he.not_succeeds hs hunits ⟨c, configs, h⟩
    by_cases hfits : x.request.session.Fits
    · obtain ⟨response, hok⟩ := h.value (t := t) hs hunits hfits
      rw [hok]
      refine ⟨iff_of_true ⟨_, rfl⟩ ⟨⟨c, configs, h⟩, hfits⟩, fun e => iff_of_false nofun hnofail,
        iff_of_false nofun fun hnot => hnot.2 hfits, ?_⟩
      intro policy' s' x' t' bidders' listener' hs' hunits' hsame
      obtain ⟨c', h'⟩ := hsame.succeeds h
      obtain ⟨response', hok'⟩ := h'.value (t := t') hs' hunits' (hsame.session.1 hfits)
      rw [hok']
      rfl
    · rw [h.overflow hs hunits hfits]
      refine ⟨iff_of_false nofun fun hok => hfits hok.2, fun e => iff_of_false nofun hnofail,
        iff_of_true rfl ⟨⟨c, configs, h⟩, hfits⟩, ?_⟩
      intro policy' s' x' t' bidders' listener' hs' hunits' hsame
      obtain ⟨c', h'⟩ := hsame.succeeds h
      rw [h'.overflow hs' hunits' fun hfits' => hfits (hsame.session.2 hfits')]
  · have hnone := h.not_succeeds hs hunits
    rw [h.value hs hunits]
    refine ⟨iff_of_false nofun fun hok => hnone hok.1, fun e' => ⟨?_, fun he' => ?_⟩,
      iff_of_false nofun fun hover => hnone hover.1, ?_⟩
    · rintro ⟨⟩
      exact h
    · rw [← he'.value (t := t) hs hunits, h.value hs hunits]
    · intro policy' s' x' t' bidders' listener' hs' hunits' hsame
      rw [(hsame.fails h).value hs' hunits']

end

/-- Bidmachine has the one unit. -/
def soleUnit : Inventory := [⟨1, 1, .interstitial, none, .bidmachine, 11, "", true, none, {}⟩]

/-- Bidmachine is to bid, above a floor. -/
def flooredConfig (floor : Price) : Config where
  id := 1
  uid := "1"
  adUnitIds := [1]
  bidding := [.bidmachine]
  priceFloor := floor

def flooredServices (floor : Price) (regs : List (Adapter × Bidding.Bidder)) : Services :=
  fixedServices (flooredConfig floor) soleUnit [.bidmachine] regs

/-- The client waits for some milliseconds. -/
def hurriedSubject (tmax : Int64) : Subject :=
  ⟨1, { childRequest [.bidmachine] [.bidmachine] with tmax := tmax }, {}⟩

/-- Bids after a millisecond. -/
def promptBidder : Bidding.Bidder := ⟨fun _ _ _ => ⟨1, .ok [.ofBid .bidmachine { price := 5.0 }]⟩⟩

def promptServices : Services := flooredServices 1.0 [(.bidmachine, promptBidder)]

/-- The same services with settings that cannot be read. -/
def unreadableServices : Services :=
  { promptServices with settings := .given fun _ _ _ _ => ⟨0, .error (.store "profiles")⟩ }

/-- Neither the floor nor the bidders nor the time is among the conditions. -/
theorem sameGrounds_floored (floor floor' : Price) (regs regs' : List (Adapter × Bidding.Bidder))
    (tmax tmax' : Int64) : SameGrounds {} (flooredServices floor regs) (hurriedSubject tmax)
      {} (flooredServices floor' regs') (hurriedSubject tmax') where
  resolution := rfl
  opportunity _ := rfl
  coppa := rfl
  token _ := Iff.rfl
  settings _ _ := rfl
  session := Iff.rfl

/-- The client has a session. -/
def sessionSubject (session : Request.Session) : Subject :=
  { hurriedSubject 0 with request := { (hurriedSubject 0).request with session := session } }

/-- The instants lie as far apart as they can. -/
def farSession : Request.Session where
  monotonicTs := Int64.maxValue
  startMonotonicTs := Int64.minValue

theorem biddingAdapters_prompt (session : Request.Session) :
    biddingAdapters {} (sessionSubject session).request (flooredConfig 1.0) = [.bidmachine] := by
  show biddingAdapters {} (hurriedSubject 0).request (flooredConfig 1.0) = _
  decide +kernel

theorem founded_prompt (s : Services) (session : Request.Session)
    (h : resolution s (sessionSubject session) = .ok (flooredConfig 1.0)) :
    Founded {} s (sessionSubject session) soleUnit (flooredConfig 1.0) where
  resolved := h
  namesUnits := by decide
  hasUnits := List.cons_ne_nil _ _
  hasAdapters := by
    refine ⟨.bidmachine, ?_, .inr (by decide)⟩
    show _ ∈ available {} (hurriedSubject 0).request
    decide +kernel

/-- The one profile gives settings, whatever the session is. -/
theorem succeeds_prompt (session : Request.Session) : ∃ configs,
    Succeeds {} promptServices (sessionSubject session) soleUnit (flooredConfig 1.0) configs := by
  have hany : (promptServices.settingsAnswer (sessionSubject session)
      (biddingAdapters {} (sessionSubject session).request (flooredConfig 1.0))
      (.ofUnits (offered {} (sessionSubject session) soleUnit (flooredConfig 1.0)))).toOption.any
        (·.contains .bidmachine) := by
    rw [biddingAdapters_prompt]
    show (promptServices.settingsAnswer (hurriedSubject 0) [.bidmachine]
      (.ofUnits (offered {} (hurriedSubject 0) soleUnit (flooredConfig 1.0)))).toOption.any _
    decide +kernel
  rcases hanswer : promptServices.settingsAnswer (sessionSubject session)
    (biddingAdapters {} (sessionSubject session).request (flooredConfig 1.0))
    (.ofUnits (offered {} (sessionSubject session) soleUnit (flooredConfig 1.0))) with e | configs <;>
    rw [hanswer] at hany
  · cases hany
  · have hbidder := biddingAdapters_prompt session
    refine ⟨configs, founded_prompt _ session rfl, .found (by rw [hbidder]; decide) hanswer,
      .inr ⟨.bidmachine, by rw [hbidder]; decide, ?_, hany⟩⟩
    show HoldsToken (hurriedSubject 0).request.impression .bidmachine
    decide +kernel

/-- An auction with a bid above the floor succeeds. So does the same one without a bidder, with a floor
that nobody meets and with no time. If the settings cannot be read it fails, as they do, and with a session
whose instants lie too far apart it is broken off. -/
theorem run_outcome_floored :
    (∃ response, ((run {} promptServices (hurriedSubject 0)).run 0).value = .ok response) ∧
    (((run {} promptServices (hurriedSubject 0)).run 0).value.map fun _ => ()) =
      ((run {} (flooredServices 99.0 []) (hurriedSubject 1)).run 7).value.map (fun _ => ()) ∧
    ((run {} unreadableServices (hurriedSubject 0)).run 0).value = .error (.failed (.store "profiles")) ∧
    ((run {} promptServices (sessionSubject farSession)).run 0).value = .error .overflow := by
  obtain ⟨hok, -, -, hsame⟩ := @run_outcome {} promptServices (sessionSubject {}) 0 soleUnit _ _ rfl
    fun _ => rfl
  obtain ⟨-, herror, -, -⟩ := @run_outcome {} unreadableServices (sessionSubject {}) 0 soleUnit _ _ rfl
    fun _ => rfl
  obtain ⟨-, -, hoverflow, -⟩ := @run_outcome {} promptServices (sessionSubject farSession) 0 soleUnit _ _
    rfl fun _ => rfl
  have hbidder := biddingAdapters_prompt {}
  refine ⟨hok.2 ⟨⟨_, succeeds_prompt {}⟩, by decide⟩, ?_, (herror _).2 ?_,
    hoverflow.2 ⟨⟨_, succeeds_prompt farSession⟩, by decide⟩⟩
  · exact hsame {} (flooredServices 99.0 []) (hurriedSubject 1) 7 _ _ rfl (fun _ => rfl)
      (sameGrounds_floored ..)
  · exact .settings (founded_prompt _ {} rfl) (by rw [hbidder]; decide) rfl (by decide)

end Mediation.Auction
