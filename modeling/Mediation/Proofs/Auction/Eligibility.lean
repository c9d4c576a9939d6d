/-
Who takes part in an auction. The rules are stated here once, adapter by adapter: those that every
adapter has to meet, and those that a bidding adapter has to meet beside them. The lists that an auction
intersects on its way come to nothing but these rules, in the order of the configuration.
-/
import Mediation.Proofs.Auction.Course

namespace Mediation.Auction

/-! ## Rules -/

/-- An adapter takes part: it is installed, the device holds fewer of its ads than its limit, and
child-directed traffic does not keep it out. -/
structure TakesPart (policy : Policy) (r : Request) (a : Adapter) : Prop where
  installed : r.adapters.contains a.wire
  belowLimit : Adapter.cachedCount r.adCache a <
    Adapter.cacheLimit policy.cacheLimit r.device.family a r.adType
  serves : r.isCoppa → a ∉ Adapter.childDirectedBlocked

/-- The client holds a bid token of an adapter: a text that is not empty. -/
def HoldsToken (i : Request.Impression) (a : Adapter) : Prop :=
  ∃ d token, i.demands.get? a.wire = some d ∧ d.get? "token" = some (.str token) ∧ token ≠ ""

/-- An adapter may bid: it takes part, the client holds its token, and it has settings. -/
structure MayBid (policy : Policy) (r : Request) (configs : InitConfigs) (a : Adapter) : Prop
    extends TakesPart policy r a where
  token : HoldsToken r.impression a
  settings : configs.contains a

section

variable {policy : Policy} {r : Request} {configs : InitConfigs} {a : Adapter}

theorem takesPart_iff : TakesPart policy r a ↔ r.adapters.contains a.wire ∧
    Adapter.cachedCount r.adCache a <
      Adapter.cacheLimit policy.cacheLimit r.device.family a r.adType ∧
    (r.isCoppa → a ∉ Adapter.childDirectedBlocked) :=
  ⟨fun ⟨h₁, h₂, h₃⟩ => ⟨h₁, h₂, h₃⟩, fun ⟨h₁, h₂, h₃⟩ => ⟨h₁, h₂, h₃⟩⟩

instance : Decidable (TakesPart policy r a) := decidable_of_iff _ takesPart_iff.symm

theorem isSome_token_iff {i : Request.Impression} : (i.token a).isSome ↔ HoldsToken i a := by
  unfold Request.Impression.token Request.Impression.demand HoldsToken
  rw [Option.isSome_iff_exists]
  simp only [Option.filter_eq_some_iff, Option.bind_eq_some_iff]
  constructor
  · rintro ⟨token, ⟨d, hd, v, hv, htoken⟩, hne⟩
    cases v <;> cases htoken
    exact ⟨d, token, hd, hv, by simpa using hne⟩
  · rintro ⟨d, token, hd, hv, hne⟩
    exact ⟨token, ⟨d, hd, .str token, hv, rfl⟩, by simpa using hne⟩

instance {i : Request.Impression} : Decidable (HoldsToken i a) := decidable_of_iff _ isSome_token_iff

theorem mayBid_iff : MayBid policy r configs a ↔
    TakesPart policy r a ∧ HoldsToken r.impression a ∧ configs.contains a :=
  ⟨fun ⟨h₁, h₂, h₃⟩ => ⟨h₁, h₂, h₃⟩, fun ⟨h₁, h₂, h₃⟩ => ⟨h₁, h₂, h₃⟩⟩

instance : Decidable (MayBid policy r configs a) := decidable_of_iff _ mayBid_iff.symm

end

/-! ## Lists -/

section

variable {policy : Policy} {r : Request} {a : Adapter}

theorem mem_adapterKeys_iff : a ∈ r.adapterKeys ↔ r.adapters.contains a.wire := by
  unfold Request.adapterKeys
  rw [List.mem_filterMap, ← Dict.mem_keys_iff]
  constructor
  · rintro ⟨name, hname, h⟩
    rwa [← Adapter.ofWire?_eq_some_iff.1 h]
  · intro h
    exact ⟨a.wire, h, Adapter.ofWire?_wire a⟩

theorem mem_available_iff : a ∈ available policy r ↔ r.adapters.contains a.wire ∧
    Adapter.cachedCount r.adCache a <
      Adapter.cacheLimit policy.cacheLimit r.device.family a r.adType := by
  unfold available Adapter.unthrottled
  rw [List.mem_filter, decide_eq_true_iff, mem_adapterKeys_iff]

/-- What is common with the available adapters and permitted is what takes part. -/
theorem permitted_common (l : List Adapter) :
    permitted r (Adapter.common (available policy r) l) = l.filter (TakesPart policy r ·) := by
  unfold permitted Adapter.common
  rw [List.filter_filter]
  refine List.filter_congr fun a _ => ?_
  rw [Bool.eq_iff_iff, Bool.and_eq_true, Bool.not_eq_true', ← Bool.not_eq_true, Bool.and_eq_true,
    List.contains_iff_mem, mem_available_iff, decide_eq_true_iff, takesPart_iff,
    Adapter.isBlockedForChildren, List.contains_iff_mem]
  tauto

end

section

variable (g : Groundwork) (policy : Policy)

/-- The adapters that are asked in the round of an auction are those that may bid, in the order of its
configuration. -/
theorem dispatched_params (s : Services) (x : Subject) (configs : InitConfigs) (now : Nat) :
    (g.params policy s x configs now).dispatched =
      g.config.bidding.filter (MayBid policy x.request configs ·) := by
  rw [Bidding.dispatched_eq_filter]
  show (permitted x.request (Adapter.common (available policy x.request) g.config.bidding)).filter _ = _
  rw [permitted_common, List.filter_filter]
  refine List.filter_congr fun a _ => ?_
  rw [Bool.eq_iff_iff, decide_eq_true_iff, mayBid_iff, ← isSome_token_iff]
  simp only [Bool.and_eq_true, decide_eq_true_iff, List.contains_iff_mem]
  show ((a ∈ x.request.adapterKeys ∧ (x.request.impression.token a).isSome) ∧ configs.contains a) ∧
    TakesPart policy x.request a ↔ _
  constructor
  · rintro ⟨⟨⟨-, htoken⟩, hsettings⟩, h⟩
    exact ⟨h, htoken, hsettings⟩
  · rintro ⟨h, htoken, hsettings⟩
    exact ⟨⟨⟨mem_adapterKeys_iff.2 h.installed, htoken⟩, hsettings⟩, h⟩

/-- The units with a fixed price are those of the adapters of the configuration that take part. -/
theorem cpm_eq_filter (r : Request) : g.cpm policy r = g.units.filter fun u =>
    u.isCpm ∧ u.adapter ∈ g.config.demands ∧ TakesPart policy r u.adapter := by
  unfold Groundwork.cpm cpmUnits
  rw [permitted_common]
  refine List.filter_congr fun u _ => ?_
  rw [Bool.eq_iff_iff, Bool.and_eq_true, List.contains_iff_mem, List.mem_filter, decide_eq_true_iff,
    decide_eq_true_iff]

end

/-! ## Auctions -/

section

variable {policy : Policy} {s : Services} {x : Subject} {t : Nat}
variable {bidders : Bidding.Bidders} {listener : Bidding.Listener}

/-- The round of an auction, with the adapters that are asked in it told by the rules. -/
theorem value_holdRound_params (g : Groundwork) (configs : InitConfigs) (now : Nat) :
    (Bidding.holdRound s.clock bidders listener (g.params policy s x configs now) now).value =
      { responses := ((g.config.bidding.filter (MayBid policy x.request configs ·)).flatMap fun a =>
          Bidding.block (g.params policy s x configs now) now a (bidders.get? a)).map
          (Bidding.stamp (g.params policy s x configs now)
            (s.clock.millis (Bidding.roundEnd bidders (g.params policy s x configs now) now))) } := by
  rw [Bidding.value_holdRound, dispatched_params]

/-- In every auction that turns to the adapters, those of its configuration that may bid, and no others,
have a block in the round, in the order of the configuration; of them those with a bidder are called.
The listener is told of the round if there is anyone to ask. The units with a fixed price are the
matched ones, in their order, of the adapters that take part. -/
theorem round_of_mayBid (hs : s.rounds = .fanOut bidders listener) (h : ReachesDispatch policy s x t) :
    ∃ g configs now asked round p, Dispatches policy s x t g configs now ∧
      p = g.params policy s x configs now ∧
      asked = g.config.bidding.filter (MayBid policy x.request configs ·) ∧
      round =
        { responses := (asked.flatMap fun a => Bidding.block p now a (bidders.get? a)).map
            (Bidding.stamp p (s.clock.millis (Bidding.roundEnd bidders p now))) } ∧
      (∀ a ∈ asked, Bidding.block p now a (bidders.get? a) ≠ []) ∧
      roundSteps ((run policy s x).run t).steps =
        ((asked.filter bidders.contains).map fun a =>
          ⟨now, .called ⟨a, p.baseRequest now, configs⟩⟩) ++
        (if asked = [] then []
        else [⟨Bidding.roundEnd bidders p now,
          .notified ⟨x.request.impression, round, x.request.app.bundle, x.request.adType⟩⟩]) ∧
      g.cpm policy x.request = g.units.filter (fun u =>
        u.isCpm ∧ u.adapter ∈ g.config.demands ∧ TakesPart policy x.request u.adapter) ∧
      ∀ result, ((build policy s x).run t).value = .ok result →
        result.config = g.config ∧ result.adUnits = g.units ∧ result.round = round ∧
          result.cpmAdUnits = g.cpm policy x.request := by
  obtain ⟨g, configs, now, hd⟩ := exists_dispatches h
  refine ⟨g, configs, now, _, _, _, hd, rfl, rfl, rfl, ?_, ?_, cpm_eq_filter g policy x.request, ?_⟩
  · exact fun a _ => Bidding.block_ne_nil _ _ a _
  · rw [roundSteps_run hs hd]
    -- with nobody to ask there is neither a call nor a notice
    by_cases hn : g.config.bidding.filter (MayBid policy x.request configs ·) = []
    · rw [Bidding.holdRound_of_nil _ _ _ _ _ ((dispatched_params ..).trans hn), hn, if_pos rfl]
      rfl
    · rw [if_neg hn, Bidding.steps_holdRound _ _ _ _ _ (by rwa [dispatched_params]),
        value_holdRound_params]
      unfold Bidding.calls
      rw [dispatched_params, List.map_map]
      rfl
  · intro result hb
    rw [build_ok_of_dispatches hs hd hb]
    exact ⟨rfl, rfl, value_holdRound_params g configs now, rfl⟩

end

/-- Services with one configuration, one inventory, bare profiles of some adapters and some bidders. -/
def fixedServices (c : Config) (inventory : Inventory) (profiles : List Adapter)
    (regs : List (Adapter × Bidding.Bidder)) : Services where
  segments _ := ⟨1, .ok []⟩
  configs := ⟨fun _ _ _ _ => ⟨2, .ok c⟩, fun _ _ _ => ⟨0, none⟩⟩
  adUnits o := ⟨0, .ok (inventory.matching o)⟩
  settings := .stored
    { profiles := fun _ _ => ⟨3, .ok (profiles.map fun a => ⟨a, .empty, .empty⟩)⟩
      placements := fun _ => ⟨0, .ok .empty⟩ }
  rounds := .fanOut (.ofList regs) fun _ => ⟨0, .ok ()⟩
  engine m := .ok ⟨m.topic.wire, m.payload⟩
  clock := ⟨fun now => now * 1000⟩
  requestId _ := "r"

/-- A child-directed request for an interstitial, of a client with some adapters and some tokens. -/
def childRequest (installed tokens : List Adapter) : Request where
  adType := .interstitial
  regulations := some { coppa := true }
  adapters := .ofList (installed.map fun a => (a.wire, {}))
  impression :=
    { auctionId := "a"
      demands := .ofList (tokens.map fun a => (a.wire, .ofList [("token", .str "t")])) }

/-- Of the adapters that are to bid, Vungle has no token, Meta is blocked, BigoAds is throttled, Moloco
has no profile, Amazon is not installed and Mintegral has no bidder. -/
def pickyServices : Services :=
  fixedServices
    { id := 1, uid := "1", demands := [.gam, .metaNetwork, .admob], adUnitIds := [1, 2, 3, 4]
      bidding := [.vungle, .mintegral, .metaNetwork, .bigoAds, .moloco, .bidmachine, .amazon] }
    [⟨1, 1, .interstitial, none, .metaNetwork, 11, "", false, some 3.0, {}⟩,
      ⟨2, 1, .interstitial, none, .admob, 12, "", false, some 2.0, {}⟩,
      ⟨3, 1, .interstitial, none, .gam, 13, "", false, some 1.0, {}⟩,
      ⟨4, 1, .interstitial, none, .bidmachine, 14, "", true, none, {}⟩]
    [.vungle, .mintegral, .metaNetwork, .bigoAds, .bidmachine, .amazon]
    [(.bidmachine, ⟨fun _ _ _ => ⟨1, .ok [.ofBid .bidmachine { price := 4.0 }]⟩⟩),
      (.vungle, ⟨fun _ _ _ => ⟨0, .ok []⟩⟩)]

def pickySubject : Subject where
  appId := 1
  request :=
    { childRequest [.admob, .bidmachine, .bigoAds, .metaNetwork, .mintegral, .moloco, .vungle]
        [.amazon, .bidmachine, .bigoAds, .metaNetwork, .mintegral, .moloco] with
      adCache := [⟨"bigoads", 1.0⟩, ⟨"bigoads", 1.0⟩, ⟨"bigoads", 1.0⟩] }
  geo := {}

/-- Two adapters are left to bid, one of them is called, and one unit has a fixed price. -/
theorem round_of_mayBid_picky : ReachesDispatch {} pickyServices pickySubject 0 ∧
    ∃ g configs now asked, Dispatches {} pickyServices pickySubject 0 g configs now ∧
      asked = g.config.bidding.filter (MayBid {} pickySubject.request configs ·) ∧
      asked = [.mintegral, .bidmachine] ∧
      (roundSteps ((run {} pickyServices pickySubject).run 0).steps).head? =
        some ⟨now, .called ⟨.bidmachine,
          (g.params {} pickyServices pickySubject configs now).baseRequest now, configs⟩⟩ ∧
      (g.cpm {} pickySubject.request).map (·.uid) = ["12"] := by
  have h : ReachesDispatch {} pickyServices pickySubject 0 := by
    unfold ReachesDispatch
    decide +kernel
  obtain ⟨g, configs, now, asked, round, p, hd, rfl, hasked, -, -, hsteps, -⟩ := round_of_mayBid rfl h
  have hp : ∀ g ∈ ((prepare {} pickyServices pickySubject).run 0).value.toOption,
      g.config.bidding.filter (MayBid {} pickySubject.request
        ((settingsCourse {} pickyServices pickySubject 0 g).value.toOption.getD .empty) ·) =
          [.mintegral, .bidmachine] ∧
        (g.cpm {} pickySubject.request).map (·.uid) = ["12"] := by decide +kernel
  obtain ⟨hbid, hcpm⟩ := hp g (by rw [hd.prepared]; rfl)
  rw [← hd.configs, ← hasked] at hbid
  refine ⟨h, g, configs, now, asked, hd, hasked, hbid, ?_, hcpm⟩
  rw [hsteps, hbid]
  rfl

end Mediation.Auction
