/-
The floor of an auction as the highest of the prices that are set for it. The request, the configuration
and the cached ads each set theirs. The extension of the request, which the client writes as it likes,
sets one only if it names a cascading mediator beside it; otherwise what it says of a price is ignored.
-/
import Mediation.Auction.Floor
import Mediation.Proofs.Price

namespace Mediation

/-- An object that a program holds has each name once. -/
theorem Json.entries_of_settle {v : Json} {members : List (String × Json)}
    (h : v.settle = some (.obj members)) : ∃ d : Dict String Json, members = d.entries := by
  cases v with
  | obj ms =>
    obtain ⟨ms', -, he⟩ := Option.map_eq_some_iff.1 h
    cases he
    exact ⟨_, rfl⟩
  | arr items =>
    obtain ⟨vs, -, he⟩ := Option.map_eq_some_iff.1 h
    cases he
  | _ => cases h

/-! ## Extension of a request -/

namespace Request

/-- The extension of a request is the text of an object with this member. -/
def ExtHas (r : Request) (name : String) (v : Json) : Prop :=
  ∃ members, (Json.parse r.ext).bind Json.settle = some (.obj members) ∧ (name, v) ∈ members

variable {r : Request} {name : String} {v : Json}

theorem get?_extData_eq_some_iff : r.extData.get? name = some v ↔ r.ExtHas name v := by
  unfold extData ExtHas
  by_cases he : r.ext.isEmpty = true
  · -- the empty text is the text of nothing
    have hnone : Json.parse r.ext = none := by
      rw [String.isEmpty_iff.1 he]
      decide +kernel
    rw [if_pos he, hnone]
    constructor
    · intro h
      cases h
    · rintro ⟨members, h, -⟩
      cases h
  · rw [if_neg he]
    split
    · rename_i members h
      obtain ⟨w, -, hw⟩ := Option.bind_eq_some_iff.1 h
      obtain ⟨d, rfl⟩ := Json.entries_of_settle hw
      rw [Dict.ofList_entries, Dict.get?_eq_some_iff, h]
      constructor
      · exact fun hm => ⟨_, rfl, hm⟩
      · rintro ⟨members, he, hm⟩
        cases he
        exact hm
    · rename_i h
      constructor
      · intro h
        cases h
      · rintro ⟨members, hm, -⟩
        exact absurd hm (h members)

theorem mediator_eq_some_iff {m : String} : r.mediator = some m ↔ r.ExtHas "mediator" (.str m) := by
  unfold mediator
  simp only [Option.bind_eq_some_iff, get?_extData_eq_some_iff]
  constructor
  · rintro ⟨v, hv, hm⟩
    cases v <;> cases hm
    exact hv
  · exact fun h => ⟨_, h, rfl⟩

theorem previousAuctionPrice_eq_some_iff {p : Price} : r.previousAuctionPrice = some p ↔
    ∃ v x, r.ExtHas "previous_auction_price" v ∧ v.number? = some x ∧ x.isFinite ∧ p = .ofFloat x := by
  unfold previousAuctionPrice Price.ofJson?
  simp only [Option.filter_eq_some_iff, Option.bind_eq_some_iff, get?_extData_eq_some_iff,
    Option.map_eq_some_iff]
  constructor
  · rintro ⟨⟨v, hv, x, hx, rfl⟩, hfinite⟩
    exact ⟨v, x, hv, hx, (Price.isFinite_ofFloat x).symm.trans hfinite, rfl⟩
  · rintro ⟨v, x, hv, hx, hfinite, rfl⟩
    exact ⟨⟨v, hv, x, hx, rfl⟩, (Price.isFinite_ofFloat x).trans hfinite⟩

end Request

namespace Auction

/-! ## Prices that are set -/

/-- A price that is set for the auction of a request. -/
inductive Sets (mediators : List String) (r : Request) (c : Config) : Price → Prop
  | request : Sets mediators r c r.impression.priceFloor
  | config : Sets mediators r c c.priceFloor
  | cached {ad : Request.CachedAd} : ad ∈ r.adCache → Sets mediators r c ad.price
  /-- The price of the previous auction, under a mediator that cascades. -/
  | previous {m : String} {v : Json} {x : Float} : r.ExtHas "mediator" (.str m) → m ∈ mediators →
      r.ExtHas "previous_auction_price" v → v.number? = some x → x.isFinite →
      Sets mediators r c (.ofFloat x)

section

variable {mediators : List String} {r : Request} {c : Config}

theorem isCascading_iff :
    isCascading mediators r ↔ ∃ m ∈ mediators, r.ExtHas "mediator" (.str m) := by
  unfold isCascading
  rw [Option.any_eq_true]
  simp only [Request.mediator_eq_some_iff, List.contains_iff_mem]
  constructor
  · rintro ⟨m, hm, hmem⟩
    exact ⟨m, hmem, hm⟩
  · rintro ⟨m, hmem, hm⟩
    exact ⟨m, hm, hmem⟩

/-- A price is set by the request, the configuration or the cache, or it is that of the previous auction
and counts. -/
theorem sets_iff {p : Price} : Sets mediators r c p ↔
    ((p = r.impression.priceFloor ∨ p ∈ r.adCache.map (·.price)) ∨ p = c.priceFloor) ∨
      (isCascading mediators r ∧ r.previousAuctionPrice = some p) := by
  rw [isCascading_iff, Request.previousAuctionPrice_eq_some_iff, List.mem_map]
  constructor
  · intro h
    cases h with
    | request => exact .inl (.inl (.inl rfl))
    | config => exact .inl (.inr rfl)
    | cached had => exact .inl (.inl (.inr ⟨_, had, rfl⟩))
    | previous hm hmem hv hx hfinite => exact .inr ⟨⟨_, hmem, hm⟩, _, _, hv, hx, hfinite, rfl⟩
  · rintro (((rfl | ⟨ad, had, rfl⟩) | rfl) | ⟨⟨m, hmem, hm⟩, v, x, hv, hx, hfinite, rfl⟩)
    · exact .request
    · exact .cached had
    · exact .config
    · exact .previous hm hmem hv hx hfinite

/-- The fold over the cache, the configuration and the mediator's price arrives at the highest of them. -/
theorem isHighest_priceFloor (mediators : List String) (r : Request) (c : Config) :
    Price.IsHighest (Sets mediators r c) (priceFloor mediators r c) := by
  have hset := ((Price.isHighest_eq r.impression.priceFloor).highestOf (r.adCache.map (·.price))).highest
    (Price.isHighest_eq c.priceFloor)
  unfold priceFloor
  dsimp only
  split
  · rename_i previous hprevious
    split
    · rename_i hcascading
      refine (hset.highest (Price.isHighest_eq previous)).congr fun p => ?_
      rw [sets_iff, hprevious, and_iff_right hcascading, Option.some.injEq, eq_comm (a := previous)]
    · rename_i hcascading
      exact hset.congr fun p => (sets_iff.trans (or_iff_left fun h => hcascading h.1)).symm
  · rename_i hprevious
    refine hset.congr fun p => (sets_iff.trans (or_iff_left fun h => ?_)).symm
    rw [hprevious] at h
    cases h.2

theorem priceFloor_of_not_cascading (h : ∀ m ∈ mediators, ¬ r.ExtHas "mediator" (.str m)) :
    priceFloor mediators r c =
      Price.highest (Price.highestOf r.impression.priceFloor (r.adCache.map (·.price))) c.priceFloor := by
  have hcascading : ¬ isCascading mediators r := by
    rw [isCascading_iff]
    exact fun ⟨m, hm, hr⟩ => h m hm hr
  unfold priceFloor
  dsimp only
  split
  · exact if_neg hcascading
  · rfl

end

/-- The floor of an auction is the highest of the prices that are set for it: one of them, and at least
each of them that is a number. There is only one such price, so the order of the cached ads does not
matter. What an extension says of the previous price does not matter either, unless it names one of the
mediators. -/
theorem priceFloor_highest (mediators : List String) (r : Request) (c : Config) :
    Price.IsHighest (Sets mediators r c) (priceFloor mediators r c) ∧
    (∀ x, Price.IsHighest (Sets mediators r c) x →
      x == priceFloor mediators r c ∨ (x.isNaN = true ∧ (priceFloor mediators r c).isNaN = true)) ∧
    (∀ cache, cache.Perm r.adCache →
      let floor := priceFloor mediators { r with adCache := cache } c
      floor == priceFloor mediators r c ∨
        (floor.isNaN = true ∧ (priceFloor mediators r c).isNaN = true)) ∧
    ∀ ext, (∀ name v, name ≠ "previous_auction_price" →
        (({ r with ext := ext } : Request).ExtHas name v ↔ r.ExtHas name v)) →
      (∀ m ∈ mediators, ¬ r.ExtHas "mediator" (.str m)) →
      priceFloor mediators { r with ext := ext } c = priceFloor mediators r c := by
  have hfloor := isHighest_priceFloor mediators r c
  refine ⟨hfloor, fun x hx => hx.unique hfloor, fun cache hcache => ?_, fun ext hext hnone => ?_⟩
  · -- the same prices are set with the cached ads in another order
    have hother := isHighest_priceFloor mediators { r with adCache := cache } c
    refine (hother.congr fun p => ?_).unique hfloor
    rw [sets_iff, sets_iff, (hcache.map _).mem_iff]
    rfl
  · rw [priceFloor_of_not_cascading hnone, priceFloor_of_not_cascading fun m hm h =>
      hnone m hm ((hext _ _ (by decide)).1 h)]

/-- A request that sets a price, with two cached ads above it and an extension. -/
def extendedRequest (ext : String) : Request where
  ext := ext
  impression := { priceFloor := 0.01 }
  adCache := [⟨"admob", 0.07⟩, ⟨"admob", 0.02⟩]

/-- What a mediator reports of a price. -/
def mediatorExt (mediator price : String) : String :=
  "\x7b\"mediator\":\"" ++ mediator ++ "\",\"previous_auction_price\":" ++ price ++ "\x7d"

def modestConfig : Config := { id := 1, uid := "1", priceFloor := 0.05 }

/-- Under a mediator that does not cascade, two reports differ in the price alone. -/
theorem extHas_regular {price : String} {p : Float}
    (h : (extendedRequest (mediatorExt "regular" price)).extData.entries =
      [("mediator", .str "regular"), ("previous_auction_price", .float p)]) {name : String} {v : Json}
    (hname : name ≠ "previous_auction_price") :
    (extendedRequest (mediatorExt "regular" price)).ExtHas name v ↔
      name = "mediator" ∧ v = .str "regular" := by
  rw [← Request.get?_extData_eq_some_iff, Dict.get?_eq_some_iff, h]
  simp only [List.mem_cons, Prod.mk.injEq, hname, false_and, List.not_mem_nil, or_false]

/-- The price that a cascading mediator reports is the highest one, in whatever order the ads are cached;
what another mediator reports changes nothing. -/
theorem priceFloor_highest_cascading :
    Price.IsHighest (Sets defaultMediators (extendedRequest (mediatorExt "max" "0.25")) modestConfig) 0.25 ∧
    priceFloor defaultMediators
      { extendedRequest (mediatorExt "max" "0.25") with adCache := [⟨"admob", 0.02⟩, ⟨"admob", 0.07⟩] }
      modestConfig == 0.25 ∧
    priceFloor defaultMediators (extendedRequest (mediatorExt "regular" "9.5")) modestConfig =
      priceFloor defaultMediators (extendedRequest (mediatorExt "regular" "0.25")) modestConfig := by
  have hmax : priceFloor defaultMediators (extendedRequest (mediatorExt "max" "0.25")) modestConfig =
      0.25 := by decide +kernel
  have hlow : (extendedRequest (mediatorExt "regular" "0.25")).extData.entries =
      [("mediator", .str "regular"), ("previous_auction_price", .float 0.25)] := by decide +kernel
  have hhigh : (extendedRequest (mediatorExt "regular" "9.5")).extData.entries =
      [("mediator", .str "regular"), ("previous_auction_price", .float 9.5)] := by decide +kernel
  obtain ⟨hhighest, -, horder, -⟩ :=
    priceFloor_highest defaultMediators (extendedRequest (mediatorExt "max" "0.25")) modestConfig
  obtain ⟨-, -, -, hext⟩ :=
    priceFloor_highest defaultMediators (extendedRequest (mediatorExt "regular" "0.25")) modestConfig
  rw [hmax] at hhighest horder
  refine ⟨hhighest, (horder _ (.swap _ _ _)).resolve_right fun h => absurd h.2 (by decide +kernel), ?_⟩
  refine hext (mediatorExt "regular" "9.5") (fun name v hname => ?_) fun m hm h => ?_
  · exact (extHas_regular hhigh hname).trans (extHas_regular hlow hname).symm
  · cases ((extHas_regular hlow (by decide)).1 h).2
    exact absurd hm (by decide)

end Auction

end Mediation
