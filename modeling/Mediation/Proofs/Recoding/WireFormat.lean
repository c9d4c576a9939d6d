/-
The wire format: every type that is told or told of as JSON. What is read of one is written so that the same is
read again, and writing that anew changes nothing. A body of a request says nothing of the placement type and
the version of the SDK, so that these are read as their defaults.
-/
import Mediation.Proofs.Recoding.Auction
import Mediation.Proofs.Recoding.OpenRtb
import Mediation.Proofs.Recoding.Settings

namespace Mediation

open Json

/-- A type of the wire format. -/
inductive WireType where
  | auctionRequest
  | auctionResponse
  | adUnit
  | adUnitExtra
  | storedAdUnit
  | auctionConfig
  | segment
  | filter
  | cachedAd
  | geoData
  | bidRequest
  | bidResponse
  | adapterInitConfig
  | settings
  deriving DecidableEq, Repr

namespace WireType

/-- What a JSON value of the type describes. -/
def Carrier : WireType → Type
  | auctionRequest => Request
  | auctionResponse => Auction.Response
  | adUnit => AdUnit
  | adUnitExtra => AdUnit.Extra
  | storedAdUnit => StoredAdUnit
  | auctionConfig => Auction.Config
  | segment => Segment
  | filter => Segment.Filter
  | cachedAd => Request.CachedAd
  | geoData => GeoData
  | bidRequest => OpenRtb.BidRequest
  | bidResponse => OpenRtb.BidResponse
  | adapterInitConfig => InitConfig
  | settings => Settings

def read : (t : WireType) → Json → Option t.Carrier
  | auctionRequest => Request.ofJson?
  | auctionResponse => Auction.Response.ofJson?
  | adUnit => AdUnit.ofJson?
  | adUnitExtra => AdUnit.Extra.ofJson?
  | storedAdUnit => StoredAdUnit.ofJson?
  | auctionConfig => Auction.Config.ofJson?
  | segment => Segment.ofJson?
  | filter => Segment.Filter.ofJson?
  | cachedAd => Request.CachedAd.ofJson?
  | geoData => GeoData.ofJson?
  | bidRequest => OpenRtb.BidRequest.ofJson?
  | bidResponse => OpenRtb.BidResponse.ofJson?
  | adapterInitConfig => InitConfig.ofJson?
  | settings => Settings.ofJson?

def write : (t : WireType) → t.Carrier → Json
  | auctionRequest => Request.toJson
  | auctionResponse => Auction.Response.toJson
  | adUnit => AdUnit.toJson
  | adUnitExtra => AdUnit.Extra.toJson
  | storedAdUnit => StoredAdUnit.toJson
  | auctionConfig => Auction.Config.toJson
  | segment => Segment.toJson
  | filter => Segment.Filter.toJson
  | cachedAd => Request.CachedAd.toJson
  | geoData => GeoData.toJson
  | bidRequest => OpenRtb.BidRequest.toJson
  | bidResponse => OpenRtb.BidResponse.toJson
  | adapterInitConfig => InitConfig.toJson
  | settings => Settings.toJson

/-- Reads a value of the type and writes it anew. -/
def recode? (t : WireType) (v : Json) : Option Json := (t.read v).map t.write

theorem recodes (t : WireType) : Recodes t.read t.write := by
  cases t with
  | auctionRequest => exact Request.recodes
  | auctionResponse => exact Auction.Response.recodes
  | adUnit => exact AdUnit.recodes
  | adUnitExtra => exact AdUnit.Extra.recodes
  | storedAdUnit => exact StoredAdUnit.recodes
  | auctionConfig => exact Auction.Config.recodes
  | segment => exact recodes_of_forall Segment.faithful
  | filter => exact recodes_of_forall Segment.Filter.faithful
  | cachedAd => exact Request.CachedAd.recodes
  | geoData => exact GeoData.recodes
  | bidRequest => exact OpenRtb.BidRequest.recodes
  | bidResponse => exact OpenRtb.BidResponse.recodes
  | adapterInitConfig => exact InitConfig.recodes
  | settings => exact recodes_of_forall Settings.faithful

theorem recode?_of_recode? (t : WireType) {v w : Json} (hv : v.inRange) (h : t.recode? v = some w) :
    t.recode? w = some w := by
  obtain ⟨x, hx, rfl⟩ := Option.map_eq_some_iff.1 h
  unfold recode?
  rw [(t.recodes v hv x hx).read_write, Option.map_some]

end WireType

/-! ## Requests as bodies -/

theorem Request.defaults_of_read {v : Json} {r : Request} (h : ofJson? v = some r) :
    r.adType = .banner ∧ r.sdkVersion = "" := by
  revert r
  unfold ofJson?
  simp only [forall_bind, forall_some, and_self, implies_true]

/-- What is read of a value is written as a value that a program can hold, and the same is read of that, for
every type of the wire format; hence recoding twice is recoding once. A request is read with the defaults of
the two fields that no body has, whatever they are when it is written. Every value of a text has numbers that
can be held. -/
theorem read_write_of_read :
    (∀ (t : WireType) (v : Json) (x : t.Carrier), v.inRange → t.read v = some x →
      (t.write x).IsValue ∧ t.read (t.write x) = some x) ∧
    (∀ (t : WireType) (v w : Json), v.inRange → t.recode? v = some w → t.recode? w = some w) ∧
    (∀ (v : Json) (r : Request), v.inRange → Request.ofJson? v = some r →
      r.adType = .banner ∧ r.sdkVersion = "" ∧ ∀ adType sdkVersion,
        Request.ofJson? (Request.toJson { r with adType := adType, sdkVersion := sdkVersion }) = some r) ∧
    ∀ (bs : List UInt8) (v : Json), Json.read bs = some v → v.inRange := by
  refine ⟨fun t v x hv h => ?_, fun t v w hv h => t.recode?_of_recode? hv h, fun v r hv h => ?_,
    fun _ _ => inRange_of_read⟩
  · have hfaithful := t.recodes v hv x h
    exact ⟨hfaithful.isValue, hfaithful.read_write⟩
  · obtain ⟨hadType, hversion⟩ := Request.defaults_of_read h
    exact ⟨hadType, hversion, fun _ _ => (Request.recodes v hv r h).read_write⟩

/-- Settings that are listed by position, with an empty field and a table whose names are out of order, become
named ones; and a request keeps its defaults though its body names the placement type. -/
theorem read_write_of_read_listed :
    (∃ x, WireType.adapterInitConfig.read (.arr [.str "bidmachine", .str "seller", .str "", .arr [.str "sdk"],
        .obj [("b", .str "2"), ("a", .str "1")], .int 3]) = some x ∧
      WireType.adapterInitConfig.write x = .obj [("adapter", .str "bidmachine"),
        ("mediation_config", .arr [.str "sdk"]), ("order", .int 3),
        ("placements", .obj [("a", .str "1"), ("b", .str "2")]), ("seller_id", .str "seller")] ∧
      WireType.adapterInitConfig.read (WireType.adapterInitConfig.write x) = some x ∧
      WireType.adapterInitConfig.recode? (WireType.adapterInitConfig.write x) =
        some (WireType.adapterInitConfig.write x)) ∧
    ∃ r, Request.ofJson? (.obj [("imp", .obj []), ("ad_type", .str "rewarded")]) = some r ∧
      r.adType = .banner ∧ Request.ofJson? (Request.toJson { r with adType := .rewarded }) = some r := by
  obtain ⟨hread, hrecode, hrequest, -⟩ := read_write_of_read
  refine ⟨?_, ?_⟩
  · have hlisted : WireType.adapterInitConfig.recode? (.arr [.str "bidmachine", .str "seller", .str "",
        .arr [.str "sdk"], .obj [("b", .str "2"), ("a", .str "1")], .int 3]) =
          some (.obj [("adapter", .str "bidmachine"), ("mediation_config", .arr [.str "sdk"]), ("order", .int 3),
            ("placements", .obj [("a", .str "1"), ("b", .str "2")]), ("seller_id", .str "seller")]) := by
      decide +kernel
    obtain ⟨x, hx, hw⟩ := Option.map_eq_some_iff.1 hlisted
    refine ⟨x, hx, hw, (hread _ _ x (by decide) hx).2, ?_⟩
    rw [hw]
    exact hrecode _ _ _ (by decide) hlisted
  · have hbody : (Request.ofJson? (.obj [("imp", .obj []), ("ad_type", .str "rewarded")])).isSome := by
      decide +kernel
    obtain ⟨r, hr⟩ := Option.isSome_iff_exists.1 hbody
    obtain ⟨hadType, -, hwritten⟩ := hrequest _ r (by decide) hr
    exact ⟨r, hr, hadType, hwritten .rewarded r.sdkVersion⟩

end Mediation
