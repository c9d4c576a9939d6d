/-
What a request asks for: the impression with the client's data of each adapter, the adapters that are
installed, and the ads that the device still holds.
-/
import Mediation.Ad
import Mediation.Adapter
import Mediation.Price

namespace Mediation.Request

/-! ## Installed adapters and cached ads -/

/-- Versions of an installed adapter. -/
structure AdapterInfo where
  version : String := ""
  sdkVersion : String := ""
  deriving DecidableEq, Repr

namespace AdapterInfo

def toJson (a : AdapterInfo) : Json :=
  .record [("version", .str a.version), ("sdk_version", .str a.sdkVersion)]

def ofJson? (v : Json) : Option AdapterInfo := do
  let fs ← v.fields? ["version", "sdk_version"]
  some {
    version := ← fs.withDefault "version" "" Json.str?
    sdkVersion := ← fs.withDefault "sdk_version" "" Json.str?
  }

end AdapterInfo

/-- An ad that the device holds from an earlier auction. -/
structure CachedAd where
  demandId : String
  price : Price
  deriving DecidableEq

namespace CachedAd

def toJson (c : CachedAd) : Json :=
  .record [("demand_id", .str c.demandId), ("price", c.price.toJson)]

def ofJson? (v : Json) : Option CachedAd := do
  let fs ← v.fields? ["demand_id", "price"]
  some ⟨← fs.required "demand_id" Json.str?, ← fs.withDefault "price" 0.0 Price.ofJson?⟩

end CachedAd

/-! ## Impression -/

/-- Banner of an impression: a record that holds nothing but its format. -/
def bannerToJson (f : AdFormat) : Json := .record [("format", f.toJson)]

def bannerOfJson? (v : Json) : Option AdFormat := do
  let fs ← v.fields? ["format"]
  fs.required "format" AdFormat.ofJson?

/-- A record without any field, whose presence is all it says. -/
def markToJson (_ : Unit) : Json := .record []

def markOfJson? (v : Json) : Option Unit := (v.fields? []).map fun _ => ()

/-- The impression that is auctioned. -/
structure Impression where
  auctionId : String := ""
  /-- Key of the configuration that the auction is pinned to, if any. -/
  auctionKey : String := ""
  configId : Int64 := 0
  configUid : String := ""
  priceFloor : Price := 0.0
  orientation : String := ""
  /-- Client data by adapter name: bid tokens and their timing. -/
  demands : Dict String (Dict String Json) := .empty
  /-- Format, when this is a banner. -/
  banner : Option AdFormat := none
  interstitial : Option Unit := none
  rewarded : Option Unit := none
  deriving DecidableEq

namespace Impression

/-- Client data of an adapter. -/
def demand (i : Impression) (a : Adapter) : Option (Dict String Json) := i.demands.get? a.wire

/-- Bid token of an adapter, if it is a text that is not empty. -/
def token (i : Impression) (a : Adapter) : Option String :=
  ((i.demand a).bind fun d => (d.get? "token").bind Json.str?).filter fun t => !t.isEmpty

/-- Whether the impression may be auctioned. -/
def isValid (i : Impression) : Bool := !i.auctionId.isEmpty && !(i.priceFloor < 0.0)

def toJson (i : Impression) : Json :=
  .record
    [("auction_id", .str i.auctionId), ("auction_key", .str i.auctionKey),
      ("auction_configuration_id", .ofInt64 i.configId),
      ("auction_configuration_uid", .str i.configUid), ("auction_pricefloor", i.priceFloor.toJson),
      ("orientation", .str i.orientation), ("demands", .ofDictOf .ofDict i.demands),
      ("banner", .ofOption bannerToJson i.banner),
      ("interstitial", .ofOption markToJson i.interstitial),
      ("rewarded", .ofOption markToJson i.rewarded)]

def ofJson? (v : Json) : Option Impression := do
  let fs ← v.fields? ["auction_id", "auction_key", "auction_configuration_id",
    "auction_configuration_uid", "auction_pricefloor", "orientation", "demands", "banner",
    "interstitial", "rewarded"]
  some {
    auctionId := ← fs.withDefault "auction_id" "" Json.str?
    auctionKey := ← fs.withDefault "auction_key" "" Json.str?
    configId := ← fs.withDefault "auction_configuration_id" 0 Json.int64?
    configUid := ← fs.withDefault "auction_configuration_uid" "" Json.str?
    priceFloor := ← fs.withDefault "auction_pricefloor" 0.0 Price.ofJson?
    orientation := ← fs.withDefault "orientation" "" Json.str?
    demands := ← fs.withDefault "demands" .empty (Json.dictOf? Json.settleObject)
    banner := ← fs.optional "banner" bannerOfJson?
    interstitial := ← fs.optional "interstitial" markOfJson?
    rewarded := ← fs.optional "rewarded" markOfJson?
  }

end Impression

end Mediation.Request
