/-
The stored ad units of all apps, and the units of it that fit an opportunity: of the app, of the
placement type, of an adapter that takes part, and for banners of a compatible format.
-/
import Mediation.Ad
import Mediation.AdUnit

namespace Mediation

/-! ## Stored units -/

/-- An ad unit as an app's publisher stored it. -/
structure StoredAdUnit where
  id : Int64
  appId : Int64
  adType : AdType
  format : Option AdFormat
  adapter : Adapter
  publicUid : Int64
  label : String
  /-- Whether the adapter is asked for a price. -/
  bidding : Bool
  bidFloor : Option Price
  extra : AdUnit.Extra
  deriving DecidableEq

/-- Milliseconds that the SDK waits for a unit of an adapter to load. -/
def Adapter.loadTimeout (a : Adapter) : Int32 := if a = .admob then 10000 else 6000

namespace StoredAdUnit

/-- The unit as the SDK is told of it. A unit that is filled by bids has no price of its own. -/
def toAdUnit (s : StoredAdUnit) : AdUnit where
  adapter := s.adapter
  uid := toString s.publicUid.toInt
  label := s.label
  bidType := if s.bidding then .rtb else .cpm
  priceFloor := if s.bidding then none else s.bidFloor
  timeout := some s.adapter.loadTimeout
  extra := s.extra

def toJson (s : StoredAdUnit) : Json :=
  .record
    [("id", .ofInt64 s.id), ("app_id", .ofInt64 s.appId), ("ad_type", s.adType.toJson),
      ("format", .ofOption AdFormat.toJson s.format), ("demand_id", s.adapter.toJson),
      ("public_uid", .ofInt64 s.publicUid), ("label", .str s.label), ("bidding", .bool s.bidding),
      ("bid_floor", .ofOption Price.toJson s.bidFloor), ("extra", s.extra.toJson)]

def ofJson? (v : Json) : Option StoredAdUnit := do
  let fs ← v.fields? ["id", "app_id", "ad_type", "format", "demand_id", "public_uid", "label", "bidding",
    "bid_floor", "extra"]
  some {
    id := ← fs.required "id" Json.int64?
    appId := ← fs.required "app_id" Json.int64?
    adType := ← fs.required "ad_type" AdType.ofJson?
    format := ← fs.optional "format" AdFormat.ofJson?
    adapter := ← fs.required "demand_id" Adapter.ofJson?
    publicUid := ← fs.required "public_uid" Json.int64?
    label := ← fs.withDefault "label" "" Json.str?
    bidding := ← fs.withDefault "bidding" false Json.bool?
    bidFloor := ← fs.optional "bid_floor" Price.ofJson?
    extra := ← fs.withDefault "extra" {} AdUnit.Extra.ofJson?
  }

end StoredAdUnit

/-! ## Opportunities -/

/-- What a unit has to fit. -/
structure Opportunity where
  appId : Int64
  adType : AdType
  format : Option AdFormat
  deviceType : DeviceType
  /-- Adapters that take part. -/
  adapters : List Adapter
  /-- Units that may take part; all may if none is named. -/
  adUnitIds : List Int64
  deriving DecidableEq, Repr

/-- Formats that a banner of a given format may be filled with: its own, an adaptive one for a banner
or a leaderboard, and for an adaptive one the fixed format of the device class. -/
def AdFormat.compatible (f : AdFormat) (device : DeviceType) : List AdFormat :=
  match f, device with
  | .adaptive, .tablet => [.adaptive, .leaderboard]
  | .adaptive, .phone => [.adaptive, .banner]
  | .adaptive, .unknown => [.adaptive]
  | .banner, _ => [.banner, .adaptive]
  | .leaderboard, _ => [.leaderboard, .adaptive]
  | .mrec, _ => [.mrec]

namespace Opportunity

/-- Whether the format of a unit fits. It matters for banners only, and there both must state one. -/
def fitsFormat (o : Opportunity) (s : StoredAdUnit) : Bool :=
  match o.adType with
  | .banner =>
    match o.format, s.format with
    | some wanted, some offered => (wanted.compatible o.deviceType).contains offered
    | _, _ => false
  | _ => true

/-- Whether a stored unit fits. -/
def fits (o : Opportunity) (s : StoredAdUnit) : Bool :=
  s.appId == o.appId && s.adType == o.adType && o.adapters.contains s.adapter
    && (o.adUnitIds.isEmpty || o.adUnitIds.contains s.id) && o.fitsFormat s

end Opportunity

/-- Stored units in the order in which they are offered. -/
abbrev Inventory := List StoredAdUnit

/-- The units that fit, in inventory order. -/
def Inventory.matching (inv : Inventory) (o : Opportunity) : List AdUnit :=
  (inv.filter o.fits).map StoredAdUnit.toAdUnit

end Mediation
