/-
Ad units: the places in an app that an auction can fill, either at a fixed price or by a bid.
-/
import Mediation.AdUnit.Extra
import Mediation.Adapter
import Mediation.Price

namespace Mediation

/-- How the price of an ad unit comes about. -/
inductive BidType where
  /-- The unit has a price of its own. -/
  | cpm
  /-- The adapter is asked for a price. -/
  | rtb
  deriving DecidableEq, Repr

namespace BidType

def wire : BidType → String
  | .cpm => "CPM"
  | .rtb => "RTB"

def ofWire? (s : String) : Option BidType := [BidType.cpm, .rtb].find? (·.wire == s)

def toJson (t : BidType) : Json := .str t.wire

def ofJson? (v : Json) : Option BidType := v.constant?.bind ofWire?

theorem ofWire?_wire (t : BidType) : ofWire? t.wire = some t := by cases t <;> decide

end BidType

/-- An ad unit as the SDK is told of it. -/
structure AdUnit where
  adapter : Adapter
  uid : String
  label : String
  bidType : BidType
  priceFloor : Option Price := none
  /-- Milliseconds that the SDK waits for the unit to load. -/
  timeout : Option Int32 := none
  extra : AdUnit.Extra := {}
  deriving DecidableEq

namespace AdUnit

/-- Price by which units are ranked; zero where the unit has none. -/
def rankingPrice (u : AdUnit) : Price := u.priceFloor.getD 0.0

def isCpm (u : AdUnit) : Bool := u.bidType == .cpm

def toJson (u : AdUnit) : Json :=
  .record
    ([("demand_id", u.adapter.toJson), ("uid", .str u.uid), ("label", .str u.label),
        ("bid_type", u.bidType.toJson)]
      ++ Json.present "pricefloor" Price.toJson u.priceFloor ++ Json.present "timeout" .ofInt32 u.timeout
      ++ [("ext", u.extra.toJson)])

def ofJson? (v : Json) : Option AdUnit := do
  let fs ← v.fields? ["demand_id", "uid", "label", "bid_type", "pricefloor", "timeout", "ext"]
  some {
    adapter := ← fs.required "demand_id" Adapter.ofJson?
    uid := ← fs.required "uid" Json.str?
    label := ← fs.required "label" Json.str?
    bidType := ← fs.required "bid_type" BidType.ofJson?
    priceFloor := ← fs.optional "pricefloor" Price.ofJson?
    timeout := ← fs.optional "timeout" Json.int32?
    extra := ← fs.withDefault "ext" {} Extra.ofJson?
  }

end AdUnit

end Mediation
