/-
The configuration of an auction: who takes part, from which price on and for how long. A request may
be pinned to a configuration by its key, which is the configuration's number in base 32.
-/
import Mediation.Adapter
import Mediation.Error
import Mediation.Price
import Mediation.Text.Digits

namespace Mediation.Auction

/-- Configuration of an auction. -/
structure Config where
  id : Int64
  uid : String
  /-- Adapters whose units have a fixed price, in order of priority. -/
  demands : List Adapter := []
  /-- Adapters that are called for bids. -/
  bidding : List Adapter := []
  /-- Units that may take part; without any there is no auction. -/
  adUnitIds : List Int64 := []
  priceFloor : Price := 0.0
  /-- Milliseconds; not positive if the configuration sets none. -/
  timeout : Int64 := 0
  externalWinNotifications : Bool := false
  deriving DecidableEq

namespace Config

/-- Timeout, in milliseconds, where nothing else sets one. -/
def defaultTimeout : UInt32 := 30000

/-- The timeout in milliseconds, cut to 32 bits, or a default where the configuration sets none. -/
def timeoutOr (c : Config) (default : UInt32) : UInt32 :=
  if 0 < c.timeout.toInt then (min c.timeout.toInt.toNat (UInt32.size - 1)).toUInt32 else default

def toJson (c : Config) : Json :=
  .record
    [("id", .ofInt64 c.id), ("uid", .str c.uid), ("demands", .ofList Adapter.toJson c.demands),
      ("bidding", .ofList Adapter.toJson c.bidding), ("ad_unit_ids", .ofList .ofInt64 c.adUnitIds),
      ("pricefloor", c.priceFloor.toJson), ("timeout", .ofInt64 c.timeout),
      ("external_win_notifications", .bool c.externalWinNotifications)]

def ofJson? (v : Json) : Option Config := do
  let fs ← v.fields? ["id", "uid", "demands", "bidding", "ad_unit_ids", "pricefloor", "timeout",
    "external_win_notifications"]
  some {
    id := ← fs.required "id" Json.int64?
    uid := ← fs.required "uid" Json.str?
    demands := ← fs.withDefault "demands" [] (Json.list? Adapter.ofJson?)
    bidding := ← fs.withDefault "bidding" [] (Json.list? Adapter.ofJson?)
    adUnitIds := ← fs.withDefault "ad_unit_ids" [] (Json.list? Json.int64?)
    priceFloor := ← fs.withDefault "pricefloor" 0.0 Price.ofJson?
    timeout := ← fs.withDefault "timeout" 0 Json.int64?
    externalWinNotifications := ← fs.withDefault "external_win_notifications" false Json.bool?
  }

end Config

/-- The numbers of auction keys are below `2^128`. -/
def keyBound : Nat := Nat.pow 2 128

/-- The number that an auction key denotes, in decimal. -/
def decodeKey (key : String) : Except AuctionError String :=
  match Text.plusNatural? 32 key.toList with
  | some n => if n < keyBound then .ok (toString n) else .error .invalidAuctionKey
  | none => .error .invalidAuctionKey

end Mediation.Auction
