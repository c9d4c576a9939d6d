/-
The request of an auction: what the SDK sends in the body, with the placement type and the version
that the transport takes from the path and from a header. Beside the record stand the values that the
auction reads off it: the installed adapters, the regulations and the mediator's hints.
-/
import Mediation.Request.Device
import Mediation.Request.Impression
import Mediation.Request.Party
import Mediation.Json.Reader

namespace Mediation

/-- A request for an auction. -/
structure Request where
  adType : AdType := .banner
  sdkVersion : String := ""
  device : Request.Device := {}
  session : Request.Session := {}
  app : Request.App := {}
  user : Request.User := {}
  position : Option Request.Position := none
  regulations : Option Request.Regulations := none
  /-- JSON text that the SDK passes through. -/
  ext : String := ""
  token : String := ""
  segment : Request.SegmentContext := {}
  /-- Installed adapters by name, known here or not. -/
  adapters : Dict String Request.AdapterInfo := .empty
  impression : Request.Impression
  adCache : List Request.CachedAd := []
  test : Bool := false
  /-- Longest time that the client waits, in milliseconds; not positive if it sets none. -/
  tmax : Int64 := 0
  deriving DecidableEq

namespace Request

/-! ## Values read off a request -/

/-- Installed adapters that are known here, in name order. -/
def adapterKeys (r : Request) : List Adapter := r.adapters.keys.filterMap Adapter.ofWire?

/-- Banner format that is asked for. -/
def format (r : Request) : Option AdFormat := r.impression.banner

/-- Regulations that apply; none do when the request does not say. -/
def effectiveRegulations (r : Request) : Regulations := r.regulations.getD {}

def isCoppa (r : Request) : Bool := r.effectiveRegulations.coppa

/-- The extension as an object; nothing if it is not the text of one. -/
def extData (r : Request) : Dict String Json :=
  if r.ext.isEmpty then .empty
  else
    match (Json.parse r.ext).bind Json.settle with
    | some (.obj members) => .ofList members
    | _ => .empty

/-- Client-side mediator that the SDK runs under. -/
def mediator (r : Request) : Option String := (r.extData.get? "mediator").bind Json.str?

/-- Price that won the mediator's previous auction. -/
def previousAuctionPrice (r : Request) : Option Price :=
  ((r.extData.get? "previous_auction_price").bind Price.ofJson?).filter Price.isFinite

/-- Whether the request may be auctioned. -/
def isValid (r : Request) : Bool := r.impression.isValid

/-! ## JSON -/

/-- The body; placement type and version are not part of it. -/
def toJson (r : Request) : Json :=
  .record
    [("device", r.device.toJson), ("session", r.session.toJson), ("app", r.app.toJson),
      ("user", r.user.toJson), ("geo", .ofOption Position.toJson r.position),
      ("regs", .ofOption Regulations.toJson r.regulations), ("ext", .str r.ext),
      ("token", .str r.token), ("segment", r.segment.toJson),
      ("adapters", .ofDictOf AdapterInfo.toJson r.adapters), ("imp", r.impression.toJson),
      ("ad_cache", .ofList CachedAd.toJson r.adCache), ("test", .bool r.test), ("tmax", .ofInt64 r.tmax)]

def ofJson? (v : Json) : Option Request := do
  let fs ← v.fields? ["device", "session", "app", "user", "geo", "regs", "ext", "token", "segment",
    "adapters", "imp", "ad_cache", "test", "tmax"]
  some {
    device := ← fs.withDefault "device" {} Device.ofJson?
    session := ← fs.withDefault "session" {} Session.ofJson?
    app := ← fs.withDefault "app" {} App.ofJson?
    user := ← fs.withDefault "user" {} User.ofJson?
    position := ← fs.optional "geo" Position.ofJson?
    regulations := ← fs.optional "regs" Regulations.ofJson?
    ext := ← fs.withDefault "ext" "" Json.str?
    token := ← fs.withDefault "token" "" Json.str?
    segment := ← fs.withDefault "segment" {} SegmentContext.ofJson?
    adapters := ← fs.withDefault "adapters" .empty (Json.dictOf? AdapterInfo.ofJson?)
    impression := ← fs.required "imp" Impression.ofJson?
    adCache := ← fs.withDefault "ad_cache" [] (Json.list? CachedAd.ofJson?)
    test := ← fs.withDefault "test" false Json.bool?
    tmax := ← fs.withDefault "tmax" 0 Json.int64?
  }

end Request

end Mediation
