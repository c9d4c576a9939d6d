/-
The response of an auction: the units with a fixed price and the bids that clear the floor, the
highest price first, and beside them the answers that did not make it.
-/
import Mediation.AdUnit.Buckets
import Mediation.Auction.Config
import Mediation.Bidding.Response
import Mediation.Request
import Mediation.Segment

namespace Mediation.Auction

/-! ## Unit of an answer -/

/-- The unit that an answer is for: the first unit of its adapter that is filled by bids, or for
Amazon, which answers per slot, the first one with the slot of the answer. -/
def unitOf (r : Bidding.Response) (units : AdUnits) : Option AdUnit :=
  if r.adapter = .amazon then
    r.slotUuid.bind fun slot => (units.all r.adapter .rtb).find? fun u => u.extra.slotUuid == some slot
  else units.first r.adapter .rtb

/-! ## Creative data -/

/-- What the SDK needs to show the ad of a bid. -/
inductive Creative where
  /-- The payload reaches the SDK by other means. -/
  | external
  | signal (signaldata : String)
  | byId (bidId : String)
  | payload (payload : String)
  deriving DecidableEq, Repr

def Creative.toMap : Creative → Dict String Json
  | external => .empty
  | signal s => .ofList [("signaldata", .str s)]
  | byId s => .ofList [("bid_id", .str s)]
  | payload s => .ofList [("payload", .str s)]

/-- Creative data of an answer; none if it is no bid. -/
def creative? (r : Bidding.Response) : Option Creative :=
  r.offer?.map fun b =>
    match r.adapter with
    | .amazon => .external
    | .mobileFuse => .signal b.signaldata
    | .vkAds => .byId b.id
    | _ => .payload b.payload

/-! ## Mediator parameters -/

/-- Name under which the mediator is passed on. -/
def parametersField : String := "custom_parameters"

/-- Bidmachine is told the mediator that the SDK runs under. -/
def mediatorParameters (a : Adapter) (mediator : Option String) : Dict String Json :=
  match mediator with
  | some m =>
    if m.isEmpty || a != .bidmachine then .empty
    else .ofList [(parametersField, .record [("mediator", .str m)])]
  | none => .empty

/-- A unit with a fixed price gets the mediator parameters over what it stores. -/
def withMediator (mediator : Option String) (u : AdUnit) : AdUnit :=
  let parameters := mediatorParameters u.adapter mediator
  { u with extra := { u.extra with other := parameters.layOver u.extra.other } }

/-- An answer as a unit at the price of its bid. What the unit stores lies over the creative data and
the mediator parameters. None if the answer is for no unit. -/
def convert (r : Bidding.Response) (units : AdUnits) (mediator : Option String) : Option AdUnit :=
  (unitOf r units).map fun u =>
    let creative := ((creative? r).map Creative.toMap).getD .empty
    { adapter := r.adapter
      uid := u.uid
      label := u.label
      bidType := .rtb
      priceFloor := some r.price
      timeout := u.timeout
      extra := u.extra.layOver ((mediatorParameters r.adapter mediator).layOver creative) }

/-! ## Result and response -/

/-- What an auction arrived at. -/
structure Result where
  config : Config
  segment : Segment
  /-- Every unit that fits, whatever its price is. -/
  adUnits : List AdUnit
  /-- The units with a fixed price that take part. -/
  cpmAdUnits : List AdUnit
  round : Bidding.Round
  priceFloor : Price
  /-- Milliseconds. -/
  timeout : UInt32
  deriving DecidableEq

/-- The segment as the SDK is told of it. -/
structure SegmentLabel where
  id : String
  uid : String
  deriving DecidableEq, Repr

namespace SegmentLabel

def toJson (s : SegmentLabel) : Json := .record [("id", .str s.id), ("uid", .str s.uid)]

def ofJson? (v : Json) : Option SegmentLabel := do
  let fs ← v.fields? ["id", "uid"]
  some ⟨← fs.required "id" Json.str?, ← fs.required "uid" Json.str?⟩

end SegmentLabel

/-- What the SDK is told. -/
structure Response where
  configId : Int64
  configUid : String
  externalWinNotifications : Bool
  /-- Units that can be shown, the highest price first. -/
  adUnits : List AdUnit
  /-- Answers that cannot be shown. -/
  noBids : List AdUnit
  segment : SegmentLabel
  token : String
  priceFloor : Price
  timeout : UInt32
  auctionId : String
  deriving DecidableEq

namespace Response

def toJson (r : Response) : Json :=
  .record
    [("auction_configuration_id", .ofInt64 r.configId), ("auction_configuration_uid", .str r.configUid),
      ("external_win_notifications", .bool r.externalWinNotifications),
      ("ad_units", .ofList AdUnit.toJson r.adUnits), ("no_bids", .ofList AdUnit.toJson r.noBids),
      ("segment", r.segment.toJson), ("token", .str r.token),
      ("auction_pricefloor", r.priceFloor.toJson), ("auction_timeout", .ofNat r.timeout.toNat),
      ("auction_id", .str r.auctionId)]

def ofJson? (v : Json) : Option Response := do
  let fs ← v.fields? ["auction_configuration_id", "auction_configuration_uid",
    "external_win_notifications", "ad_units", "no_bids", "segment", "token", "auction_pricefloor",
    "auction_timeout", "auction_id"]
  some {
    configId := ← fs.required "auction_configuration_id" Json.int64?
    configUid := ← fs.required "auction_configuration_uid" Json.str?
    externalWinNotifications := ← fs.required "external_win_notifications" Json.bool?
    adUnits := ← fs.required "ad_units" (Json.list? AdUnit.ofJson?)
    noBids := ← fs.required "no_bids" (Json.list? AdUnit.ofJson?)
    segment := ← fs.required "segment" SegmentLabel.ofJson?
    token := ← fs.required "token" Json.str?
    priceFloor := ← fs.required "auction_pricefloor" Price.ofJson?
    timeout := ← fs.required "auction_timeout" Json.uint32?
    auctionId := ← fs.required "auction_id" Json.str?
  }

end Response

/-- Token of a response: responses carry no token yet. -/
def emptyToken : String := "\x7b\x7d"

/-- Whether an answer is a bid above the floor. -/
def clears (floor : Price) (r : Bidding.Response) : Bool := r.isBid && floor < r.price

/-- Whether a unit may stand before another one. -/
def standsBefore (a b : AdUnit) : Bool := Price.ranksFirst a.rankingPrice b.rankingPrice

/-- The response to a request. Answers that are for no unit are left out; units of one price keep
their order. -/
def respond (r : Request) (result : Result) : Response :=
  let mediator := r.mediator
  let units := AdUnits.ofUnits result.adUnits
  let (cleared, rest) := result.round.responses.partition (clears result.priceFloor)
  let converted := fun (answers : List Bidding.Response) =>
    answers.filterMap fun a => convert a units mediator
  { configId := result.config.id
    configUid := result.config.uid
    externalWinNotifications := result.config.externalWinNotifications
    adUnits := (result.cpmAdUnits.map (withMediator mediator) ++ converted cleared).mergeSort standsBefore
    noBids := converted rest
    segment := ⟨result.segment.idText, result.segment.uid⟩
    token := emptyToken
    priceFloor := result.priceFloor
    timeout := result.timeout
    auctionId := r.impression.auctionId }

end Mediation.Auction
