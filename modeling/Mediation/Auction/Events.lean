/-
The events of an auction: one row per answer, with a second row beside it for a bid, and one row for
the request.
-/
import Mediation.Auction.Response
import Mediation.Event.AdEvent

namespace Mediation.Auction

/-- What all events of an auction have in common. -/
structure EventContext where
  /-- Unix seconds. -/
  timestamp : Float
  /-- Time for which the session of the request has been on. -/
  uptime : Int64
  request : Request
  geo : GeoData
  config : Config
  priceFloor : Price

namespace EventContext

/-- What the events of a result have in common. None if there is no telling how long the session has been
on: then no event can be made. -/
def of? (timestamp : Float) (r : Request) (geo : GeoData) (result : Result) : Option EventContext :=
  r.session.uptime?.map fun uptime => ⟨timestamp, uptime, r, geo, result.config, result.priceFloor⟩

/-- A row about the auction. -/
def base (c : EventContext) (eventType : String) : AdEvent :=
  { AdEvent.ofRequest c.timestamp c.uptime c.request c.geo with
    eventType := eventType
    adType := c.request.adType.wire
    adFormat := (c.request.format.map AdFormat.wire).getD ""
    auctionId := c.request.impression.auctionId
    configId := c.config.id
    configUid := (Text.int64? c.config.uid).getD 0
    priceFloor := c.priceFloor }

/-- The row of the request. -/
def requestEvent (c : EventContext) : AdEvent := { c.base "auction_request" with status := "SUCCESS" }

/-- The row of an answer, and the row of its bid. -/
def answerEvents (c : EventContext) (units : AdUnits) (r : Bidding.Response) : AdEventGroup :=
  let unit := unitOf r units
  let about (e : AdEvent) : AdEvent :=
    { e with
      demandId := r.adapter.wire
      bidding := true
      adUnitUid := (unit.bind fun u => Text.int64? u.uid).getD 0
      adUnitLabel := (unit.map (·.label)).getD ""
      ecpm := r.price }
  let span := (r.startTs, r.endTs)
  { event :=
      { about (c.base "bid_request") with
        status := r.status.wire
        rawRequest := r.rawRequest
        rawResponse := r.rawResponse
        error := r.errorText
        timings := .ofList [("bid", span), ("token", (r.token.startTs, r.token.endTs))] }
    children :=
      if r.isBid then
        [{ about (c.base "bid") with status := "SUCCESS", timings := .ofList [("bid", span)] }]
      else [] }

/-- The rows of a bidding round, in the order of its answers. -/
def roundEvents (c : EventContext) (units : AdUnits) (round : Bidding.Round) : List AdEventGroup :=
  round.responses.map (c.answerEvents units)

end EventContext

/-- The rows of an auction: those of its round, then that of the request. -/
def events (c : EventContext) (result : Result) : List AdEventGroup :=
  c.roundEvents (.ofUnits result.adUnits) result.round ++ [⟨c.requestEvent, []⟩]

end Mediation.Auction
