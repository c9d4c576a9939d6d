/-
What comes back from an adapter that was asked for bids. A call that failed or that nobody answered in
time is a response too, with a status that says so.
-/
import Mediation.Adapter
import Mediation.OpenRtb.Response

namespace Mediation.Bidding

/-- How an adapter answered. -/
inductive Status where
  | noBid
  | bid
  | error
  | timeout
  deriving DecidableEq, Repr

namespace Status

def wire : Status → String
  | .noBid => "NO_BID"
  | .bid => "BID"
  | .error => "ERROR"
  | .timeout => "TIMEOUT"

def ofWire? (s : String) : Option Status :=
  [Status.noBid, .bid, .error, .timeout].find? (·.wire == s)

end Status

/-- A bid with what the SDK needs to show the ad. -/
structure Bid where
  id : String := ""
  impId : String := ""
  price : Price := 0.0
  payload : String := ""
  signaldata : String := ""
  adId : String := ""
  seatId : String := ""
  lossUrl : String := ""
  noticeUrl : String := ""
  billingUrl : String := ""
  deriving DecidableEq

def Bid.toJson (b : Bid) : Json :=
  .record
    [("id", .str b.id), ("imp_id", .str b.impId), ("price", b.price.toJson),
      ("payload", .str b.payload), ("signaldata", .str b.signaldata), ("ad_id", .str b.adId),
      ("seat_id", .str b.seatId), ("lurl", .str b.lossUrl), ("nurl", .str b.noticeUrl),
      ("burl", .str b.billingUrl)]

/-- The bid token that the client had for an adapter, and when it was made. -/
structure Token where
  value : String := ""
  status : String := ""
  startTs : Int64 := 0
  endTs : Int64 := 0
  deriving DecidableEq, Repr

def Token.toJson (t : Token) : Json :=
  .record
    [("value", .str t.value), ("status", .str t.status), ("start_ts", .ofInt64 t.startTs),
      ("end_ts", .ofInt64 t.endTs)]

/-- An answer of an adapter. -/
structure Response where
  adapter : Adapter
  status : Status
  bid : Option Bid := none
  /-- Slot of the unit that the answer is for, where an adapter has several. -/
  slotUuid : Option String := none
  tagId : Option String := none
  placementId : Option String := none
  rawRequest : String := ""
  rawResponse : String := ""
  errorMessage : Option String := none
  /-- Unix milliseconds, as the next. -/
  startTs : Int64 := 0
  endTs : Int64 := 0
  token : Token := {}
  deriving DecidableEq

namespace Response

def noBid (a : Adapter) : Response := { adapter := a, status := .noBid }

def ofBid (a : Adapter) (b : Bid) : Response := { adapter := a, status := .bid, bid := some b }

def ofError (a : Adapter) (message : String) : Response :=
  { adapter := a, status := .error, errorMessage := some message }

def timedOut (a : Adapter) : Response :=
  { adapter := a, status := .timeout, errorMessage := some "deadline exceeded" }

/-- The bid of a response whose status says that it is one. -/
def offer? (r : Response) : Option Bid := if r.status = .bid then r.bid else none

def isBid (r : Response) : Bool := r.offer?.isSome

/-- Price of the bid; zero if there is none. -/
def price (r : Response) : Price :=
  match r.offer? with
  | some b => b.price
  | none => 0.0

/-- Text of an error; empty if there is none. -/
def errorText (r : Response) : String := r.errorMessage.getD ""

def toJson (r : Response) : Json :=
  .record
    [("demand_id", r.adapter.toJson), ("status", .str r.status.wire), ("bid", .ofOption Bid.toJson r.bid),
      ("slot_uuid", .ofOption .str r.slotUuid), ("tag_id", .ofOption .str r.tagId),
      ("placement_id", .ofOption .str r.placementId), ("raw_request", .str r.rawRequest),
      ("raw_response", .str r.rawResponse), ("error_message", .ofOption .str r.errorMessage),
      ("start_ts", .ofInt64 r.startTs), ("end_ts", .ofInt64 r.endTs), ("token", r.token.toJson)]

/-- The answer that an OpenRTB response stands for: its best offer, or no bid. -/
def ofOpenRtb (a : Adapter) (rawRequest rawResponse : String) (answer : Option OpenRtb.BidResponse) :
    Response :=
  let r :=
    match answer.bind OpenRtb.BidResponse.best with
    | none => noBid a
    | some (b, seat) =>
      ofBid a
        { id := b.id
          impId := b.impid
          price := b.price
          payload := b.adm.getD ""
          adId := b.adid.getD ""
          seatId := seat.getD ""
          lossUrl := b.lurl.getD ""
          noticeUrl := b.nurl.getD ""
          billingUrl := b.burl.getD "" }
  { r with rawRequest := rawRequest, rawResponse := rawResponse }

end Response

/-! ## Rounds -/

/-- The answers of one bidding round, in the order in which adapters were called. -/
structure Round where
  responses : List Response := []
  number : Int32 := 0
  deriving DecidableEq

namespace Round

/-- The highest price; zero if no bid is above it. -/
def maxPrice (r : Round) : Price := Price.highestOf 0.0 (r.responses.map Response.price)

def bidCount (r : Round) : Nat := r.responses.countP Response.isBid

end Round

end Mediation.Bidding
