/-
A bidding round. Every adapter that may bid is asked at once; each call is cut off at the deadline.
Answers arrive as they will and are listed in the order in which the adapters were asked.
-/
import Mediation.Adapter.InitConfig
import Mediation.Bidding.Response
import Mediation.Clock
import Mediation.Error
import Mediation.OpenRtb.Request
import Mediation.Activity

namespace Mediation.Bidding

/-! ## Bidders -/

/-- An adapter as it bids: what it answers to a bid request, and when. -/
structure Bidder where
  fetch : OpenRtb.BidRequest → Request → InitConfigs → Reply (Except AuctionError (List Response))

/-- The bidders that are registered; a later registration replaces an earlier one. -/
abbrev Bidders := Dict Adapter Bidder

/-- What is told of a finished round. -/
structure Notice where
  impression : Request.Impression
  round : Round
  bundle : String
  adType : AdType
  deriving DecidableEq

/-- Learns of finished rounds. -/
abbrev Listener := Notice → Reply (Except AuctionError Unit)

/-- What a round is held with. -/
structure Params where
  appId : Int64
  request : Request
  geo : GeoData
  initConfigs : InitConfigs
  /-- Adapters that may bid, in the order in which they are asked. -/
  allowed : List Adapter
  priceFloor : Price
  /-- Instant at which calls are cut off. -/
  deadline : Nat
  /-- Start of the auction, in Unix milliseconds. -/
  startTs : Int64
  /-- Identifier of the bid request. -/
  requestId : String

namespace Params

/-- Adapters that the client has a bid token for. -/
def withToken (p : Params) : List Adapter :=
  Adapter.all.filter fun a => (p.request.impression.token a).isSome

/-- The adapters that are asked: allowed, installed, with a token and with settings. -/
def dispatched (p : Params) : List Adapter :=
  Adapter.common p.initConfigs.keys
    (Adapter.common p.withToken (Adapter.common p.request.adapterKeys p.allowed))

/-- Milliseconds that are left at an instant. -/
def remaining (p : Params) (now : Nat) : Int64 :=
  .ofNat (min (p.deadline - now) Int64.maxValue.toInt.toNat)

/-- The bid request of a round that starts at an instant. -/
def baseRequest (p : Params) (now : Nat) : OpenRtb.BidRequest :=
  .base p.requestId p.request p.geo p.appId p.priceFloor (p.remaining now)

end Params

/-! ## Calls -/

/-- A call of a bidder. -/
structure Call where
  adapter : Adapter
  base : OpenRtb.BidRequest
  initConfigs : InitConfigs
  deriving DecidableEq

/-- The answers that an outcome of a call stands for: never none. -/
def answersOf (a : Adapter) : Except AuctionError (List Response) → List Response
  | .ok [] => [.noBid a]
  | .ok rs => rs
  | .error e => [.ofError a e.message]

/-- The end of a call: its place among the calls, the instant, and the answers. -/
structure Arrival where
  place : Nat
  time : Nat
  answers : List Response
  deriving DecidableEq

/-- Whether an answer that takes `delay` from `start` on is heard. One that is ready at once is heard
even after the deadline, and so is one that is ready exactly at it. -/
def heard (deadline start delay : Nat) : Bool := delay == 0 || decide (start + delay ≤ deadline)

/-- How the call of an adapter ends that starts at `start`. -/
def arrival (bidders : Bidders) (p : Params) (start : Nat) (place : Nat) (a : Adapter) : Arrival :=
  match bidders.get? a with
  | none => ⟨place, start, [.ofError a "bidder not registered"]⟩
  | some b =>
    let reply := b.fetch (p.baseRequest start) p.request p.initConfigs
    if heard p.deadline start reply.delay then
      ⟨place, start + reply.delay, answersOf a reply.answer⟩
    else ⟨place, max start p.deadline, [.timedOut a]⟩

/-- The calls of a round in the order in which they end. -/
def arrivals (bidders : Bidders) (p : Params) (start : Nat) : List Arrival :=
  (p.dispatched.zipIdx.map fun (a, place) => arrival bidders p start place a).mergeSort
    fun x y => decide (x.time ≤ y.time)

/-- The answers by the places of their calls, whatever order they arrived in. -/
def collect (places : Nat) (l : List Arrival) : List Response :=
  (List.range places).flatMap fun i => ((l.find? (·.place == i)).map (·.answers)).getD []

/-- The instant at which the last call has ended. -/
def lastArrival (start : Nat) (l : List Arrival) : Nat := l.foldl (fun t x => max t x.time) start

/-! ## Stamps -/

/-- Number of a client timestamp: cut off below the point, and at the ends of 64 bits. -/
def timestampOf (v : Json) : Int64 := ((v.number?).map Float.toInt64).getD 0

/-- What the client reported of the token of an adapter. -/
def tokenOf (r : Request) (a : Adapter) : Token :=
  match r.impression.demand a with
  | none => {}
  | some d =>
    let text (name : String) := ((d.get? name).bind Json.str?).getD ""
    let timestamp (name : String) := ((d.get? name).map timestampOf).getD 0
    { value := text "token"
      status := text "status"
      startTs := timestamp "token_start_ts"
      endTs := timestamp "token_finish_ts" }

/-- An answer with the times of its round and the token of its adapter. -/
def stamp (p : Params) (endTs : Int64) (r : Response) : Response :=
  { r with startTs := p.startTs, endTs := endTs, token := tokenOf p.request r.adapter }

/-! ## Rounds -/

/-- A step of a round. -/
inductive RoundStep where
  | called (c : Call)
  | notified (n : Notice)
  deriving DecidableEq

/-- The calls that reach a bidder. -/
def calls (bidders : Bidders) (p : Params) (start : Nat) : List Call :=
  (p.dispatched.filter bidders.contains).map fun a => ⟨a, p.baseRequest start, p.initConfigs⟩

/-- Asks all adapters and waits until every call has ended. -/
def gather (clock : Clock) (bidders : Bidders) (p : Params) : Activity RoundStep Round := fun start =>
  let ends := arrivals bidders p start
  let finish := lastArrival start ends
  let answers := collect p.dispatched.length ends
  { value := { responses := answers.map (stamp p (clock.millis finish)) }
    finish := finish
    steps := (calls bidders p start).map fun c => ⟨start, .called c⟩ }

/-- Holds a round: asks all adapters, then tells the listener of it. What the listener makes of it does
not matter. Without any adapter to ask there is no round. -/
def holdRound (clock : Clock) (bidders : Bidders) (listener : Listener) (p : Params) :
    Activity RoundStep Round :=
  if p.dispatched.isEmpty then pure {}
  else do
    let round ← gather clock bidders p
    let notice : Notice := ⟨p.request.impression, round, p.request.app.bundle, p.request.adType⟩
    let _ ← Activity.ask (.notified notice) (listener notice)
    pure round

end Mediation.Bidding
