/-
The course of an auction. It resolves the segment and the configuration, matches the units, asks the
bidders, and assembles the response. A failure ends it; only an auction that succeeds leaves events. What
has a result may still be broken off, before the first event, if no event can be made.
-/
import Mediation.Adapter.Throttle
import Mediation.Auction.Events
import Mediation.Auction.Floor
import Mediation.Auction.Services

namespace Mediation.Auction

/-- What holds for all auctions of a service. -/
structure Policy where
  /-- Number of cached ads at which adapters without a limit of their own are throttled. -/
  cacheLimit : Nat := Adapter.defaultCacheLimit
  mediators : List String := defaultMediators
  /-- Milliseconds for configurations that set no timeout. -/
  defaultTimeout : UInt32 := Config.defaultTimeout
  deriving DecidableEq, Repr

/-- What is auctioned. -/
structure Subject where
  appId : Int64
  request : Request
  geo : GeoData

/-- Why an auction ends without a response. -/
inductive Stop where
  | failed (e : AuctionError)
  /-- It is broken off at its events: the time for which the session has been on takes more than 64 bits. -/
  | overflow
  deriving DecidableEq, Repr

/-- An activity of an auction, which may fail. -/
abbrev Action (α : Type) := Attempt AuctionError Step α

namespace Action

variable {ε : Type}

def step (s : Step) : Attempt ε Step Unit := (Activity.step s : Activity Step Unit)

def enter (s : Stage) : Attempt ε Step Unit := step (.entered s)

def now : Attempt ε Step Nat := (Activity.now : Activity Step Nat)

/-- Takes a step and waits for the answer to it, or its failure. -/
def ask {α : Type} (s : Step) (r : Reply (Except AuctionError α)) : Action α :=
  ExceptT.mk (Activity.ask s r)

end Action

/-! ## Parts of an auction -/

/-- The segment of a request; the zero segment if the segments cannot be read. -/
def resolveSegment (s : Services) (x : Subject) : Action Segment :=
  ExceptT.mk do
    match ← Activity.ask (.segmentsFetched x.appId) (s.segments x.appId) with
    | .ok segments => pure (.ok (.firstMatch segments ⟨x.geo.country, x.request.segment.ext⟩))
    | .error _ => pure (.ok .zero)

/-- The configuration of a request: the one that it is pinned to, or the one that is stored for the
app, the placement type, the segment and the version. -/
def resolveConfig (s : ConfigStore) (appId : Int64) (t : AdType) (segmentId : Int64) (key : String)
    (sdkVersion : String) : Action Config :=
  if key.isEmpty then
    ExceptT.mk do
      let answer ← Activity.ask (.configLooked (.matching appId t segmentId sdkVersion))
        (s.matching appId t segmentId sdkVersion)
      pure (answer.mapError fun _ => .noAdsFound)
  else
    match decodeKey key with
    | .error e => throw e
    | .ok uid =>
      ExceptT.mk do
        match ← Activity.ask (.configLooked (.byUid appId "0" uid)) (s.byUid appId "0" uid) with
        | some c => pure (.ok c)
        | none => pure (.error .invalidAuctionKey)

/-- Milliseconds that an auction may take: the timeout, or less if the client does not wait as long. -/
def budget (policy : Policy) (r : Request) (c : Config) : Nat :=
  let timeout := (c.timeoutOr policy.defaultTimeout).toNat
  if 0 < r.tmax.toInt then min timeout r.tmax.toInt.toNat else timeout

/-- The installed adapters that are not throttled. -/
def available (policy : Policy) (r : Request) : List Adapter :=
  Adapter.unthrottled policy.cacheLimit r.device.family r.adType r.adapterKeys r.adCache

/-- Leaves out the adapters that do not serve child-directed traffic, if the request is such. -/
def permitted (r : Request) (adapters : List Adapter) : List Adapter :=
  adapters.filter fun a => !(r.isCoppa && a.isBlockedForChildren)

/-- The units with a fixed price that take part. -/
def cpmUnits (adapters : List Adapter) (units : List AdUnit) : List AdUnit :=
  units.filter fun u => u.isCpm && adapters.contains u.adapter

/-- What the units of an auction have to fit. -/
def opportunity (policy : Policy) (x : Subject) (c : Config) : Opportunity where
  appId := x.appId
  adType := x.request.adType
  format := x.request.format
  deviceType := x.request.device.deviceType
  adapters := available policy x.request
  adUnitIds := c.adUnitIds

/-- The settings of the adapters that may bid. None of them having any is no failure: then there is no
round. -/
def roundSettings (s : Services) (x : Subject) (adapters : List Adapter) (units : AdUnits) :
    Action InitConfigs :=
  if adapters.isEmpty then pure .empty
  else
    ExceptT.mk do
      match ← s.settingsFor x.appId adapters x.request.impression units with
      | .error .noAdaptersFound => pure (.ok .empty)
      | answer => pure answer

/-! ## Stages -/

/-- The segment and the configuration that an auction is held under. A configuration that names no
units ends it. -/
def settle (s : Services) (x : Subject) : Action (Segment × Config) := do
  Action.enter .resolving
  let segment ← resolveSegment s x
  let config ← resolveConfig s.configs x.appId x.request.adType segment.id
    x.request.impression.auctionKey x.request.sdkVersion
  if config.adUnitIds.isEmpty then throw .noAdsFound
  pure (segment, config)

/-- The units that fit. Without any, or without an adapter that takes part, the auction ends. -/
def matchUnits (policy : Policy) (s : Services) (x : Subject) (c : Config) : Action (List AdUnit) := do
  Action.enter .matching
  let o := opportunity policy x c
  let units ← Action.ask (.unitsMatched o) (s.adUnits o)
  if units.isEmpty then throw .noAdsFound
  let adapters := available policy x.request
  if (Adapter.common adapters c.demands).isEmpty && (Adapter.common adapters c.bidding).isEmpty then
    throw .noAdsFound
  pure units

/-- What is settled when an auction turns to the adapters. -/
structure Groundwork where
  /-- Instant at which the auction started. -/
  started : Nat
  segment : Segment
  config : Config
  units : List AdUnit
  deriving DecidableEq

namespace Groundwork

/-- The units with a fixed price that take part. -/
def cpm (g : Groundwork) (policy : Policy) (r : Request) : List AdUnit :=
  cpmUnits (permitted r (Adapter.common (available policy r) g.config.demands)) g.units

/-- The adapters that may bid. -/
def allowed (g : Groundwork) (policy : Policy) (r : Request) : List Adapter :=
  permitted r (Adapter.common (available policy r) g.config.bidding)

/-- What the round of an auction is held with that turns to the bidders at an instant. -/
def params (g : Groundwork) (policy : Policy) (s : Services) (x : Subject) (initConfigs : InitConfigs)
    (now : Nat) : Bidding.Params where
  appId := x.appId
  request := x.request
  geo := x.geo
  initConfigs := initConfigs
  allowed := g.allowed policy x.request
  priceFloor := priceFloor policy.mediators x.request g.config
  deadline := g.started + budget policy x.request g.config
  startTs := s.clock.millis g.started
  requestId := s.requestId now

/-- The result that a round leads to. -/
def result (g : Groundwork) (policy : Policy) (r : Request) (round : Bidding.Round) : Result where
  config := g.config
  segment := g.segment
  adUnits := g.units
  cpmAdUnits := g.cpm policy r
  round := round
  priceFloor := priceFloor policy.mediators r g.config
  timeout := g.config.timeoutOr policy.defaultTimeout

end Groundwork

/-- An auction up to the adapters. -/
def prepare (policy : Policy) (s : Services) (x : Subject) : Action Groundwork := do
  let started ← Action.now
  let (segment, config) ← settle s x
  let units ← matchUnits policy s x config
  pure ⟨started, segment, config, units⟩

/-- The round of an auction; an empty one if no adapter has settings. -/
def bid (policy : Policy) (s : Services) (x : Subject) (g : Groundwork) : Action Bidding.Round := do
  Action.enter .dispatching
  let initConfigs ← roundSettings s x (g.allowed policy x.request) (.ofUnits g.units)
  if initConfigs.isEmpty then pure {}
  else do
    let now ← Action.now
    ExceptT.mk (s.holdRound (g.params policy s x initConfigs now))

/-! ## Result -/

/-- An auction up to its result. It fails if there is nothing to show. -/
def resolve (policy : Policy) (s : Services) (x : Subject) : Action Result := do
  let g ← prepare policy s x
  let round ← bid policy s x g
  let result := g.result policy x.request round
  if result.cpmAdUnits.isEmpty && round.responses.isEmpty then throw .noAdsFound
  pure result

/-- An auction up to its result, with the stage in which it ended. -/
def build (policy : Policy) (s : Services) (x : Subject) : Action Result :=
  ExceptT.mk do
    let result ← (resolve policy s x).run
    match result with
    | .ok _ => Activity.step (.entered .done)
    | .error _ => Activity.step (.entered .failed)
    pure result

/-! ## Response -/

/-- The request as events and response show it: with the segment and the configuration that the auction
resolved. -/
def resolvedRequest (r : Request) (result : Result) : Request :=
  { r with
    segment := { r.segment with id := result.segment.idText, uid := result.segment.uid }
    impression := { r.impression with configId := result.config.id, configUid := result.config.uid } }

/-- Hands over the events of an auction; failures are reported and otherwise do not matter. All events are
made before the first one is handed over, so that none is if the auction is broken off. -/
def logEvents (s : Services) (r : Request) (geo : GeoData) (result : Result) : Attempt Stop Step Unit := do
  let now ← Action.now
  match EventContext.of? (s.clock.seconds now) r geo result with
  | none => throw .overflow
  | some context =>
    let steps := (events context result).flatMap fun g => g.toBatch.log s.engine
    (Activity.allSteps (steps.map .logged) : Activity Step Unit)

/-- An auction from its result on: the events, then the response. -/
def conclude (s : Services) (x : Subject) (result : Result) : Attempt Stop Step Response := do
  Action.enter .assembling
  let request := resolvedRequest x.request result
  logEvents s request x.geo result
  pure (respond request result)

/-- An auction: from a request to the response. -/
def run (policy : Policy) (s : Services) (x : Subject) : Attempt Stop Step Response := do
  let result ← (build policy s x).adapt .failed
  conclude s x result

end Mediation.Auction
