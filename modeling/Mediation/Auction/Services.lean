/-
What an auction works with: the stores it reads, the bidders it asks, and the engine that takes its
events. Each is given by what it answers and how long that takes; the auction itself records that it
asked.
-/
import Mediation.Auction.Config
import Mediation.Bidding.Profiles
import Mediation.Bidding.Round
import Mediation.Event.Log
import Mediation.Inventory
import Mediation.Segment

namespace Mediation.Auction

/-! ## Steps -/

/-- How far an auction has come. -/
inductive Stage where
  | resolving
  | matching
  | dispatching
  | assembling
  | done
  | failed
  deriving DecidableEq, Repr

def Stage.label : Stage → String
  | .resolving => "Resolving"
  | .matching => "Matching"
  | .dispatching => "Dispatching"
  | .assembling => "Assembling"
  | .done => "Done"
  | .failed => "Failed"

/-- A step of resolving the configuration. -/
inductive ConfigLookup where
  /-- The configuration for an app, a placement type, a segment and a version of the SDK. -/
  | matching (appId : Int64) (adType : AdType) (segmentId : Int64) (sdkVersion : String)
  /-- The configuration with a public identifier. -/
  | byUid (appId : Int64) (id uid : String)
  deriving DecidableEq, Repr

/-- A step of an auction that can be seen from outside. -/
inductive Step where
  | entered (s : Stage)
  | segmentsFetched (appId : Int64)
  | configLooked (l : ConfigLookup)
  | unitsMatched (o : Opportunity)
  | profilesLooked (l : Bidding.ProfileLookup)
  | round (s : Bidding.RoundStep)
  | logged (l : Event.LogStep)
  deriving DecidableEq

/-! ## Stores and bidders -/

/-- Where configurations are read. -/
structure ConfigStore where
  matching : Int64 → AdType → Int64 → String → Reply (Except AuctionError Config)
  byUid : Int64 → String → String → Reply (Option Config)

/-- Where the initialisation settings of bidding adapters come from. -/
inductive SettingsSource where
  /-- Profiles of a store. -/
  | stored (store : Bidding.ProfileStore)
  /-- Given for the app, the adapters, the impression and the units. -/
  | given (settings : Int64 → List Adapter → Request.Impression → AdUnits →
      Reply (Except AuctionError InitConfigs))

/-- How bidding rounds are held. -/
inductive RoundHolder where
  /-- By asking the registered bidders. -/
  | fanOut (bidders : Bidding.Bidders) (listener : Bidding.Listener)
  /-- By something else. -/
  | given (hold : Bidding.Params → Reply (Except AuctionError Bidding.Round))

/-- What an auction works with. -/
structure Services where
  segments : Int64 → Reply (Except AuctionError (List Segment))
  configs : ConfigStore
  adUnits : Opportunity → Reply (Except AuctionError (List AdUnit))
  settings : SettingsSource
  rounds : RoundHolder
  engine : Event.Engine
  clock : Clock
  /-- Identifier for the bid request of a round that starts at an instant. -/
  requestId : Nat → String

namespace Services

/-- The settings of adapters. -/
def settingsFor (s : Services) (appId : Int64) (adapters : List Adapter) (i : Request.Impression)
    (units : AdUnits) : Activity Step (Except AuctionError InitConfigs) :=
  match s.settings with
  | .stored store => (Bidding.storedSettings store appId adapters units).mapSteps .profilesLooked
  | .given settings => Activity.await (settings appId adapters i units)

/-- Holds a round. A failure is told as the failure of the round. -/
def holdRound (s : Services) (p : Bidding.Params) :
    Activity Step (Except AuctionError Bidding.Round) :=
  match s.rounds with
  | .fanOut bidders listener => do
    let round ← (Bidding.holdRound s.clock bidders listener p).mapSteps .round
    pure (.ok round)
  | .given hold => do
    let answer ← Activity.await (hold p)
    pure (answer.mapError fun _ => .bidding "bidding round failed")

end Services

end Mediation.Auction
