/-
The price that bids have to beat: the highest of the prices that the request, the configuration and
the cached ads set, and of the price that a cascading mediator paid last.
-/
import Mediation.Auction.Config
import Mediation.Request

namespace Mediation.Auction

/-- Mediators that cascade on the client and report the price of the previous winner. -/
def defaultMediators : List String := ["max", "level_play"]

/-- Whether the request runs under one of the cascading mediators. -/
def isCascading (mediators : List String) (r : Request) : Bool := r.mediator.any mediators.contains

/-- Price floor of the auction of a request. -/
def priceFloor (mediators : List String) (r : Request) (c : Config) : Price :=
  let cached := Price.highestOf r.impression.priceFloor (r.adCache.map (·.price))
  let floor := Price.highest cached c.priceFloor
  match r.previousAuctionPrice with
  | some previous => if isCascading mediators r then Price.highest floor previous else floor
  | none => floor

end Mediation.Auction
