/-
Throttling of adapters whose ads the device already holds. Each adapter has a limit for the system and
the placement type; one that reached it takes no part in the auction.
-/
import Mediation.Request.Impression

namespace Mediation.Adapter

/-- Limit of adapters without a limit of their own. -/
def defaultCacheLimit : Nat := 3

/-- Placement types for which an adapter may have one cached ad only. -/
def singleAdTypes : Os → Adapter → List AdType
  | .android, .admob => [.rewarded]
  | .android, .applovin => [.interstitial, .rewarded]
  | .android, .gam => [.rewarded]
  | .android, .ironSource => [.interstitial, .rewarded, .banner]
  | .android, .unityAds => [.interstitial, .rewarded]
  | .ios, .admob => [.interstitial, .rewarded]
  | .ios, .applovin => [.interstitial, .banner]
  | .ios, .gam => [.interstitial, .rewarded]
  | .ios, .ironSource => [.interstitial, .rewarded, .banner]
  | .ios, .unityAds => [.interstitial, .rewarded]
  | .ios, .dtExchange => [.interstitial, .rewarded, .banner]
  | .ios, .mintegral => [.rewarded]
  | _, _ => []

/-- Number of cached ads at which an adapter is throttled. -/
def cacheLimit (default : Nat) (os : Os) (a : Adapter) (t : AdType) : Nat :=
  if (singleAdTypes os a).contains t then 1 else default

/-- Number of cached ads of an adapter. -/
def cachedCount (cache : List Request.CachedAd) (a : Adapter) : Nat :=
  cache.countP fun c => c.demandId == a.wire

/-- The adapters that are below their limit, in their order. -/
def unthrottled (default : Nat) (os : Os) (t : AdType) (adapters : List Adapter)
    (cache : List Request.CachedAd) : List Adapter :=
  adapters.filter fun a => decide (cachedCount cache a < cacheLimit default os a t)

end Mediation.Adapter
