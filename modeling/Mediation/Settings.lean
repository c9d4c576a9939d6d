/-
Settings of the service. Every field has a default, so nothing has to be set.
-/
import Mediation.Auction.Run
import Mediation.Event.Topic
import Mediation.Json.Record

namespace Mediation

namespace Settings

/-! ## Sections -/

/-- Settings of auctions. -/
structure Auctions where
  /-- Milliseconds for configurations that set no timeout. -/
  defaultTimeout : UInt32 := Auction.Config.defaultTimeout
  /-- Mediators whose previous price raises the floor. -/
  mediators : List String := Auction.defaultMediators
  deriving DecidableEq, Repr

/-- Settings of throttling. -/
structure AdCache where
  /-- Number of cached ads at which adapters without a limit of their own are throttled. -/
  limit : UInt64 := Adapter.defaultCacheLimit.toUInt64
  deriving DecidableEq, Repr

/-- Transport topics under the names of the topics themselves. -/
def defaultTopics : Dict Topic String := .ofList (Topic.all.map fun t => (t, t.wire))

/-- Settings of events. -/
structure Events where
  /-- Transport topics. -/
  topics : Dict Topic String := defaultTopics
  deriving DecidableEq

/-- Settings of the log. -/
structure Logging where
  level : String := "info"
  deriving DecidableEq, Repr

end Settings

/-- Settings of the service. -/
structure Settings where
  auctions : Settings.Auctions := {}
  adCache : Settings.AdCache := {}
  events : Settings.Events := {}
  logging : Settings.Logging := {}
  deriving DecidableEq

namespace Settings

/-- Whether all settings are in range. -/
def isValid (s : Settings) : Bool :=
  s.auctions.defaultTimeout != 0 && s.adCache.limit != 0 && !s.logging.level.isEmpty

/-- What the settings mean for auctions. -/
def policy (s : Settings) : Auction.Policy where
  cacheLimit := s.adCache.limit.toNat
  mediators := s.auctions.mediators
  defaultTimeout := s.auctions.defaultTimeout

/-! ## JSON -/

namespace Auctions

/-- Names of the settings, in the order of a list of them. -/
def fieldNames : List String := ["default_timeout_ms", "custom_mediators"]

def toJson (s : Auctions) : Json :=
  .record
    [("default_timeout_ms", .ofNat s.defaultTimeout.toNat), ("custom_mediators", .ofList .str s.mediators)]

def ofJson? (v : Json) : Option Auctions := do
  let fs ← v.fields? fieldNames
  let base : Auctions := {}
  some {
    defaultTimeout := ← fs.withDefault "default_timeout_ms" base.defaultTimeout Json.uint32?
    mediators := ← fs.withDefault "custom_mediators" base.mediators (Json.list? Json.str?)
  }

end Auctions

namespace AdCache

def fieldNames : List String := ["default_max_cache_count"]

def toJson (s : AdCache) : Json := .record [("default_max_cache_count", .ofNat s.limit.toNat)]

def ofJson? (v : Json) : Option AdCache := do
  let fs ← v.fields? fieldNames
  let base : AdCache := {}
  some { limit := ← fs.withDefault "default_max_cache_count" base.limit Json.uint64? }

end AdCache

/-- Transport topics by the names of topics. -/
def topicsToJson (d : Dict Topic String) : Json :=
  .record (d.entries.map fun e => (e.1.wire, .str e.2))

def topicsOfJson? : Json → Option (Dict Topic String)
  | .obj members =>
    (members.mapM fun (m : String × Json) => do some (← Topic.ofWire? m.1, ← m.2.str?)).map Dict.ofList
  | _ => none

namespace Events

def fieldNames : List String := ["topics"]

def toJson (s : Events) : Json := .record [("topics", topicsToJson s.topics)]

def ofJson? (v : Json) : Option Events := do
  let fs ← v.fields? fieldNames
  some { topics := ← fs.withDefault "topics" defaultTopics topicsOfJson? }

end Events

namespace Logging

def fieldNames : List String := ["level"]

def toJson (s : Logging) : Json := .record [("level", .str s.level)]

def ofJson? (v : Json) : Option Logging := do
  let fs ← v.fields? fieldNames
  let base : Logging := {}
  some { level := ← fs.withDefault "level" base.level Json.str? }

end Logging

def fieldNames : List String := ["auction", "ad_cache", "events", "logging"]

def toJson (s : Settings) : Json :=
  .record
    [("auction", s.auctions.toJson), ("ad_cache", s.adCache.toJson), ("events", s.events.toJson),
      ("logging", s.logging.toJson)]

def ofJson? (v : Json) : Option Settings := do
  let fs ← v.fields? fieldNames
  some {
    auctions := ← fs.withDefault "auction" {} Auctions.ofJson?
    adCache := ← fs.withDefault "ad_cache" {} AdCache.ofJson?
    events := ← fs.withDefault "events" {} Events.ofJson?
    logging := ← fs.withDefault "logging" {} Logging.ofJson?
  }

end Settings

end Mediation
