/-
Rows of the `ad_events` topic. The columns about the request and its origin are those of every event
of an auction; the others depend on what happened.
-/
import Mediation.Event.Log
import Mediation.Event.Payload
import Mediation.Geo
import Mediation.Request
import Mediation.Text.Digits

namespace Mediation

/-- Start and end of named spans, in Unix milliseconds. -/
abbrev Timings := Dict String (Int64 × Int64)

/-- A row of the ad events. -/
structure AdEvent where
  /-- Unix seconds. -/
  timestamp : Float := 0.0
  eventType : String := ""
  adType : String := ""
  adFormat : String := ""
  auctionId : String := ""
  configId : Int64 := 0
  configUid : Int64 := 0
  status : String := ""
  roundId : String := ""
  roundNumber : Int32 := 0
  impId : String := ""
  demandId : String := ""
  bidding : Bool := false
  adUnitUid : Int64 := 0
  adUnitLabel : String := ""
  ecpm : Price := 0.0
  priceFloor : Price := 0.0
  rawRequest : String := ""
  rawResponse : String := ""
  error : String := ""
  timings : Timings := .empty
  manufacturer : String := ""
  model : String := ""
  os : String := ""
  osVersion : String := ""
  connectionType : String := ""
  deviceType : String := ""
  sessionId : String := ""
  sessionUptime : Int64 := 0
  bundle : String := ""
  framework : String := ""
  frameworkVersion : String := ""
  pluginVersion : String := ""
  packageVersion : String := ""
  sdkVersion : String := ""
  advertisingId : String := ""
  generatedId : String := ""
  vendorId : String := ""
  trackingStatus : String := ""
  coppa : Bool := false
  gdpr : Bool := false
  countryCode : String := ""
  city : String := ""
  ip : String := ""
  countryId : Int64 := 0
  segmentId : String := ""
  segmentUid : Int64 := 0
  /-- Extension of the request, as text. -/
  ext : String := ""
  deriving DecidableEq

namespace AdEvent

/-! ## Columns of a request -/

/-- A row with the columns of a request and its origin, and the time for which its session has been on. -/
def ofRequest (timestamp : Float) (uptime : Int64) (r : Request) (g : GeoData) : AdEvent where
  timestamp := timestamp
  manufacturer := r.device.make
  model := r.device.model
  os := r.device.os
  osVersion := r.device.osVersion
  connectionType := r.device.connectionType
  deviceType := r.device.deviceType.label
  sessionId := r.session.id
  sessionUptime := uptime
  bundle := r.app.bundle
  framework := r.app.framework
  frameworkVersion := r.app.frameworkVersion
  pluginVersion := r.app.pluginVersion
  packageVersion := r.app.version
  sdkVersion := r.app.sdkVersion
  advertisingId := r.user.advertisingId
  generatedId := r.user.generatedId
  vendorId := r.user.vendorId
  trackingStatus := r.user.trackingStatus
  coppa := r.effectiveRegulations.coppa
  gdpr := r.effectiveRegulations.gdpr
  countryCode := g.countryCode
  city := g.cityName
  ip := g.ip
  countryId := g.countryId
  segmentId := r.segment.id
  segmentUid := (Text.int64? r.segment.uid).getD 0
  ext := r.ext

/-! ## Payload -/

def timingsJson (t : Timings) : Json :=
  .ofDictOf (fun span => .arr [.ofInt64 span.1, .ofInt64 span.2]) t

/-- The columns by name; the extension stands there as an object. -/
def columns (e : AdEvent) (ext : Dict String Json) : Dict String Json :=
  .ofList
    [("timestamp", .ofFloat e.timestamp), ("event_type", .str e.eventType), ("ad_type", .str e.adType),
      ("ad_format", .str e.adFormat), ("auction_id", .str e.auctionId),
      ("auction_configuration_id", .ofInt64 e.configId),
      ("auction_configuration_uid", .ofInt64 e.configUid), ("status", .str e.status),
      ("round_id", .str e.roundId), ("round_number", .ofInt32 e.roundNumber), ("impid", .str e.impId),
      ("demand_id", .str e.demandId), ("bidding", .bool e.bidding), ("ad_unit_uid", .ofInt64 e.adUnitUid),
      ("ad_unit_label", .str e.adUnitLabel), ("ecpm", e.ecpm.toJson),
      ("price_floor", e.priceFloor.toJson), ("raw_request", .str e.rawRequest),
      ("raw_response", .str e.rawResponse), ("error", .str e.error), ("timing_map", timingsJson e.timings),
      ("manufacturer", .str e.manufacturer), ("model", .str e.model), ("os", .str e.os),
      ("os_version", .str e.osVersion), ("connection_type", .str e.connectionType),
      ("device_type", .str e.deviceType), ("session_id", .str e.sessionId),
      ("session_uptime", .ofInt64 e.sessionUptime), ("bundle", .str e.bundle),
      ("framework", .str e.framework), ("framework_version", .str e.frameworkVersion),
      ("plugin_version", .str e.pluginVersion), ("package_version", .str e.packageVersion),
      ("sdk_version", .str e.sdkVersion), ("idfa", .str e.advertisingId), ("idg", .str e.generatedId),
      ("idfv", .str e.vendorId), ("tracking_authorization_status", .str e.trackingStatus),
      ("coppa", .bool e.coppa), ("gdpr", .bool e.gdpr), ("country_code", .str e.countryCode),
      ("city", .str e.city), ("ip", .str e.ip), ("country_id", .ofInt64 e.countryId),
      ("segment_id", .str e.segmentId), ("segment_uid", .ofInt64 e.segmentUid), ("ext", .ofDict ext)]

/-- The flat payload of a row. -/
def payload (e : AdEvent) : Except AuctionError (Dict String Json) :=
  (Event.parseExt e.ext).map fun ext => Event.flatten (e.columns ext)

def toEntry (e : AdEvent) : Event.Entry := ⟨.adEvents, e.payload⟩

end AdEvent

/-- A row with the rows that are produced together with it. -/
structure AdEventGroup where
  event : AdEvent
  children : List AdEvent
  deriving DecidableEq

def AdEventGroup.toBatch (g : AdEventGroup) : Event.Batch :=
  ⟨g.event.toEntry, g.children.map AdEvent.toEntry⟩

end Mediation
