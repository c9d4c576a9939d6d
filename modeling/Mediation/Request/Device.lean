/-
What a request says of the device it comes from and of the app's session on it. Every field may be
absent; it then has its empty value.
-/
import Mediation.Ad

namespace Mediation.Request

/-! ## Device -/

/-- Position that the device reports of itself. -/
structure Position where
  lat : Float := 0.0
  lon : Float := 0.0
  accuracy : Float := 0.0
  lastfix : Int64 := 0
  country : String := ""
  city : String := ""
  zip : String := ""
  utcoffset : Int64 := 0
  deriving DecidableEq

namespace Position

def toJson (p : Position) : Json :=
  .record
    [("lat", .ofFloat p.lat), ("lon", .ofFloat p.lon), ("accuracy", .ofFloat p.accuracy),
      ("lastfix", .ofInt64 p.lastfix), ("country", .str p.country), ("city", .str p.city),
      ("zip", .str p.zip), ("utcoffset", .ofInt64 p.utcoffset)]

def ofJson? (v : Json) : Option Position := do
  let fs ← v.fields? ["lat", "lon", "accuracy", "lastfix", "country", "city", "zip", "utcoffset"]
  some {
    lat := ← fs.withDefault "lat" 0.0 Json.number?
    lon := ← fs.withDefault "lon" 0.0 Json.number?
    accuracy := ← fs.withDefault "accuracy" 0.0 Json.number?
    lastfix := ← fs.withDefault "lastfix" 0 Json.int64?
    country := ← fs.withDefault "country" "" Json.str?
    city := ← fs.withDefault "city" "" Json.str?
    zip := ← fs.withDefault "zip" "" Json.str?
    utcoffset := ← fs.withDefault "utcoffset" 0 Json.int64?
  }

end Position

/-- The device and its software. -/
structure Device where
  position : Option Position := none
  userAgent : String := ""
  make : String := ""
  model : String := ""
  os : String := ""
  osVersion : String := ""
  hardwareVersion : String := ""
  height : Int64 := 0
  width : Int64 := 0
  pixelsPerInch : Int64 := 0
  pixelRatio : Float := 0.0
  /-- Whether scripts run, as a number other than zero. -/
  scripts : Option Int64 := none
  language : String := ""
  carrier : String := ""
  /-- Codes of the mobile country and network. -/
  networkCode : String := ""
  connectionType : String := ""
  deviceType : DeviceType := .unknown
  deriving DecidableEq

namespace Device

def family (d : Device) : Os := .ofName d.os

def toJson (d : Device) : Json :=
  .record
    [("geo", .ofOption Position.toJson d.position), ("ua", .str d.userAgent), ("make", .str d.make),
      ("model", .str d.model), ("os", .str d.os), ("osv", .str d.osVersion),
      ("hwv", .str d.hardwareVersion), ("h", .ofInt64 d.height), ("w", .ofInt64 d.width),
      ("ppi", .ofInt64 d.pixelsPerInch), ("pxratio", .ofFloat d.pixelRatio),
      ("js", .ofOption .ofInt64 d.scripts), ("language", .str d.language), ("carrier", .str d.carrier),
      ("mccmnc", .str d.networkCode), ("connection_type", .str d.connectionType),
      ("type", d.deviceType.toJson)]

def ofJson? (v : Json) : Option Device := do
  let fs ← v.fields? ["geo", "ua", "make", "model", "os", "osv", "hwv", "h", "w", "ppi", "pxratio", "js",
    "language", "carrier", "mccmnc", "connection_type", "type"]
  some {
    position := ← fs.optional "geo" Position.ofJson?
    userAgent := ← fs.withDefault "ua" "" Json.str?
    make := ← fs.withDefault "make" "" Json.str?
    model := ← fs.withDefault "model" "" Json.str?
    os := ← fs.withDefault "os" "" Json.str?
    osVersion := ← fs.withDefault "osv" "" Json.str?
    hardwareVersion := ← fs.withDefault "hwv" "" Json.str?
    height := ← fs.withDefault "h" 0 Json.int64?
    width := ← fs.withDefault "w" 0 Json.int64?
    pixelsPerInch := ← fs.withDefault "ppi" 0 Json.int64?
    pixelRatio := ← fs.withDefault "pxratio" 0.0 Json.number?
    scripts := ← fs.optional "js" Json.int64?
    language := ← fs.withDefault "language" "" Json.str?
    carrier := ← fs.withDefault "carrier" "" Json.str?
    networkCode := ← fs.withDefault "mccmnc" "" Json.str?
    connectionType := ← fs.withDefault "connection_type" "" Json.str?
    deviceType := ← fs.withDefault "type" .unknown DeviceType.ofJson?
  }

end Device

/-! ## Session -/

/-- The app's session; the instants are given by the clock and by the time since the start. -/
structure Session where
  id : String := ""
  launchTs : Int64 := 0
  launchMonotonicTs : Int64 := 0
  startTs : Int64 := 0
  startMonotonicTs : Int64 := 0
  ts : Int64 := 0
  monotonicTs : Int64 := 0
  ramUsed : Int64 := 0
  ramSize : Int64 := 0
  storageFree : Int64 := 0
  storageUsed : Int64 := 0
  battery : Float := 0.0
  cpuUsage : Option Float := none
  deriving DecidableEq

namespace Session

/-- Time since the session began, by the monotonic clock. None if 64 bits do not hold it. -/
def uptime? (s : Session) : Option Int64 :=
  let elapsed := s.monotonicTs.toInt - s.startMonotonicTs.toInt
  if Int64.minValue.toInt ≤ elapsed ∧ elapsed ≤ Int64.maxValue.toInt then some (.ofInt elapsed) else none

def toJson (s : Session) : Json :=
  .record
    [("id", .str s.id), ("launch_ts", .ofInt64 s.launchTs),
      ("launch_monotonic_ts", .ofInt64 s.launchMonotonicTs), ("start_ts", .ofInt64 s.startTs),
      ("start_monotonic_ts", .ofInt64 s.startMonotonicTs), ("ts", .ofInt64 s.ts),
      ("monotonic_ts", .ofInt64 s.monotonicTs), ("ram_used", .ofInt64 s.ramUsed),
      ("ram_size", .ofInt64 s.ramSize), ("storage_free", .ofInt64 s.storageFree),
      ("storage_used", .ofInt64 s.storageUsed), ("battery", .ofFloat s.battery),
      ("cpu_usage", .ofOption .ofFloat s.cpuUsage)]

def ofJson? (v : Json) : Option Session := do
  let fs ← v.fields? ["id", "launch_ts", "launch_monotonic_ts", "start_ts", "start_monotonic_ts", "ts",
    "monotonic_ts", "ram_used", "ram_size", "storage_free", "storage_used", "battery", "cpu_usage"]
  some {
    id := ← fs.withDefault "id" "" Json.str?
    launchTs := ← fs.withDefault "launch_ts" 0 Json.int64?
    launchMonotonicTs := ← fs.withDefault "launch_monotonic_ts" 0 Json.int64?
    startTs := ← fs.withDefault "start_ts" 0 Json.int64?
    startMonotonicTs := ← fs.withDefault "start_monotonic_ts" 0 Json.int64?
    ts := ← fs.withDefault "ts" 0 Json.int64?
    monotonicTs := ← fs.withDefault "monotonic_ts" 0 Json.int64?
    ramUsed := ← fs.withDefault "ram_used" 0 Json.int64?
    ramSize := ← fs.withDefault "ram_size" 0 Json.int64?
    storageFree := ← fs.withDefault "storage_free" 0 Json.int64?
    storageUsed := ← fs.withDefault "storage_used" 0 Json.int64?
    battery := ← fs.withDefault "battery" 0.0 Json.number?
    cpuUsage := ← fs.optional "cpu_usage" Json.number?
  }

end Session

end Mediation.Request
