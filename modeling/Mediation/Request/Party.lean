/-
Who makes a request: the app, its user with the consent given, the regulations that apply, and the
segment that the SDK last saw. Every field may be absent; it then has its empty value.
-/
import Mediation.Json.Record

namespace Mediation.Request

/-! ## App -/

/-- The app and the framework that it is built with. -/
structure App where
  bundle : String := ""
  key : String := ""
  framework : String := ""
  version : String := ""
  frameworkVersion : String := ""
  pluginVersion : String := ""
  /-- Identifiers of the app's attribution networks. -/
  attributionNetworks : Option (List String) := none
  sdkVersion : String := ""
  deriving DecidableEq

namespace App

def toJson (a : App) : Json :=
  .record
    [("bundle", .str a.bundle), ("key", .str a.key), ("framework", .str a.framework),
      ("version", .str a.version), ("framework_version", .str a.frameworkVersion),
      ("plugin_version", .str a.pluginVersion),
      ("skadn", .ofOption (.ofList .str) a.attributionNetworks), ("sdk_version", .str a.sdkVersion)]

def ofJson? (v : Json) : Option App := do
  let fs ← v.fields? ["bundle", "key", "framework", "version", "framework_version", "plugin_version",
    "skadn", "sdk_version"]
  some {
    bundle := ← fs.withDefault "bundle" "" Json.str?
    key := ← fs.withDefault "key" "" Json.str?
    framework := ← fs.withDefault "framework" "" Json.str?
    version := ← fs.withDefault "version" "" Json.str?
    frameworkVersion := ← fs.withDefault "framework_version" "" Json.str?
    pluginVersion := ← fs.withDefault "plugin_version" "" Json.str?
    attributionNetworks := ← fs.optional "skadn" (Json.list? Json.str?)
    sdkVersion := ← fs.withDefault "sdk_version" "" Json.str?
  }

end App

/-! ## User -/

/-- The user, by the identifiers that the platform gives out. -/
structure User where
  advertisingId : String := ""
  trackingStatus : String := ""
  vendorId : String := ""
  generatedId : String := ""
  /-- Consent as the SDK collected it, in a form of its own. -/
  consent : Option Json := none
  coppa : Option Bool := none
  appSetId : String := ""
  deriving DecidableEq

namespace User

def toJson (u : User) : Json :=
  .record
    [("idfa", .str u.advertisingId), ("tracking_authorization_status", .str u.trackingStatus),
      ("idfv", .str u.vendorId), ("idg", .str u.generatedId), ("consent", .ofOption id u.consent),
      ("coppa", .ofOption .bool u.coppa), ("app_set_id", .str u.appSetId)]

def ofJson? (v : Json) : Option User := do
  let fs ← v.fields? ["idfa", "tracking_authorization_status", "idfv", "idg", "consent", "coppa",
    "app_set_id"]
  some {
    advertisingId := ← fs.withDefault "idfa" "" Json.str?
    trackingStatus := ← fs.withDefault "tracking_authorization_status" "" Json.str?
    vendorId := ← fs.withDefault "idfv" "" Json.str?
    generatedId := ← fs.withDefault "idg" "" Json.str?
    consent := ← fs.optional "consent" Json.settle
    coppa := ← fs.optional "coppa" Json.bool?
    appSetId := ← fs.withDefault "app_set_id" "" Json.str?
  }

end User

/-! ## Regulations -/

/-- Privacy regulations that apply to the request. -/
structure Regulations where
  /-- The request is directed at children. -/
  coppa : Bool := false
  gdpr : Bool := false
  deriving DecidableEq, Repr

namespace Regulations

def toJson (r : Regulations) : Json := .record [("coppa", .bool r.coppa), ("gdpr", .bool r.gdpr)]

def ofJson? (v : Json) : Option Regulations := do
  let fs ← v.fields? ["coppa", "gdpr"]
  some {
    coppa := ← fs.withDefault "coppa" false Json.bool?
    gdpr := ← fs.withDefault "gdpr" false Json.bool?
  }

end Regulations

/-! ## Segment -/

/-- The segment that the SDK was last told, and the attributes that segments are matched on. -/
structure SegmentContext where
  id : String := ""
  uid : String := ""
  /-- JSON text. -/
  ext : String := ""
  deriving DecidableEq, Repr

namespace SegmentContext

def toJson (s : SegmentContext) : Json :=
  .record [("id", .str s.id), ("uid", .str s.uid), ("ext", .str s.ext)]

def ofJson? (v : Json) : Option SegmentContext := do
  let fs ← v.fields? ["id", "uid", "ext"]
  some {
    id := ← fs.withDefault "id" "" Json.str?
    uid := ← fs.withDefault "uid" "" Json.str?
    ext := ← fs.withDefault "ext" "" Json.str?
  }

end SegmentContext

end Mediation.Request
