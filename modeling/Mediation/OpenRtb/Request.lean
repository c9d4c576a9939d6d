/-
Bid requests, in the part of OpenRTB 2 that all bidders share. Records are open: members that have no
field here are kept. Text fields that are empty and optional fields without a value are not written.
-/
import Mediation.Geo
import Mediation.Request

namespace Mediation.OpenRtb

/-! ## Impression and app -/

/-- The impression that is offered. -/
structure Imp where
  id : String := ""
  bidfloor : Price := 0.0
  tagid : Option String := none
  instl : Option UInt8 := none
  ext : Option Json := none
  extra : Dict String Json := .empty
  deriving DecidableEq

namespace Imp

def toJson (i : Imp) : Json :=
  .openRecord
    (Json.nonEmpty "id" i.id ++ [("bidfloor", i.bidfloor.toJson)] ++ Json.present "tagid" .str i.tagid
      ++ Json.present "instl" (.ofNat ·.toNat) i.instl ++ Json.present "ext" (fun v => v) i.ext)
    i.extra

def ofJson? (v : Json) : Option Imp := do
  let (fs, extra) ← v.openFields? ["id", "bidfloor", "tagid", "instl", "ext"]
  some {
    id := ← fs.withDefault "id" "" Json.str?
    bidfloor := ← fs.required "bidfloor" Price.ofJson?
    tagid := ← fs.optional "tagid" Json.str?
    instl := ← fs.optional "instl" Json.uint8?
    ext := ← fs.optional "ext" Json.settle
    extra := extra
  }

end Imp

/-- Seller of the app's impressions. -/
structure Publisher where
  id : String
  deriving DecidableEq, Repr

namespace Publisher

def toJson (p : Publisher) : Json := .record [("id", .str p.id)]

def ofJson? (v : Json) : Option Publisher := do
  let fs ← v.fields? ["id"]
  some ⟨← fs.required "id" Json.str?⟩

end Publisher

/-- The app that offers. -/
structure App where
  id : String := ""
  bundle : String := ""
  ver : String := ""
  publisher : Option Publisher := none
  extra : Dict String Json := .empty
  deriving DecidableEq

namespace App

def toJson (a : App) : Json :=
  .openRecord
    (Json.nonEmpty "id" a.id ++ Json.nonEmpty "bundle" a.bundle ++ Json.nonEmpty "ver" a.ver
      ++ Json.present "publisher" Publisher.toJson a.publisher)
    a.extra

def ofJson? (v : Json) : Option App := do
  let (fs, extra) ← v.openFields? ["id", "bundle", "ver", "publisher"]
  some {
    id := ← fs.withDefault "id" "" Json.str?
    bundle := ← fs.withDefault "bundle" "" Json.str?
    ver := ← fs.withDefault "ver" "" Json.str?
    publisher := ← fs.optional "publisher" Publisher.ofJson?
    extra := extra
  }

end App

/-! ## Device -/

/-- Position of the device. -/
structure Geo where
  /-- How the position was found out. -/
  source : Option UInt8 := none
  lat : Float := 0.0
  lon : Float := 0.0
  accuracy : Int64 := 0
  country : Option String := none
  city : Option String := none
  zip : Option String := none
  region : Option String := none
  extra : Dict String Json := .empty
  deriving DecidableEq

namespace Geo

def toJson (g : Geo) : Json :=
  .openRecord
    (Json.present "type" (.ofNat ·.toNat) g.source
      ++ [("lat", .ofFloat g.lat), ("lon", .ofFloat g.lon), ("accuracy", .ofInt64 g.accuracy)]
      ++ Json.present "country" .str g.country ++ Json.present "city" .str g.city
      ++ Json.present "zip" .str g.zip ++ Json.present "region" .str g.region)
    g.extra

def ofJson? (v : Json) : Option Geo := do
  let (fs, extra) ← v.openFields? ["type", "lat", "lon", "accuracy", "country", "city", "zip", "region"]
  some {
    source := ← fs.optional "type" Json.uint8?
    lat := ← fs.required "lat" Json.number?
    lon := ← fs.required "lon" Json.number?
    accuracy := ← fs.required "accuracy" Json.int64?
    country := ← fs.optional "country" Json.str?
    city := ← fs.optional "city" Json.str?
    zip := ← fs.optional "zip" Json.str?
    region := ← fs.optional "region" Json.str?
    extra := extra
  }

end Geo

/-- The device that the impression is shown on. -/
structure Device where
  ua : String := ""
  ip : String := ""
  make : String := ""
  model : String := ""
  os : String := ""
  osv : String := ""
  hwv : String := ""
  language : String := ""
  ifa : String := ""
  w : Int64 := 0
  h : Int64 := 0
  ppi : Int64 := 0
  pxratio : Float := 0.0
  js : UInt8 := 0
  devicetype : UInt8 := 0
  connectiontype : UInt8 := 0
  geo : Option Geo := none
  extra : Dict String Json := .empty
  deriving DecidableEq

namespace Device

def toJson (d : Device) : Json :=
  .openRecord
    (Json.nonEmpty "ua" d.ua ++ Json.nonEmpty "ip" d.ip ++ Json.nonEmpty "make" d.make
      ++ Json.nonEmpty "model" d.model ++ Json.nonEmpty "os" d.os ++ Json.nonEmpty "osv" d.osv
      ++ Json.nonEmpty "hwv" d.hwv ++ Json.nonEmpty "language" d.language ++ Json.nonEmpty "ifa" d.ifa
      ++ [("w", .ofInt64 d.w), ("h", .ofInt64 d.h), ("ppi", .ofInt64 d.ppi),
        ("pxratio", .ofFloat d.pxratio), ("js", .ofNat d.js.toNat),
        ("devicetype", .ofNat d.devicetype.toNat), ("connectiontype", .ofNat d.connectiontype.toNat)]
      ++ Json.present "geo" Geo.toJson d.geo)
    d.extra

def ofJson? (v : Json) : Option Device := do
  let (fs, extra) ← v.openFields? ["ua", "ip", "make", "model", "os", "osv", "hwv", "language", "ifa",
    "w", "h", "ppi", "pxratio", "js", "devicetype", "connectiontype", "geo"]
  some {
    ua := ← fs.withDefault "ua" "" Json.str?
    ip := ← fs.withDefault "ip" "" Json.str?
    make := ← fs.withDefault "make" "" Json.str?
    model := ← fs.withDefault "model" "" Json.str?
    os := ← fs.withDefault "os" "" Json.str?
    osv := ← fs.withDefault "osv" "" Json.str?
    hwv := ← fs.withDefault "hwv" "" Json.str?
    language := ← fs.withDefault "language" "" Json.str?
    ifa := ← fs.withDefault "ifa" "" Json.str?
    w := ← fs.required "w" Json.int64?
    h := ← fs.required "h" Json.int64?
    ppi := ← fs.required "ppi" Json.int64?
    pxratio := ← fs.required "pxratio" Json.number?
    js := ← fs.required "js" Json.uint8?
    devicetype := ← fs.required "devicetype" Json.uint8?
    connectiontype := ← fs.required "connectiontype" Json.uint8?
    geo := ← fs.optional "geo" Geo.ofJson?
    extra := extra
  }

end Device

/-! ## User and regulations -/

/-- The user that the impression is shown to. -/
structure User where
  id : Option String := none
  extra : Dict String Json := .empty
  deriving DecidableEq

namespace User

def toJson (u : User) : Json := .openRecord (Json.present "id" .str u.id) u.extra

def ofJson? (v : Json) : Option User := do
  let (fs, extra) ← v.openFields? ["id"]
  some { id := ← fs.optional "id" Json.str?, extra := extra }

end User

/-- Regulations, each as a flag of zero or one. -/
structure Regs where
  coppa : UInt8
  gdpr : UInt8
  deriving DecidableEq, Repr

namespace Regs

def toJson (r : Regs) : Json :=
  .record [("coppa", .ofNat r.coppa.toNat), ("gdpr", .ofNat r.gdpr.toNat)]

def ofJson? (v : Json) : Option Regs := do
  let fs ← v.fields? ["coppa", "gdpr"]
  some ⟨← fs.required "coppa" Json.uint8?, ← fs.required "gdpr" Json.uint8?⟩

end Regs

/-! ## Bid request -/

/-- A request for bids. -/
structure BidRequest where
  id : String
  imp : List Imp
  app : Option App
  device : Option Device
  user : Option User
  regs : Option Regs
  /-- Kind of auction: one for a first-price auction. -/
  auctionType : UInt8
  /-- Milliseconds until answers are no longer heard. -/
  tmax : Int64
  test : UInt8
  extra : Dict String Json
  deriving DecidableEq

namespace BidRequest

def toJson (r : BidRequest) : Json :=
  .openRecord
    ([("id", .str r.id), ("imp", .ofList Imp.toJson r.imp)] ++ Json.present "app" App.toJson r.app
      ++ Json.present "device" Device.toJson r.device ++ Json.present "user" User.toJson r.user
      ++ Json.present "regs" Regs.toJson r.regs
      ++ [("at", .ofNat r.auctionType.toNat), ("tmax", .ofInt64 r.tmax), ("test", .ofNat r.test.toNat)])
    r.extra

def ofJson? (v : Json) : Option BidRequest := do
  let (fs, extra) ← v.openFields? ["id", "imp", "app", "device", "user", "regs", "at", "tmax", "test"]
  some {
    id := ← fs.required "id" Json.str?
    imp := ← fs.required "imp" (Json.list? Imp.ofJson?)
    app := ← fs.optional "app" App.ofJson?
    device := ← fs.optional "device" Device.ofJson?
    user := ← fs.optional "user" User.ofJson?
    regs := ← fs.optional "regs" Regs.ofJson?
    auctionType := ← fs.required "at" Json.uint8?
    tmax := ← fs.required "tmax" Json.int64?
    test := ← fs.required "test" Json.uint8?
    extra := extra
  }

end BidRequest

/-! ## The request that all bidders start from -/

/-- Added to the floor, so that a bid at the floor does not clear it. -/
def floorIncrement : Price := 0.000001

/-- Stands for the seller until an adapter puts in its own. -/
def sellerPlaceholder : String := "SELLER_ID"

/-- Code of a device class. -/
def deviceTypeCode : DeviceType → UInt8
  | .phone => 4
  | .tablet => 5
  | .unknown => 1

/-- Code of a connection type. -/
def connectionTypeCode (s : String) : UInt8 :=
  match s with
  | "ETHERNET" => 1
  | "WIFI" => 2
  | "CELLULAR" | "CELLULAR_UNKNOWN" => 3
  | "CELLULAR_2_G" => 4
  | "CELLULAR_3_G" => 5
  | "CELLULAR_4_G" => 6
  | "CELLULAR_5_G" => 7
  | _ => 0

def flag (b : Bool) : UInt8 := if b then 1 else 0

def someText (s : String) : Option String := if s.isEmpty then none else some s

/-- The position that goes with a client address. -/
def Geo.ofGeoData (g : GeoData) : Geo where
  source := some 2  -- derived from the address
  lat := g.lat
  lon := g.lon
  accuracy := g.accuracy
  country := someText g.countryCode3
  city := someText g.cityName
  zip := someText g.zipCode
  region := someText g.regionCode

/-- The device of a request at a client address. -/
def Device.ofRequest (r : Request) (g : GeoData) : Device where
  ua := r.device.userAgent
  ip := g.ip
  make := r.device.make
  model := r.device.model
  os := r.device.os
  osv := r.device.osVersion
  hwv := r.device.hardwareVersion
  language := r.device.language
  ifa := r.user.advertisingId
  w := r.device.width
  h := r.device.height
  ppi := r.device.pixelsPerInch
  pxratio := r.device.pixelRatio
  js := r.device.scripts.elim 0 fun n => flag (n != 0)
  devicetype := deviceTypeCode r.device.deviceType
  connectiontype := connectionTypeCode r.device.connectionType
  geo := some (.ofGeoData g)

/-- The request that the bidders of one auction start from. -/
def BidRequest.base (id : String) (r : Request) (g : GeoData) (appId : Int64) (floor : Price)
    (tmax : Int64) : BidRequest where
  id := id
  imp := [{ bidfloor := floor + floorIncrement }]
  app := some {
    id := toString appId.toInt
    bundle := r.app.bundle
    ver := r.app.version
    publisher := some ⟨sellerPlaceholder⟩
  }
  device := some (.ofRequest r g)
  user := none
  regs := some ⟨flag r.effectiveRegulations.coppa, flag r.effectiveRegulations.gdpr⟩
  auctionType := 1
  tmax := tmax
  test := flag r.test
  extra := .empty

end Mediation.OpenRtb
