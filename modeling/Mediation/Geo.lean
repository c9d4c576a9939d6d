/-
Where a request comes from, as resolved from the client address before the auction.
-/
import Mediation.Json.Record

namespace Mediation

/-- Location of the client. -/
structure GeoData where
  ip : String := ""
  countryCode : String := ""
  countryCode3 : String := ""
  countryId : Int64 := 0
  cityName : String := ""
  regionName : String := ""
  regionCode : String := ""
  zipCode : String := ""
  lat : Float := 0.0
  lon : Float := 0.0
  /-- Accuracy radius in kilometres. -/
  accuracy : Int64 := 0
  unknownCountry : Bool := false
  deriving DecidableEq, Inhabited

namespace GeoData

/-- Whether nothing is known. Coordinates count as numbers, so -0.0 is nothing too. -/
def isEmpty (g : GeoData) : Bool :=
  let texts := [g.ip, g.countryCode, g.countryCode3, g.cityName, g.regionName, g.regionCode, g.zipCode]
  texts.all (·.isEmpty) && g.countryId == 0 && g.lat == 0.0 && g.lon == 0.0 && g.accuracy == 0
    && !g.unknownCountry

/-- Country that segments are matched against; none when it is unknown. -/
def country (g : GeoData) : String := if g.unknownCountry then "" else g.countryCode

def toJson (g : GeoData) : Json :=
  .record
    [("ip", .str g.ip), ("country_code", .str g.countryCode), ("country_code3", .str g.countryCode3),
      ("country_id", .ofInt64 g.countryId), ("city_name", .str g.cityName),
      ("region_name", .str g.regionName), ("region_code", .str g.regionCode),
      ("zip_code", .str g.zipCode), ("lat", .ofFloat g.lat), ("lon", .ofFloat g.lon),
      ("accuracy", .ofInt64 g.accuracy), ("unknown_country", .bool g.unknownCountry)]

def ofJson? (v : Json) : Option GeoData := do
  let fs ← v.fields? ["ip", "country_code", "country_code3", "country_id", "city_name", "region_name",
    "region_code", "zip_code", "lat", "lon", "accuracy", "unknown_country"]
  some {
    ip := ← fs.withDefault "ip" "" Json.str?
    countryCode := ← fs.withDefault "country_code" "" Json.str?
    countryCode3 := ← fs.withDefault "country_code3" "" Json.str?
    countryId := ← fs.withDefault "country_id" 0 Json.int64?
    cityName := ← fs.withDefault "city_name" "" Json.str?
    regionName := ← fs.withDefault "region_name" "" Json.str?
    regionCode := ← fs.withDefault "region_code" "" Json.str?
    zipCode := ← fs.withDefault "zip_code" "" Json.str?
    lat := ← fs.withDefault "lat" 0.0 Json.number?
    lon := ← fs.withDefault "lon" 0.0 Json.number?
    accuracy := ← fs.withDefault "accuracy" 0 Json.int64?
    unknownCountry := ← fs.withDefault "unknown_country" false Json.bool?
  }

end GeoData

end Mediation
