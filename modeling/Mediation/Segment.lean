/-
Segments of an app's audience. A segment is a list of filters; a request belongs to the first segment
that has filters and passes all of them, and to the zero segment if there is none.
-/
import Mediation.Json.Record
import Mediation.Json.Reader

namespace Mediation

namespace Segment

/-! ## Filters -/

/-- What a filter looks at. -/
inductive FilterKind where
  | country
  | customString
  | unknown
  deriving DecidableEq, Repr

namespace FilterKind

def wire : FilterKind → String
  | .country => "country"
  | .customString => "custom_string"
  | .unknown => "unknown"

/-- Any name but those of a known kind is an unknown kind. -/
def ofWire (s : String) : FilterKind :=
  if s = "country" then .country else if s = "custom_string" then .customString else .unknown

def toJson (k : FilterKind) : Json := .str k.wire

def ofJson? (v : Json) : Option FilterKind := v.constant?.map ofWire

theorem ofWire_wire (k : FilterKind) : ofWire k.wire = k := by cases k <;> decide

end FilterKind

/-- A condition on a request. -/
structure Filter where
  kind : FilterKind
  /-- Name of the attribute that a custom filter looks at. -/
  name : String
  operator : String
  values : List String
  deriving DecidableEq, Repr

/-- What filters are matched against. -/
structure Params where
  country : String
  /-- JSON text with the custom attributes. -/
  ext : String
  deriving DecidableEq, Repr

/-- The custom attributes that an extension holds: a record whose one field may be absent or null. -/
def customAttributes? (ext : String) : Option (Dict String Json) := do
  let v ← Json.parse ext
  let fs ← v.fields? ["custom_attributes"]
  let attributes ← fs.optional "custom_attributes" Json.settleObject
  some (attributes.getD .empty)

namespace Filter

def matchesCountry (f : Filter) (country : String) : Bool :=
  let listed := f.values.contains country
  if f.operator = "IN" then listed
  else if f.operator = "NOT IN" then !listed
  else false

/-- A custom filter compares the attribute with its first value; an attribute that is missing or no
text differs from every value. -/
def matchesAttribute (f : Filter) (ext : String) : Bool :=
  match f.values.head?, customAttributes? ext with
  | some expected, some attributes =>
    let equal := (attributes.get? f.name).bind Json.str? == some expected
    if f.operator = "==" then equal
    else if f.operator = "!=" then !equal
    else false
  | _, _ => false

/-- Whether a request passes the filter. -/
def passes (f : Filter) (p : Params) : Bool :=
  match f.kind with
  | .country => f.matchesCountry p.country
  | .customString => f.matchesAttribute p.ext
  | .unknown => false

def toJson (f : Filter) : Json :=
  .record
    [("type", f.kind.toJson), ("name", .str f.name), ("operator", .str f.operator),
      ("values", .ofList .str f.values)]

def ofJson? (v : Json) : Option Filter := do
  let fs ← v.fields? ["type", "name", "operator", "values"]
  some {
    kind := ← fs.required "type" FilterKind.ofJson?
    name := ← fs.withDefault "name" "" Json.str?
    operator := ← fs.required "operator" Json.str?
    values := ← fs.withDefault "values" [] (Json.list? Json.str?)
  }

end Filter

end Segment

/-! ## Segments -/

/-- A part of an app's audience. -/
structure Segment where
  id : Int64
  uid : String
  filters : List Segment.Filter
  deriving DecidableEq, Repr

namespace Segment

/-- The segment of requests that belong to no other. -/
def zero : Segment := ⟨0, "", []⟩

/-- The identifier in decimal; nothing for the zero segment. -/
def idText (s : Segment) : String := if s.id = 0 then "" else toString s.id.toInt

/-- Whether a request passes the filters; a segment without filters takes no request. -/
def accepts (s : Segment) (p : Params) : Bool := !s.filters.isEmpty && s.filters.all (·.passes p)

/-- The segment of a request. -/
def firstMatch (segments : List Segment) (p : Params) : Segment := (segments.find? (·.accepts p)).getD zero

def toJson (s : Segment) : Json :=
  .record [("id", .ofInt64 s.id), ("uid", .str s.uid), ("filters", .ofList Filter.toJson s.filters)]

def ofJson? (v : Json) : Option Segment := do
  let fs ← v.fields? ["id", "uid", "filters"]
  some {
    id := ← fs.required "id" Json.int64?
    uid := ← fs.withDefault "uid" "" Json.str?
    filters := ← fs.withDefault "filters" [] (Json.list? Filter.ofJson?)
  }

end Segment

end Mediation
