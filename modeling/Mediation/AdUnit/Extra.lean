/-
The extension of an ad unit: fields that this library knows, which are texts, and whatever else the
adapter stored. `Extra.toMap` lists both side by side; laying one extension over another works on that
listing.
-/
import Mediation.Json.Record

namespace Mediation.AdUnit

/-- Extension of an ad unit. -/
structure Extra where
  placementId : Option String := none
  /-- Slot through which an answer is matched with the unit. -/
  slotUuid : Option String := none
  signaldata : Option String := none
  bidId : Option String := none
  payload : Option String := none
  other : Dict String Json := .empty
  deriving DecidableEq

namespace Extra

instance : Inhabited Extra := ⟨{}⟩

/-- Names of the known fields. -/
def knownFields : List String := ["placement_id", "slot_uuid", "signaldata", "bid_id", "payload"]

/-- The known fields that have a value. -/
def known (e : Extra) : List (String × Json) :=
  Json.present "placement_id" .str e.placementId ++ Json.present "slot_uuid" .str e.slotUuid
    ++ Json.present "signaldata" .str e.signaldata ++ Json.present "bid_id" .str e.bidId
    ++ Json.present "payload" .str e.payload

def isEmpty (e : Extra) : Bool := e.known.isEmpty && e.other.isEmpty

/-- All fields by name; a known field hides another of its name. -/
def toMap (e : Extra) : Dict String Json := e.other.insertAll e.known

/-- Takes the known fields out of a map. A known name that holds no text stays among the others. -/
def ofMap (m : Dict String Json) : Extra :=
  let text (name : String) := (m.get? name).bind Json.str?
  { placementId := text "placement_id"
    slotUuid := text "slot_uuid"
    signaldata := text "signaldata"
    bidId := text "bid_id"
    payload := text "payload"
    other := m.filterKeys fun name => !(knownFields.contains name && (text name).isSome) }

/-- The fields of `e` laid over those of a map. -/
def layOver (e : Extra) (base : Dict String Json) : Extra := ofMap (e.toMap.layOver base)

def toJson (e : Extra) : Json := .openRecord e.known e.other

def ofJson? (v : Json) : Option Extra := do
  let (fs, other) ← v.openFields? knownFields
  some {
    placementId := ← fs.optional "placement_id" Json.str?
    slotUuid := ← fs.optional "slot_uuid" Json.str?
    signaldata := ← fs.optional "signaldata" Json.str?
    bidId := ← fs.optional "bid_id" Json.str?
    payload := ← fs.optional "payload" Json.str?
    other := other
  }

end Extra

end Mediation.AdUnit
