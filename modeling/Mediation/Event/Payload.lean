/-
Payloads of events are flat: a nested object becomes members whose names join the path to them. The
parts of a path are joined by two underscores; a part that follows an empty path takes none.
-/
import Mediation.Error
import Mediation.Json.Reader

namespace Mediation.Event

/-- A path with one more part. -/
def joinPath (path part : String) : String := if path.isEmpty then part else path ++ "__" ++ part

mutual

/-- The values below a path that are no objects, each with its path. -/
def leavesAt (path : String) : Json → List (String × Json)
  | .obj members => leavesOf path members
  | v => [(path, v)]

def leavesOf (path : String) : List (String × Json) → List (String × Json)
  | [] => []
  | (n, v) :: r => leavesAt (joinPath path n) v ++ leavesOf path r

end

/-- One level for all: of leaves with one path the last stays. -/
def flatten (d : Dict String Json) : Dict String Json := .ofList (leavesOf "" d.entries)

/-- The extension of a request for an event: the text of an object, or nothing at all. -/
def parseExt (ext : String) : Except AuctionError (Dict String Json) :=
  if ext.isEmpty then .ok .empty
  else
    match (Json.parse ext).bind Json.settleObject with
    | some d => .ok d
    | none => .error (.event "unmarshal ext")

end Mediation.Event
