/-
Records as JSON. A record is written as an object; it is read from an object whose unknown members
are ignored, or from an array that lists its fields in their order. A known field that occurs twice
is refused. Every reader here answers `none` for a value it does not accept.
-/
import Mediation.Json.Basic

namespace Mediation.Json

/-! ## Scalars -/

def bool? : Json → Option Bool
  | .bool b => some b
  | _ => none

/-- A whole number of the inclusive range. -/
def intIn? (low high : Int) : Json → Option Int
  | .int n => if low ≤ n ∧ n ≤ high then some n else none
  | _ => none

def int64? (v : Json) : Option Int64 := (v.intIn? Int64.minValue.toInt Int64.maxValue.toInt).map Int64.ofInt

def int32? (v : Json) : Option Int32 := (v.intIn? Int32.minValue.toInt Int32.maxValue.toInt).map Int32.ofInt

def uint64? (v : Json) : Option UInt64 := (v.intIn? 0 (UInt64.size - 1)).map fun n => n.toNat.toUInt64

def uint32? (v : Json) : Option UInt32 := (v.intIn? 0 (UInt32.size - 1)).map fun n => n.toNat.toUInt32

def uint8? (v : Json) : Option UInt8 := (v.intIn? 0 (UInt8.size - 1)).map fun n => n.toNat.toUInt8

def ofInt64 (n : Int64) : Json := .int n.toInt

def ofInt32 (n : Int32) : Json := .int n.toInt

def ofNat (n : Nat) : Json := .int n

/-- A number; one that is not finite has no JSON form and is written as null. -/
def ofFloat (x : Float) : Json := if x.isFinite then .float x else .null

/-! ## Collections -/

def list? {α : Type} (f : Json → Option α) : Json → Option (List α)
  | .arr items => items.mapM f
  | _ => none

/-- An object as a map; of members with one name the last stays, but all must be readable. -/
def dictOf? {α : Type} (f : Json → Option α) : Json → Option (Dict String α)
  | .obj members => (members.mapM fun m => (f m.2).map fun v => (m.1, v)).map Dict.ofList
  | _ => none

/-- Null, or a value. -/
def nullable? {α : Type} (f : Json → Option α) : Json → Option (Option α)
  | .null => some none
  | v => (f v).map some

def ofList {α : Type} (f : α → Json) (l : List α) : Json := .arr (l.map f)

def ofDictOf {α : Type} (f : α → Json) (d : Dict String α) : Json := ofDict (d.mapValues f)

def ofOption {α : Type} (f : α → Json) : Option α → Json
  | none => .null
  | some a => f a

/-- The name of a constant: a string, or an object that gives null to that one name. -/
def constant? : Json → Option String
  | .str s => some s
  | .obj [(s, .null)] => some s
  | _ => none

/-! ## Records -/

/-- The fields found for a record. -/
abbrev Fields := String → Option Json

/-- Whether no known name occurs twice. -/
def distinctKnown (known : List String) (members : List (String × Json)) : Bool :=
  known.all fun n => (members.filter (·.1 == n)).length ≤ 1

/-- The fields of a record with the known names: from an object, or in their order from an array. -/
def fields? (known : List String) : Json → Option Fields
  | .obj members =>
    if distinctKnown known members then some fun n => Dict.lookupEntry n members else none
  | .arr items =>
    if items.length ≤ known.length then some fun n => Dict.lookupEntry n (known.zip items) else none
  | _ => none

/-- The fields of an open record, and the members it does not know, which it keeps as they settle.
It is read from objects only. -/
def openFields? (known : List String) : Json → Option (Fields × Dict String Json)
  | .obj members =>
    if distinctKnown known members then
      (settleMembers (members.filter fun m => !known.contains m.1)).map fun extra =>
        (fun n => Dict.lookupEntry n members, Dict.ofList extra)
    else none
  | _ => none

namespace Fields

variable {α : Type}

/-- A field that must be there. -/
def required (fs : Fields) (name : String) (f : Json → Option α) : Option α := (fs name).bind f

/-- A field that stands for `default` when it is absent. -/
def withDefault (fs : Fields) (name : String) (default : α) (f : Json → Option α) : Option α :=
  match fs name with
  | none => some default
  | some v => f v

/-- A field that may be absent or null. -/
def optional (fs : Fields) (name : String) (f : Json → Option α) : Option (Option α) :=
  fs.withDefault name none (nullable? f)

end Fields

/-- A record written as an object. -/
def record (fields : List (String × Json)) : Json := ofDict (Dict.ofList fields)

/-- A record followed by members of its own choice. -/
def openRecord (fields : List (String × Json)) (extra : Dict String Json) : Json :=
  record (fields ++ extra.entries)

/-- A field that is left out when there is no value. -/
def present {α : Type} (name : String) (f : α → Json) : Option α → List (String × Json)
  | none => []
  | some a => [(name, f a)]

/-- A text field that is left out when it is empty. -/
def nonEmpty (name : String) (s : String) : List (String × Json) :=
  if s.isEmpty then [] else [(name, .str s)]

end Mediation.Json
