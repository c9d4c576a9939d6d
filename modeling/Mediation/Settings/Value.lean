/-
Values that sources of settings give, and how a later source is laid over an earlier one: groups
merge entry by entry, and any other value replaces what stood there. A path names a place inside a
value; what is missing on the way is made.
-/
import Mediation.Dict
import Mediation.Text.Digits
import Mediation.Toml.Reader

namespace Mediation.Settings

/-- A value given for a setting or for a group of settings. -/
inductive Value where
  /-- Filled in where a list was too short. -/
  | absent
  | text (s : String)
  | integer (n : Int)
  | float (x : Float)
  | boolean (b : Bool)
  | list (items : List Value)
  | group (entries : List (String × Value))

namespace Value

/-! ## Documents -/

mutual

def ofToml : Toml → Value
  | .text s => .text s
  | .integer n => .integer n
  | .float x => .float x
  | .boolean b => .boolean b
  | .array items => .list (ofItems items)
  | .tables items => .list (ofTables items)
  | .table _ entries => .group (ofEntries entries)

def ofItems : List Toml → List Value
  | [] => []
  | v :: r => ofToml v :: ofItems r

def ofTables : List (List (String × Toml)) → List Value
  | [] => []
  | t :: r => .group (ofEntries t) :: ofTables r

def ofEntries : List (String × Toml) → List (String × Value)
  | [] => []
  | (k, v) :: r => (k, ofToml v) :: ofEntries r

end

/-! ## Entries and items -/

/-- The entries of a group; any other value has none. -/
def entries : Value → List (String × Value)
  | .group es => es
  | _ => []

/-- The items of a list; any other value has none. -/
def items : Value → List Value
  | .list vs => vs
  | _ => []

/-- The value of a name, absent if there is none. -/
def lookup (k : String) (es : List (String × Value)) : Value := (Dict.lookupEntry k es).getD .absent

/-- Gives a name a value, in place of the one it has. -/
def assign (k : String) (v : Value) : List (String × Value) → List (String × Value)
  | [] => [(k, v)]
  | e :: r => if k = e.1 then (k, v) :: r else e :: assign k v r

/-! ## Laying over -/

mutual

/-- What stands where a value was laid over another. -/
def layOver : Value → Value → Value
  | .group es, old => .group (layEntriesOver es old.entries)
  | v, _ => v

def layEntriesOver : List (String × Value) → List (String × Value) → List (String × Value)
  | [], old => old
  | (k, v) :: r, old => layEntriesOver r (assign k (v.layOver (lookup k old)) old)

end

/-! ## Paths -/

/-- A step into a value. -/
inductive Step where
  | entry (name : String)
  /-- A place in a list; a negative one counts from the end. -/
  | item (place : Int)
  deriving DecidableEq, Repr

/-- A list with room for a place, and the index of the place in it. -/
def room (place : Int) (vs : List Value) : List Value × Nat :=
  if 0 ≤ place then (vs ++ List.replicate (place.toNat + 1 - vs.length) .absent, place.toNat)
  else
    let vs := List.replicate (place.natAbs - vs.length) .absent ++ vs
    (vs, vs.length - place.natAbs)

/-- Lays a value over what is at a path. -/
def layAt (v : Value) : List Step → Value → Value
  | [], old => v.layOver old
  | .entry k :: path, old => .group (assign k (layAt v path (lookup k old.entries)) old.entries)
  | .item i :: path, old =>
    let (vs, n) := room i old.items
    .list (vs.set n (layAt v path (vs.getD n .absent)))

/-- Characters of the names in a path. -/
def isNameChar (c : Char) : Bool := c.isAlphanum || c == '_' || c == '-'

/-- A place in a list, between brackets. -/
def place? (cs : List Char) : Option Int :=
  let isSpace (c : Char) := c == ' ' || c == '\t'
  let cs := ((cs.dropWhile isSpace).reverse.dropWhile isSpace).reverse
  let n :=
    match cs with
    | '-' :: ds => (Text.natural? 10 ds).map fun n => -(n : Int)
    | ds => (Text.natural? 10 ds).map fun n => (n : Int)
  n.filter Text.fitsInt64

/-- Steps as they are written: names behind dots, and places between brackets. -/
def steps? : (fuel : Nat) → List Char → Option (List Step)
  | _, [] => some []
  | fuel + 1, '.' :: cs =>
    let name := cs.takeWhile isNameChar
    if name.isEmpty then none
    else (steps? fuel (cs.dropWhile isNameChar)).map (.entry (String.ofList name) :: ·)
  | fuel + 1, '[' :: cs =>
    match cs.dropWhile (· != ']') with
    | [] => none
    | _ :: rest => do
      let i ← place? (cs.takeWhile (· != ']'))
      some (.item i :: (← steps? fuel rest))
  | _, _ => none

/-- The path that a text writes. A text that writes none is one name. -/
def path (s : String) : List Step := (steps? (s.length + 1) ('.' :: s.toList)).getD [.entry s]

example : path "a.b_c[-1].d" = [.entry "a", .entry "b_c", .item (-1), .entry "d"] := by decide +kernel
example : path "a..b" = [.entry "a..b"] ∧ path "" = [.entry ""] := by decide +kernel

/-- Lays entries over a value; their names are paths. -/
def layAll (es : List (String × Value)) (old : Value) : Value :=
  es.foldl (fun v e => layAt e.2 (path e.1) v) old

end Value

end Mediation.Settings
