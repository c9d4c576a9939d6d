/-
Settings from a TOML document with environment variables over it. A variable `BIDON__SECTION__KEY`
gives the setting `key` of the section `section`, whatever the case of its name. Scalars are taken
as what is asked for: a number may be given as a text and a text as a number.
-/
import Mediation.Decimal.Layout
import Mediation.Settings
import Mediation.Settings.Value

namespace Mediation.Settings

/-! ## Letter case -/

/-- Lower case of the characters whose lower case is an ASCII letter: the capital ASCII letters and
the sign for kelvin. -/
def foldChar (c : Char) : Char := if c = '\u212A' then 'k' else c.toLower

def foldCase (s : String) : String := s.map foldChar

/-! ## Environment variables -/

/-- What precedes the names of settings in the names of variables, with case folded. -/
def variableMark : List Char := "bidon__".toList

/-- Puts dots for pairs of underscores. -/
def dotted : List Char → List Char
  | '_' :: '_' :: cs => '.' :: dotted cs
  | c :: cs => c :: dotted cs
  | [] => []

/-- The name of the setting that a variable gives, if it gives one. -/
def settingName? (name : String) : Option String :=
  let cs := (foldCase name).toList
  if cs.take variableMark.length = variableMark then
    some (String.ofList (dotted (cs.drop variableMark.length)))
  else none

example : settingName? "BIDON__AUCTION__DEFAULT_TIMEOUT_MS" = some "auction.default_timeout_ms" := by
  decide +kernel
example : settingName? "BIDON_AUCTION__DEFAULT_TIMEOUT_MS" = none := by decide +kernel

/-- The settings that variables give, all of them texts. -/
def ofVariables (environment : List (String × String)) : List (String × Value) :=
  environment.filterMap fun e => (settingName? e.1).map fun k => (k, .text e.2)

namespace Value

/-! ## Scalars -/

/-- Numbers that stand for texts have neither exponent nor `.0`, and a last digit that could be either
of two is the greater one. -/
def numberText : Decimal.Layout where
  tie := .awayFromZero
  positional := fun _ => true
  wholeMark := ""
  plus := ""
  notANumber := "NaN"
  infinity := "inf"

example : numberText.format 1125899906842624.25 = "1125899906842624.3" := by decide +kernel

def text? : Value → Option String
  | .text s => some s
  | .boolean b => some (if b then "true" else "false")
  | .integer n => some (toString n)
  | .float x => some (numberText.format x)
  | _ => none

/-- Words for one and zero. -/
def switch? (s : String) : Option Nat :=
  let s := foldCase s
  if s = "true" ∨ s = "on" ∨ s = "yes" then some 1
  else if s = "false" ∨ s = "off" ∨ s = "no" then some 0
  else none

/-- A whole number of at most 64 bits that is not negative. A float is rounded to the nearest one,
and one half away from zero. -/
def natural? : Value → Option Nat
  | .text s => (switch? s).or ((Text.plusNatural? 10 s.toList).filter (· < UInt64.size))
  | .boolean b => some (if b then 1 else 0)
  | .integer n => if 0 ≤ n then some n.toNat else none
  | .float x => some x.round.toUInt64.toNat
  | _ => none

def uint32? (v : Value) : Option UInt32 := (v.natural?.filter (· < UInt32.size)).map (·.toUInt32)

def uint64? (v : Value) : Option UInt64 := v.natural?.map (·.toUInt64)

/-! ## Lists and groups -/

def list? {α : Type} (f : Value → Option α) : Value → Option (List α)
  | .list vs => vs.mapM f
  | _ => none

/-- The settings of a group by name; a list gives them in their order. -/
def fields? (names : List String) : Value → Option (String → Option Value)
  | .group es => some fun n => Dict.lookupEntry n es
  | .list vs => some fun n => Dict.lookupEntry n (names.zip vs)
  | _ => none

/-- A setting that stands for `default` when nothing is given for it. -/
def given {α : Type} (default : α) (f : Value → Option α) : Option Value → Option α
  | none => some default
  | some v => f v

end Value

/-! ## Sections -/

namespace Auctions

def ofValue? (v : Value) : Option Auctions := do
  let fs ← v.fields? fieldNames
  let base : Auctions := {}
  some {
    defaultTimeout := ← Value.given base.defaultTimeout Value.uint32? (fs "default_timeout_ms")
    mediators := ← Value.given base.mediators (Value.list? Value.text?) (fs "custom_mediators")
  }

end Auctions

namespace AdCache

def ofValue? (v : Value) : Option AdCache := do
  let fs ← v.fields? fieldNames
  let base : AdCache := {}
  some { limit := ← Value.given base.limit Value.uint64? (fs "default_max_cache_count") }

end AdCache

def topicsOfValue? : Value → Option (Dict Topic String)
  | .group es =>
    (es.mapM fun (e : String × Value) => do some (← Topic.ofWire? e.1, ← e.2.text?)).map Dict.ofList
  | _ => none

namespace Events

def ofValue? (v : Value) : Option Events := do
  let fs ← v.fields? fieldNames
  some { topics := ← Value.given defaultTopics topicsOfValue? (fs "topics") }

end Events

namespace Logging

def ofValue? (v : Value) : Option Logging := do
  let fs ← v.fields? fieldNames
  let base : Logging := {}
  some { level := ← Value.given base.level Value.text? (fs "level") }

end Logging

def ofValue? (v : Value) : Option Settings := do
  let fs ← v.fields? fieldNames
  some {
    auctions := ← Value.given {} Auctions.ofValue? (fs "auction")
    adCache := ← Value.given {} AdCache.ofValue? (fs "ad_cache")
    events := ← Value.given {} Events.ofValue? (fs "events")
    logging := ← Value.given {} Logging.ofValue? (fs "logging")
  }

/-! ## Reading -/

/-- What a document and variables give together; a variable wins over the document. -/
def sources (document : Toml.Entries) (environment : List (String × String)) : Value :=
  Value.layAll (ofVariables environment) (Value.layAll (Value.ofEntries document) (.group []))

/-- The settings that a TOML document and environment variables describe. -/
def read (document : String) (environment : List (String × String)) : Except AuctionError Settings :=
  match Toml.parse document with
  | none => .error (.configuration "failed to read settings")
  | some entries =>
    match ofValue? (sources entries environment) with
    | none => .error (.configuration "failed to deserialize settings")
    | some s => if s.isValid then .ok s else .error (.configuration "invalid settings")

theorem isValid_of_read {document : String} {environment : List (String × String)} {s : Settings}
    (h : read document environment = .ok s) : s.isValid := by
  unfold read at h
  split at h
  · cases h
  · split at h
    · cases h
    · split at h
      · cases h; assumption
      · cases h

end Mediation.Settings
