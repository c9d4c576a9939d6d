/-
Initialisation settings of adapters. Each adapter accepts a fixed list of named fields besides the
position at which the SDK starts it; a field that was never set, or set to nothing, is not kept.
-/
import Mediation.Adapter

namespace Mediation

/-! ## Fields -/

/-- What a field of an adapter's settings holds. -/
inductive FieldKind where
  | text
  | texts
  | table
  deriving DecidableEq, Repr

/-- The content of a field. -/
inductive FieldValue where
  | text (s : String)
  | texts (l : List String)
  | table (d : Dict String String)
  deriving DecidableEq

namespace FieldValue

def isEmpty : FieldValue → Bool
  | text s => s.isEmpty
  | texts l => l.isEmpty
  | table d => d.isEmpty

def toJson : FieldValue → Json
  | text s => .str s
  | texts l => .ofList .str l
  | table d => .ofDictOf .str d

end FieldValue

def FieldKind.ofJson? : FieldKind → Json → Option FieldValue
  | .text, v => v.str?.map .text
  | .texts, v => (v.list? Json.str?).map .texts
  | .table, v => (v.dictOf? Json.str?).map .table

namespace Adapter

/-- The fields that an adapter accepts, in the order of their positions. -/
def fields : Adapter → List (String × FieldKind)
  | .admob | .bigoAds | .dtExchange | .metaNetwork | .startIo | .vkAds | .vungle => [("app_id", .text)]
  | .amazon | .ironSource | .moloco => [("app_key", .text)]
  | .applovin => [("sdk_key", .text)]
  | .bidmachine =>
    [("seller_id", .text), ("endpoint", .text), ("mediation_config", .texts), ("placements", .table)]
  | .chartboost => [("app_id", .text), ("app_signature", .text)]
  | .gam => [("network_code", .text), ("app_id", .text)]
  | .inmobi => [("account_id", .text), ("app_key", .text)]
  | .mintegral => [("app_id", .text), ("app_key", .text)]
  | .mobileFuse => [("publisher_id", .text), ("app_key", .text)]
  | .taurusX => [("app_id", .text), ("placements", .texts)]
  | .unityAds => [("game_id", .text)]
  | .yandex => [("metrica_id", .text)]

/-- Position at which the SDK starts an adapter by default; lower ones start first. -/
def defaultOrder : Adapter → Int32
  | .amazon | .bidmachine | .dtExchange | .metaNetwork | .moloco | .startIo | .taurusX => 0
  | .admob | .applovin | .gam => 1
  | .bigoAds | .chartboost | .ironSource | .unityAds | .vkAds | .vungle | .yandex => 2
  | .inmobi | .mintegral | .mobileFuse => 3

end Adapter

/-! ## Settings -/

/-- Initialisation settings of one adapter. -/
structure InitConfig where
  adapter : Adapter
  /-- The fields that hold something. -/
  fields : Dict String FieldValue
  order : Int32
  deriving DecidableEq

/-- Settings by adapter. -/
abbrev InitConfigs := Dict Adapter InitConfig

namespace InitConfig

/-- Settings without any field, in the default position or in position zero. -/
def default (a : Adapter) (ordered : Bool) : InitConfig :=
  ⟨a, .empty, if ordered then a.defaultOrder else 0⟩

def toJson (c : InitConfig) : Json :=
  .record (("adapter", .str c.adapter.wire) :: ("order", .ofInt32 c.order)
    :: (c.fields.mapValues FieldValue.toJson).entries)

/-- The fields of adapter `a` that hold something. -/
def fieldsOf? (a : Adapter) (fs : Json.Fields) : Option (Dict String FieldValue) := do
  let read ← a.fields.mapM fun f =>
    match fs f.1 with
    | none => some none
    | some v => (f.2.ofJson? v).map fun x => if x.isEmpty then none else some (f.1, x)
  some (Dict.ofList read.reduceOption)

/-- Settings of a given adapter, from an object or from a list of its fields with the position last. -/
def ofBody? (a : Adapter) (v : Json) : Option InitConfig := do
  let fs ← v.fields? (a.fields.map (·.1) ++ ["order"])
  some ⟨a, ← fieldsOf? a fs, ← fs.withDefault "order" 0 Json.int32?⟩

/-- Settings that name their adapter: as the member `adapter`, once, or as the first item. -/
def ofJson? : Json → Option InitConfig
  | .obj members =>
    match members.filter (·.1 == "adapter") with
    | [(_, .str s)] =>
      (Adapter.ofWire? s).bind fun a => ofBody? a (.obj (members.filter (·.1 != "adapter")))
    | _ => none
  | .arr (.str s :: items) => (Adapter.ofWire? s).bind fun a => ofBody? a (.arr items)
  | _ => none

end InitConfig

end Mediation
