/-
Demand adapters: the networks that an auction can buy from, with their wire names, their order, and
the networks that stay out of child-directed traffic.
-/
import Mediation.Json.Record

namespace Mediation

/-- A demand adapter. -/
inductive Adapter where
  | admob
  | amazon
  | applovin
  | bidmachine
  | bigoAds
  | chartboost
  | dtExchange
  | gam
  | inmobi
  | ironSource
  | metaNetwork
  | mintegral
  | mobileFuse
  | moloco
  | startIo
  | taurusX
  | unityAds
  | vkAds
  | vungle
  | yandex
  deriving DecidableEq, Repr

namespace Adapter

/-- Every adapter, in the order of the wire names. -/
def all : List Adapter :=
  [.admob, .amazon, .applovin, .bidmachine, .bigoAds, .chartboost, .dtExchange, .gam, .inmobi,
    .ironSource, .metaNetwork, .mintegral, .mobileFuse, .moloco, .startIo, .taurusX, .unityAds,
    .vkAds, .vungle, .yandex]

/-- Name of an adapter in requests, on ad units and in events. -/
def wire : Adapter → String
  | .admob => "admob"
  | .amazon => "amazon"
  | .applovin => "applovin"
  | .bidmachine => "bidmachine"
  | .bigoAds => "bigoads"
  | .chartboost => "chartboost"
  | .dtExchange => "dtexchange"
  | .gam => "gam"
  | .inmobi => "inmobi"
  | .ironSource => "ironsource"
  | .metaNetwork => "meta"
  | .mintegral => "mintegral"
  | .mobileFuse => "mobilefuse"
  | .moloco => "moloco"
  | .startIo => "startio"
  | .taurusX => "taurusx"
  | .unityAds => "unityads"
  | .vkAds => "vkads"
  | .vungle => "vungle"
  | .yandex => "yandex"

/-- The adapter with a wire name. -/
def ofWire? (s : String) : Option Adapter := all.find? (·.wire == s)

/-- Place in `all`. -/
def index (a : Adapter) : Nat := a.ctorIdx

theorem mem_all (a : Adapter) : a ∈ all := by cases a <;> decide

theorem ofWire?_wire (a : Adapter) : ofWire? a.wire = some a := by cases a <;> decide

theorem ofWire?_eq_some_iff {s : String} {a : Adapter} : ofWire? s = some a ↔ s = a.wire := by
  constructor
  · intro h
    have := List.find?_some h
    simpa using (beq_iff_eq.1 this).symm
  · rintro rfl
    exact ofWire?_wire a

theorem index_injective {a b : Adapter} (h : a.index = b.index) : a = b := by
  have key : ∀ c : Adapter, all[c.index]? = some c := by intro c; cases c <;> rfl
  have ha := key a
  rw [h, key b] at ha
  exact (Option.some.inj ha).symm

instance : Ord Adapter := ⟨fun a b => compare a.index b.index⟩

instance : Std.TransOrd Adapter where
  eq_swap {a b} := Std.OrientedOrd.eq_swap (a := a.index) (b := b.index)
  isLE_trans {a b c} := Std.TransOrd.isLE_trans (a := a.index) (b := b.index) (c := c.index)

instance : Std.LawfulEqOrd Adapter where
  eq_of_compare h := index_injective (Std.LawfulEqOrd.compare_eq_iff_eq.1 h)

def toJson (a : Adapter) : Json := .str a.wire

def ofJson? (v : Json) : Option Adapter := v.constant?.bind ofWire?

/-! ## Selection -/

/-- Networks that do not serve child-directed traffic. -/
def childDirectedBlocked : List Adapter := [.metaNetwork, .vkAds, .yandex]

def isBlockedForChildren (a : Adapter) : Bool := childDirectedBlocked.contains a

/-- The adapters of `available` that are also in `allowed`, in the order of `available`. -/
def common (allowed available : List Adapter) : List Adapter := available.filter (allowed.contains ·)

theorem mem_common {allowed available : List Adapter} {a : Adapter} :
    a ∈ common allowed available ↔ a ∈ available ∧ a ∈ allowed := by
  simp [common]

end Adapter

/-- A name that no adapter has. -/
structure UnknownAdapter where
  name : String
  deriving DecidableEq, Repr

def UnknownAdapter.message (e : UnknownAdapter) : String := "unknown adapter key '" ++ e.name ++ "'"

/-- The adapter with a wire name, or the name as an error. -/
def Adapter.named (s : String) : Except UnknownAdapter Adapter :=
  match ofWire? s with
  | some a => .ok a
  | none => .error ⟨s⟩

end Mediation
