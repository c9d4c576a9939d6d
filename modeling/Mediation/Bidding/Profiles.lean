/-
Initialisation settings of bidding adapters, as profiles store them. A profile lays its fields over the
adapter's default settings; where the outcome does not fit the adapter, the default stays.
-/
import Mediation.AdUnit.Buckets
import Mediation.Adapter.InitConfig
import Mediation.Error
import Mediation.Activity

namespace Mediation.Bidding

/-! ## Profiles -/

/-- What is stored for an adapter, by the account and by the app. -/
structure Profile where
  adapter : Adapter
  accountExtra : Dict String Json
  appData : Dict String Json
  deriving DecidableEq

namespace Profile

/-- Whether a profile may set a field. The adapter and its position are not for profiles to set. -/
def maySet (name : String) : Bool := name != "adapter" && name != "order"

/-- The default settings of an adapter as fields. -/
def defaultFields (a : Adapter) : Dict String Json :=
  .ofList [("adapter", a.toJson), ("order", .ofInt32 a.defaultOrder)]

/-- The fields of a profile: the default ones, over them those of the account, then those of the app,
then those that were computed. -/
def merged (p : Profile) (computed : Dict String Json) : Dict String Json :=
  (computed.filterKeys maySet).layOver
    ((p.appData.filterKeys maySet).layOver
      ((p.accountExtra.filterKeys maySet).layOver (defaultFields p.adapter)))

/-- The settings that a profile leads to. -/
def settings (p : Profile) (computed : Dict String Json) : InitConfig :=
  (InitConfig.ofJson? (.ofDict (p.merged computed))).getD (.default p.adapter true)

end Profile

/-! ## Stores -/

/-- A step of reading profiles. -/
inductive ProfileLookup where
  | profiles (appId : Int64) (adapters : List Adapter)
  /-- Placements of the app at Bidmachine. -/
  | placements (appId : Int64)
  deriving DecidableEq, Repr

/-- Where profiles are read. -/
structure ProfileStore where
  profiles : Int64 → List Adapter → Reply (Except AuctionError (List Profile))
  /-- Identifiers of placements by ad format. -/
  placements : Int64 → Reply (Except AuctionError (Dict String String))

/-- Identifiers of the placements that the units of TaurusX name, in their order. -/
def namedPlacements (units : AdUnits) : List String :=
  (units.all .taurusX .rtb).filterMap fun u => u.extra.placementId

/-- The fields of a profile that are computed. Placements that cannot be read count as none. -/
def computedFields (store : ProfileStore) (appId : Int64) (units : AdUnits) (a : Adapter) :
    Activity ProfileLookup (Dict String Json) :=
  match a with
  | .bidmachine => do
    match ← Activity.ask (.placements appId) (store.placements appId) with
    | .ok placements => pure (.ofList [("placements", .ofDictOf .str placements)])
    | .error _ => pure (.ofList [("placements", .ofDict .empty)])
  | .taurusX => pure (.ofList [("placements", .ofList .str (namedPlacements units))])
  | _ => pure .empty

/-- The settings of the profiles in turn; a later profile of an adapter replaces an earlier one. -/
def settingsOf (store : ProfileStore) (appId : Int64) (units : AdUnits) :
    List Profile → InitConfigs → Activity ProfileLookup InitConfigs
  | [], found => pure found
  | p :: ps, found => do
    let computed ← computedFields store appId units p.adapter
    settingsOf store appId units ps (found.insert p.adapter (p.settings computed))

/-- The settings of the adapters that have a profile. It is an error if none has one. -/
def storedSettings (store : ProfileStore) (appId : Int64) (adapters : List Adapter) (units : AdUnits) :
    Activity ProfileLookup (Except AuctionError InitConfigs) := do
  if adapters.isEmpty then pure (.ok .empty)
  else
    match ← Activity.ask (.profiles appId adapters) (store.profiles appId adapters) with
    | .error e => pure (.error e)
    | .ok profiles =>
      let wanted := profiles.filter fun p => adapters.contains p.adapter
      let found ← settingsOf store appId units wanted .empty
      pure (if found.isEmpty then .error .noAdaptersFound else .ok found)

end Mediation.Bidding
