/-
Extensions by name. Whether a value stands in a typed field or among the others is the extension's own
business: by name, taking a map apart into an extension loses nothing of it, and laying an extension over
a map gives the value of the extension where it has one and that of the map elsewhere.
-/
import Mediation.AdUnit.Extra
import Mediation.Proofs.Json.Recoding

namespace Mediation.AdUnit.Extra

open Json

variable {e : Extra} {name : String}

/-- A known field that has a value is found under its name, whatever the others hold. -/
theorem get?_toMap (e : Extra) (name : String) :
    e.toMap.get? name = ((Dict.ofList e.known).get? name).or (e.other.get? name) := by
  rw [toMap, Dict.get?_insertAll, Dict.get?_ofList]

theorem get?_known (e : Extra) (name : String) : (Dict.ofList e.known).get? name =
    (if name = "payload" then e.payload.map str else none).or
      ((if name = "bid_id" then e.bidId.map str else none).or
        ((if name = "signaldata" then e.signaldata.map str else none).or
          ((if name = "slot_uuid" then e.slotUuid.map str else none).or
            (if name = "placement_id" then e.placementId.map str else none)))) := by
  simp [known, Option.or_assoc]

theorem text_of_mem_known {m : String × Json} (hm : m ∈ e.known) : ∃ s, m.2 = .str s := by
  have hall : EachMember (fun m => ∃ s, m.2 = .str s) e.known := by simp [known]
  exact hall m hm

theorem get?_known_of_not_mem (h : name ∉ knownFields) : (Dict.ofList e.known).get? name = none := by
  simp only [knownFields, List.mem_cons, List.not_mem_nil, or_false, not_or] at h
  obtain ⟨h₁, h₂, h₃, h₄, h₅⟩ := h
  simp [get?_known, h₁, h₂, h₃, h₄, h₅]

theorem get?_toMap_of_not_mem (h : name ∉ knownFields) : e.toMap.get? name = e.other.get? name := by
  rw [get?_toMap, get?_known_of_not_mem h, Option.none_or]

/-- Of a map that is taken apart the known fields take the texts. -/
theorem get?_known_ofMap (m : Dict String Json) (h : name ∈ knownFields) :
    (Dict.ofList (ofMap m).known).get? name = ((m.get? name).bind str?).map str := by
  simp only [knownFields, List.mem_cons, List.not_mem_nil, or_false] at h
  rcases h with rfl | rfl | rfl | rfl | rfl <;> simp [get?_known, ofMap]

/-- What is no text of a known field stays among the others. -/
theorem get?_other_ofMap (m : Dict String Json) (name : String) : (ofMap m).other.get? name =
    if knownFields.contains name && ((m.get? name).bind str?).isSome then none else m.get? name := by
  rw [ofMap, Dict.get?_filterKeys]
  cases knownFields.contains name && ((m.get? name).bind str?).isSome <;> rfl

/-- A map that is taken apart is listed as it was. -/
theorem toMap_ofMap (m : Dict String Json) : (ofMap m).toMap = m := by
  refine Dict.ext_get? fun name => ?_
  by_cases hname : name ∈ knownFields
  · rw [get?_toMap, get?_known_ofMap m hname, get?_other_ofMap]
    -- a text went into the field of its name, anything else stayed among the others
    cases htext : (m.get? name).bind str? with
    | none => simp
    | some s =>
      obtain ⟨v, hv, hs⟩ := Option.bind_eq_some_iff.1 htext
      rw [hv, str?_eq_some_iff.1 hs]
      simp
  · rw [get?_toMap_of_not_mem hname, get?_other_ofMap]
    simp [hname]

/-- By name, an extension wins over the map that it is laid over. -/
theorem get?_toMap_layOver (e : Extra) (base : Dict String Json) (name : String) :
    (e.layOver base).toMap.get? name = (e.toMap.get? name).or (base.get? name) := by
  rw [layOver, toMap_ofMap, Dict.get?_layOver]

/-- A slot stays when an extension is laid over a map. -/
theorem slotUuid_layOver {slot : String} (h : e.slotUuid = some slot) (base : Dict String Json) :
    (e.layOver base).slotUuid = some slot := by
  have hlisted : e.toMap.get? "slot_uuid" = some (str slot) := by
    simp [get?_toMap, get?_known, h]
  rw [layOver, ofMap]
  dsimp only
  rw [Dict.get?_layOver, hlisted]
  rfl

end Mediation.AdUnit.Extra
