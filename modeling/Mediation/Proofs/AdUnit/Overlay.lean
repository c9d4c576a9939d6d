/-
How extensions are laid over each other. Listing an extension and taking a map apart undo each other, so laying an
extension over a map is laying its listing over the map, wherever a value stands in it. On listings it is therefore
associative and idempotent, and the extension without fields changes nothing.
-/
import Mediation.Proofs.AdUnit.Reading

namespace Mediation.AdUnit.Extra

open Json

variable {e : Extra}

/-- An extension that keeps nothing under known names is what its listing is taken apart into. -/
theorem ofMap_toMap (h : ∀ name ∈ knownFields, e.other.get? name = none) : ofMap e.toMap = e := by
  have hlisted : ∀ name ∈ knownFields, e.toMap.get? name = (Dict.ofList e.known).get? name := fun name hname => by
    rw [get?_toMap, h name hname, Option.or_none]
  have htext : ∀ name ∈ knownFields, ∀ o : Option String, (Dict.ofList e.known).get? name = o.map str →
      (e.toMap.get? name).bind str? = o := by
    intro name hname o ho
    rw [hlisted name hname, ho]
    cases o <;> rfl
  have hother : (ofMap e.toMap).other = e.other := by
    refine Dict.ext_get? fun name => ?_
    rw [get?_other_ofMap]
    by_cases hname : name ∈ knownFields
    · rw [hlisted name hname, h name hname]
      -- whatever is listed under a known name is the text of the field
      cases hv : (Dict.ofList e.known).get? name with
      | none => simp
      | some v =>
        obtain ⟨s, hs⟩ := text_of_mem_known (Dict.mem_of_mem_ofList (Dict.get?_eq_some_iff.1 hv))
        obtain rfl : v = str s := hs
        simp [hname]
    · rw [get?_toMap_of_not_mem hname]
      simp [hname]
  rw [eq_iff_fields]
  refine ⟨htext _ (by decide) _ ?_, htext _ (by decide) _ ?_, htext _ (by decide) _ ?_, htext _ (by decide) _ ?_,
    htext _ (by decide) _ ?_, hother⟩
  all_goals simp [get?_known]

theorem toMap_layOver_layOver (e f : Extra) (base : Dict String Json) :
    (e.layOver (f.layOver base).toMap).toMap = ((e.layOver f.toMap).layOver base).toMap := by
  refine Dict.ext_get? fun name => ?_
  rw [get?_toMap_layOver, get?_toMap_layOver, get?_toMap_layOver, get?_toMap_layOver, Option.or_assoc]

theorem toMap_layOver_self (e : Extra) : (e.layOver e.toMap).toMap = e.toMap := by
  refine Dict.ext_get? fun name => ?_
  rw [get?_toMap_layOver, Option.or_self]

theorem get?_toMap_empty (name : String) : ({} : Extra).toMap.get? name = none := rfl

theorem toMap_layOver_empty (e : Extra) : (e.layOver ({} : Extra).toMap).toMap = e.toMap := by
  refine Dict.ext_get? fun name => ?_
  rw [get?_toMap_layOver, get?_toMap_empty, Option.or_none]

theorem toMap_empty_layOver (base : Dict String Json) : (({} : Extra).layOver base).toMap = base := by
  refine Dict.ext_get? fun name => ?_
  rw [get?_toMap_layOver, get?_toMap_empty, Option.none_or]

/-- Taking a map apart and listing the extension gives the map again, and listing an extension that was taken apart or
read and taking it apart gives the extension again. Laid over a map, an extension has its own value for every name
that it lists and that of the map for any other. So laying extensions over each other is associative and idempotent
on their listings, and the extension without fields is neutral on both sides. -/
theorem layOver_by_listing :
    (∀ m, (ofMap m).toMap = m) ∧
    (∀ e, (∃ m, e = ofMap m) ∨ (∃ v, ofJson? v = some e) → ofMap e.toMap = e) ∧
    (∀ (e : Extra) (base : Dict String Json) name,
      (∀ v, e.toMap.get? name = some v → (e.layOver base).toMap.get? name = some v) ∧
      (e.toMap.get? name = none → (e.layOver base).toMap.get? name = base.get? name)) ∧
    (∀ (e f : Extra) (base : Dict String Json),
      (e.layOver (f.layOver base).toMap).toMap = ((e.layOver f.toMap).layOver base).toMap) ∧
    (∀ e : Extra, (e.layOver e.toMap).toMap = e.toMap) ∧
    (∀ base : Dict String Json, (({} : Extra).layOver base).toMap = base) ∧
    ∀ e : Extra, (e.layOver ({} : Extra).toMap).toMap = e.toMap := by
  refine ⟨toMap_ofMap, fun e he => ?_, fun e base name => ⟨fun v hv => ?_, fun hnone => ?_⟩, toMap_layOver_layOver,
    toMap_layOver_self, toMap_empty_layOver, toMap_layOver_empty⟩
  · rcases he with ⟨m, rfl⟩ | ⟨v, hv⟩
    · rw [toMap_ofMap]
    · exact ofMap_toMap fun name => get?_other_of_read hv
  · rw [get?_toMap_layOver, hv, Option.some_or]
  · rw [get?_toMap_layOver, hnone, Option.none_or]

/-- An extension with a text and with a known field that is no text. -/
def mistypedBag : Extra := ofMap (.ofList [("payload", .int 5), ("slot_uuid", .str "slot-1")])

/-- The payload that is no text wins over one that is, and the extension is found again in its listing. -/
theorem layOver_by_listing_mistyped : mistypedBag.payload = none ∧ ofMap mistypedBag.toMap = mistypedBag ∧
    (mistypedBag.layOver (.ofList [("payload", .str "p"), ("bid_id", .str "b")])).toMap.get? "payload" =
      some (.int 5) ∧
    (mistypedBag.layOver (.ofList [("payload", .str "p"), ("bid_id", .str "b")])).toMap.get? "bid_id" =
      some (.str "b") := by
  obtain ⟨-, hagain, hlaid, -⟩ := layOver_by_listing
  refine ⟨by decide +kernel, hagain _ (.inl ⟨_, rfl⟩), (hlaid _ _ _).1 _ (by decide +kernel), ?_⟩
  rw [(hlaid _ _ _).2 (by decide +kernel)]
  decide +kernel

end Mediation.AdUnit.Extra
