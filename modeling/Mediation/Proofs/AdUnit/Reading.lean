/-
How extensions are read. The record reader takes a map exactly if every known field in it is absent, null or a text,
and then it takes the map apart like `Extra.ofMap`, nulls aside. So the two ways to an extension differ on known
fields only: a null is dropped by the one and kept by the other, and a value that is no text is refused by the one
and kept by the other.
-/
import Mediation.Proofs.AdUnit.Extra

namespace Mediation.AdUnit.Extra

open Json

/-- A known field as the reader takes it: absent, null or a text. -/
def OptionalText (o : Option Json) : Prop := o = none ∨ o = some .null ∨ ∃ s, o = some (.str s)

/-- A map without the known fields that are null in it. -/
def withoutNulls (m : Dict String Json) : Dict String Json :=
  m.filterKeys fun name => !(knownFields.contains name && m.get? name = some .null)

section

variable {e : Extra} {m : Dict String Json} {name : String}

theorem optional_text_iff {fs : Fields} {o : Option String} :
    fs.optional name str? = some o ↔ OptionalText (fs name) ∧ (fs name).bind str? = o := by
  unfold OptionalText
  rw [optional_eq]
  cases fs name with
  | none => simp
  | some v => cases v <;> simp [nullable?, str?]

/-- An extension is read from the fields of an open record if the known ones are optional texts. -/
theorem ofJson?_eq_some_iff {v : Json} : ofJson? v = some e ↔ ∃ fs,
    v.openFields? knownFields = some (fs, e.other) ∧ (∀ name ∈ knownFields, OptionalText (fs name)) ∧
      (fs "placement_id").bind str? = e.placementId ∧ (fs "slot_uuid").bind str? = e.slotUuid ∧
      (fs "signaldata").bind str? = e.signaldata ∧ (fs "bid_id").bind str? = e.bidId ∧
      (fs "payload").bind str? = e.payload := by
  have hknown : ∀ fs : Fields, (∀ name ∈ knownFields, OptionalText (fs name)) ↔
      OptionalText (fs "placement_id") ∧ OptionalText (fs "slot_uuid") ∧ OptionalText (fs "signaldata") ∧
        OptionalText (fs "bid_id") ∧ OptionalText (fs "payload") := by
    intro fs
    simp [knownFields]
  unfold ofJson?
  simp only [Option.bind_eq_bind, Option.bind_eq_some_iff, optional_text_iff, Prod.exists, hknown]
  constructor
  · rintro ⟨fs, other, hfs, _, ⟨h₁, rfl⟩, _, ⟨h₂, rfl⟩, _, ⟨h₃, rfl⟩, _, ⟨h₄, rfl⟩, _, ⟨h₅, rfl⟩, ⟨⟩⟩
    exact ⟨fs, hfs, ⟨h₁, h₂, h₃, h₄, h₅⟩, rfl, rfl, rfl, rfl, rfl⟩
  · rintro ⟨fs, hfs, ⟨h₁, h₂, h₃, h₄, h₅⟩, h₁', h₂', h₃', h₄', h₅'⟩
    exact ⟨fs, e.other, hfs, _, ⟨h₁, h₁'⟩, _, ⟨h₂, h₂'⟩, _, ⟨h₃, h₃'⟩, _, ⟨h₄, h₄'⟩, _, ⟨h₅, h₅'⟩, rfl⟩

/-- What is read keeps nothing beside the known fields under their names. -/
theorem get?_other_of_read {v : Json} (h : ofJson? v = some e) (hname : name ∈ knownFields) :
    e.other.get? name = none := by
  obtain ⟨fs, hfs, -⟩ := ofJson?_eq_some_iff.1 h
  rw [Option.eq_none_iff_forall_not_mem]
  exact fun v hv => unknown_of_openFields? hfs _ (Dict.get?_eq_some_iff.1 hv) hname

/-! ## Maps -/

theorem get?_withoutNulls (m : Dict String Json) (name : String) : (withoutNulls m).get? name =
    if name ∈ knownFields ∧ m.get? name = some .null then none else m.get? name := by
  unfold withoutNulls
  rw [Dict.get?_filterKeys]
  by_cases hname : name ∈ knownFields <;> by_cases hnull : m.get? name = some .null <;> simp [hname, hnull]

/-- A null is no text, so the texts of the known fields stay. -/
theorem text_withoutNulls (m : Dict String Json) (name : String) :
    ((withoutNulls m).get? name).bind str? = (m.get? name).bind str? := by
  rw [get?_withoutNulls]
  split
  · rename_i hnull
    rw [hnull.2]
    rfl
  · rfl

/-- If the known fields are optional texts, none is left beside them. -/
theorem other_ofMap_withoutNulls (h : ∀ name ∈ knownFields, OptionalText (m.get? name)) :
    (ofMap (withoutNulls m)).other = m.filterKeys fun name => !knownFields.contains name := by
  refine Dict.ext_get? fun name => ?_
  rw [get?_other_ofMap, Dict.get?_filterKeys, text_withoutNulls, get?_withoutNulls]
  by_cases hname : name ∈ knownFields
  · rcases h name hname with habsent | hnull | ⟨s, htext⟩
    · simp [hname, habsent]
    · simp [hname, hnull]
    · simp [hname, htext]
  · simp [hname]

theorem eq_iff_fields {e f : Extra} : e = f ↔ e.placementId = f.placementId ∧ e.slotUuid = f.slotUuid ∧
    e.signaldata = f.signaldata ∧ e.bidId = f.bidId ∧ e.payload = f.payload ∧ e.other = f.other := by
  cases e
  cases f
  simp

/-- A map is read exactly if its known fields are optional texts, and taken apart without those that are null. -/
theorem ofJson?_ofDict (hm : (Json.ofDict m).IsValue) : ofJson? (.ofDict m) = some e ↔
    (∀ name ∈ knownFields, OptionalText (m.get? name)) ∧ e = ofMap (withoutNulls m) := by
  rw [ofJson?_eq_some_iff, openFields?_ofDict hm, eq_iff_fields]
  simp only [Option.some.injEq, Prod.mk.injEq]
  constructor
  · rintro ⟨_, ⟨rfl, hother⟩, hknown, h₁, h₂, h₃, h₄, h₅⟩
    refine ⟨hknown, ?_⟩
    rw [← h₁, ← h₂, ← h₃, ← h₄, ← h₅, ← hother, other_ofMap_withoutNulls hknown]
    simp only [ofMap, text_withoutNulls, and_self]
  · rintro ⟨hknown, h₁, h₂, h₃, h₄, h₅, hother⟩
    rw [h₁, h₂, h₃, h₄, h₅, hother, other_ofMap_withoutNulls hknown]
    refine ⟨m.get?, ⟨rfl, rfl⟩, hknown, ?_⟩
    simp only [ofMap, text_withoutNulls, and_self]

/-- An extension that keeps nothing under known names is written as the map that lists it. -/
theorem toJson_eq (h : ∀ name ∈ knownFields, e.other.get? name = none) : e.toJson = .ofDict e.toMap := by
  unfold toJson openRecord record
  congr 1
  refine Dict.ext_get? fun name => ?_
  rw [Dict.get?_ofList_append, Dict.ofList_entries, get?_toMap]
  by_cases hname : name ∈ knownFields
  · rw [h name hname, Option.none_or, Option.or_none]
  · rw [get?_known_of_not_mem hname, Option.none_or, Option.or_none]

end

/-- The reader and `ofMap` agree. A map is read as an extension exactly if each known field in it is absent, null or
a text; what is read is the map taken apart without its known fields that are null, and it is written as the map
without them. -/
theorem ofJson?_agrees_ofMap {m : Dict String Json} (hm : (Json.ofDict m).IsValue) :
    ((∃ e, ofJson? (.ofDict m) = some e) ↔ ∀ name ∈ knownFields, OptionalText (m.get? name)) ∧
    ∀ e, ofJson? (.ofDict m) = some e →
      e = ofMap (withoutNulls m) ∧ e.toJson = .ofDict (withoutNulls m) := by
  refine ⟨?_, fun e he => ?_⟩
  · simp only [ofJson?_ofDict hm, exists_and_left, exists_eq, and_true]
  · have hsame := ((ofJson?_ofDict hm).1 he).2
    refine ⟨hsame, ?_⟩
    rw [toJson_eq fun name => get?_other_of_read he, hsame, toMap_ofMap]

/-- A map with a text, a null and no known field beside what the reader does not know. -/
def slottedMap : Dict String Json :=
  .ofList [("slot_uuid", .str "slot-1"), ("payload", .null), ("nested", .obj [("payload", .int 1)]), ("size", .null)]

/-- The null payload is dropped, other nulls are not, and a payload that is no text is refused. -/
theorem ofJson?_agrees_ofMap_slotted :
    ofJson? (.ofDict slottedMap) = some (ofMap (withoutNulls slottedMap)) ∧
    (withoutNulls slottedMap).keys = ["nested", "size", "slot_uuid"] ∧
    (ofMap (withoutNulls slottedMap)).toJson = .ofDict (withoutNulls slottedMap) ∧
    ∀ e, ofJson? (.ofDict (slottedMap.insert "payload" (.int 1))) ≠ some e := by
  have hslotted : (Json.ofDict slottedMap).IsValue := ⟨by decide +kernel, by decide +kernel⟩
  have hmistyped : (Json.ofDict (slottedMap.insert "payload" (.int 1))).IsValue :=
    ⟨by decide +kernel, by decide +kernel⟩
  have hread : ofJson? (.ofDict slottedMap) = some (ofMap (withoutNulls slottedMap)) := by decide +kernel
  refine ⟨hread, by decide +kernel, ((ofJson?_agrees_ofMap hslotted).2 _ hread).2, fun e he => ?_⟩
  have hpayload := (ofJson?_agrees_ofMap hmistyped).1.1 ⟨e, he⟩ "payload" (by decide)
  rcases hpayload with h | h | ⟨s, h⟩
  · exact absurd h (by decide +kernel)
  · exact absurd h (by decide +kernel)
  · rw [Dict.get?_insert, if_pos rfl] at h
    cases h

end Mediation.AdUnit.Extra
