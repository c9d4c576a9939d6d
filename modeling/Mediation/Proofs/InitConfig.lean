/-
Reading the settings of an adapter from an object that is held. Its names are distinct, so only a field
that holds something of the wrong kind is in the way of reading it; else each field that the adapter accepts
holds what is found under its name, and what has another name is left out.
-/
import Mathlib.Data.List.Nodup
import Mediation.Adapter.InitConfig
import Mediation.Proofs.Lists

namespace Mediation

/-! ## Objects as records -/

namespace Json

theorem int32?_ofInt32 (n : Int32) : (ofInt32 n).int32? = some n := by
  unfold ofInt32 int32? intIn?
  dsimp only
  rw [if_pos ⟨n.minValue_le_toInt, n.toInt_le⟩, Option.map_some, Int32.ofInt_toInt]

theorem distinctKnown_of_nodup {l : List (String × Json)} (h : (l.map (·.1)).Nodup) (known : List String) :
    distinctKnown known l = true := by
  unfold distinctKnown
  rw [List.all_eq_true]
  intro name _
  rw [Dict.filter_eq_lookupEntry h, decide_eq_true_iff]
  cases Dict.lookupEntry name l <;> simp

/-- An object that is held can be read as a record with any names. -/
theorem fields?_ofDict (known : List String) (d : Dict String Json) :
    (ofDict d).fields? known = some d.get? := by
  unfold ofDict fields?
  dsimp only
  rw [if_pos (distinctKnown_of_nodup d.nodup_keys known)]
  rfl

end Json

/-! ## Fields of an adapter -/

namespace Adapter

theorem nodup_fields (a : Adapter) : (a.fields.map (·.1)).Nodup := by
  cases a <;> decide

/-- Neither the adapter nor its position is a field. -/
theorem ne_of_mem_fields {a : Adapter} {f : String × FieldKind} (hf : f ∈ a.fields) :
    f.1 ≠ "adapter" ∧ f.1 ≠ "order" := by
  have hall : ∀ f ∈ a.fields, f.1 ≠ "adapter" ∧ f.1 ≠ "order" := by
    cases a <;> decide
  exact hall f hf

end Adapter

namespace InitConfig

/-- What is found under the name of a field is not of its kind. -/
def Mistyped (fs : Json.Fields) (f : String × FieldKind) : Prop :=
  ∃ v, fs f.1 = some v ∧ f.2.ofJson? v = none

/-- What a field holds, of what is found under its name. What is empty is not kept. -/
def held (fs : Json.Fields) (f : String × FieldKind) : Option FieldValue :=
  ((fs f.1).bind f.2.ofJson?).filter fun x => !x.isEmpty

theorem not_mistyped_of_held {fs : Json.Fields} {f : String × FieldKind} (h : (held fs f).isSome) :
    ¬ Mistyped fs f := by
  rintro ⟨v, hv, hnone⟩
  unfold held at h
  rw [hv, Option.bind_some, hnone] at h
  cases h

section

variable {a : Adapter} {fs : Json.Fields}

theorem fieldsOf?_of_mistyped (h : ∃ f ∈ a.fields, Mistyped fs f) : fieldsOf? a fs = none := by
  unfold fieldsOf?
  rw [mapM_eq_none]
  · rfl
  · obtain ⟨f, hf, v, hv, hnone⟩ := h
    exact ⟨f, hf, by rw [hv]; dsimp only; rw [hnone, Option.map_none]⟩

theorem fieldsOf?_of_not_mistyped (h : ∀ f ∈ a.fields, ¬ Mistyped fs f) : fieldsOf? a fs =
    some (.ofList (a.fields.filterMap fun f => (held fs f).map (f.1, ·))) := by
  unfold fieldsOf?
  rw [mapM_eq_some_map (g := fun f => (held fs f).map (f.1, ·))]
  · unfold List.reduceOption
    rw [Option.bind_eq_bind, Option.bind_some, List.filterMap_map]
    rfl
  · intro f hf
    unfold held
    cases hv : fs f.1 with
    | none => rfl
    | some v =>
      rw [Option.bind_some]
      cases hx : f.2.ofJson? v with
      | none => exact absurd ⟨v, hv, hx⟩ (h f hf)
      | some x =>
        dsimp only
        rw [hx, Option.map_some, Option.filter_some]
        cases x.isEmpty <;> rfl

/-- Each field that an adapter accepts holds what is found under its name. -/
theorem get?_fields {f : String × FieldKind} (hf : f ∈ a.fields) :
    (Dict.ofList (a.fields.filterMap fun f => (held fs f).map (f.1, ·))).get? f.1 = held fs f := by
  -- an entry of this name is of this field, since no other one has the name
  have hentry : ∀ e ∈ (a.fields.filterMap fun f => (held fs f).map (f.1, ·)).reverse, e.1 = f.1 →
      held fs f = some e.2 := by
    intro e he hname
    obtain ⟨f', hf', hmap⟩ := List.mem_filterMap.1 (List.mem_reverse.1 he)
    obtain ⟨x, hx, rfl⟩ := Option.map_eq_some_iff.1 hmap
    rw [← List.inj_on_of_nodup_map a.nodup_fields hf' hf hname, hx]
  rw [Dict.get?_ofList]
  cases hheld : held fs f with
  | none =>
    rw [Dict.lookupEntry_eq_none_iff]
    intro e he hname
    rw [hentry e he hname] at hheld
    cases hheld
  | some x =>
    refine Dict.lookupEntry_eq_some_of_unique ?_ fun e he hname => ?_
    · exact List.mem_reverse.2 (List.mem_filterMap.2 ⟨f, hf, by rw [hheld]; rfl⟩)
    · rw [hentry e he hname] at hheld
      exact Option.some.inj hheld

/-- Other names are left out. -/
theorem get?_fields_of_not_mem {name : String} (hname : name ∉ a.fields.map (·.1)) :
    (Dict.ofList (a.fields.filterMap fun f => (held fs f).map (f.1, ·))).get? name = none := by
  rw [Dict.get?_ofList, Dict.lookupEntry_eq_none_iff]
  rintro e he rfl
  obtain ⟨f, hf, hentry⟩ := List.mem_filterMap.1 (List.mem_reverse.1 he)
  obtain ⟨x, -, rfl⟩ := Option.map_eq_some_iff.1 hentry
  exact hname (List.mem_map_of_mem hf)

end

/-- An object that names an adapter and a position. -/
theorem ofJson?_ofDict {d : Dict String Json} {a : Adapter} {order : Int32}
    (hadapter : d.get? "adapter" = some a.toJson) (horder : d.get? "order" = some (.ofInt32 order)) :
    ofJson? (.ofDict d) = (fieldsOf? a (d.erase "adapter").get?).map fun fields => ⟨a, fields, order⟩ := by
  -- the tag is the one member of its name, and the record is read from the rest
  have htag : d.entries.filter (·.1 == "adapter") = [("adapter", .str a.wire)] := by
    rw [d.filter_entries_eq, hadapter]
    rfl
  have hrest : d.entries.filter (·.1 != "adapter") = (d.erase "adapter").entries := rfl
  have hposition : (d.erase "adapter").get? "order" = some (.ofInt32 order) := by
    rw [Dict.get?_erase, if_neg (by decide), horder]
  unfold Json.ofDict ofJson?
  dsimp only
  rw [htag]
  dsimp only
  rw [hrest, Adapter.ofWire?_wire, Option.bind_some]
  unfold ofBody?
  have hfields := Json.fields?_ofDict (a.fields.map (·.1) ++ ["order"]) (d.erase "adapter")
  unfold Json.ofDict at hfields
  rw [hfields]
  unfold Json.Fields.withDefault
  rw [Option.bind_eq_bind, Option.bind_some, hposition]
  dsimp only
  rw [Json.int32?_ofInt32]
  cases fieldsOf? a (d.erase "adapter").get? <;> rfl

end InitConfig

end Mediation
