/-
Settings are written faithfully, those of the service and those of adapters. Transport topics are written under
the names of topics, which tell them apart. The settings of an adapter keep the fields that hold something, and
those are found again.
-/
import Mathlib.Data.Set.List
import Mediation.Proofs.Json.Recoding
import Mediation.Settings

namespace Mediation

open Json

/-! ## Settings of the service -/

theorem Topic.wire_injective : Function.Injective wire := by
  intro t u h
  have ht := ofWire?_wire t
  rw [h, ofWire?_wire u] at ht
  exact (Option.some.inj ht).symm

namespace Settings

theorem Auctions.faithful (s : Auctions) : Faithful ofJson? toJson s := by
  have hmediators : Faithful (list? str?) (ofList .str) s.mediators := faithful_list fun m _ => faithful_str m
  refine faithful_of_fields (fun _ => rfl) rfl ?_ ?_
  · simp [hmediators.isValue]
  · simp [-Option.bind_eq_bind, some_bind, hmediators.read_write]

theorem AdCache.faithful (s : AdCache) : Faithful ofJson? toJson s := by
  refine faithful_of_fields (fun _ => rfl) rfl (by simp) ?_
  simp [-Option.bind_eq_bind, some_bind]

/-- The member for a topic. -/
def topicMember (e : Topic × String) : String × Json := (e.1.wire, .str e.2)

theorem topicMember_injective : Function.Injective topicMember := by
  rintro ⟨t, s⟩ ⟨u, s'⟩ h
  obtain ⟨hname, hvalue⟩ := Prod.mk.inj h
  cases Topic.wire_injective hname
  cases hvalue
  rfl

theorem faithful_topics (d : Dict Topic String) : Faithful topicsOfJson? topicsToJson d := by
  have hnames : ((d.entries.map topicMember).map (·.1)).Nodup := by
    have hkeys := d.nodup_keys.map Topic.wire_injective
    rw [Dict.keys, List.map_map] at hkeys
    rwa [List.map_map]
  have hmem : ∀ m, m ∈ (Dict.ofList (d.entries.map topicMember)).entries ↔ m ∈ d.entries.map topicMember :=
    fun _ => Dict.mem_ofList_iff_of_nodup hnames
  refine ⟨isValue_record ?_, nofun, ?_⟩
  · rw [List.forall_mem_map]
    exact fun e _ => isValue_str e.2
  -- the members come in the order of their names, which need not be that of the topics
  · show topicsOfJson? (record (d.entries.map topicMember)) = some d
    unfold record ofDict topicsOfJson?
    dsimp only
    generalize Dict.ofList (d.entries.map topicMember) = members at hmem
    obtain ⟨l, hl⟩ : ∃ l : List (Topic × String), l.map topicMember = members.entries := by
      rw [← Set.mem_range, Set.range_list_map]
      intro m hm
      obtain ⟨e, -, rfl⟩ := List.mem_map.1 ((hmem m).1 hm)
      exact ⟨e, rfl⟩
    have hkeys : (l.map (·.1)).Nodup := by
      have hnodup := members.nodup_keys
      rw [Dict.keys, ← hl, List.map_map] at hnodup
      refine List.Nodup.of_map Topic.wire ?_
      rwa [List.map_map]
    rw [← hl, mapM_map_eq_some, Option.map_some]
    · refine congrArg some (Dict.eq_of_mem_iff fun e => ?_)
      rw [Dict.mem_ofList_iff_of_nodup hkeys, ← List.mem_map_of_injective topicMember_injective, hl, hmem,
        List.mem_map_of_injective topicMember_injective]
    · intro e _
      unfold topicMember
      dsimp only
      rw [Topic.ofWire?_wire, some_bind, str?_str, some_bind]

theorem Events.faithful (s : Events) : Faithful ofJson? toJson s := by
  have htopics := faithful_topics s.topics
  refine faithful_of_fields (fun _ => rfl) rfl ?_ ?_
  · simp [htopics.isValue]
  · simp [-Option.bind_eq_bind, some_bind, htopics.read_write]

theorem Logging.faithful (s : Logging) : Faithful ofJson? toJson s := by
  refine faithful_of_fields (fun _ => rfl) rfl (by simp) ?_
  simp [-Option.bind_eq_bind, some_bind]

theorem faithful (s : Settings) : Faithful ofJson? toJson s := by
  have hauctions := s.auctions.faithful
  have hadCache := s.adCache.faithful
  have hevents := s.events.faithful
  have hlogging := s.logging.faithful
  refine faithful_of_fields (fun _ => rfl) rfl ?_ ?_
  · simp [hauctions.isValue, hadCache.isValue, hevents.isValue, hlogging.isValue]
  · simp [-Option.bind_eq_bind, some_bind, hauctions.read_write, hadCache.read_write, hevents.read_write,
      hlogging.read_write]

end Settings

/-! ## Settings of adapters -/

theorem FieldKind.recodes (k : FieldKind) : Recodes k.ofJson? FieldValue.toJson := by
  intro v hv x hx
  cases k with
  | text =>
    obtain ⟨s, -, rfl⟩ := Option.map_eq_some_iff.1 hx
    exact ⟨isValue_str s, nofun, rfl⟩
  | texts =>
    obtain ⟨l, -, rfl⟩ := Option.map_eq_some_iff.1 hx
    have hl : Faithful (list? str?) (ofList .str) l := faithful_list fun s _ => faithful_str s
    exact ⟨hl.isValue, hl.ne_null, congrArg (Option.map FieldValue.texts) hl.read_write⟩
  | table =>
    obtain ⟨d, -, rfl⟩ := Option.map_eq_some_iff.1 hx
    have hd : Faithful (dictOf? str?) (ofDictOf .str) d := faithful_dictOf fun e _ => faithful_str e.2
    exact ⟨hd.isValue, hd.ne_null, congrArg (Option.map FieldValue.table) hd.read_write⟩

namespace InitConfig

/-- The settings of an adapter that can be written and read: they keep fields of the adapter, each of which
holds something of its kind. -/
structure Sound (c : InitConfig) : Prop where
  unknown : ∀ name, name ∉ c.adapter.fields.map (·.1) → c.fields.get? name = none
  known : ∀ f ∈ c.adapter.fields, ∀ x ∈ c.fields.get? f.1,
    Faithful f.2.ofJson? FieldValue.toJson x ∧ x.isEmpty = false

theorem sound_of_body {a : Adapter} {v : Json} (hv : v.inRange) {c : InitConfig} (h : ofBody? a v = some c) :
    c.Sound := by
  refine of_fields h hv (fun _ => rfl) fun fs hin => ?_
  simp only [forall_bind, forall_some]
  intro fields hfields _ _
  by_cases hmistyped : ∃ f ∈ a.fields, Mistyped fs f
  · rw [fieldsOf?_of_mistyped hmistyped] at hfields
    cases hfields
  rw [fieldsOf?_of_not_mistyped fun f hf hm => hmistyped ⟨f, hf, hm⟩] at hfields
  obtain rfl := Option.some.inj hfields
  refine ⟨fun name hname => get?_fields_of_not_mem hname, fun f hf x hx => ?_⟩
  dsimp only at hf hx
  rw [get?_fields hf, Option.mem_def, held, Option.filter_eq_some_iff] at hx
  obtain ⟨hx, hempty⟩ := hx
  obtain ⟨w, hw, hx⟩ := Option.bind_eq_some_iff.1 hx
  exact ⟨f.2.recodes w (hin f.1 w hw) x hx, by simpa using hempty⟩

theorem sound_of_read {v : Json} (hv : v.inRange) {c : InitConfig} (h : ofJson? v = some c) : c.Sound := by
  unfold ofJson? at h
  split at h
  · split at h
    · obtain ⟨a, -, h⟩ := Option.bind_eq_some_iff.1 h
      refine sound_of_body (inRange_obj.2 fun m hm => ?_) h
      exact inRange_obj.1 hv m (List.mem_of_mem_filter hm)
    · cases h
  · obtain ⟨a, -, h⟩ := Option.bind_eq_some_iff.1 h
    exact sound_of_body (inRange_arr.2 fun w hw => inRange_arr.1 hv w (List.mem_cons_of_mem _ hw)) h
  · cases h

section

variable {c : InitConfig}

/-- Beside the adapter and the position, the members are the fields. -/
theorem get?_members (h : c.Sound) (name : String) :
    (Dict.ofList (("adapter", .str c.adapter.wire) :: ("order", .ofInt32 c.order)
      :: (c.fields.mapValues FieldValue.toJson).entries)).get? name =
        if name = "adapter" then some c.adapter.toJson
        else if name = "order" then some (.ofInt32 c.order)
        else (c.fields.get? name).map FieldValue.toJson := by
  have hfield : ∀ name', (name' = "adapter" ∨ name' = "order") → c.fields.get? name' = none := by
    intro name' hname
    refine h.unknown name' fun hmem => ?_
    obtain ⟨f, hf, rfl⟩ := List.mem_map.1 hmem
    obtain ⟨hadapter, horder⟩ := Adapter.ne_of_mem_fields hf
    exact hname.elim hadapter horder
  rw [Dict.get?_ofList_cons, Dict.get?_ofList_cons, Dict.ofList_entries, Dict.get?_mapValues]
  by_cases hadapter : name = "adapter"
  · rw [if_pos hadapter, if_pos hadapter, hadapter, hfield _ (.inl rfl)]
    rfl
  · rw [if_neg hadapter, if_neg hadapter, Option.or_none]
    by_cases horder : name = "order"
    · rw [if_pos horder, if_pos horder, horder, hfield _ (.inr rfl)]
      rfl
    · rw [if_neg horder, if_neg horder, Option.or_none]

theorem held_members (h : c.Sound) {fs : Fields} {f : String × FieldKind} (hf : f ∈ c.adapter.fields)
    (hget : fs f.1 = (c.fields.get? f.1).map FieldValue.toJson) :
    ¬ Mistyped fs f ∧ held fs f = c.fields.get? f.1 := by
  unfold Mistyped held
  rw [hget]
  cases hx : c.fields.get? f.1 with
  | none => exact ⟨nofun, rfl⟩
  | some x =>
    obtain ⟨hfaithful, hempty⟩ := h.known f hf x hx
    rw [Option.map_some, Option.bind_some, hfaithful.read_write]
    refine ⟨?_, by simp [hempty]⟩
    rintro ⟨v, hv, hnone⟩
    rw [← Option.some.inj hv, hfaithful.read_write] at hnone
    cases hnone

theorem fieldsOf?_members (h : c.Sound) {fs : Fields}
    (hget : ∀ f ∈ c.adapter.fields, fs f.1 = (c.fields.get? f.1).map FieldValue.toJson) :
    fieldsOf? c.adapter fs = some c.fields := by
  rw [fieldsOf?_of_not_mistyped fun f hf => (held_members h hf (hget f hf)).1]
  refine congrArg some (Dict.ext_get? fun name => ?_)
  by_cases hname : name ∈ c.adapter.fields.map (·.1)
  · obtain ⟨f, hf, rfl⟩ := List.mem_map.1 hname
    rw [get?_fields hf, (held_members h hf (hget f hf)).2]
  · rw [get?_fields_of_not_mem hname, h.unknown name hname]

theorem Sound.faithful (h : c.Sound) : Faithful ofJson? toJson c := by
  have hget := get?_members h
  refine ⟨isValue_record ?_, nofun, ?_⟩
  · refine List.forall_mem_cons.2 ⟨isValue_str _, List.forall_mem_cons.2 ⟨isValue_ofInt32 _, ?_⟩⟩
    show ∀ m ∈ c.fields.entries.map _, _
    rw [List.forall_mem_map]
    intro e he
    have he' := Dict.get?_eq_some_iff.2 he
    by_cases hname : e.1 ∈ c.adapter.fields.map (·.1)
    · obtain ⟨f, hf, hfe⟩ := List.mem_map.1 hname
      rw [← hfe] at he'
      exact (h.known f hf e.2 he').1.isValue
    · rw [h.unknown _ hname] at he'
      cases he'
  · unfold toJson record
    rw [ofJson?_ofDict (by rw [hget, if_pos rfl]) (by rw [hget, if_neg (by decide), if_pos rfl]),
      fieldsOf?_members h, Option.map_some]
    intro f hf
    obtain ⟨hadapter, horder⟩ := Adapter.ne_of_mem_fields hf
    rw [Dict.get?_erase, if_neg hadapter, hget, if_neg hadapter, if_neg horder]

theorem recodes : Recodes ofJson? toJson := fun _ hv _ h => (sound_of_read hv h).faithful

end

end InitConfig

end Mediation
