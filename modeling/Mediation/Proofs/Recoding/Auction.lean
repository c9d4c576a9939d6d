/-
What an auction is set up from and what it answers is written faithfully: ad units with their extensions,
configurations, segments, locations and responses.
-/
import Mediation.Auction.Response
import Mediation.Geo
import Mediation.Inventory
import Mediation.Proofs.Recoding.Request

namespace Mediation

open Json

theorem Adapter.faithful (a : Adapter) : Faithful ofJson? toJson a := ⟨isValue_str _, nofun, ofWire?_wire a⟩

theorem AdType.faithful (t : AdType) : Faithful ofJson? toJson t := ⟨isValue_str _, nofun, ofWire?_wire t⟩

theorem BidType.faithful (t : BidType) : Faithful ofJson? toJson t := ⟨isValue_str _, nofun, ofWire?_wire t⟩

/-! ## Ad units -/

namespace AdUnit

namespace Extra

theorem faithful {e : Extra} (hother : IsExtra knownFields e.other) : Faithful ofJson? toJson e := by
  refine faithful_of_openFields (fun _ => rfl) rfl hother ?_ ?_ fun fs hget => ?_
  · simp [known, knownFields]
  · simp [known]
  · unfold knownFields known at hget
    simp [-Option.bind_eq_bind, some_bind, hget]

theorem isExtra_of_read {v : Json} (hv : v.inRange) {e : Extra} (h : ofJson? v = some e) :
    IsExtra knownFields e.other := by
  refine of_openFields (p := fun e => IsExtra knownFields e.other) h hv (fun _ => rfl)
    fun fs extra _ hextra => ?_
  simp only [forall_bind, forall_some]
  intros
  exact hextra

theorem recodes : Recodes ofJson? toJson := fun _ hv _ h => faithful (isExtra_of_read hv h)

end Extra

/-- A unit that can be written and read: its price is finite, and its extension keeps values under names that
it does not know. -/
structure Sound (u : AdUnit) : Prop where
  isFinite : ∀ p ∈ u.priceFloor, p.isFinite
  isExtra : IsExtra Extra.knownFields u.extra.other

theorem sound_of_read {v : Json} (hv : v.inRange) {u : AdUnit} (h : ofJson? v = some u) : u.Sound := by
  refine of_fields h hv (fun _ => rfl) fun fs hin => ?_
  simp only [forall_bind, forall_some]
  intros
  refine ⟨fun p hp => isFinite_of_faithful_price (recodes_price.optional hin ‹_› p hp), ?_⟩
  have hextra := Extra.recodes.withDefault hin (Extra.faithful ⟨List.forall_mem_nil _, List.forall_mem_nil _⟩)
    ‹fs.withDefault "ext" _ _ = _›
  exact Extra.isExtra_of_read hextra.isValue.inRange hextra.read_write

theorem Sound.faithful {u : AdUnit} (h : u.Sound) : Faithful ofJson? toJson u := by
  have hadapter := u.adapter.faithful
  have hbidType := u.bidType.faithful
  have hfloor : ∀ p ∈ u.priceFloor, Faithful Price.ofJson? Price.toJson p :=
    fun p hp => faithful_price (h.isFinite p hp)
  have htimeout : ∀ n ∈ u.timeout, Faithful int32? ofInt32 n := fun n _ => faithful_int32 n
  have hext := Extra.faithful h.isExtra
  refine faithful_of_fields (fun _ => rfl) rfl ?_ ?_
  · simp [hadapter.isValue, hbidType.isValue, hext.isValue]
  · simp [-Option.bind_eq_bind, some_bind, hadapter.read_write, hbidType.read_write, hext.read_write,
      readOr_present hfloor, readOr_present htimeout]

theorem recodes : Recodes ofJson? toJson := fun _ hv _ h => (sound_of_read hv h).faithful

end AdUnit

namespace StoredAdUnit

/-- A stored unit that can be written and read. -/
structure Sound (s : StoredAdUnit) : Prop where
  isFinite : ∀ p ∈ s.bidFloor, p.isFinite
  isExtra : IsExtra AdUnit.Extra.knownFields s.extra.other

theorem Sound.toAdUnit {s : StoredAdUnit} (h : s.Sound) : s.toAdUnit.Sound := by
  refine ⟨?_, h.isExtra⟩
  show ∀ p ∈ (if s.bidding then none else s.bidFloor), _
  split
  · nofun
  · exact h.isFinite

theorem sound_of_read {v : Json} (hv : v.inRange) {s : StoredAdUnit} (h : ofJson? v = some s) : s.Sound := by
  refine of_fields h hv (fun _ => rfl) fun fs hin => ?_
  simp only [forall_bind, forall_some]
  intros
  refine ⟨fun p hp => isFinite_of_faithful_price (recodes_price.optional hin ‹_› p hp), ?_⟩
  have hextra := AdUnit.Extra.recodes.withDefault hin
    (AdUnit.Extra.faithful ⟨List.forall_mem_nil _, List.forall_mem_nil _⟩) ‹fs.withDefault "extra" _ _ = _›
  exact AdUnit.Extra.isExtra_of_read hextra.isValue.inRange hextra.read_write

theorem Sound.faithful {s : StoredAdUnit} (h : s.Sound) : Faithful ofJson? toJson s := by
  have hadType := s.adType.faithful
  have hadapter := s.adapter.faithful
  have hformat : ∀ f ∈ s.format, Faithful AdFormat.ofJson? AdFormat.toJson f := fun f _ => f.faithful
  have hfloor : ∀ p ∈ s.bidFloor, Faithful Price.ofJson? Price.toJson p :=
    fun p hp => faithful_price (h.isFinite p hp)
  have hextra := AdUnit.Extra.faithful h.isExtra
  refine faithful_of_fields (fun _ => rfl) rfl ?_ ?_
  · simp [hadType.isValue, hadapter.isValue, isValue_ofOption hformat, isValue_ofOption hfloor,
      hextra.isValue]
  · simp [-Option.bind_eq_bind, some_bind, hadType.read_write, hadapter.read_write,
      nullable?_ofOption hformat, nullable?_ofOption hfloor, hextra.read_write]

theorem recodes : Recodes ofJson? toJson := fun _ hv _ h => (sound_of_read hv h).faithful

end StoredAdUnit

/-! ## Segments and locations -/

theorem Segment.Filter.faithful (f : Segment.Filter) : Faithful ofJson? toJson f := by
  have hkind : Faithful FilterKind.ofJson? FilterKind.toJson f.kind :=
    ⟨isValue_str _, nofun, congrArg some (FilterKind.ofWire_wire _)⟩
  have hvalues : Faithful (list? str?) (ofList .str) f.values := faithful_list fun s _ => faithful_str s
  refine faithful_of_fields (fun _ => rfl) rfl ?_ ?_
  · simp [hkind.isValue, hvalues.isValue]
  · simp [-Option.bind_eq_bind, some_bind, hkind.read_write, hvalues.read_write]

theorem Segment.faithful (s : Segment) : Faithful ofJson? toJson s := by
  have hfilters : Faithful (list? Filter.ofJson?) (ofList Filter.toJson) s.filters :=
    faithful_list fun f _ => f.faithful
  refine faithful_of_fields (fun _ => rfl) rfl ?_ ?_
  · simp [hfilters.isValue]
  · simp [-Option.bind_eq_bind, some_bind, hfilters.read_write]

namespace GeoData

theorem faithful {g : GeoData} (hlat : Faithful number? ofFloat g.lat)
    (hlon : Faithful number? ofFloat g.lon) : Faithful ofJson? toJson g := by
  refine faithful_of_fields (fun _ => rfl) rfl (by simp) ?_
  simp [-Option.bind_eq_bind, some_bind, hlat.read_write, hlon.read_write]

theorem recodes : Recodes ofJson? toJson := by
  refine recodes_of_fields (fun _ => rfl) fun fs hin => ?_
  simp only [forall_bind, forall_some]
  intros
  exact faithful (recodes_number.withDefault hin faithful_zero ‹_›)
    (recodes_number.withDefault hin faithful_zero ‹_›)

end GeoData

/-! ## Configuration and response -/

namespace Auction

namespace Config

theorem faithful {c : Config} (hfloor : Faithful Price.ofJson? Price.toJson c.priceFloor) :
    Faithful ofJson? toJson c := by
  have hadapters : ∀ l : List Adapter, Faithful (list? Adapter.ofJson?) (ofList Adapter.toJson) l :=
    fun l => faithful_list fun a _ => a.faithful
  have hunits : Faithful (list? int64?) (ofList ofInt64) c.adUnitIds :=
    faithful_list fun n _ => faithful_int64 n
  refine faithful_of_fields (fun _ => rfl) rfl ?_ ?_
  · simp [(hadapters _).isValue, hunits.isValue]
  · simp [-Option.bind_eq_bind, some_bind, (hadapters _).read_write, hunits.read_write, hfloor.read_write]

theorem recodes : Recodes ofJson? toJson := by
  refine recodes_of_fields (fun _ => rfl) fun fs hin => ?_
  simp only [forall_bind, forall_some]
  intros
  exact faithful (recodes_price.withDefault hin faithful_price_zero ‹_›)

end Config

theorem SegmentLabel.faithful (s : SegmentLabel) : Faithful ofJson? toJson s := by
  refine faithful_of_fields (fun _ => rfl) rfl (by simp) ?_
  simp [-Option.bind_eq_bind, some_bind]

namespace Response

theorem faithful {r : Response} (hunits : Faithful (list? AdUnit.ofJson?) (ofList AdUnit.toJson) r.adUnits)
    (hnoBids : Faithful (list? AdUnit.ofJson?) (ofList AdUnit.toJson) r.noBids)
    (hfloor : Faithful Price.ofJson? Price.toJson r.priceFloor) : Faithful ofJson? toJson r := by
  have hsegment := r.segment.faithful
  refine faithful_of_fields (fun _ => rfl) rfl ?_ ?_
  · simp [hunits.isValue, hnoBids.isValue, hsegment.isValue]
  · simp [-Option.bind_eq_bind, some_bind, hunits.read_write, hnoBids.read_write, hfloor.read_write,
      hsegment.read_write]

theorem recodes : Recodes ofJson? toJson := by
  refine recodes_of_fields (fun _ => rfl) fun fs hin => ?_
  simp only [forall_bind, forall_some]
  intros
  exact faithful ((recodes_list AdUnit.recodes).required hin ‹_›)
    ((recodes_list AdUnit.recodes).required hin ‹_›) (recodes_price.required hin ‹_›)

end Response

end Auction

end Mediation
