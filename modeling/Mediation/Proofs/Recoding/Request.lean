/-
Requests are written faithfully, with all their parts. Numbers have to be finite and what the SDK passes through
has to be a value, as they are in whatever was read.
-/
import Mediation.Request
import Mediation.Proofs.Json.Recoding

namespace Mediation

open Json

theorem AdFormat.faithful (f : AdFormat) : Faithful ofJson? toJson f := ⟨isValue_str _, nofun, ofWire?_wire f⟩

theorem DeviceType.faithful (t : DeviceType) : Faithful ofJson? toJson t :=
  ⟨isValue_str _, nofun, congrArg some (ofWire_wire t)⟩

namespace Request

/-! ## Device -/

namespace Position

theorem faithful {p : Position} (hlat : Faithful number? ofFloat p.lat)
    (hlon : Faithful number? ofFloat p.lon) (haccuracy : Faithful number? ofFloat p.accuracy) :
    Faithful ofJson? toJson p := by
  refine faithful_of_fields (fun _ => rfl) rfl (by simp) ?_
  simp [-Option.bind_eq_bind, some_bind, hlat.read_write, hlon.read_write,
    haccuracy.read_write]

theorem recodes : Recodes ofJson? toJson := by
  refine recodes_of_fields (fun _ => rfl) fun fs hin => ?_
  simp only [forall_bind, forall_some]
  -- what is introduced are the fields, each with what it was read from
  intros
  exact faithful (recodes_number.withDefault hin faithful_zero ‹_›)
    (recodes_number.withDefault hin faithful_zero ‹_›) (recodes_number.withDefault hin faithful_zero ‹_›)

end Position

namespace Device

theorem faithful {d : Device} (hposition : ∀ p ∈ d.position, Faithful Position.ofJson? Position.toJson p)
    (hratio : Faithful number? ofFloat d.pixelRatio) : Faithful ofJson? toJson d := by
  have hscripts : ∀ n ∈ d.scripts, Faithful int64? ofInt64 n := fun n _ => faithful_int64 n
  have htype := DeviceType.faithful d.deviceType
  refine faithful_of_fields (fun _ => rfl) rfl ?_ ?_
  · simp [isValue_ofOption hposition, isValue_ofOption hscripts, htype.isValue]
  · simp [-Option.bind_eq_bind, some_bind, nullable?_ofOption hposition,
      hratio.read_write, nullable?_ofOption hscripts, htype.read_write]

theorem recodes : Recodes ofJson? toJson := by
  refine recodes_of_fields (fun _ => rfl) fun fs hin => ?_
  simp only [forall_bind, forall_some]
  intros
  exact faithful (Position.recodes.optional hin ‹_›) (recodes_number.withDefault hin faithful_zero ‹_›)

end Device

namespace Session

theorem faithful {s : Session} (hbattery : Faithful number? ofFloat s.battery)
    (hcpu : ∀ x ∈ s.cpuUsage, Faithful number? ofFloat x) : Faithful ofJson? toJson s := by
  refine faithful_of_fields (fun _ => rfl) rfl ?_ ?_
  · simp [isValue_ofOption hcpu]
  · simp [-Option.bind_eq_bind, some_bind, hbattery.read_write,
      nullable?_ofOption hcpu]

theorem recodes : Recodes ofJson? toJson := by
  refine recodes_of_fields (fun _ => rfl) fun fs hin => ?_
  simp only [forall_bind, forall_some]
  intros
  exact faithful (recodes_number.withDefault hin faithful_zero ‹_›) (recodes_number.optional hin ‹_›)

end Session

/-! ## Parties -/

theorem App.faithful (a : App) : Faithful ofJson? toJson a := by
  have hnetworks : ∀ l ∈ a.attributionNetworks, Faithful (list? str?) (ofList .str) l :=
    fun _ _ => faithful_list fun s _ => faithful_str s
  refine faithful_of_fields (fun _ => rfl) rfl ?_ ?_
  · simp [isValue_ofOption hnetworks]
  · simp [-Option.bind_eq_bind, some_bind, nullable?_ofOption hnetworks]

namespace User

theorem faithful {u : User} (hconsent : ∀ v ∈ u.consent, Faithful settle id v) :
    Faithful ofJson? toJson u := by
  have hcoppa : ∀ b ∈ u.coppa, Faithful bool? .bool b := fun b _ => faithful_bool b
  refine faithful_of_fields (fun _ => rfl) rfl ?_ ?_
  · simp [isValue_ofOption hconsent, isValue_ofOption hcoppa]
  · simp [-Option.bind_eq_bind, some_bind, nullable?_ofOption hconsent,
      nullable?_ofOption hcoppa]

theorem recodes : Recodes ofJson? toJson := by
  refine recodes_of_fields (fun _ => rfl) fun fs hin => ?_
  simp only [forall_bind, forall_some]
  intros
  exact faithful (optional_settle hin ‹_›)

end User

theorem Regulations.faithful (r : Regulations) : Faithful ofJson? toJson r := by
  refine faithful_of_fields (fun _ => rfl) rfl (by simp) ?_
  simp [-Option.bind_eq_bind, some_bind]

theorem SegmentContext.faithful (s : SegmentContext) : Faithful ofJson? toJson s := by
  refine faithful_of_fields (fun _ => rfl) rfl (by simp) ?_
  simp [-Option.bind_eq_bind, some_bind]

/-! ## Impression -/

theorem AdapterInfo.faithful (a : AdapterInfo) : Faithful ofJson? toJson a := by
  refine faithful_of_fields (fun _ => rfl) rfl (by simp) ?_
  simp [-Option.bind_eq_bind, some_bind]

namespace CachedAd

theorem faithful {c : CachedAd} (hprice : Faithful Price.ofJson? Price.toJson c.price) :
    Faithful ofJson? toJson c := by
  refine faithful_of_fields (fun _ => rfl) rfl (by simp) ?_
  simp [-Option.bind_eq_bind, some_bind, hprice.read_write]

theorem recodes : Recodes ofJson? toJson := by
  refine recodes_of_fields (fun _ => rfl) fun fs hin => ?_
  simp only [forall_bind, forall_some]
  intros
  exact faithful (recodes_price.withDefault hin faithful_price_zero ‹_›)

end CachedAd

theorem faithful_banner (f : AdFormat) : Faithful bannerOfJson? bannerToJson f := by
  have hformat := f.faithful
  refine ⟨isValue_record (by simp [hformat.isValue]), nofun, ?_⟩
  unfold bannerOfJson? bannerToJson
  rw [fields?_record]
  simp [-Option.bind_eq_bind, some_bind, hformat.read_write]

theorem faithful_mark (u : Unit) : Faithful markOfJson? markToJson u :=
  ⟨isValue_record (List.forall_mem_nil _), nofun, rfl⟩

namespace Impression

theorem faithful {i : Impression} (hfloor : Faithful Price.ofJson? Price.toJson i.priceFloor)
    (hdemands : Faithful (dictOf? settleObject) (ofDictOf ofDict) i.demands) :
    Faithful ofJson? toJson i := by
  have hbanner : ∀ f ∈ i.banner, Faithful bannerOfJson? bannerToJson f := fun f _ => faithful_banner f
  have hinterstitial : ∀ u ∈ i.interstitial, Faithful markOfJson? markToJson u := fun u _ => faithful_mark u
  have hrewarded : ∀ u ∈ i.rewarded, Faithful markOfJson? markToJson u := fun u _ => faithful_mark u
  refine faithful_of_fields (fun _ => rfl) rfl ?_ ?_
  · simp [hdemands.isValue, isValue_ofOption hbanner, isValue_ofOption hinterstitial,
      isValue_ofOption hrewarded]
  · simp [-Option.bind_eq_bind, some_bind, hfloor.read_write,
      hdemands.read_write, nullable?_ofOption hbanner, nullable?_ofOption hinterstitial,
      nullable?_ofOption hrewarded]

theorem recodes : Recodes ofJson? toJson := by
  refine recodes_of_fields (fun _ => rfl) fun fs hin => ?_
  simp only [forall_bind, forall_some]
  intros
  exact faithful (recodes_price.withDefault hin faithful_price_zero ‹_›)
    ((recodes_dictOf recodes_settleObject).withDefault hin faithful_dictOf_empty ‹_›)

/-- The floor of an impression that was read is finite. -/
theorem isFinite_of_read {v : Json} (hv : v.inRange) {i : Impression} (h : ofJson? v = some i) :
    i.priceFloor.isFinite := by
  refine of_fields (p := fun i => i.priceFloor.isFinite) h hv (fun _ => rfl) fun fs hin => ?_
  simp only [forall_bind, forall_some]
  intros
  exact isFinite_of_faithful_price (recodes_price.withDefault hin faithful_price_zero ‹_›)

end Impression

/-! ## Request -/

theorem faithful_adapters (d : Dict String AdapterInfo) :
    Faithful (dictOf? AdapterInfo.ofJson?) (ofDictOf AdapterInfo.toJson) d :=
  faithful_dictOf fun e _ => e.2.faithful

/-- The parts of a request that hold numbers or what is passed through are written faithfully. -/
structure Carried (r : Request) : Prop where
  device : Faithful Device.ofJson? Device.toJson r.device
  session : Faithful Session.ofJson? Session.toJson r.session
  user : Faithful User.ofJson? User.toJson r.user
  position : ∀ p ∈ r.position, Faithful Position.ofJson? Position.toJson p
  impression : Faithful Impression.ofJson? Impression.toJson r.impression
  adCache : Faithful (list? CachedAd.ofJson?) (ofList CachedAd.toJson) r.adCache

/-- A body says nothing of the placement type and the version, which are read as their defaults. -/
theorem faithful {r : Request} (h : r.Carried) (hadType : r.adType = .banner) (hversion : r.sdkVersion = "") :
    Faithful ofJson? toJson r := by
  have hregulations : ∀ g ∈ r.regulations, Faithful Regulations.ofJson? Regulations.toJson g :=
    fun g _ => g.faithful
  have hadapters := faithful_adapters r.adapters
  refine faithful_of_fields (fun _ => rfl) rfl ?_ ?_
  · simp [h.device.isValue, h.session.isValue, h.user.isValue, isValue_ofOption h.position,
      h.impression.isValue, h.adCache.isValue, r.app.faithful.isValue, isValue_ofOption hregulations,
      r.segment.faithful.isValue, hadapters.isValue]
  · simp [-Option.bind_eq_bind, some_bind, h.device.read_write, h.session.read_write, h.user.read_write,
      nullable?_ofOption h.position, h.impression.read_write, h.adCache.read_write,
      r.app.faithful.read_write, nullable?_ofOption hregulations, r.segment.faithful.read_write,
      hadapters.read_write]
    rw [← hadType, ← hversion]

theorem recodes : Recodes ofJson? toJson := by
  refine recodes_of_fields (fun _ => rfl) fun fs hin => ?_
  simp only [forall_bind, forall_some]
  intros
  refine faithful ⟨?_, ?_, ?_, ?_, ?_, ?_⟩ rfl rfl
  · exact Device.recodes.withDefault hin (Device.faithful faithful_of_mem_none faithful_zero) ‹_›
  · exact Session.recodes.withDefault hin (Session.faithful faithful_zero faithful_of_mem_none) ‹_›
  · exact User.recodes.withDefault hin (User.faithful faithful_of_mem_none) ‹_›
  · exact Position.recodes.optional hin ‹_›
  · exact Impression.recodes.required hin ‹_›
  · exact (recodes_list CachedAd.recodes).withDefault hin faithful_list_nil ‹_›

theorem isFinite_of_read {v : Json} (hv : v.inRange) {r : Request} (h : ofJson? v = some r) :
    r.impression.priceFloor.isFinite := by
  refine of_fields (p := fun r => r.impression.priceFloor.isFinite) h hv (fun _ => rfl) fun fs hin => ?_
  simp only [forall_bind, forall_some]
  intros
  have himpression := Impression.recodes.required hin ‹_›
  exact Impression.isFinite_of_read himpression.isValue.inRange himpression.read_write

end Request

end Mediation
