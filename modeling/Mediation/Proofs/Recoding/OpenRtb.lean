/-
Bid requests and bid responses are written faithfully. Their records are open: what one keeps beside its fields
has to be values under names that it does not know, as it is in whatever was read.
-/
import Mediation.OpenRtb.Request
import Mediation.OpenRtb.Response
import Mediation.Proofs.Json.Recoding

namespace Mediation.OpenRtb

open Json

/-! ## Bid request -/

namespace Imp

/-- Names of the fields. -/
def known : List String := ["id", "bidfloor", "tagid", "instl", "ext"]

theorem faithful {i : Imp} (hfloor : Faithful Price.ofJson? Price.toJson i.bidfloor)
    (hext : ∀ v ∈ i.ext, Faithful settle (fun v => v) v) (hextra : IsExtra known i.extra) :
    Faithful ofJson? toJson i := by
  have hvalue : ∀ v ∈ i.ext, v.IsValue := fun v hv => (hext v hv).isValue
  refine faithful_of_openFields (fun _ => rfl) rfl hextra (by simp) ?_ fun fs hget => ?_
  · simpa using hvalue
  · simp [-Option.bind_eq_bind, some_bind, hget, hfloor.read_write, readOr_present_self hext]

theorem recodes : Recodes ofJson? toJson := by
  refine recodes_of_openFields (fun _ => rfl) fun fs extra hin hextra => ?_
  simp only [forall_bind, forall_some]
  intros
  exact faithful (recodes_price.required hin ‹_›) (optional_settle hin ‹_›) hextra

end Imp

theorem Publisher.faithful (p : Publisher) : Faithful ofJson? toJson p := by
  refine faithful_of_fields (fun _ => rfl) rfl (by simp) ?_
  simp [-Option.bind_eq_bind, some_bind]

namespace App

/-- Names of the fields. -/
def known : List String := ["id", "bundle", "ver", "publisher"]

theorem faithful {a : App} (hextra : IsExtra known a.extra) : Faithful ofJson? toJson a := by
  have hpublisher : ∀ p ∈ a.publisher, Faithful Publisher.ofJson? Publisher.toJson p := fun p _ => p.faithful
  refine faithful_of_openFields (fun _ => rfl) rfl hextra (by simp) ?_ fun fs hget => ?_
  · simpa using fun p hp => (hpublisher p hp).isValue
  · simp [-Option.bind_eq_bind, some_bind, hget, readOr_present hpublisher]

theorem recodes : Recodes ofJson? toJson := by
  refine recodes_of_openFields (fun _ => rfl) fun fs extra hin hextra => ?_
  simp only [forall_bind, forall_some]
  intros
  exact faithful hextra

end App

namespace Geo

/-- Names of the fields. -/
def known : List String := ["type", "lat", "lon", "accuracy", "country", "city", "zip", "region"]

theorem faithful {g : Geo} (hlat : Faithful number? ofFloat g.lat) (hlon : Faithful number? ofFloat g.lon)
    (hextra : IsExtra known g.extra) : Faithful ofJson? toJson g := by
  refine faithful_of_openFields (fun _ => rfl) rfl hextra (by simp) (by simp) fun fs hget => ?_
  simp [-Option.bind_eq_bind, some_bind, hget, hlat.read_write, hlon.read_write]

theorem recodes : Recodes ofJson? toJson := by
  refine recodes_of_openFields (fun _ => rfl) fun fs extra hin hextra => ?_
  simp only [forall_bind, forall_some]
  intros
  exact faithful (recodes_number.required hin ‹_›) (recodes_number.required hin ‹_›) hextra

end Geo

namespace Device

/-- Names of the fields. -/
def known : List String :=
  ["ua", "ip", "make", "model", "os", "osv", "hwv", "language", "ifa", "w", "h", "ppi", "pxratio", "js",
    "devicetype", "connectiontype", "geo"]

theorem faithful {d : Device} (hratio : Faithful number? ofFloat d.pxratio)
    (hgeo : ∀ g ∈ d.geo, Faithful Geo.ofJson? Geo.toJson g) (hextra : IsExtra known d.extra) :
    Faithful ofJson? toJson d := by
  refine faithful_of_openFields (fun _ => rfl) rfl hextra (by simp) ?_ fun fs hget => ?_
  · simpa using fun g hg => (hgeo g hg).isValue
  · simp [-Option.bind_eq_bind, some_bind, hget, hratio.read_write, readOr_present hgeo]

theorem recodes : Recodes ofJson? toJson := by
  refine recodes_of_openFields (fun _ => rfl) fun fs extra hin hextra => ?_
  simp only [forall_bind, forall_some]
  intros
  exact faithful (recodes_number.required hin ‹_›) (Geo.recodes.optional hin ‹_›) hextra

end Device

namespace User

/-- Names of the fields. -/
def known : List String := ["id"]

theorem faithful {u : User} (hextra : IsExtra known u.extra) : Faithful ofJson? toJson u := by
  refine faithful_of_openFields (fun _ => rfl) rfl hextra (by simp) (by simp) fun fs hget => ?_
  simp [-Option.bind_eq_bind, some_bind, hget]

theorem recodes : Recodes ofJson? toJson := by
  refine recodes_of_openFields (fun _ => rfl) fun fs extra hin hextra => ?_
  simp only [forall_bind, forall_some]
  intros
  exact faithful hextra

end User

theorem Regs.faithful (r : Regs) : Faithful ofJson? toJson r := by
  refine faithful_of_fields (fun _ => rfl) rfl (by simp) ?_
  simp [-Option.bind_eq_bind, some_bind]

namespace BidRequest

/-- Names of the fields. -/
def known : List String := ["id", "imp", "app", "device", "user", "regs", "at", "tmax", "test"]

theorem faithful {r : BidRequest} (himp : Faithful (list? Imp.ofJson?) (ofList Imp.toJson) r.imp)
    (happ : ∀ a ∈ r.app, Faithful App.ofJson? App.toJson a)
    (hdevice : ∀ d ∈ r.device, Faithful Device.ofJson? Device.toJson d)
    (huser : ∀ u ∈ r.user, Faithful User.ofJson? User.toJson u) (hextra : IsExtra known r.extra) :
    Faithful ofJson? toJson r := by
  have hregs : ∀ g ∈ r.regs, Faithful Regs.ofJson? Regs.toJson g := fun g _ => g.faithful
  refine faithful_of_openFields (fun _ => rfl) rfl hextra (by simp) ?_ fun fs hget => ?_
  · simpa using ⟨himp.isValue, fun a ha => (happ a ha).isValue, fun d hd => (hdevice d hd).isValue,
      fun u hu => (huser u hu).isValue, fun g hg => (hregs g hg).isValue⟩
  · simp [-Option.bind_eq_bind, some_bind, hget, himp.read_write, readOr_present happ,
      readOr_present hdevice, readOr_present huser, readOr_present hregs]

theorem recodes : Recodes ofJson? toJson := by
  refine recodes_of_openFields (fun _ => rfl) fun fs extra hin hextra => ?_
  simp only [forall_bind, forall_some]
  intros
  exact faithful ((recodes_list Imp.recodes).required hin ‹_›) (App.recodes.optional hin ‹_›)
    (Device.recodes.optional hin ‹_›) (User.recodes.optional hin ‹_›) hextra

end BidRequest

/-! ## Bid response -/

namespace Bid

/-- Names of the fields. -/
def known : List String := ["id", "impid", "price", "adm", "adid", "nurl", "burl", "lurl"]

theorem faithful {b : Bid} (hprice : Faithful Price.ofJson? Price.toJson b.price)
    (hextra : IsExtra known b.extra) : Faithful ofJson? toJson b := by
  refine faithful_of_openFields (fun _ => rfl) rfl hextra (by simp) (by simp) fun fs hget => ?_
  simp [-Option.bind_eq_bind, some_bind, hget, hprice.read_write]

theorem recodes : Recodes ofJson? toJson := by
  refine recodes_of_openFields (fun _ => rfl) fun fs extra hin hextra => ?_
  simp only [forall_bind, forall_some]
  intros
  exact faithful (recodes_price.required hin ‹_›) hextra

end Bid

namespace SeatBid

/-- Names of the fields. -/
def known : List String := ["bid", "seat"]

theorem faithful {s : SeatBid} (hbids : Faithful (list? Bid.ofJson?) (ofList Bid.toJson) s.bids)
    (hextra : IsExtra known s.extra) : Faithful ofJson? toJson s := by
  refine faithful_of_openFields (fun _ => rfl) rfl hextra (by simp) ?_ fun fs hget => ?_
  · simpa using hbids.isValue
  · simp [-Option.bind_eq_bind, some_bind, hget, hbids.read_write]

theorem recodes : Recodes ofJson? toJson := by
  refine recodes_of_openFields (fun _ => rfl) fun fs extra hin hextra => ?_
  simp only [forall_bind, forall_some]
  intros
  exact faithful ((recodes_list Bid.recodes).withDefault hin faithful_list_nil ‹_›) hextra

end SeatBid

namespace BidResponse

/-- Names of the fields. -/
def known : List String := ["id", "seatbid"]

theorem faithful {r : BidResponse} (hseats : Faithful (list? SeatBid.ofJson?) (ofList SeatBid.toJson) r.seats)
    (hextra : IsExtra known r.extra) : Faithful ofJson? toJson r := by
  refine faithful_of_openFields (fun _ => rfl) rfl hextra (by simp) ?_ fun fs hget => ?_
  · simpa using hseats.isValue
  · simp [-Option.bind_eq_bind, some_bind, hget, hseats.read_write]

theorem recodes : Recodes ofJson? toJson := by
  refine recodes_of_openFields (fun _ => rfl) fun fs extra hin hextra => ?_
  simp only [forall_bind, forall_some]
  intros
  exact faithful ((recodes_list SeatBid.recodes).withDefault hin faithful_list_nil ‹_›) hextra

end BidResponse

end Mediation.OpenRtb
