/-
Responses are read by their own reader. The extension of a unit has two places for a name that it knows: a typed
field, and the bag of other members. Units that were read keep known names out of the bag, and so does each step
on the way to a response: listing the fields, laying them over what a bid brings, taking them apart again, and
inserting the parameters of the mediator. Hence a response that is written member by member has no name twice,
and what is written is read as the same response.
-/
import Mediation.Proofs.AdUnit.Extra
import Mediation.Proofs.Auction.Assembly
import Mediation.Proofs.Auction.Provenance
import Mediation.Proofs.Json.Distinct
import Mediation.Proofs.Recoding.Auction

namespace Mediation

open Json

/-! ## Listed fields -/

namespace AdUnit.Extra

variable {e : Extra} {d base : Dict String Json}

/-- A listing of fields that can be taken apart: values, and under the names of known fields texts. -/
structure Listing (d : Dict String Json) : Prop where
  isValue : ∀ name, ∀ v ∈ d.get? name, v.IsValue
  text : ∀ name ∈ knownFields, ∀ v ∈ d.get? name, ∃ s, v = .str s

theorem listing_empty : Listing .empty := ⟨nofun, nofun⟩

theorem listing_of_isExtra (h : IsExtra knownFields d) : Listing d := by
  refine ⟨fun name v hv => h.isValue (name, v) (Dict.get?_eq_some_iff.1 hv), fun name hname v hv => ?_⟩
  rw [h.get?_eq_none hname] at hv
  cases hv

/-- One text, under any name. -/
theorem listing_text (name s : String) : Listing (.ofList [(name, .str s)]) := by
  have hget : ∀ name', ∀ v ∈ (Dict.ofList [(name, Json.str s)]).get? name', v = .str s := by
    intro name' v hv
    rw [Dict.get?_ofList_cons] at hv
    by_cases h : name' = name
    · simpa [h, eq_comm] using hv
    · simp [h] at hv
  refine ⟨fun name' v hv => ?_, fun name' _ v hv => ⟨s, hget name' v hv⟩⟩
  rw [hget name' v hv]
  exact isValue_str s

theorem Listing.layOver (h : Listing d) (hbase : Listing base) : Listing (d.layOver base) := by
  have hget : ∀ name, ∀ v ∈ (d.layOver base).get? name, v ∈ d.get? name ∨ v ∈ base.get? name := by
    intro name v hv
    rw [Dict.get?_layOver, Option.mem_def, Option.or_eq_some_iff] at hv
    exact hv.imp_right And.right
  refine ⟨fun name v hv => ?_, fun name hname v hv => ?_⟩
  · exact (hget name v hv).elim (h.isValue name v) (hbase.isValue name v)
  · exact (hget name v hv).elim (h.text name hname v) (hbase.text name hname v)

theorem known_sublist (e : Extra) : (e.known.map (·.1)).Sublist knownFields := by
  have hpresent : ∀ (name : String) (o : Option String), ((present name .str o).map (·.1)).Sublist [name] := by
    intro name o
    cases o with
    | none => exact List.nil_sublist _
    | some s => exact List.Sublist.refl _
  unfold known
  simp only [List.map_append]
  exact ((((hpresent _ _).append (hpresent _ _)).append (hpresent _ _)).append (hpresent _ _)).append
    (hpresent _ _)

/-- The bag of an extension fits beside its known fields. -/
theorem listing_toMap (h : IsExtra knownFields e.other) : Listing e.toMap := by
  have hget : ∀ name, ∀ v ∈ e.toMap.get? name, (∃ s, v = .str s) ∨ v ∈ e.other.get? name := by
    intro name v hv
    rw [toMap, Dict.get?_insertAll, Option.mem_def, Option.or_eq_some_iff] at hv
    refine hv.imp (fun hv => ?_) And.right
    exact text_of_mem_known (List.mem_reverse.1 (Dict.mem_of_lookupEntry hv))
  refine ⟨fun name v hv => ?_, fun name hname v hv => ?_⟩
  · rcases hget name v hv with ⟨s, rfl⟩ | hv
    · exact isValue_str s
    · exact (listing_of_isExtra h).isValue name v hv
  · exact (hget name v hv).elim id ((listing_of_isExtra h).text name hname v)

/-- Known fields leave the bag when a listing is taken apart. -/
theorem isExtra_ofMap (h : Listing d) : IsExtra knownFields (ofMap d).other := by
  have hkept : ∀ m ∈ (ofMap d).other.entries, d.get? m.1 = some m.2 ∧
      (m.1 ∈ knownFields → (d.get? m.1).bind str? = none) := by
    intro m hm
    obtain ⟨hm, hkeep⟩ := List.mem_filter.1 hm
    exact ⟨Dict.get?_eq_some_iff.2 hm, by simpa [imp_iff_not_or] using hkeep⟩
  refine ⟨fun m hm => h.isValue m.1 m.2 (hkept m hm).1, fun m hm hname => ?_⟩
  obtain ⟨hget, hnone⟩ := hkept m hm
  obtain ⟨s, hs⟩ := h.text m.1 hname m.2 hget
  have htext := hnone hname
  rw [hget, hs] at htext
  cases htext

end AdUnit.Extra

/-! ## Units of a response -/

namespace Auction

open AdUnit.Extra (Listing)

theorem listing_creative (c : Creative) : Listing c.toMap := by
  cases c with
  | external => exact AdUnit.Extra.listing_empty
  | signal s => exact AdUnit.Extra.listing_text _ s
  | byId s => exact AdUnit.Extra.listing_text _ s
  | payload s => exact AdUnit.Extra.listing_text _ s

theorem isExtra_mediatorParameters (a : Adapter) (mediator : Option String) :
    IsExtra AdUnit.Extra.knownFields (mediatorParameters a mediator) := by
  have hall : ∀ m ∈ (mediatorParameters a mediator).entries, m.2.IsValue ∧ m.1 = parametersField := by
    intro m hm
    unfold mediatorParameters at hm
    split at hm
    · split at hm
      · cases hm
      · obtain rfl := List.mem_singleton.1 (Dict.mem_of_mem_ofList hm)
        exact ⟨isValue_record (by simp), rfl⟩
    · cases hm
  refine ⟨fun m hm => (hall m hm).1, fun m hm => ?_⟩
  rw [(hall m hm).2]
  decide

section

variable {u : AdUnit} {mediator : Option String}

theorem sound_withMediator (h : u.Sound) : (withMediator mediator u).Sound := by
  refine ⟨h.isFinite, ?_⟩
  have hparameters := isExtra_mediatorParameters u.adapter mediator
  have hentry : ∀ m ∈ (withMediator mediator u).extra.other.entries,
      m ∈ (mediatorParameters u.adapter mediator).entries ∨ m ∈ u.extra.other.entries := by
    intro m hm
    have hget := Dict.get?_eq_some_iff.2 hm
    rw [withMediator, Dict.get?_layOver, Option.or_eq_some_iff] at hget
    exact hget.imp Dict.get?_eq_some_iff.1 fun h => Dict.get?_eq_some_iff.1 h.2
  refine ⟨fun m hm => ?_, fun m hm => ?_⟩
  · exact (hentry m hm).elim (hparameters.isValue m) (h.isExtra.isValue m)
  · exact (hentry m hm).elim (hparameters.unknown m) (h.isExtra.unknown m)

/-- An answer that is no bid has the price zero. -/
theorem isFinite_price {a : Bidding.Response} (h : a.isBid → a.price.isFinite) : a.price.isFinite = true := by
  cases hbid : a.isBid with
  | true => exact h hbid
  | false =>
    have hnone : a.offer? = none := by simpa [Bidding.Response.isBid] using hbid
    unfold Bidding.Response.price
    rw [hnone]
    decide +kernel

/-- An answer turns into a unit that can be read if the unit that it is for can be. -/
theorem sound_of_convert {a : Bidding.Response} {units : List AdUnit} {v : AdUnit}
    (hunits : ∀ u ∈ units, u.Sound) (hprice : a.isBid → a.price.isFinite)
    (h : convert a (.ofUnits units) mediator = some v) : v.Sound := by
  obtain ⟨u, hu, rfl⟩ := Option.map_eq_some_iff.1 h
  have hsound := hunits u (mem_of_unitOf hu).1
  refine ⟨?_, AdUnit.Extra.isExtra_ofMap ?_⟩
  · intro p hp
    cases hp
    exact isFinite_price hprice
  -- the bag is what is left of three listings, one over another: the unit, the mediator and the bid
  · refine (AdUnit.Extra.listing_toMap hsound.isExtra).layOver ?_
    refine (AdUnit.Extra.listing_of_isExtra (isExtra_mediatorParameters _ _)).layOver ?_
    cases creative? a with
    | none => exact AdUnit.Extra.listing_empty
    | some c => exact listing_creative c

theorem sound_of_mem_respond {r : Request} {result : Result}
    (hunits : ∀ u ∈ result.adUnits ++ result.cpmAdUnits, u.Sound)
    (hprices : ∀ a ∈ result.round.responses, a.isBid → a.price.isFinite)
    (hu : u ∈ (respond r result).adUnits ++ (respond r result).noBids) : u.Sound := by
  obtain ⟨hmatched, hfixed⟩ := List.forall_mem_append.1 hunits
  rw [mem_units_respond_iff, List.mem_map] at hu
  rcases hu with ⟨v, hv, rfl⟩ | ⟨a, ha, hconvert⟩
  · exact sound_withMediator (hfixed v hv)
  · exact sound_of_convert hmatched (hprices a ha) hconvert

end

end Auction

/-! ## Responses as they are written -/

namespace AdUnit

namespace Extra

variable {e : Extra}

/-- The extension member by member: the known fields, and what the bag holds after them. -/
def streamed (e : Extra) : Json := .obj (e.known ++ e.other.entries)

theorem nodup_streamed (h : IsExtra knownFields e.other) : ((e.known ++ e.other.entries).map (·.1)).Nodup := by
  rw [List.map_append]
  have hknown : (e.known.map (·.1)).Nodup := e.known_sublist.nodup (by decide)
  refine List.nodup_append'.2 ⟨hknown, e.other.nodup_keys, fun name hmem hother => ?_⟩
  obtain ⟨m, hm, rfl⟩ := List.mem_map.1 hother
  exact h.unknown m hm (e.known_sublist.subset hmem)

theorem streams_streamed (h : IsExtra knownFields e.other) : Streams e.streamed e.toJson := by
  refine streams_obj (nodup_streamed h) (List.forall₂_same.2 fun m hm => ⟨rfl, ?_⟩)
  rcases List.mem_append.1 hm with hm | hm
  · obtain ⟨s, hs⟩ := text_of_mem_known hm
    rw [hs]
    exact streams_self (isValue_str s)
  · exact streams_self (h.isValue m hm)

theorem ofJson?_streamed (h : IsExtra knownFields e.other) : ofJson? e.streamed = some e := by
  have hnames : ∀ m ∈ e.known, m.1 ∈ knownFields := fun m hm => e.known_sublist.subset (List.mem_map_of_mem hm)
  obtain ⟨fs, hfs, hget⟩ := openFields?_obj (nodup_streamed h) hnames h
  unfold streamed ofJson?
  rw [hfs]
  unfold knownFields known at hget
  simp [-Option.bind_eq_bind, some_bind, hget]

end Extra

/-- The members of a unit with a given extension. -/
def members (u : AdUnit) (ext : Json) : List (String × Json) :=
  [("demand_id", u.adapter.toJson), ("uid", .str u.uid), ("label", .str u.label),
      ("bid_type", u.bidType.toJson)]
    ++ present "pricefloor" Price.toJson u.priceFloor ++ present "timeout" .ofInt32 u.timeout ++ [("ext", ext)]

/-- The unit member by member. -/
def streamed (u : AdUnit) : Json := .obj (u.members u.extra.streamed)

section

variable {u : AdUnit}

theorem nodup_members (u : AdUnit) (ext : Json) : ((u.members ext).map (·.1)).Nodup := by
  unfold members
  cases u.priceFloor <;> cases u.timeout <;> simp [present]

theorem Sound.streams (h : u.Sound) : Streams u.streamed u.toJson := by
  have hadapter := streams_self u.adapter.faithful.isValue
  have hbidType := streams_self u.bidType.faithful.isValue
  have hext := Extra.streams_streamed h.isExtra
  have hmembers : List.Forall₂ (fun m m' => m.1 = m'.1 ∧ Streams m.2 m'.2) (u.members u.extra.streamed)
      (u.members u.extra.toJson) := by
    unfold members
    cases u.priceFloor <;> cases u.timeout <;> simp [present, streams_self, hadapter, hbidType, hext]
  exact streams_obj (u.nodup_members _) hmembers

theorem Sound.ofJson?_streamed (h : u.Sound) : ofJson? u.streamed = some u := by
  have hadapter := u.adapter.faithful
  have hbidType := u.bidType.faithful
  have hfloor : ∀ p ∈ u.priceFloor, Faithful Price.ofJson? Price.toJson p :=
    fun p hp => faithful_price (h.isFinite p hp)
  have htimeout : ∀ n ∈ u.timeout, Faithful int32? ofInt32 n := fun n _ => faithful_int32 n
  have hext := Extra.ofJson?_streamed h.isExtra
  unfold streamed ofJson?
  rw [fields?_obj (u.nodup_members _)]
  simp [-Option.bind_eq_bind, some_bind, members, hadapter.read_write, hbidType.read_write, hext,
    readOr_present hfloor, readOr_present htimeout]

end

end AdUnit

namespace Auction

namespace Response

/-- The members of a response with given lists of units. -/
def members (r : Response) (adUnits noBids : Json) : List (String × Json) :=
  [("auction_configuration_id", .ofInt64 r.configId), ("auction_configuration_uid", .str r.configUid),
    ("external_win_notifications", .bool r.externalWinNotifications), ("ad_units", adUnits),
    ("no_bids", noBids), ("segment", r.segment.toJson), ("token", .str r.token),
    ("auction_pricefloor", r.priceFloor.toJson), ("auction_timeout", .ofNat r.timeout.toNat),
    ("auction_id", .str r.auctionId)]

/-- The response member by member. -/
def streamed (r : Response) : Json :=
  .obj (r.members (.ofList AdUnit.streamed r.adUnits) (.ofList AdUnit.streamed r.noBids))

section

variable {r : Response}

theorem nodup_members (r : Response) (adUnits noBids : Json) :
    ((r.members adUnits noBids).map (·.1)).Nodup := by
  simp [members]

theorem streams_streamed (hunits : ∀ u ∈ r.adUnits ++ r.noBids, u.Sound) : Streams r.streamed r.toJson := by
  obtain ⟨hadUnits, hnoBids⟩ := List.forall_mem_append.1 hunits
  have hsegment := streams_self r.segment.faithful.isValue
  have hmembers : List.Forall₂ (fun m m' => m.1 = m'.1 ∧ Streams m.2 m'.2)
      (r.members (.ofList AdUnit.streamed r.adUnits) (.ofList AdUnit.streamed r.noBids))
      (r.members (.ofList AdUnit.toJson r.adUnits) (.ofList AdUnit.toJson r.noBids)) := by
    simp [members, streams_self, hsegment, streams_arr fun u hu => (hadUnits u hu).streams,
      streams_arr fun u hu => (hnoBids u hu).streams]
  exact streams_obj (r.nodup_members _ _) hmembers

theorem ofJson?_streamed (hunits : ∀ u ∈ r.adUnits ++ r.noBids, u.Sound) (hfloor : r.priceFloor.isFinite) :
    ofJson? r.streamed = some r := by
  obtain ⟨hadUnits, hnoBids⟩ := List.forall_mem_append.1 hunits
  have hread : ∀ l : List AdUnit, (∀ u ∈ l, u.Sound) →
      list? AdUnit.ofJson? (.ofList AdUnit.streamed l) = some l :=
    fun l hl => mapM_map_eq_some fun u hu => (hl u hu).ofJson?_streamed
  have hsegment := r.segment.faithful
  have hfloor := faithful_price hfloor
  unfold streamed ofJson?
  rw [fields?_obj (r.nodup_members _ _)]
  simp [-Option.bind_eq_bind, some_bind, members, hsegment.read_write, hfloor.read_write, hread _ hadUnits,
    hread _ hnoBids]

end

end Response

/-! ## Reading a response back -/

/-- A unit that was read: as it is, or as the stored unit that it comes from. -/
inductive Decoded (u : AdUnit) : Prop where
  | unit {v : Json} (hv : v.inRange) (h : AdUnit.ofJson? v = some u)
  | stored {v : Json} {s : StoredAdUnit} (hv : v.inRange) (h : StoredAdUnit.ofJson? v = some s)
    (hu : s.toAdUnit = u)

theorem Decoded.sound {u : AdUnit} (h : Decoded u) : u.Sound := by
  cases h with
  | unit hv h => exact AdUnit.sound_of_read hv h
  | stored hv h hu =>
    rw [← hu]
    exact (StoredAdUnit.sound_of_read hv h).toAdUnit

/-- If the units of a result were read, its floor is finite and its bids have finite prices, then no bag in the
response holds a name that is known. Written member by member the response has no name twice, whatever bids
and units say, it settles into the value of the response, and the response is read of both again. -/
theorem respond_readable (r : Request) (result : Result)
    (hunits : ∀ u ∈ result.adUnits ++ result.cpmAdUnits, Decoded u) (hfloor : result.priceFloor.isFinite)
    (hprices : ∀ a ∈ result.round.responses, a.isBid → a.price.isFinite) :
    (∀ u ∈ (respond r result).adUnits ++ (respond r result).noBids, ∀ name ∈ AdUnit.Extra.knownFields,
      u.extra.other.contains name = false) ∧
    (respond r result).streamed.distinct ∧
    (respond r result).streamed.settle = some (respond r result).toJson ∧
    Response.ofJson? (respond r result).streamed = some (respond r result) ∧
    Response.ofJson? (respond r result).toJson = some (respond r result) := by
  have hsound : ∀ u ∈ (respond r result).adUnits ++ (respond r result).noBids, u.Sound :=
    fun _ => sound_of_mem_respond (fun u hu => (hunits u hu).sound) hprices
  obtain ⟨hadUnits, hnoBids⟩ := List.forall_mem_append.1 hsound
  have hstreams := Response.streams_streamed hsound
  have hfaithful : Faithful Response.ofJson? Response.toJson (respond r result) :=
    Response.faithful (faithful_list fun u hu => (hadUnits u hu).faithful)
      (faithful_list fun u hu => (hnoBids u hu).faithful) (faithful_price hfloor)
  refine ⟨fun u hu name hname => ?_, hstreams.distinct, hstreams.settled, ?_, hfaithful.read_write⟩
  · rw [Dict.contains, (hsound u hu).isExtra.get?_eq_none hname]
    rfl
  · exact Response.ofJson?_streamed hsound hfloor

/-- A request that comes through a mediator. -/
def mediatedRequest : Request := { impression := {}, ext := "\x7b\"mediator\":\"max\"\x7d" }

/-- A unit with bids that stores a payload and a zone, one with a fixed price that stores parameters, and a bid
that brings a payload too but stays below the floor. -/
def baggedResult : Result where
  config := { id := 1, uid := "1" }
  segment := .zero
  adUnits := [⟨.bidmachine, "5", "", .rtb, none, none,
    { payload := some "stored", other := .ofList [("zone", .int 7)] }⟩]
  cpmAdUnits := [⟨.bidmachine, "6", "", .cpm, some 5.0, none,
    { slotUuid := some "slot", other := .ofList [("custom_parameters", .null)] }⟩]
  round := { responses := [.ofBid .bidmachine { price := 7.0, payload := "brought" }, .noBid .bidmachine] }
  priceFloor := 10.0
  timeout := 1000

/-- The stored payload lies over the one that the bid brings, and the parameters are in the bag. -/
theorem respond_readable_bagged :
    (respond mediatedRequest baggedResult).noBids.map (fun u => (u.extra.payload, u.extra.other.keys)) =
      [(some "stored", ["custom_parameters", "zone"]), (some "stored", ["custom_parameters", "zone"])] ∧
    (respond mediatedRequest baggedResult).streamed.distinct ∧
    Response.ofJson? (respond mediatedRequest baggedResult).toJson =
      some (respond mediatedRequest baggedResult) := by
  refine ⟨by decide +kernel, ?_⟩
  have hunits : ∀ u ∈ baggedResult.adUnits ++ baggedResult.cpmAdUnits, Decoded u := by
    refine List.forall_mem_cons.2 ⟨?_, List.forall_mem_cons.2 ⟨?_, List.forall_mem_nil _⟩⟩
    · exact .unit (v := .obj [("demand_id", .str "bidmachine"), ("uid", .str "5"), ("label", .str ""),
        ("bid_type", .str "RTB"), ("ext", .obj [("zone", .int 7), ("payload", .str "stored")])])
        (by decide +kernel) (by decide +kernel)
    · exact .unit (v := .obj [("demand_id", .str "bidmachine"), ("uid", .str "6"), ("label", .str ""),
        ("bid_type", .str "CPM"), ("pricefloor", .int 5),
        ("ext", .obj [("slot_uuid", .str "slot"), ("custom_parameters", .null)])])
        (by decide +kernel) (by decide +kernel)
  obtain ⟨-, hdistinct, -, -, hread⟩ :=
    respond_readable mediatedRequest baggedResult hunits (by decide +kernel) (by decide +kernel)
  exact ⟨hdistinct, hread⟩

end Auction

end Mediation
