/-
The events of an auction tell what its response shows. Both look for the unit of each answer by themselves,
among units that are grouped anew, and for the events the number of a unit goes through its digits and
back. They agree on every answer: the unit that it is shown or held back as is the one its events name,
and where it left no trace in the response they name none.
-/
import Mediation.Proofs.Auction.Accounting
import Mediation.Proofs.Auction.Provenance
import Mediation.Proofs.Text

namespace Mediation.Auction

open Event (NamesObject handed)

/-! ## Messages about units -/

/-- A message names a unit: its number and label, its adapter, and its price. -/
structure TellsOf (u : AdUnit) (m : Event.Message) : Prop where
  uid : ∃ n : Int64, m.payload.get? "ad_unit_uid" = some (.ofInt64 n) ∧ toString n.toInt = u.uid
  label : m.payload.get? "ad_unit_label" = some (.str u.label)
  demandId : m.payload.get? "demand_id" = some (.str u.adapter.wire)
  ecpm : ∃ p, m.payload.get? "ecpm" = some p.toJson ∧ u.priceFloor = some p

/-- A message names no unit. -/
structure TellsOfNone (m : Event.Message) : Prop where
  uid : m.payload.get? "ad_unit_uid" = some (.ofInt64 0)
  label : m.payload.get? "ad_unit_label" = some (.str "")

/-- Messages tell what became of an answer: one says that it came, one more that it is a bid if it is one,
and all name the unit that it turned into. -/
structure Tells (a : Bidding.Response) (unit : Option AdUnit) (messages : List Event.Message) : Prop where
  eventTypes : messages.map (fun m => m.payload.get? "event_type") =
    some (.str "bid_request") :: if a.isBid then [some (.str "bid")] else []
  named : ∀ u, unit = some u → ∀ m ∈ messages, TellsOf u m
  leftOut : unit = none → ∀ m ∈ messages, TellsOfNone m

theorem Tells.length_of_isBid {a : Bidding.Response} {unit : Option AdUnit}
    {messages : List Event.Message} (h : Tells a unit messages) (hbid : a.isBid = true) :
    messages.length = 2 := by
  have hlength := congrArg List.length h.eventTypes
  rw [List.length_map, hbid] at hlength
  exact hlength

/-! ## Columns -/

/-- The columns about a unit. -/
theorem get?_columns_unit (e : AdEvent) (ext : Dict String Json) :
    (e.columns ext).get? "ad_unit_uid" = some (.ofInt64 e.adUnitUid) ∧
      (e.columns ext).get? "ad_unit_label" = some (.str e.adUnitLabel) ∧
      (e.columns ext).get? "ecpm" = some e.ecpm.toJson := by
  unfold AdEvent.columns
  rw [Dict.get?_ofList, Dict.get?_ofList, Dict.get?_ofList]
  exact ⟨rfl, rfl, rfl⟩

/-- A message has the columns about a unit. -/
theorem get?_message_unit (e : AdEvent) (ext : Dict String Json) :
    (e.message ext).payload.get? "ad_unit_uid" = some (.ofInt64 e.adUnitUid) ∧
      (e.message ext).payload.get? "ad_unit_label" = some (.str e.adUnitLabel) ∧
      (e.message ext).payload.get? "ecpm" = some e.ecpm.toJson := by
  obtain ⟨huid, hlabel, hecpm⟩ := get?_columns_unit e ext
  refine ⟨AdEvent.get?_message (by decide) huid fun _ => Json.noConfusion,
    AdEvent.get?_message (by decide) hlabel fun _ => Json.noConfusion,
    AdEvent.get?_message (by decide) hecpm fun _ => ?_⟩
  unfold Price.toJson Json.ofFloat
  split <;> exact Json.noConfusion

theorem eventType_message (e : AdEvent) (ext : Dict String Json) :
    (e.message ext).payload.get? "event_type" = some (.str e.eventType) :=
  AdEvent.get?_message (by decide) (e.get?_columns ext).1 fun _ => Json.noConfusion

theorem eventTypes_messages (rows : List AdEvent) (ext : Dict String Json) :
    (rows.map (·.message ext)).map (fun m => m.payload.get? "event_type") =
      (rows.map (·.eventType)).map (fun name => some (.str name)) := by
  simp only [List.map_map, Function.comp_def, eventType_message]

theorem demandId_message (e : AdEvent) (ext : Dict String Json) :
    (e.message ext).payload.get? "demand_id" = some (.str e.demandId) :=
  AdEvent.get?_message (by decide) (e.get?_columns ext).2.1 fun _ => Json.noConfusion

theorem eventTypes_rows {c : EventContext} {units : AdUnits} {a : Bidding.Response} :
    (c.answerEvents units a).rows.map (·.eventType) =
      "bid_request" :: if a.isBid then ["bid"] else [] := by
  unfold AdEventGroup.rows EventContext.answerEvents
  cases a.isBid <;> rfl

/-! ## Messages of an answer -/

section

variable {c : EventContext} {units : List AdUnit} {a : Bidding.Response} {mediator : Option String}

/-- The messages of an answer, with the extension of the request read. -/
def answerMessages (c : EventContext) (units : AdUnits) (ext : Dict String Json) (a : Bidding.Response) :
    List Event.Message := (c.answerEvents units a).rows.map (·.message ext)

/-- If every unit has a number for its name, the messages of an answer tell what it turns into. -/
theorem tells_answerMessages (ext : Dict String Json)
    (huids : ∀ u ∈ units, ∃ n : Int64, u.uid = toString n.toInt) :
    Tells a (convert a (.ofUnits units) mediator) (answerMessages c (.ofUnits units) ext a) where
  eventTypes := by
    unfold answerMessages
    rw [eventTypes_messages, eventTypes_rows]
    cases a.isBid <;> rfl
  named u hu m hm := by
    obtain ⟨e, he, rfl⟩ := List.mem_map.1 hm
    obtain ⟨-, hdemandId, hecpm, huid, hlabel⟩ := shared_of_mem_rows he
    obtain ⟨huidColumn, hlabelColumn, hecpmColumn⟩ := get?_message_unit e ext
    unfold convert at hu
    obtain ⟨v, hv, rfl⟩ := Option.map_eq_some_iff.1 hu
    -- the unit is among those offered, so its name is that of a number, which is read back
    obtain ⟨n, hn⟩ := huids v (mem_of_unitOf hv).1
    rw [hv, Option.bind_some, hn, Text.int64?_toString, Option.getD_some] at huid
    rw [hv, Option.map_some, Option.getD_some] at hlabel
    exact ⟨⟨n, huid ▸ huidColumn, hn.symm⟩, hlabel ▸ hlabelColumn, hdemandId ▸ demandId_message e ext,
      ⟨a.price, hecpm ▸ hecpmColumn, rfl⟩⟩
  leftOut hnone m hm := by
    obtain ⟨e, he, rfl⟩ := List.mem_map.1 hm
    obtain ⟨-, -, -, huid, hlabel⟩ := shared_of_mem_rows he
    obtain ⟨huidColumn, hlabelColumn, -⟩ := get?_message_unit e ext
    rw [convert_eq_none_iff] at hnone
    rw [hnone, Option.bind_none, Option.getD_none] at huid
    rw [hnone, Option.map_none, Option.getD_none] at hlabel
    exact ⟨huid ▸ huidColumn, hlabel ▸ hlabelColumn⟩

/-- The messages of an auction come answer by answer, and last comes that of the request. -/
theorem messages_eventRows (result : Result) (ext : Dict String Json) :
    (eventRows c result).map (·.message ext) =
      (result.round.responses.map (answerMessages c (.ofUnits result.adUnits) ext)).flatten ++
        [c.requestEvent.message ext] := by
  unfold eventRows events EventContext.roundEvents answerMessages
  rw [List.flatMap_append, List.map_append, List.flatMap_map, List.map_flatMap, List.flatMap_def]
  rfl

end

/-! ## Auctions -/

section

variable {policy : Policy} {s : Services} {x : Subject} {t : Nat} {inventory : Inventory}

/-- The units that an auction is offered have numbers for names. -/
theorem uid_of_build_ok (hunits : Stocks s inventory) {result : Result}
    (h : ((build policy s x).run t).value = .ok result) :
    ∀ u ∈ result.adUnits, ∃ n : Int64, u.uid = toString n.toInt := by
  obtain ⟨g, round, hg, -, rfl⟩ := build_ok h
  obtain ⟨-, hgroundwork⟩ := founded_of_prepare hunits hg
  intro u hu
  have hoffered : u ∈ offered policy x inventory g.config := by
    rw [hgroundwork] at hu
    exact hu
  obtain ⟨stored, -, -, rfl⟩ := Inventory.mem_matching_iff.1 hoffered
  exact ⟨stored.publicUid, rfl⟩

/-- An auction that succeeds on stored units, and whose extension is nothing or names an object, tells by
events what its response shows. The response holds what the answers of the round turn into; the messages
come answer by answer, and those of each answer name the unit that it turned into, or none if it turned
into none. The last message is that of the request. -/
theorem run_tells (hunits : Stocks s inventory) (hext : NamesObject x.request.ext) {response : Response}
    (h : ((run policy s x).run t).value = .ok response) :
    ∃ result, ((build policy s x).run t).value = .ok result ∧
      let unitFor := fun a =>
        convert a (.ofUnits result.adUnits) (resolvedRequest x.request result).mediator
      response.noBids =
        (result.round.responses.filter fun a => !clears result.priceFloor a).filterMap unitFor ∧
      response.adUnits.Perm
        (result.cpmAdUnits.map (withMediator (resolvedRequest x.request result).mediator) ++
          (result.round.responses.filter (clears result.priceFloor)).filterMap unitFor) ∧
      ∃ blocks last, handed (loggedSteps ((run policy s x).run t).steps) = blocks.flatten ++ [last] ∧
        last.payload.get? "event_type" = some (.str "auction_request") ∧
        List.Forall₂ (fun a block => Tells a (unitFor a) block) result.round.responses blocks := by
  obtain ⟨result, hb, rfl⟩ := run_ok h
  obtain ⟨c, hrequest, hlogged⟩ := loggedSteps_run hb h
  have hnames : NamesObject c.request.ext := by
    rw [hrequest]
    exact hext
  obtain ⟨ext, hhanded⟩ := @handed_events c result s.engine hnames
  rw [messages_eventRows] at hhanded
  refine ⟨result, hb, noBids_respond _ result, adUnits_respond_perm _ result, _, _,
    hlogged ▸ hhanded, eventType_message _ ext, ?_⟩
  rw [List.forall₂_map_right_iff, List.forall₂_same]
  exact fun a _ => tells_answerMessages ext (uid_of_build_ok hunits hb)

end

/-- Two units of Amazon, the second one with the least number that there is. Amazon bids for the slot of
the second one, and for a slot that no unit has. -/
def slottedServices : Services :=
  fixedServices { id := 1, uid := "1", bidding := [.amazon], adUnitIds := [1, 2] }
    [⟨1, 1, .interstitial, none, .amazon, 11, "first", true, none, { slotUuid := some "a" }⟩,
      ⟨2, 1, .interstitial, none, .amazon, Int64.minValue, "second", true, none,
        { slotUuid := some "b" }⟩]
    [.amazon]
    [(.amazon, ⟨fun _ _ _ => ⟨1, .ok
      [{ Bidding.Response.ofBid .amazon { price := 5.0 } with slotUuid := some "b" },
        { Bidding.Response.ofBid .amazon { price := 4.0 } with slotUuid := some "c" }]⟩⟩)]

def slottedSubject : Subject := ⟨1, childRequest [.amazon] [.amazon], {}⟩

/-- Both answers of the slotted auction are bids above the floor; only the first one is for a unit. -/
theorem converted_slotted : ((build {} slottedServices slottedSubject).run 0).value.toOption.map
    (fun result => result.round.responses.map fun a => (a.isBid, clears result.priceFloor a,
      (convert a (.ofUnits result.adUnits)
        (resolvedRequest slottedSubject.request result).mediator).map (·.uid))) =
    some [(true, true, some "-9223372036854775808"), (true, true, none)] := by
  decide +kernel

/-- The bid for the slot of the second unit is shown as that unit and its two events name it; the events of
the bid for the other slot name none. -/
theorem run_tells_slotted : ∃ response u first second last,
    ((run {} slottedServices slottedSubject).run 0).value = .ok response ∧
      u ∈ response.adUnits ∧ u.uid = "-9223372036854775808" ∧
      handed (loggedSteps ((run {} slottedServices slottedSubject).run 0).steps) =
        first ++ second ++ [last] ∧
      first.length = 2 ∧ (∀ m ∈ first, TellsOf u m) ∧ second.length = 2 ∧ ∀ m ∈ second, TellsOfNone m := by
  have hanswers := converted_slotted
  rcases hb : (build {} slottedServices slottedSubject).run 0 with ⟨e | result', now, l⟩ <;>
    rw [hb] at hanswers
  · cases hanswers
  have hunits : Stocks slottedServices _ := fun _ => rfl
  have hrun := run_of_build_ok hb (by decide)
  obtain ⟨result, hresult, -, hshown, blocks, last, hhanded, -, htells⟩ :=
    run_tells hunits (by decide) (congrArg Course.value hrun)
  rw [hb] at hresult
  cases hresult
  obtain ⟨a, rest, hr, ha, hrest⟩ := List.map_eq_cons_iff.1 (Option.some.inj hanswers)
  obtain ⟨b, rest, rfl, hb, hnil⟩ := List.map_eq_cons_iff.1 hrest
  obtain rfl := List.map_eq_nil_iff.1 hnil
  simp only [Prod.mk.injEq, Option.map_eq_some_iff, Option.map_eq_none_iff] at ha hb
  obtain ⟨haBid, haClears, u, hu, huid⟩ := ha
  obtain ⟨hbBid, -, hnone⟩ := hb
  rw [hr] at htells hshown
  match blocks, htells with
  | [first, second], .cons hfirst (.cons hsecond .nil) =>
    refine ⟨_, u, first, second, last, congrArg Course.value hrun, ?_, huid, ?_,
      hfirst.length_of_isBid haBid, hfirst.named u hu, hsecond.length_of_isBid hbBid,
      hsecond.leftOut hnone⟩
    · rw [hshown.mem_iff, List.mem_append]
      exact .inr (List.mem_filterMap.2 ⟨a, List.mem_filter.2 ⟨List.mem_cons_self, haClears⟩, hu⟩)
    · rw [hhanded, List.flatten_cons, List.flatten_cons, List.flatten_nil, List.append_nil]

end Mediation.Auction
