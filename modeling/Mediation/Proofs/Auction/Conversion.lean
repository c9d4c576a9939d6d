/-
What an answer turns into. The unit that it is for is the first of its kind in the order of matching. The
unit that it turns into is that one at the price of the bid, and says by name what the stored unit says,
and beneath it what the answer brings along: creative data if it is a bid, and the mediator for Bidmachine.
Of an answer that is no bid nothing is used but the adapter and the slot.
-/
import Mediation.Proofs.AdUnit.Extra
import Mediation.Proofs.Auction.Assembly

namespace Mediation.Auction

section

variable {r : Bidding.Response} {u : AdUnit} {units : List AdUnit} {mediator : Option String}

/-! ## Unit of an answer -/

/-- An answer may be for a unit: one that its adapter fills by bids and that, for Amazon, has the slot of
the answer. -/
structure Suits (r : Bidding.Response) (u : AdUnit) : Prop where
  adapter : u.adapter = r.adapter
  bidType : u.bidType = .rtb
  slot : r.adapter = .amazon → ∃ slot, r.slotUuid = some slot ∧ u.extra.slotUuid = some slot

/-- The first of the units that an answer may be for. -/
def FirstFor (r : Bidding.Response) (units : List AdUnit) (u : AdUnit) : Prop :=
  ∃ before after, units = before ++ u :: after ∧ Suits r u ∧ ∀ v ∈ before, ¬ Suits r v

theorem FirstFor.suits (h : FirstFor r units u) : Suits r u := by
  obtain ⟨-, -, -, hu, -⟩ := h
  exact hu

theorem suits_iff : Suits r u ↔ u.bucket = ⟨r.adapter, .rtb⟩ ∧
    (r.adapter = .amazon → r.slotUuid.isSome ∧ u.extra.slotUuid = r.slotUuid) := by
  unfold AdUnit.bucket
  rw [Bucket.mk.injEq]
  constructor
  · rintro ⟨hadapter, htype, hslot⟩
    refine ⟨⟨hadapter, htype⟩, fun ha => ?_⟩
    obtain ⟨slot, hr, hu⟩ := hslot ha
    simp [hr, hu]
  · rintro ⟨⟨hadapter, htype⟩, hslot⟩
    refine ⟨hadapter, htype, fun ha => ?_⟩
    obtain ⟨hsome, hu⟩ := hslot ha
    obtain ⟨slot, hr⟩ := Option.isSome_iff_exists.1 hsome
    exact ⟨slot, hr, hu.trans hr⟩

instance (r : Bidding.Response) (u : AdUnit) : Decidable (Suits r u) := decidable_of_iff' _ suits_iff

theorem unitOf_eq_find? (r : Bidding.Response) (units : List AdUnit) :
    unitOf r (.ofUnits units) = units.find? (Suits r ·) := by
  unfold unitOf AdUnits.first
  rw [AdUnits.all_ofUnits]
  split
  · rename_i ha
    cases hslot : r.slotUuid with
    | none =>
      rw [Option.bind_none, eq_comm, List.find?_eq_none]
      simp [suits_iff, ha, hslot]
    | some slot =>
      rw [Option.bind_some, List.find?_filter]
      congr
      funext u
      simp [suits_iff, ha, hslot]
  · rename_i ha
    rw [List.head?_filter]
    congr
    funext u
    simp [suits_iff, ha]

theorem unitOf_eq_some_iff : unitOf r (.ofUnits units) = some u ↔ FirstFor r units u := by
  rw [unitOf_eq_find?, List.find?_eq_some_iff_append]
  unfold FirstFor
  constructor
  · rintro ⟨hu, before, after, hunits, hbefore⟩
    exact ⟨before, after, hunits, by simpa using hu, by simpa using hbefore⟩
  · rintro ⟨before, after, hunits, hu, hbefore⟩
    exact ⟨by simpa using hu, before, after, hunits, by simpa using hbefore⟩

/-! ## What an answer brings along -/

/-- An answer is a bid: its status says so, and there is one. -/
def Offers (r : Bidding.Response) (b : Bidding.Bid) : Prop := r.status = .bid ∧ r.bid = some b

theorem offer?_eq_some_iff {b : Bidding.Bid} : r.offer? = some b ↔ Offers r b := by
  unfold Bidding.Response.offer? Offers
  split <;> simp_all

theorem offer?_eq_none (h : ∀ b, ¬ Offers r b) : r.offer? = none := by
  rw [Option.eq_none_iff_forall_ne_some]
  exact fun b hb => h b (offer?_eq_some_iff.1 hb)

/-- Creative data of a bid by name: one text, under a name that hangs on the adapter. -/
inductive Creates (r : Bidding.Response) : String → Json → Prop where
  | signal {b : Bidding.Bid} (ha : r.adapter = .mobileFuse) (hb : Offers r b) :
    Creates r "signaldata" (.str b.signaldata)
  | byId {b : Bidding.Bid} (ha : r.adapter = .vkAds) (hb : Offers r b) : Creates r "bid_id" (.str b.id)
  /-- The payload of Amazon reaches the SDK by other means. -/
  | payload {b : Bidding.Bid} (ha : r.adapter ∉ [.amazon, .mobileFuse, .vkAds]) (hb : Offers r b) :
    Creates r "payload" (.str b.payload)

/-- What an answer brings along by name: creative data, and for Bidmachine the mediator. -/
inductive Brings (r : Bidding.Response) (mediator : Option String) : String → Json → Prop where
  | creative {name : String} {v : Json} (h : Creates r name v) : Brings r mediator name v
  | parameters {m : String} (ha : r.adapter = .bidmachine) (hm : mediator = some m) (hne : m ≠ "") :
    Brings r mediator "custom_parameters" (.record [("mediator", .str m)])

/-- The creative data of an answer, none if it is no bid. -/
def creativeFields (r : Bidding.Response) : Dict String Json :=
  ((creative? r).map Creative.toMap).getD .empty

theorem get?_single {k name : String} {v w : Json} :
    (Dict.ofList [(k, v)]).get? name = some w ↔ name = k ∧ v = w := by
  simp

theorem get?_creativeFields_eq_some_iff {name : String} {v : Json} :
    (creativeFields r).get? name = some v ↔ Creates r name v := by
  unfold creativeFields creative?
  constructor
  · intro h
    cases hb : r.offer? with
    | none =>
      rw [hb] at h
      cases h
    | some b =>
      rw [hb] at h
      have hoffers := offer?_eq_some_iff.1 hb
      simp only [Option.map_some, Option.getD_some] at h
      split at h
      · cases h
      · obtain ⟨rfl, rfl⟩ := get?_single.1 h
        exact .signal ‹_› hoffers
      · obtain ⟨rfl, rfl⟩ := get?_single.1 h
        exact .byId ‹_› hoffers
      · obtain ⟨rfl, rfl⟩ := get?_single.1 h
        exact .payload (by simp_all) hoffers
  · intro h
    cases h with
    | signal ha hb => simp [offer?_eq_some_iff.2 hb, ha, Creative.toMap]
    | byId ha hb => simp [offer?_eq_some_iff.2 hb, ha, Creative.toMap]
    | payload ha hb =>
      rw [offer?_eq_some_iff.2 hb]
      simp only [Option.map_some, Option.getD_some]
      split <;> simp_all [Creative.toMap]

theorem Creates.ne_parametersField {name : String} {v : Json} (h : Creates r name v) :
    name ≠ parametersField := by
  cases h <;> decide

theorem Creates.exists_offers {name : String} {v : Json} (h : Creates r name v) : ∃ b, Offers r b := by
  cases h with
  | signal _ hb | byId _ hb | payload _ hb => exact ⟨_, hb⟩

theorem Brings.creates {name : String} {v : Json} (h : Brings r mediator name v)
    (hname : name ≠ parametersField) : Creates r name v := by
  cases h with
  | creative h => exact h
  | parameters => exact absurd rfl hname

/-- Bidmachine alone is told the mediator, if there is one with a name. -/
theorem get?_mediatorParameters_eq_some_iff {a : Adapter} {name : String} {v : Json} :
    (mediatorParameters a mediator).get? name = some v ↔ name = parametersField ∧ a = .bidmachine ∧
      ∃ m, mediator = some m ∧ m ≠ "" ∧ v = .record [("mediator", .str m)] := by
  unfold mediatorParameters
  constructor
  · intro h
    split at h
    · rename_i m
      split at h
      · cases h
      · rename_i hm
        simp only [Bool.or_eq_true, bne_iff_ne, ne_eq, not_or, not_not, String.isEmpty_iff] at hm
        obtain ⟨rfl, rfl⟩ := get?_single.1 h
        exact ⟨rfl, hm.2, m, rfl, hm.1, rfl⟩
    · cases h
  · rintro ⟨rfl, rfl, m, rfl, hne, rfl⟩
    simp [hne]

theorem get?_brought_eq_some_iff {name : String} {v : Json} :
    ((mediatorParameters r.adapter mediator).layOver (creativeFields r)).get? name = some v ↔
      Brings r mediator name v := by
  rw [Dict.get?_layOver, Option.or_eq_some_iff, get?_mediatorParameters_eq_some_iff,
    get?_creativeFields_eq_some_iff]
  constructor
  · rintro (⟨rfl, ha, m, hm, hne, rfl⟩ | ⟨-, h⟩)
    · exact .parameters ha hm hne
    · exact .creative h
  · intro h
    cases h with
    | creative h => exact .inr ⟨get?_mediatorParameters _ _ h.ne_parametersField, h⟩
    | parameters ha hm hne => exact .inl ⟨rfl, ha, _, hm, hne, rfl⟩

/-! ## The unit that an answer turns into -/

/-- What an answer turns into, for a stored unit. -/
structure TurnsInto (r : Bidding.Response) (mediator : Option String) (u v : AdUnit) : Prop where
  adapter : v.adapter = r.adapter
  bidType : v.bidType = .rtb
  priceFloor : v.priceFloor = some r.price
  uid : v.uid = u.uid
  label : v.label = u.label
  timeout : v.timeout = u.timeout
  /-- Under each name stands what the unit stores, or else what the answer brings along. -/
  listed : ∀ name w, v.extra.toMap.get? name = some w ↔ u.extra.toMap.get? name = some w ∨
    u.extra.toMap.get? name = none ∧ Brings r mediator name w
  slot : r.adapter = .amazon → v.extra.slotUuid = r.slotUuid
  /-- Without a bid there is no price. -/
  unpriced : (∀ b, ¬ Offers r b) → v.priceFloor = some 0.0

theorem price_of_not_offers (h : ∀ b, ¬ Offers r b) : r.price = 0.0 := by
  unfold Bidding.Response.price
  rw [offer?_eq_none h]

/-- The unit that an answer turns into, from the one that it is for. -/
theorem turnsInto_of_convert {v : AdUnit} (hu : unitOf r (.ofUnits units) = some u)
    (hv : convert r (.ofUnits units) mediator = some v) : TurnsInto r mediator u v := by
  have hsuits := (unitOf_eq_some_iff.1 hu).suits
  unfold convert at hv
  rw [hu, Option.map_some, Option.some.injEq] at hv
  subst hv
  refine ⟨rfl, rfl, rfl, rfl, rfl, rfl, fun name w => ?_, fun ha => ?_, fun h => ?_⟩
  · rw [AdUnit.Extra.get?_toMap_layOver, Option.or_eq_some_iff]
    exact or_congr Iff.rfl (and_congr Iff.rfl get?_brought_eq_some_iff)
  · obtain ⟨slot, hr, hstored⟩ := hsuits.slot ha
    exact (AdUnit.Extra.slotUuid_layOver hstored _).trans hr.symm
  · exact congrArg some (price_of_not_offers h)

/-- Answers that are no bids turn into the same unit if they name one adapter and one slot. -/
theorem convert_eq_of_not_offers {r' : Bidding.Response} (hadapter : r'.adapter = r.adapter)
    (hslot : r'.slotUuid = r.slotUuid) (h : ∀ b, ¬ Offers r b) (h' : ∀ b, ¬ Offers r' b)
    (units : AdUnits) : convert r' units mediator = convert r units mediator := by
  unfold convert unitOf creative?
  rw [hadapter, hslot, offer?_eq_none h, offer?_eq_none h', price_of_not_offers h, price_of_not_offers h']

/-- An answer turns into a unit exactly if there is one that it is for: the first unit of its adapter that is
filled by bids, and for Amazon the first of these with the slot of the answer, which the unit that comes out
has too. That one is of the adapter of the answer and at the price of the bid, has the identifier, the label
and the timeout of the first, and says what that one stores, or else what the answer brings along. What an
answer holds beside adapter and slot counts for nothing if it is no bid. -/
theorem convert_turnsInto (r : Bidding.Response) (units : List AdUnit) (mediator : Option String) :
    (∀ u, unitOf r (.ofUnits units) = some u ↔ FirstFor r units u) ∧
    ((convert r (.ofUnits units) mediator).isSome ↔ ∃ u, FirstFor r units u) ∧
    (∀ u, FirstFor r units u →
      ∃ v, convert r (.ofUnits units) mediator = some v ∧ TurnsInto r mediator u v) ∧
    ∀ r' : Bidding.Response, r'.adapter = r.adapter → r'.slotUuid = r.slotUuid → (∀ b, ¬ Offers r b) →
      (∀ b, ¬ Offers r' b) →
      convert r' (.ofUnits units) mediator = convert r (.ofUnits units) mediator := by
  refine ⟨fun u => unitOf_eq_some_iff, ?_, fun u hu => ?_, fun r' hadapter hslot h h' => ?_⟩
  · rw [isSome_convert, Option.isSome_iff_exists]
    exact exists_congr fun u => unitOf_eq_some_iff
  · have hunit := unitOf_eq_some_iff.2 hu
    have hsome : (convert r (.ofUnits units) mediator).isSome := by
      rw [isSome_convert, hunit]
      rfl
    obtain ⟨v, hv⟩ := Option.isSome_iff_exists.1 hsome
    exact ⟨v, hv, turnsInto_of_convert hunit hv⟩
  · exact convert_eq_of_not_offers hadapter hslot h h' _

end

/-- An extension that has parameters of its own. -/
def storingExtra : AdUnit.Extra := { other := .ofList [("custom_parameters", .str "stored")] }

/-- Bidmachine has a unit with a fixed price and two that bids fill. The first two store parameters. -/
def storingUnits : List AdUnit :=
  [{ adapter := .bidmachine, uid := "1", label := "fixed", bidType := .cpm, extra := storingExtra },
    { adapter := .bidmachine, uid := "2", label := "first", bidType := .rtb, extra := storingExtra },
    { adapter := .bidmachine, uid := "3", label := "second", bidType := .rtb }]

/-- Bidmachine ran out of time with a bid at hand. -/
def belatedAnswer : Bidding.Response :=
  { Bidding.Response.timedOut .bidmachine with bid := some { price := 7.0, payload := "late" } }

theorem firstFor_belated : FirstFor belatedAnswer storingUnits storingUnits[1] :=
  ⟨[storingUnits[0]], [storingUnits[2]], rfl, by decide, by decide⟩

/-- The belated bid leaves no trace, and the stored parameters win over the mediator. -/
theorem convert_turnsInto_belated : ∃ v,
    convert belatedAnswer (.ofUnits storingUnits) (some "max") = some v ∧
      convert { belatedAnswer with bid := none } (.ofUnits storingUnits) (some "max") = some v ∧
      v.uid = "2" ∧ v.priceFloor = some 0.0 ∧
      v.extra.toMap.get? "custom_parameters" = some (.str "stored") ∧
      v.extra.toMap.get? "payload" = none := by
  have hstatus : ∀ b, ¬ Offers belatedAnswer b := fun b h => by cases h.1
  obtain ⟨-, -, hturns, hsame⟩ := convert_turnsInto belatedAnswer storingUnits (some "max")
  obtain ⟨v, hv, h⟩ := hturns _ firstFor_belated
  refine ⟨v, hv, (hsame _ rfl rfl hstatus fun b hb => by cases hb.1).trans hv, h.uid, h.unpriced hstatus,
    (h.listed _ _).2 (.inl rfl), Option.eq_none_iff_forall_ne_some.2 fun w hw => ?_⟩
  rcases (h.listed _ _).1 hw with hstored | ⟨-, hbrings⟩
  · cases hstored
  · obtain ⟨b, hb⟩ := (hbrings.creates (by decide)).exists_offers
    exact hstatus b hb

end Mediation.Auction
