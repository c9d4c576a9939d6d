/-
Where the answers of a round go. Every answer that is for a unit turns into one unit of the response:
a bid above the floor is shown among the units with a fixed price, any other answer is held back in
the order of the round. An answer that is for no unit leaves no trace.
-/
import Mediation.Auction.Response
import Mediation.Proofs.Lists

namespace Mediation.Auction

/-! ## Conversion -/

/-- An answer turns into a unit exactly if it is for one. -/
theorem isSome_convert (a : Bidding.Response) (units : AdUnits) (mediator : Option String) :
    (convert a units mediator).isSome = (unitOf a units).isSome := by
  unfold convert; rw [Option.isSome_map]

theorem convert_eq_none_iff {a : Bidding.Response} {units : AdUnits} {mediator : Option String} :
    convert a units mediator = none ↔ unitOf a units = none := by
  unfold convert; rw [Option.map_eq_none_iff]

/-- A unit made from an answer is of the adapter that the answer names. -/
theorem adapter_of_convert {a : Bidding.Response} {units : AdUnits} {mediator : Option String}
    {u : AdUnit} (h : convert a units mediator = some u) : u.adapter = a.adapter := by
  unfold convert at h
  obtain ⟨v, -, rfl⟩ := Option.map_eq_some_iff.1 h
  rfl

/-! ## Mediator parameters -/

/-- Two units that agree in all but what their bags of further values say of the mediator. -/
structure AgreeButParameters (u v : AdUnit) : Prop where
  unit : { v with extra := u.extra } = u
  known : { v.extra with other := u.extra.other } = u.extra
  other : ∀ name, name ≠ parametersField → v.extra.other.get? name = u.extra.other.get? name

/-- Mediator parameters are all under one name. -/
theorem get?_mediatorParameters (a : Adapter) (mediator : Option String) {name : String}
    (h : name ≠ parametersField) : (mediatorParameters a mediator).get? name = none := by
  unfold mediatorParameters
  split
  · split
    · rfl
    · rw [Dict.get?_ofList]
      simp [Dict.lookupEntry, h]
  · rfl

theorem agree_withMediator (mediator : Option String) (u : AdUnit) :
    AgreeButParameters u (withMediator mediator u) where
  unit := rfl
  known := rfl
  other name h := by
    unfold withMediator
    rw [Dict.get?_layOver, get?_mediatorParameters u.adapter mediator h, Option.none_or]

/-! ## Routing -/

/-- An answer that is shown: a bid above the floor, for some unit. -/
def Shown (result : Result) (a : Bidding.Response) : Prop :=
  (unitOf a (.ofUnits result.adUnits)).isSome ∧ a.isBid ∧ result.priceFloor < a.price

/-- An answer that is held back: for some unit, but no bid above the floor. -/
def HeldBack (result : Result) (a : Bidding.Response) : Prop :=
  (unitOf a (.ofUnits result.adUnits)).isSome ∧ ¬ (a.isBid ∧ result.priceFloor < a.price)

instance (result : Result) (a : Bidding.Response) : Decidable (Shown result a) :=
  inferInstanceAs (Decidable (_ ∧ _ ∧ _))

instance (result : Result) (a : Bidding.Response) : Decidable (HeldBack result a) :=
  inferInstanceAs (Decidable (_ ∧ ¬ (_ ∧ _)))

/-- The result with other answers. -/
def Result.withAnswers (result : Result) (answers : List Bidding.Response) : Result :=
  { result with round := { result.round with responses := answers } }

section

variable (r : Request) (result : Result)

/-- The units that answers turn into, in their order. -/
def converted (answers : List Bidding.Response) : List AdUnit :=
  answers.filterMap fun a => convert a (.ofUnits result.adUnits) r.mediator

theorem forall₂_converted (answers : List Bidding.Response) :
    List.Forall₂ (fun a u => convert a (.ofUnits result.adUnits) r.mediator = some u)
      (answers.filter fun a => (unitOf a (.ofUnits result.adUnits)).isSome)
      (converted r result answers) :=
  forall₂_filterMap_of_iff fun a _ => (isSome_convert a _ r.mediator).symm

theorem noBids_respond : (respond r result).noBids =
    converted r result (result.round.responses.filter fun a => !clears result.priceFloor a) := by
  simp only [respond, List.partition_eq_filter_filter]
  rfl

theorem adUnits_respond : (respond r result).adUnits =
    (result.cpmAdUnits.map (withMediator r.mediator) ++
      converted r result (result.round.responses.filter (clears result.priceFloor))).mergeSort
        standsBefore := by
  simp only [respond, List.partition_eq_filter_filter]
  rfl

theorem adUnits_respond_perm : (respond r result).adUnits.Perm
    (result.cpmAdUnits.map (withMediator r.mediator) ++
      converted r result (result.round.responses.filter (clears result.priceFloor))) := by
  rw [adUnits_respond]
  exact List.mergeSort_perm _ _

/-- Among the answers of a kind, those that are for a unit turn into the units of that kind. -/
theorem forall₂_converted_filter {p : Bidding.Response → Bool} {P : Bidding.Response → Prop}
    [DecidablePred P] (hp : ∀ a, P a ↔ (unitOf a (.ofUnits result.adUnits)).isSome ∧ p a = true)
    (answers : List Bidding.Response) :
    List.Forall₂ (fun a u => convert a (.ofUnits result.adUnits) r.mediator = some u)
      (answers.filter P) (converted r result (answers.filter p)) := by
  have h := forall₂_converted r result (answers.filter p)
  rw [List.filter_filter] at h
  have he : answers.filter P =
      answers.filter fun a => (unitOf a (.ofUnits result.adUnits)).isSome && p a := by
    refine List.filter_congr fun a _ => ?_
    rw [Bool.eq_iff_iff, decide_eq_true_iff, Bool.and_eq_true, hp]
  rw [he]
  exact h

theorem shown_iff (a : Bidding.Response) : Shown result a ↔
    (unitOf a (.ofUnits result.adUnits)).isSome ∧ clears result.priceFloor a = true := by
  unfold Shown clears
  rw [Bool.and_eq_true, decide_eq_true_iff]

theorem heldBack_iff (a : Bidding.Response) : HeldBack result a ↔
    (unitOf a (.ofUnits result.adUnits)).isSome ∧ (!clears result.priceFloor a) = true := by
  unfold HeldBack clears
  rw [Bool.not_eq_true', ← Bool.not_eq_true, Bool.and_eq_true, decide_eq_true_iff]

@[simp] theorem responses_withAnswers (answers : List Bidding.Response) :
    (result.withAnswers answers).round.responses = answers := rfl

@[simp] theorem converted_withAnswers (answers : List Bidding.Response) :
    converted r (result.withAnswers answers) = converted r result := rfl

/-! ## Whose units there are -/

theorem mem_converted_iff {answers : List Bidding.Response} {u : AdUnit} :
    u ∈ converted r result answers ↔
      ∃ a ∈ answers, convert a (.ofUnits result.adUnits) r.mediator = some u := List.mem_filterMap

/-- The units of a response, in either list: those with a fixed price, and one for each answer that
turns into one. -/
theorem mem_units_respond_iff {u : AdUnit} :
    u ∈ (respond r result).adUnits ++ (respond r result).noBids ↔
      u ∈ result.cpmAdUnits.map (withMediator r.mediator) ∨
        ∃ a ∈ result.round.responses, convert a (.ofUnits result.adUnits) r.mediator = some u := by
  rw [List.mem_append, (adUnits_respond_perm r result).mem_iff, noBids_respond, List.mem_append,
    mem_converted_iff, mem_converted_iff, or_assoc]
  refine or_congr Iff.rfl ?_
  constructor
  · rintro (⟨a, ha, h⟩ | ⟨a, ha, h⟩)
    · exact ⟨a, (List.mem_filter.1 ha).1, h⟩
    · exact ⟨a, (List.mem_filter.1 ha).1, h⟩
  · rintro ⟨a, ha, h⟩
    cases hc : clears result.priceFloor a with
    | true => exact .inl ⟨a, List.mem_filter.2 ⟨ha, hc⟩, h⟩
    | false => exact .inr ⟨a, List.mem_filter.2 ⟨ha, by rw [hc]; rfl⟩, h⟩

/-- The units of a response are of the adapters that have a unit with a fixed price in it or that an
answer for some unit names. -/
theorem exists_unit_respond_iff (P : Adapter → Prop) :
    (∃ u ∈ (respond r result).adUnits ++ (respond r result).noBids, P u.adapter) ↔
      (∃ u ∈ result.cpmAdUnits, P u.adapter) ∨
        ∃ a ∈ result.round.responses, (unitOf a (.ofUnits result.adUnits)).isSome ∧ P a.adapter := by
  simp only [mem_units_respond_iff]
  constructor
  · rintro ⟨u, hu | ⟨a, ha, h⟩, hP⟩
    · obtain ⟨v, hv, rfl⟩ := List.mem_map.1 hu
      exact .inl ⟨v, hv, hP⟩
    · refine .inr ⟨a, ha, ?_, adapter_of_convert h ▸ hP⟩
      rw [← isSome_convert a _ r.mediator, h]
      rfl
  · rintro (⟨u, hu, hP⟩ | ⟨a, ha, hunit, hP⟩)
    · exact ⟨withMediator r.mediator u, .inl (List.mem_map_of_mem hu), hP⟩
    · rw [← isSome_convert a _ r.mediator] at hunit
      obtain ⟨u, h⟩ := Option.isSome_iff_exists.1 hunit
      exact ⟨u, .inr ⟨a, ha, h⟩, (adapter_of_convert h).symm ▸ hP⟩

/-! ## Conservation -/

theorem length_converted (answers : List Bidding.Response) : (converted r result answers).length =
    answers.countP fun a => (unitOf a (.ofUnits result.adUnits)).isSome := by
  rw [← (forall₂_converted r result answers).length_eq, List.countP_eq_length_filter]

/-- The response holds one unit for each unit with a fixed price and for each answer that is for a
unit. -/
theorem length_respond :
    (respond r result).adUnits.length + (respond r result).noBids.length =
      result.cpmAdUnits.length +
        result.round.responses.countP fun a => (unitOf a (.ofUnits result.adUnits)).isSome := by
  rw [(adUnits_respond_perm r result).length_eq, noBids_respond, List.length_append, List.length_map,
    length_converted, length_converted,
    List.countP_eq_countP_filter_add result.round.responses _ (clears result.priceFloor)]
  omega

variable {r result}

/-- An answer that is for no unit leaves no trace, wherever it stands. -/
theorem converted_filter_skip {a : Bidding.Response} (h : unitOf a (.ofUnits result.adUnits) = none)
    (p : Bidding.Response → Bool) (before after : List Bidding.Response) :
    converted r result ((before ++ a :: after).filter p) =
      converted r result ((before ++ after).filter p) := by
  unfold converted
  rw [List.filter_append, List.filter_append, List.filterMap_append, List.filterMap_append]
  cases hp : p a with
  | false => rw [List.filter_cons_of_neg (by simp [hp])]
  | true =>
    rw [List.filter_cons_of_pos hp, List.filterMap_cons_none]
    exact convert_eq_none_iff.2 h

theorem respond_withAnswers_eq_iff (before after : List Bidding.Response) (a : Bidding.Response) :
    ((respond r (result.withAnswers (before ++ a :: after))).adUnits =
        (respond r (result.withAnswers (before ++ after))).adUnits ∧
      (respond r (result.withAnswers (before ++ a :: after))).noBids =
        (respond r (result.withAnswers (before ++ after))).noBids) ↔
    unitOf a (.ofUnits result.adUnits) = none := by
  constructor
  · -- an answer for a unit makes one unit more in the two lists together
    rintro ⟨h₁, h₂⟩
    have hw := length_respond r (result.withAnswers (before ++ a :: after))
    have ho := length_respond r (result.withAnswers (before ++ after))
    rw [h₁, h₂, ho] at hw
    simp only [Result.withAnswers, List.countP_append, List.countP_cons] at hw
    by_contra hs
    rw [if_pos (Option.isSome_iff_ne_none.2 hs)] at hw
    omega
  · intro h
    rw [adUnits_respond, adUnits_respond, noBids_respond, noBids_respond]
    have skip : ∀ p, converted r result ((before ++ a :: after).filter p) =
        converted r result ((before ++ after).filter p) :=
      fun p => converted_filter_skip h p before after
    simp only [converted_withAnswers, responses_withAnswers]
    rw [skip, skip]
    exact ⟨rfl, rfl⟩

/-- No answer is lost, doubled or sent elsewhere: the answers that are held back turn, in their order,
into `noBids`, the shown ones into units that stand in `adUnits` together with the units of a fixed
price, and an answer is in neither list exactly if it is for no unit. -/
theorem respond_conserves (r : Request) (result : Result) :
    List.Forall₂ (fun a u => convert a (.ofUnits result.adUnits) r.mediator = some u)
      (result.round.responses.filter (HeldBack result)) (respond r result).noBids ∧
    (∃ cpm shown, List.Forall₂ AgreeButParameters result.cpmAdUnits cpm ∧
      List.Forall₂ (fun a u => convert a (.ofUnits result.adUnits) r.mediator = some u)
        (result.round.responses.filter (Shown result)) shown ∧
      (respond r result).adUnits.Perm (cpm ++ shown)) ∧
    ∀ before after a,
      ((respond r (result.withAnswers (before ++ a :: after))).adUnits =
          (respond r (result.withAnswers (before ++ after))).adUnits ∧
        (respond r (result.withAnswers (before ++ a :: after))).noBids =
          (respond r (result.withAnswers (before ++ after))).noBids) ↔
      unitOf a (.ofUnits result.adUnits) = none := by
  refine ⟨?_, ⟨_, _, ?_, ?_, adUnits_respond_perm r result⟩, respond_withAnswers_eq_iff⟩
  · rw [noBids_respond]
    exact forall₂_converted_filter r result (heldBack_iff result) _
  · rw [List.forall₂_map_right_iff, List.forall₂_same]
    exact fun u _ => agree_withMediator r.mediator u
  · exact forall₂_converted_filter r result (shown_iff result) _

end

end Mediation.Auction
