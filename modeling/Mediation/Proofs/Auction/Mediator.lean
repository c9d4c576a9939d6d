/-
What the units of a response say of the mediator that the SDK runs under. Only Bidmachine is told, and by
one name. A unit with a fixed price says it over whatever it stores under that name; a unit that stands for
an answer says it only if the stored unit has nothing to say there. All else is as it is stored.
-/
import Mediation.Proofs.Auction.Conversion
import Mediation.Proofs.Auction.Floor

namespace Mediation

/-- The extension of a request names a mediator, by a text that is not empty. -/
def Request.RunsUnder (r : Request) (m : String) : Prop := r.ExtHas "mediator" (.str m) ∧ m ≠ ""

namespace Auction

/-- What a unit says of the mediator. -/
def parametersOf (u : AdUnit) : Option Json := u.extra.toMap.get? "custom_parameters"

/-- The parameters that name a mediator. -/
def naming (m : String) : Json := .record [("mediator", .str m)]

/-- A unit with a fixed price, stored and in the response. -/
structure FixedAs (r : Request) (u v : AdUnit) : Prop where
  unit : { v with extra := u.extra } = u
  listed : ∀ name, name ≠ "custom_parameters" → v.extra.toMap.get? name = u.extra.toMap.get? name
  parameters : ∀ m, r.RunsUnder m → u.adapter = .bidmachine → parametersOf v = some (naming m)
  otherAdapter : u.adapter ≠ .bidmachine → v = u
  unnamed : (∀ m, ¬ r.RunsUnder m) → v = u

/-- The unit that an answer is for, and the one that stands for it in the response. -/
structure AnsweredAs (r : Request) (u v : AdUnit) : Prop where
  bidType : v.bidType = .rtb
  adapter : v.adapter = u.adapter
  stored : ∀ w, parametersOf u = some w → parametersOf v = some w
  parameters : ∀ m, r.RunsUnder m → u.adapter = .bidmachine → parametersOf u = none →
    parametersOf v = some (naming m)
  otherAdapter : u.adapter ≠ .bidmachine → parametersOf v = parametersOf u
  unnamed : (∀ m, ¬ r.RunsUnder m) → parametersOf v = parametersOf u

section

variable {r : Request} {a : Adapter} {u v : AdUnit}

/-! ## Parameters -/

theorem runsUnder_iff {m : String} : r.RunsUnder m ↔ r.mediator = some m ∧ m ≠ "" := by
  unfold Request.RunsUnder
  rw [Request.mediator_eq_some_iff]

theorem get?_parameters_eq_some_iff {w : Json} : (mediatorParameters a r.mediator).get? parametersField = some w ↔
    a = .bidmachine ∧ ∃ m, r.RunsUnder m ∧ w = naming m := by
  simp [get?_mediatorParameters_eq_some_iff, runsUnder_iff, naming, and_assoc]

/-- Nobody is told but Bidmachine, and without a mediator nobody is. -/
theorem mediatorParameters_eq_empty (h : a ≠ .bidmachine ∨ ∀ m, ¬ r.RunsUnder m) :
    mediatorParameters a r.mediator = .empty := by
  refine Dict.ext_get? fun name => Option.eq_none_iff_forall_ne_some.2 fun w hw => ?_
  obtain ⟨rfl, ha, -⟩ := get?_mediatorParameters_eq_some_iff.1 hw
  obtain ⟨-, m, hm, -⟩ := get?_parameters_eq_some_iff.1 hw
  rcases h with h | h
  · exact h ha
  · exact h m hm

/-! ## Units with a fixed price -/

theorem parametersField_not_mem : parametersField ∉ AdUnit.Extra.knownFields := by decide

theorem parametersOf_eq_get? (u : AdUnit) : parametersOf u = u.extra.other.get? parametersField :=
  AdUnit.Extra.get?_toMap_of_not_mem parametersField_not_mem

theorem parametersOf_withMediator (mediator : Option String) (u : AdUnit) :
    parametersOf (withMediator mediator u) =
      ((mediatorParameters u.adapter mediator).get? parametersField).or (parametersOf u) := by
  rw [parametersOf_eq_get?, parametersOf_eq_get?]
  exact Dict.get?_layOver _ _ _

theorem withMediator_eq_self {mediator : Option String} (h : mediatorParameters u.adapter mediator = .empty) :
    withMediator mediator u = u := by
  unfold withMediator
  rw [h]
  rfl

theorem fixedAs_withMediator (r : Request) (u : AdUnit) : FixedAs r u (withMediator r.mediator u) where
  unit := rfl
  listed name hname := by
    rw [AdUnit.Extra.get?_toMap, AdUnit.Extra.get?_toMap]
    exact congrArg _ ((agree_withMediator r.mediator u).other name hname)
  parameters m hm ha := by
    rw [parametersOf_withMediator, get?_parameters_eq_some_iff.2 ⟨ha, m, hm, rfl⟩, Option.some_or]
  otherAdapter ha := withMediator_eq_self (mediatorParameters_eq_empty (.inl ha))
  unnamed h := withMediator_eq_self (mediatorParameters_eq_empty (.inr h))

/-! ## Units that stand for answers -/

section

variable {answer : Bidding.Response}

/-- Of what an answer brings along only the mediator goes by the name of the parameters. -/
theorem brings_parameters_iff {w : Json} : Brings answer r.mediator parametersField w ↔
    answer.adapter = .bidmachine ∧ ∃ m, r.RunsUnder m ∧ w = naming m := by
  rw [← get?_parameters_eq_some_iff, ← get?_brought_eq_some_iff, Dict.get?_layOver]
  have hcreative : (creativeFields answer).get? parametersField = none :=
    Option.eq_none_iff_forall_ne_some.2 fun w hw =>
      (get?_creativeFields_eq_some_iff.1 hw).ne_parametersField rfl
  rw [hcreative, Option.or_none]

theorem TurnsInto.parametersOf_eq_some_iff (h : TurnsInto answer r.mediator u v) {w : Json} :
    parametersOf v = some w ↔ parametersOf u = some w ∨
      parametersOf u = none ∧ answer.adapter = .bidmachine ∧ ∃ m, r.RunsUnder m ∧ w = naming m := by
  unfold parametersOf
  rw [h.listed]
  exact or_congr Iff.rfl (and_congr Iff.rfl brings_parameters_iff)

/-- Nothing is said beyond what is stored, unless it is said by Bidmachine under a mediator. -/
theorem TurnsInto.parametersOf_eq (h : TurnsInto answer r.mediator u v)
    (hnone : answer.adapter ≠ .bidmachine ∨ ∀ m, ¬ r.RunsUnder m) : parametersOf v = parametersOf u := by
  refine Option.ext fun w => ?_
  rw [h.parametersOf_eq_some_iff, or_iff_left]
  rintro ⟨-, ha, m, hm, -⟩
  rcases hnone with hne | hne
  · exact hne ha
  · exact hne m hm

theorem answeredAs_of_convert {units : List AdUnit} (h : convert answer (.ofUnits units) r.mediator = some v) :
    ∃ u, FirstFor answer units u ∧ AnsweredAs r u v := by
  have hsome : (unitOf answer (.ofUnits units)).isSome := by
    rw [← isSome_convert answer _ r.mediator, h]
    rfl
  obtain ⟨u, hu⟩ := Option.isSome_iff_exists.1 hsome
  have hfirst := unitOf_eq_some_iff.1 hu
  have hturns := turnsInto_of_convert hu h
  have hadapter : answer.adapter = u.adapter := hfirst.suits.adapter.symm
  refine ⟨u, hfirst, hturns.bidType, hturns.adapter.trans hadapter, fun w hw => ?_, fun m hm ha hnone => ?_,
    fun ha => ?_, fun hnone => ?_⟩
  · exact hturns.parametersOf_eq_some_iff.2 (.inl hw)
  · exact hturns.parametersOf_eq_some_iff.2 (.inr ⟨hnone, hadapter.trans ha, m, hm, rfl⟩)
  · exact hturns.parametersOf_eq (.inl (hadapter ▸ ha))
  · exact hturns.parametersOf_eq (.inr hnone)

end

/-! ## Responses -/

/-- The units of a response, shown or held back, are those with a fixed price and those that stand for answers.
Under a mediator each of the first that Bidmachine has names it, whatever it stores, and says else what it stores;
each of the second that Bidmachine has names it unless the stored unit says something there. Units of other
adapters, and all units without a mediator, say of one what they store. -/
theorem respond_parameters (r : Request) (result : Result) : ∃ fixed shown,
    (respond r result).adUnits.Perm (fixed ++ shown) ∧
    List.Forall₂ (FixedAs r) result.cpmAdUnits fixed ∧
    List.Forall₂ (fun answer v => ∃ u, FirstFor answer result.adUnits u ∧ AnsweredAs r u v)
      (result.round.responses.filter (Shown result)) shown ∧
    List.Forall₂ (fun answer v => ∃ u, FirstFor answer result.adUnits u ∧ AnsweredAs r u v)
      (result.round.responses.filter (HeldBack result)) (respond r result).noBids := by
  refine ⟨_, _, adUnits_respond_perm r result, ?_, ?_, ?_⟩
  · rw [List.forall₂_map_right_iff, List.forall₂_same]
    exact fun u _ => fixedAs_withMediator r u
  · exact (forall₂_converted_filter r result (shown_iff result) _).imp fun _ _ => answeredAs_of_convert
  · rw [noBids_respond]
    exact (forall₂_converted_filter r result (heldBack_iff result) _).imp fun _ _ => answeredAs_of_convert

end

/-- The belated bid and the unit with a fixed price, where the units of both store parameters. -/
def storingResult : Result where
  config := modestConfig
  segment := .zero
  adUnits := storingUnits
  cpmAdUnits := storingUnits.filter (·.isCpm)
  round := { responses := [belatedAnswer] }
  priceFloor := 0.05
  timeout := 0

/-- The mediator goes over what the one unit stores, and under what the other one does. -/
theorem respond_parameters_storing : ∃ v w,
    (respond (extendedRequest (mediatorExt "max" "0.25")) storingResult).adUnits = [v] ∧
      (respond (extendedRequest (mediatorExt "max" "0.25")) storingResult).noBids = [w] ∧
      parametersOf v = some (naming "max") ∧ parametersOf w = some (.str "stored") := by
  have hmediator : (extendedRequest (mediatorExt "max" "0.25")).RunsUnder "max" :=
    runsUnder_iff.2 (by decide +kernel)
  have hanswers : storingResult.round.responses.filter (Shown storingResult) = [] ∧
      storingResult.round.responses.filter (HeldBack storingResult) = [belatedAnswer] := by
    decide +kernel
  obtain ⟨fixed, shown, hperm, hfixed, hshown, hheld⟩ :=
    respond_parameters (extendedRequest (mediatorExt "max" "0.25")) storingResult
  rw [hanswers.1, List.forall₂_nil_left_iff] at hshown
  rw [hanswers.2] at hheld
  obtain ⟨v, fixed, hv, hnone, rfl⟩ := List.forall₂_cons_left_iff.1 hfixed
  obtain ⟨w, rest, ⟨u, hfirst, hw⟩, hnil, hnoBids⟩ := List.forall₂_cons_left_iff.1 hheld
  obtain rfl := List.forall₂_nil_left_iff.1 hnone
  obtain rfl := List.forall₂_nil_left_iff.1 hnil
  rw [hshown] at hperm
  obtain rfl : storingUnits[1] = u :=
    Option.some.inj ((unitOf_eq_some_iff.2 firstFor_belated).symm.trans (unitOf_eq_some_iff.2 hfirst))
  exact ⟨v, w, List.perm_singleton.1 hperm, hnoBids, hv.parameters "max" hmediator rfl, hw.stored _ rfl⟩

end Auction

end Mediation
