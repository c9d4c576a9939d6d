/-
The stages that an auction enters, in the order in which it does. They are to lead from one to the next,
up to the end or to a failure. An auction that fails keeps to that: the failure comes right after the
stage that met it. One that has a result does not, for it is done as soon as that is there, and enters the
assembly of the response after that, also when it is then broken off.
-/
import Mathlib.Data.List.Chain
import Mediation.Proofs.Auction.Precedence

namespace Mediation.Auction

open Activity

/-! ## Orders of stages -/

/-- The stages that may follow on a stage. Nothing follows on the end or on a failure. -/
def Stage.next : Stage → List Stage
  | .resolving => [.matching, .failed]
  | .matching => [.dispatching, .failed]
  | .dispatching => [.assembling, .failed]
  | .assembling => [.done, .failed]
  | .done | .failed => []

/-- A course through the stages: it starts with the first one, each leads to the one after it, and it goes
on until nothing can follow. -/
structure InOrder (l : List Stage) : Prop where
  starts : l.head? = some .resolving
  leads : l.IsChain fun a b => b ∈ a.next
  ends : ∃ e, l.getLast? = some e ∧ e.next = []

/-! ## Stages of steps -/

/-- The stages that are entered by some steps. -/
def stagesEntered (l : List (Timed Step)) : List Stage :=
  l.filterMap fun u =>
    match u.step with
    | .entered e => some e
    | _ => none

@[simp] theorem stagesEntered_append (l l' : List (Timed Step)) :
    stagesEntered (l ++ l') = stagesEntered l ++ stagesEntered l' := List.filterMap_append

theorem stagesEntered_eq_nil {l : List (Timed Step)} (h : ∀ u ∈ l, ∀ e, u.step ≠ .entered e) :
    stagesEntered l = [] := by
  unfold stagesEntered
  rw [List.filterMap_eq_nil_iff]
  intro u hu
  split
  · rename_i e he
    exact absurd he (h u hu e)
  · rfl

theorem stagesEntered_of_takes {α : Type} {P : Step → Prop} {p : Activity Step α} (hp : Takes P p)
    (hP : ∀ e, ¬ P (.entered e)) (t : Nat) : stagesEntered (p t).steps = [] :=
  stagesEntered_eq_nil fun u hu e he => hP e (he ▸ hp t u hu)

/-- A second action enters its stages after those of the first one, if that succeeds. -/
theorem stagesEntered_bind {α β : Type} (p : Action α) (f : α → Action β) (t : Nat) :
    stagesEntered ((p >>= f).run t).steps = stagesEntered (p.run t).steps ++
      match (p.run t).value with
      | .ok a => stagesEntered ((f a).run (p.run t).finish).steps
      | .error _ => [] := by
  rw [Attempt.run_bind]
  rcases p.run t with ⟨e | a, now, l⟩
  · exact (List.append_nil _).symm
  · exact stagesEntered_append _ _

/-! ## Stages of an auction -/

section

variable (policy : Policy) (s : Services) (x : Subject) (t : Nat)

theorem stagesEntered_settle : stagesEntered ((settle s x).run t).steps = [.resolving] := by
  rw [run_settle]
  rcases lookupOf s x with e | l <;> rfl

theorem stagesEntered_matchUnits (c : Config) :
    stagesEntered ((matchUnits policy s x c).run t).steps = [.matching] := by
  rw [run_matchUnits]
  rfl

theorem stagesEntered_bid (g : Groundwork) :
    stagesEntered ((bid policy s x g).run t).steps = [.dispatching] := by
  have hrest : Takes (fun u => ∀ e, u ≠ .entered e) (do
      let initConfigs ← roundSettings s x (g.allowed policy x.request) (.ofUnits g.units)
      if initConfigs.isEmpty then pure {}
      else do
        let now ← Action.now
        ExceptT.mk (s.holdRound (g.params policy s x initConfigs now)) :
          Action Bidding.Round).run := by
    refine Takes.attempt_bind ((takes_roundSettings s x _ _).imp ?_) fun configs => ?_
    · rintro _ ⟨l, rfl⟩ e ⟨⟩
    · split
      · exact takes_pure _
      · refine Takes.attempt_bind (Takes.lift takes_now) fun now => (takes_holdRound s _).imp ?_
        rintro _ ⟨r, rfl⟩ e ⟨⟩
  unfold bid
  rw [stagesEntered_bind, run_enter]
  exact congrArg (.dispatching :: ·) (stagesEntered_of_takes hrest (fun e h => h e rfl) t)

/-- What an auction is settled on: a configuration that names units. -/
def settlement (s : Services) (x : Subject) : Except AuctionError (Segment × Config) :=
  (resolution s x).bind (withUnitIds s x)

/-- What the adapters that take part are offered under a configuration. -/
def supply (policy : Policy) (s : Services) (x : Subject) (c : Config) :
    Except AuctionError (List AdUnit) :=
  (s.adUnits (opportunity policy x c)).answer.bind (withAdapters policy x.request c)

/-- The stages that an auction comes to before it succeeds or fails: the matching once it is settled, and
the adapters once there are units and someone to take part. -/
def stagesReached (policy : Policy) (s : Services) (x : Subject) : List Stage :=
  .resolving :: match settlement s x with
    | .error _ => []
    | .ok (_, c) =>
      .matching :: match supply policy s x c with
        | .error _ => []
        | .ok _ => [.dispatching]

theorem stagesReached_prefix :
    stagesReached policy s x <+: [.resolving, .matching, .dispatching] := by
  unfold stagesReached
  rw [List.prefix_cons_inj]
  rcases settlement s x with e | ⟨segment, c⟩
  · exact List.nil_prefix
  · dsimp only
    rw [List.prefix_cons_inj]
    rcases supply policy s x c
    · exact List.nil_prefix
    · exact List.prefix_refl _

theorem value_prepare_bind : ((prepare policy s x).run t).value = (settlement s x).bind fun p =>
    (supply policy s x p.2).map fun units => ⟨t, p.1, p.2, units⟩ := by
  rw [value_prepare]
  unfold settlement supply
  rcases resolution s x with e | c
  · rfl
  · dsimp only [Except.bind, withUnitIds]
    by_cases hids : c.adUnitIds.isEmpty = true
    · rw [if_pos hids]
    · rw [if_neg hids]

theorem stagesEntered_prepare : stagesEntered ((prepare policy s x).run t).steps =
    .resolving :: match settlement s x with
      | .error _ => []
      | .ok _ => [.matching] := by
  unfold prepare settlement
  rw [stagesEntered_bind, run_now]
  dsimp only
  rw [stagesEntered_bind, stagesEntered_settle, value_settle]
  rcases (resolution s x).bind (withUnitIds s x) with e | ⟨segment, c⟩
  · rfl
  · dsimp only
    rw [stagesEntered_bind, stagesEntered_matchUnits]
    rcases ((matchUnits policy s x c).run ((settle s x).run t).finish).value with e | units <;> rfl

/-- Up to its result an auction enters the stages that it comes to. -/
theorem stagesEntered_resolve :
    stagesEntered ((resolve policy s x).run t).steps = stagesReached policy s x := by
  have hcheck (g : Groundwork) (round : Bidding.Round) (t : Nat) : stagesEntered ((do
      let result := g.result policy x.request round
      if result.cpmAdUnits.isEmpty && round.responses.isEmpty then throw .noAdsFound
      pure result : Action Result).run t).steps = [] :=
    stagesEntered_of_takes (takes_check policy x g round (P := fun _ => False)) (fun _ h => h) t
  unfold resolve stagesReached
  rw [stagesEntered_bind, stagesEntered_prepare, value_prepare_bind]
  rcases settlement s x with e | ⟨segment, c⟩
  · rfl
  · dsimp only [Except.bind]
    rcases supply policy s x c with e | units
    · rfl
    · dsimp only [Except.map]
      rw [stagesEntered_bind, stagesEntered_bid]
      split
      · rw [hcheck]
        rfl
      · rfl

/-- An auction that has a result has come to all stages before it. -/
theorem stagesReached_of_ok {result : Result} (h : ((build policy s x).run t).value = .ok result) :
    stagesReached policy s x = [.resolving, .matching, .dispatching] := by
  obtain ⟨g, -, hg, -, -⟩ := build_ok h
  rw [value_prepare_bind] at hg
  unfold stagesReached
  rcases hp : settlement s x with e | ⟨segment, c⟩ <;> rw [hp] at hg
  · cases hg
  · dsimp only [Except.bind] at hg ⊢
    rcases hu : supply policy s x c with e | units <;> rw [hu] at hg
    · cases hg

theorem stagesEntered_build : stagesEntered ((build policy s x).run t).steps =
    stagesReached policy s x ++ match ((build policy s x).run t).value with
      | .ok _ => [.done]
      | .error _ => [.failed] := by
  rw [run_build, stagesEntered_append, stagesEntered_resolve]
  rcases ((resolve policy s x).run t).value with e | result <;> rfl

theorem stagesEntered_conclude (result : Result) :
    stagesEntered ((conclude s x result).run t).steps = [.assembling] := by
  rw [run_conclude]
  split
  · -- the events enter no stage
    refine congrArg (.assembling :: ·) (stagesEntered_eq_nil fun u hu e he => ?_)
    obtain ⟨v, hv, rfl⟩ := List.mem_map.1 hu
    obtain ⟨k, -, rfl⟩ := List.mem_map.1 hv
    cases he
  · rfl

end

/-! ## Whole auctions -/

theorem inOrder_failed (policy : Policy) (s : Services) (x : Subject) :
    InOrder (stagesReached policy s x ++ [.failed]) := by
  unfold stagesReached
  rcases settlement s x with e | ⟨segment, c⟩
  · show InOrder [.resolving, .failed]
    exact ⟨rfl, by decide, .failed, rfl, rfl⟩
  · dsimp only
    rcases supply policy s x c with e | units
    · show InOrder [.resolving, .matching, .failed]
      exact ⟨rfl, by decide, .failed, rfl, rfl⟩
    · show InOrder [.resolving, .matching, .dispatching, .failed]
      exact ⟨rfl, by decide, .failed, rfl, rfl⟩

/-- Nothing may follow on the end. -/
theorem not_inOrder_done : ¬ InOrder [.resolving, .matching, .dispatching, .done, .assembling] :=
  fun h => absurd h.leads (by decide)

/-- Stages of an auction with an outcome, by the stages it comes to before one. -/
def stagesFor (reached : List Stage) : Except Stop Response → List Stage
  | .ok _ => [.resolving, .matching, .dispatching, .done, .assembling]
  | .error .overflow => [.resolving, .matching, .dispatching, .done, .assembling]
  | .error (.failed _) => reached ++ [.failed]

theorem stagesEntered_run_eq (policy : Policy) (s : Services) (x : Subject) (t : Nat) :
    stagesEntered ((run policy s x).run t).steps =
      stagesFor (stagesReached policy s x) ((run policy s x).run t).value := by
  have hbuild := stagesEntered_build policy s x t
  rw [run_run]
  rcases hb : (build policy s x).run t with ⟨e | result, now, l⟩ <;> rw [hb] at hbuild
  · exact hbuild
  · have hreached : stagesReached policy s x = [.resolving, .matching, .dispatching] :=
      stagesReached_of_ok policy s x t (congrArg Course.value hb)
    dsimp only at hbuild ⊢
    rw [stagesEntered_append, hbuild, hreached, stagesEntered_conclude, value_conclude]
    by_cases hfits : x.request.session.Fits
    · rw [conclusion, if_pos hfits]
      rfl
    · rw [conclusion, if_neg hfits]
      rfl

/-- An auction that has a result is done before it assembles the response, whether it then answers or is
broken off. One that fails enters the stages that it comes to, of which there is at least one, and then the
failure. So the stages are in order exactly if the auction fails. -/
theorem stagesEntered_run (policy : Policy) (s : Services) (x : Subject) (t : Nat) :
    let auction := (run policy s x).run t
    (∀ response, auction.value = .ok response →
      stagesEntered auction.steps = [.resolving, .matching, .dispatching, .done, .assembling]) ∧
    (auction.value = .error .overflow →
      stagesEntered auction.steps = [.resolving, .matching, .dispatching, .done, .assembling]) ∧
    (∀ e, auction.value = .error (.failed e) →
      stagesEntered auction.steps = stagesReached policy s x ++ [.failed]) ∧
    stagesReached policy s x <+: [.resolving, .matching, .dispatching] ∧
    stagesReached policy s x ≠ [] ∧
    (InOrder (stagesEntered auction.steps) ↔ ∃ e, auction.value = .error (.failed e)) := by
  dsimp only
  have hentered := stagesEntered_run_eq policy s x t
  refine ⟨fun response h => ?_, fun h => ?_, fun e h => ?_, stagesReached_prefix policy s x,
    List.cons_ne_nil _ _, ?_⟩
  · rw [hentered, h]
    rfl
  · rw [hentered, h]
    rfl
  · rw [hentered, h]
    rfl
  · rw [hentered]
    rcases ((run policy s x).run t).value with (e | _) | response
    · exact ⟨fun _ => ⟨e, rfl⟩, fun _ => inOrder_failed policy s x⟩
    · exact ⟨fun h => absurd h not_inOrder_done, fun ⟨e, h⟩ => by cases h⟩
    · exact ⟨fun h => absurd h not_inOrder_done, fun ⟨e, h⟩ => by cases h⟩

/-- The client has a token for the one bidder. -/
def biddingSubject : Subject := ⟨1, childRequest [.bidmachine] [.bidmachine], {}⟩

/-- An auction with one bid enters the assembly after its end, and one without a token fails in order. -/
theorem stagesEntered_run_sole :
    stagesEntered ((run {} soleBidderServices biddingSubject).run 0).steps =
      [.resolving, .matching, .dispatching, .done, .assembling] ∧
    ¬ InOrder (stagesEntered ((run {} soleBidderServices biddingSubject).run 0).steps) ∧
    InOrder (stagesEntered ((run {} soleBidderServices tokenlessSubject).run 0).steps) := by
  obtain ⟨response, hok⟩ : ∃ response, ((run {} soleBidderServices biddingSubject).run 0).value = .ok response :=
    Attempt.exists_of_isOk (by decide +kernel)
  obtain ⟨hanswered, -, -, -, -, hinOrder⟩ := stagesEntered_run {} soleBidderServices biddingSubject 0
  obtain ⟨-, -, -, -, -, hfailed⟩ := stagesEntered_run {} soleBidderServices tokenlessSubject 0
  refine ⟨hanswered response hok, fun h => ?_, hfailed.2 ⟨.noAdsFound, rfl⟩⟩
  obtain ⟨e, he⟩ := hinOrder.1 h
  rw [hok] at he
  cases he

end Mediation.Auction
