/-
The course of an auction, stage by stage. Up to the adapters an auction resolves and matches, and its
steps say nothing of a round. From there on it does by way of a round what the round does that is held
with what was settled by then; an auction that has no settings holds the round that asks nobody. With a
result it answers, or it is broken off because the time of its session cannot be told.
-/
import Mediation.Auction.Run
import Mediation.Proofs.Activity
import Mediation.Proofs.Bidding.FanOut

namespace Mediation

/-! ## Time of a session -/

namespace Request.Session

/-- Time since the session began, by the monotonic clock. -/
def elapsed (s : Session) : Int := s.monotonicTs.toInt - s.startMonotonicTs.toInt

/-- 64 bits hold the time since the session began. -/
def Fits (s : Session) : Prop := Int64.minValue.toInt ≤ s.elapsed ∧ s.elapsed ≤ Int64.maxValue.toInt

instance (s : Session) : Decidable s.Fits := inferInstanceAs (Decidable (_ ∧ _))

variable {s : Session}

theorem uptime?_of_fits (h : s.Fits) : s.uptime? = some (.ofInt s.elapsed) := if_pos h

theorem uptime?_of_not_fits (h : ¬ s.Fits) : s.uptime? = none := if_neg h

theorem uptime?_eq_some_iff {u : Int64} : s.uptime? = some u ↔ u.toInt = s.elapsed := by
  by_cases h : s.Fits
  · rw [uptime?_of_fits h, Option.some.injEq, ← Int64.toInt_inj, Int64.toInt_ofInt_of_le h.1 (Int.lt_add_one_of_le h.2),
      eq_comm]
  · -- the value of 64 bits would fit
    rw [uptime?_of_not_fits h]
    refine iff_of_false nofun fun hu => h ?_
    rw [Fits, ← hu]
    exact ⟨u.le_toInt, Int.le_of_lt_add_one u.toInt_lt⟩

end Request.Session

namespace Auction

open Activity

/-! ## Elementary actions -/

section

variable {ε : Type}

theorem run_enter (e : Stage) (t : Nat) :
    (Action.enter e : Attempt ε Step Unit).run t = ⟨.ok (), t, [⟨t, .entered e⟩]⟩ := rfl

theorem run_now (t : Nat) : (Action.now : Attempt ε Step Nat).run t = ⟨.ok t, t, []⟩ := rfl

theorem takes_enter {P : Step → Prop} {e : Stage} (h : P (.entered e)) :
    Takes P (Action.enter e : Attempt ε Step Unit).run := Takes.lift (takes_step h)

end

/-! ## Stages of steps -/

/-- The stage that a step belongs to. -/
def Step.stage : Step → Stage
  | .entered s => s
  | .segmentsFetched _ | .configLooked _ => .resolving
  | .unitsMatched _ => .matching
  | .profilesLooked _ | .round _ => .dispatching
  | .logged _ => .assembling

section

variable (policy : Policy) (s : Services) (x : Subject)

theorem takes_resolveSegment : Takes (·.stage = .resolving) (resolveSegment s x).run := by
  refine Takes.bind (takes_ask (by rfl) _) fun answer => ?_
  cases answer <;> exact takes_pure _

theorem takes_resolveConfig (c : ConfigStore) (appId : Int64) (a : AdType) (segmentId : Int64)
    (key sdkVersion : String) :
    Takes (·.stage = .resolving) (resolveConfig c appId a segmentId key sdkVersion).run := by
  unfold resolveConfig
  split
  · exact Takes.bind (takes_ask (by rfl) _) fun _ => takes_pure _
  · split
    · exact takes_pure _
    · refine Takes.bind (takes_ask (by rfl) _) fun answer => ?_
      cases answer <;> exact takes_pure _

theorem takes_settle : Takes (·.stage = .resolving) (settle s x).run := by
  refine Takes.attempt_bind (takes_enter rfl) fun _ => ?_
  refine Takes.attempt_bind (takes_resolveSegment s x) fun segment => ?_
  refine Takes.attempt_bind (takes_resolveConfig _ _ _ _ _ _) fun config => ?_
  dsimp only
  split <;> exact takes_pure _

theorem takes_matchUnits (c : Config) : Takes (·.stage = .matching) (matchUnits policy s x c).run := by
  refine Takes.attempt_bind (takes_enter rfl) fun _ => ?_
  refine Takes.attempt_bind (p := Action.ask _ _) (takes_ask (by rfl) _) fun units => ?_
  dsimp only
  split
  · exact takes_pure _
  · split <;> exact takes_pure _

theorem takes_prepare : Takes (fun u => u.stage = .resolving ∨ u.stage = .matching)
    (prepare policy s x).run := by
  refine Takes.attempt_bind (Takes.lift takes_now) fun started => ?_
  refine Takes.attempt_bind ((takes_settle s x).imp fun _ h => .inl h) fun ⟨segment, config⟩ => ?_
  refine Takes.attempt_bind ((takes_matchUnits policy s x config).imp fun _ h => .inr h) fun _ => ?_
  exact takes_pure _

theorem takes_settingsFor (appId : Int64) (adapters : List Adapter) (i : Request.Impression)
    (units : AdUnits) : Takes (fun u => ∃ l, u = .profilesLooked l)
      (s.settingsFor appId adapters i units) := by
  unfold Services.settingsFor
  split
  · exact takes_mapSteps (fun l => ⟨l, rfl⟩) _
  · exact takes_await _

theorem takes_roundSettings (adapters : List Adapter) (units : AdUnits) :
    Takes (fun u => ∃ l, u = .profilesLooked l) (roundSettings s x adapters units).run := by
  unfold roundSettings
  split
  · exact takes_pure _
  · refine Takes.bind (takes_settingsFor s _ _ _ _) fun answer => ?_
    split <;> exact takes_pure _

theorem takes_logEvents (r : Request) (geo : GeoData) (result : Result) :
    Takes (fun u => ∃ l, u = .logged l) (logEvents s r geo result).run := by
  refine Takes.attempt_bind (Takes.lift takes_now) fun now => ?_
  split
  · exact takes_pure _
  · refine Takes.lift (takes_allSteps fun u hu => ?_)
    obtain ⟨l, -, rfl⟩ := List.mem_map.1 hu
    exact ⟨l, rfl⟩

theorem takes_conclude (result : Result) : Takes (·.stage = .assembling) (conclude s x result).run := by
  refine Takes.attempt_bind (takes_enter rfl) fun _ => ?_
  refine Takes.attempt_bind ((takes_logEvents s _ _ _).imp fun u ⟨l, h⟩ => ?_) fun _ => takes_pure _
  rw [h]
  rfl

end

/-! ## From the stages to the response -/

section

variable {policy : Policy} {s : Services} {x : Subject} {t : Nat}

theorem run_build : (build policy s x).run t =
    ⟨((resolve policy s x).run t).value, ((resolve policy s x).run t).finish,
      ((resolve policy s x).run t).steps ++
        [⟨((resolve policy s x).run t).finish,
          .entered (match ((resolve policy s x).run t).value with
            | .ok _ => .done
            | .error _ => .failed)⟩]⟩ := by
  unfold build
  rw [ExceptT.run_mk]
  show Activity.andThen (resolve policy s x).run _ t = _
  unfold Activity.andThen
  rcases (resolve policy s x).run t with ⟨_ | result, now, l⟩ <;> rfl

/-- What the events of a result have in common that are made at an instant: the columns of the resolved
request, and the time of its session if 64 bits hold it. -/
def eventContext (s : Services) (x : Subject) (result : Result) (now : Nat) : EventContext where
  timestamp := s.clock.seconds now
  uptime := .ofInt x.request.session.elapsed
  request := resolvedRequest x.request result
  geo := x.geo
  config := result.config
  priceFloor := result.priceFloor

/-- An auction that has a result hands over all events and answers, or is broken off if no event can be
made. -/
theorem run_conclude (result : Result) (t : Nat) : (conclude s x result).run t =
    if x.request.session.Fits then
      ⟨.ok (respond (resolvedRequest x.request result) result), t, ⟨t, .entered .assembling⟩ ::
        (((events (eventContext s x result t) result).flatMap fun g =>
          g.toBatch.log s.engine).map Step.logged).map (⟨t, ·⟩)⟩
    else ⟨.error .overflow, t, [⟨t, .entered .assembling⟩]⟩ := by
  unfold conclude logEvents
  rw [Attempt.run_bind_of_ok (run_enter .assembling t)]
  dsimp only
  rw [Attempt.run_bind, Attempt.run_bind_of_ok (run_now t), EventContext.of?,
    show (resolvedRequest x.request result).session = x.request.session from rfl]
  by_cases hfits : x.request.session.Fits
  · rw [if_pos hfits, Request.Session.uptime?_of_fits hfits]
    show Course.mk _ _ ([_] ++ (([] ++ (_ ++ [])) ++ [])) = _
    rw [List.append_nil, List.append_nil, List.nil_append]
    rfl
  · rw [if_neg hfits, Request.Session.uptime?_of_not_fits hfits]
    rfl

/-- An auction goes as far as its result does; if there is one it goes on from there. -/
theorem run_run : (run policy s x).run t = match (build policy s x).run t with
    | ⟨.error e, now, l⟩ => ⟨.error (.failed e), now, l⟩
    | ⟨.ok result, now, l⟩ => ⟨((conclude s x result).run now).value, ((conclude s x result).run now).finish,
        l ++ ((conclude s x result).run now).steps⟩ := by
  unfold run
  rw [Attempt.run_bind, Attempt.run_adapt]
  rcases (build policy s x).run t with ⟨_ | result, now, l⟩ <;> rfl

/-- What an auction comes to that has a result. -/
def conclusion (x : Subject) (result : Result) : Except Stop Response :=
  if x.request.session.Fits then .ok (respond (resolvedRequest x.request result) result)
  else .error .overflow

theorem conclusion_ne_failed (result : Result) (e : AuctionError) :
    conclusion x result ≠ .error (.failed e) := by
  unfold conclusion
  split <;> nofun

theorem value_conclude (result : Result) (t : Nat) :
    ((conclude s x result).run t).value = conclusion x result := by
  rw [run_conclude]
  unfold conclusion
  split <;> rfl

/-- An auction answers with the response to the result that it arrived at. -/
theorem run_ok {response : Response} (h : ((run policy s x).run t).value = .ok response) :
    ∃ result, ((build policy s x).run t).value = .ok result ∧
      response = respond (resolvedRequest x.request result) result := by
  rw [run_run] at h
  rcases hb : (build policy s x).run t with ⟨e | result, now, l⟩ <;> rw [hb] at h
  · cases h
  · change ((conclude s x result).run now).value = _ at h
    rw [value_conclude, conclusion] at h
    split at h
    · exact ⟨result, rfl, (Except.ok.inj h).symm⟩
    · cases h

/-- The time of its session fits then. -/
theorem fits_of_run_ok {response : Response} (h : ((run policy s x).run t).value = .ok response) :
    x.request.session.Fits := by
  rw [run_run] at h
  rcases hb : (build policy s x).run t with ⟨e | result, now, l⟩ <;> rw [hb] at h
  · cases h
  · change ((conclude s x result).run now).value = _ at h
    rw [value_conclude, conclusion] at h
    split at h
    · assumption
    · cases h

/-- A result is that of the round which the auction held. -/
theorem build_ok {result : Result} (h : ((build policy s x).run t).value = .ok result) :
    ∃ g round, ((prepare policy s x).run t).value = .ok g ∧
      ((bid policy s x g).run ((prepare policy s x).run t).finish).value = .ok round ∧
      result = g.result policy x.request round := by
  rw [run_build] at h
  obtain ⟨g, hg, h, -⟩ := Attempt.run_bind_ok h
  obtain ⟨round, hr, h, -⟩ := Attempt.run_bind_ok h
  refine ⟨g, round, hg, hr, ?_⟩
  dsimp only at h
  split at h
  · cases h
  · exact (Except.ok.inj h).symm

end

/-! ## Steps of the round -/

/-- What the steps of an auction are for its round. -/
def roundSteps (l : List (Timed Step)) : List (Timed Bidding.RoundStep) :=
  l.filterMap fun u =>
    match u.step with
    | .round r => some ⟨u.time, r⟩
    | _ => none

@[simp] theorem roundSteps_append (l l' : List (Timed Step)) :
    roundSteps (l ++ l') = roundSteps l ++ roundSteps l' := List.filterMap_append

theorem roundSteps_eq_nil {l : List (Timed Step)} (h : ∀ u ∈ l, ∀ r, u.step ≠ .round r) :
    roundSteps l = [] := by
  unfold roundSteps
  rw [List.filterMap_eq_nil_iff]
  intro u hu
  split
  · rename_i r hr
    exact absurd hr (h u hu r)
  · rfl

theorem roundSteps_of_takes {α : Type} {P : Step → Prop} {p : Activity Step α} (hp : Takes P p)
    (hP : ∀ r, ¬ P (.round r)) (t : Nat) : roundSteps (p t).steps = [] :=
  roundSteps_eq_nil fun u hu r hr => hP r (hr ▸ hp t u hu)

theorem roundSteps_map (l : List (Timed Bidding.RoundStep)) :
    roundSteps (l.map fun u => ⟨u.time, .round u.step⟩) = l := by
  unfold roundSteps
  rw [List.filterMap_map]
  exact List.filterMap_some

/-! ## Turning to the adapters -/

section

variable {policy : Policy} {s : Services} {x : Subject} {t : Nat}
variable {bidders : Bidding.Bidders} {listener : Bidding.Listener}

/-- The round of an auction is the round that is held with its settings. Where the adapters have none
it is the empty one, which asks nobody. -/
theorem run_bid (hs : s.rounds = .fanOut bidders listener) (g : Groundwork) (t : Nat) :
    (bid policy s x g).run t =
      match (roundSettings s x (g.allowed policy x.request) (.ofUnits g.units)).run t with
      | ⟨.error e, now, l⟩ => ⟨.error e, now, ⟨t, .entered .dispatching⟩ :: l⟩
      | ⟨.ok configs, now, l⟩ =>
        let c := Bidding.holdRound s.clock bidders listener (g.params policy s x configs now) now
        ⟨.ok c.value, c.finish, ⟨t, .entered .dispatching⟩ ::
          (l ++ c.steps.map fun u => ⟨u.time, .round u.step⟩)⟩ := by
  unfold bid
  rw [Attempt.run_bind_of_ok (run_enter .dispatching t)]
  rcases hc : (roundSettings s x (g.allowed policy x.request) (.ofUnits g.units)).run t with
    ⟨e | configs, now, l⟩
  · rw [Attempt.run_bind_of_error hc]
    rfl
  · rw [Attempt.run_bind_of_ok hc]
    by_cases he : configs.isEmpty = true
    · -- the empty round that stands in for a round without settings is the round of nobody
      have hn := Bidding.holdRound_of_nil s.clock bidders listener (g.params policy s x configs now) now
        (Bidding.dispatched_of_isEmpty he)
      dsimp only
      rw [if_pos he, hn]
      rfl
    · rw [if_neg he, Attempt.run_bind_of_ok (run_now now), Services.holdRound, hs, ExceptT.run_mk]
      show Course.mk _ _ (_ ++ (l ++ ([] ++ (_ ++ [])))) = _
      rw [List.append_nil, List.nil_append]
      rfl

/-- The settings of the adapters that may bid in an auction, as the auction gets them. -/
def settingsCourse (policy : Policy) (s : Services) (x : Subject) (t : Nat) (g : Groundwork) :
    Course Step (Except AuctionError InitConfigs) :=
  (roundSettings s x (g.allowed policy x.request) (.ofUnits g.units)).run
    ((prepare policy s x).run t).finish

/-- An auction that starts at `t` turns to the adapters: what it has settled by then, the settings that
its adapters have, and the instant at which these are there. -/
structure Dispatches (policy : Policy) (s : Services) (x : Subject) (t : Nat) (g : Groundwork)
    (configs : InitConfigs) (now : Nat) : Prop where
  prepared : ((prepare policy s x).run t).value = .ok g
  configs : configs = (settingsCourse policy s x t g).value.toOption.getD .empty
  now : now = (settingsCourse policy s x t g).finish

/-- In such an auction, steps and round of the bidding are those of the round that is held. -/
theorem bid_of_dispatches {g : Groundwork} {configs : InitConfigs} {now : Nat}
    (hs : s.rounds = .fanOut bidders listener) (h : Dispatches policy s x t g configs now) :
    let held := Bidding.holdRound s.clock bidders listener (g.params policy s x configs now) now
    let bidding := (bid policy s x g).run ((prepare policy s x).run t).finish
    roundSteps bidding.steps = held.steps ∧
      ∀ round, bidding.value = .ok round → round = held.value := by
  dsimp only
  obtain ⟨-, hconfigs, hnow⟩ := h
  have hl := roundSteps_of_takes (takes_roundSettings s x (g.allowed policy x.request) (.ofUnits g.units))
    (fun r ⟨l, hl⟩ => by cases hl) ((prepare policy s x).run t).finish
  unfold settingsCourse at hconfigs hnow
  rw [run_bid hs]
  rcases hc : (roundSettings s x (g.allowed policy x.request) (.ofUnits g.units)).run
    ((prepare policy s x).run t).finish with ⟨e | found, u, l⟩ <;>
    rw [hc] at hconfigs hnow hl <;> subst hconfigs hnow
  · -- without settings nobody is asked, which is the round of nobody
    rw [Bidding.holdRound_of_nil _ _ _ _ _ (Bidding.dispatched_of_isEmpty rfl)]
    exact ⟨hl, fun round h => by cases h⟩
  · constructor
    · show roundSteps (l ++ _) = _
      rw [roundSteps_append, roundSteps_map]
      exact congrArg (· ++ _) hl
    · rintro round ⟨⟩
      rfl

end

/-! ## Whole auctions -/

section

variable {policy : Policy} {s : Services} {x : Subject} {t : Nat}

/-- An auction goes as far as its result does, and then to the assembly of the response. -/
theorem steps_run : ∃ l, ((run policy s x).run t).steps = ((build policy s x).run t).steps ++ l ∧
    ∀ u ∈ l, u.step.stage = .assembling := by
  rw [run_run]
  rcases (build policy s x).run t with ⟨e | result, now, l⟩
  · exact ⟨[], (List.append_nil l).symm, List.forall_mem_nil _⟩
  · exact ⟨_, rfl, takes_conclude s x result now⟩

theorem resolve_of_error {e : AuctionError} (h : ((prepare policy s x).run t).value = .error e) :
    ((resolve policy s x).run t).value = .error e ∧
      ((resolve policy s x).run t).steps = ((prepare policy s x).run t).steps := by
  unfold resolve
  rcases hp : (prepare policy s x).run t with ⟨_ | g, now, l⟩ <;> rw [hp] at h <;> cases h
  rw [Attempt.run_bind_of_error hp]
  exact ⟨rfl, rfl⟩

theorem steps_resolve {g : Groundwork} (h : ((prepare policy s x).run t).value = .ok g) :
    ((resolve policy s x).run t).steps = ((prepare policy s x).run t).steps ++
      ((bid policy s x g).run ((prepare policy s x).run t).finish).steps := by
  unfold resolve
  rcases hp : (prepare policy s x).run t with ⟨_ | g, now, l⟩ <;> rw [hp] at h <;> cases h
  rw [Attempt.run_bind_of_ok hp]
  rcases hb : (bid policy s x g).run now with ⟨e | round, now', l'⟩
  · rw [Attempt.run_bind_of_error hb]
  · rw [Attempt.run_bind_of_ok hb]
    dsimp only
    split <;> exact congrArg (l ++ ·) (List.append_nil l')

/-- An auction turns to the adapters. -/
def ReachesDispatch (policy : Policy) (s : Services) (x : Subject) (t : Nat) : Prop :=
  ∃ u ∈ ((run policy s x).run t).steps, u.step = .entered .dispatching

/-- An auction that has settled everything before its round turns to the adapters, and no other does. -/
theorem reachesDispatch_iff : ReachesDispatch policy s x t ↔
    ∃ g, ((prepare policy s x).run t).value = .ok g := by
  obtain ⟨l, hl, hassembling⟩ := @steps_run policy s x t
  unfold ReachesDispatch
  rw [hl, run_build]
  rcases hp : ((prepare policy s x).run t).value with e | g
  · obtain ⟨hvalue, hsteps⟩ := resolve_of_error hp
    rw [hvalue, hsteps]
    simp only [List.mem_append, List.mem_singleton]
    constructor
    · -- the stages before the round, the failure, and the assembly: none is the dispatch
      rintro ⟨u, (hu | rfl) | hu, he⟩
      · have hstage := takes_prepare policy s x t u hu
        rw [he] at hstage
        rcases hstage with h | h <;> cases h
      · cases he
      · have hstage := hassembling u hu
        rw [he] at hstage
        cases hstage
    · rintro ⟨g, hg⟩
      cases hg
  · refine ⟨fun _ => ⟨g, rfl⟩, fun _ => ?_⟩
    rw [steps_resolve hp]
    refine ⟨⟨((prepare policy s x).run t).finish, .entered .dispatching⟩, ?_, rfl⟩
    refine List.mem_append_left _ (List.mem_append_left _ (List.mem_append_right _ ?_))
    unfold bid
    rw [Attempt.run_bind_of_ok (run_enter .dispatching _)]
    exact List.mem_cons_self

theorem exists_dispatches (h : ReachesDispatch policy s x t) :
    ∃ g configs now, Dispatches policy s x t g configs now :=
  (reachesDispatch_iff.1 h).imp fun _ hg => ⟨_, _, hg, rfl, rfl⟩

section

variable {bidders : Bidding.Bidders} {listener : Bidding.Listener}
variable {g : Groundwork} {configs : InitConfigs} {now : Nat}

/-- What an auction does by way of a round, from its first step to its last one, is what the round does
that is held with the groundwork and the settings. -/
theorem roundSteps_run (hs : s.rounds = .fanOut bidders listener)
    (h : Dispatches policy s x t g configs now) : roundSteps ((run policy s x).run t).steps =
      (Bidding.holdRound s.clock bidders listener (g.params policy s x configs now) now).steps := by
  obtain ⟨l, hl, hassembling⟩ := @steps_run policy s x t
  have hbefore : roundSteps ((prepare policy s x).run t).steps = [] := by
    refine roundSteps_of_takes (takes_prepare policy s x) ?_ t
    rintro r (h | h) <;> cases h
  have hafter : roundSteps l = [] := by
    refine roundSteps_eq_nil fun u hu r hr => ?_
    have hstage := hassembling u hu
    rw [hr] at hstage
    cases hstage
  rw [hl, run_build, steps_resolve h.prepared]
  simp only [roundSteps_append, hbefore, hafter, (bid_of_dispatches hs h).1]
  rw [List.nil_append, List.append_nil]
  exact List.append_nil _

/-- A result is that of the groundwork and the round that was held with it. -/
theorem build_ok_of_dispatches (hs : s.rounds = .fanOut bidders listener)
    (h : Dispatches policy s x t g configs now) {result : Result}
    (hb : ((build policy s x).run t).value = .ok result) : result = g.result policy x.request
      (Bidding.holdRound s.clock bidders listener (g.params policy s x configs now) now).value := by
  obtain ⟨g', round, hg, hround, rfl⟩ := build_ok hb
  rw [h.prepared] at hg
  cases hg
  rw [(bid_of_dispatches hs h).2 round hround]

end

end

end Auction

end Mediation
