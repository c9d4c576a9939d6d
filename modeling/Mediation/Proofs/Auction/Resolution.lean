/-
How an auction comes to its configuration. The segments are fetched once, before anything is looked up. A key
leads to the configuration that it is the number of, and to nothing else; without a key the configuration is
matched, once, for the segment of the request. A store of segments that fails is like one that has none.
-/
import Mediation.Proofs.Auction.Precedence

namespace Mediation.Auction

open Activity

/-! ## Routes -/

/-- The segment of a request, by the answer of the store of segments: the first one that accepts the request,
or the zero segment if none does or the store fails. -/
inductive Chosen (p : Segment.Params) : Except AuctionError (List Segment) → Segment → Prop where
  | first {before after : List Segment} {g : Segment} (hbefore : ∀ h ∈ before, h.accepts p = false)
    (hg : g.accepts p) : Chosen p (.ok (before ++ g :: after)) g
  | none {l : List Segment} (h : ∀ g ∈ l, g.accepts p = false) : Chosen p (.ok l) .zero
  | failed (e : AuctionError) : Chosen p (.error e) .zero

/-- The number that a key denotes in base 32, if it fits 128 bits. -/
def Denotes (key : String) (n : Nat) : Prop := Text.plusNatural? 32 key.toList = some n ∧ n < keyBound

/-- The lookups that lead from a request to its configuration, and what they come to. -/
inductive Route (s : Services) (x : Subject) : List ConfigLookup → Except AuctionError Config → Prop where
  /-- A key that is no number leads nowhere. -/
  | unreadable (hkey : x.request.impression.auctionKey ≠ "")
    (h : ∀ n, ¬ Denotes x.request.impression.auctionKey n) : Route s x [] (.error .invalidAuctionKey)
  /-- A number leads to the configuration that has it, if there is one. -/
  | pinned {n : Nat} (hkey : x.request.impression.auctionKey ≠ "")
    (hn : Denotes x.request.impression.auctionKey n) :
    Route s x [.byUid x.appId "0" (toString n)]
      ((s.configs.byUid x.appId "0" (toString n)).answer.elim (.error .invalidAuctionKey) .ok)
  /-- Without a key the configuration is matched, and whatever the store fails with, there is no ad. -/
  | matched {g : Segment} (hkey : x.request.impression.auctionKey = "")
    (hg : Chosen ⟨x.geo.country, x.request.segment.ext⟩ (s.segments x.appId).answer g) :
    Route s x [.matching x.appId x.request.adType g.id x.request.sdkVersion]
      ((s.configs.matching x.appId x.request.adType g.id x.request.sdkVersion).answer.mapError
        fun _ => .noAdsFound)

theorem chosen_firstMatch (l : List Segment) (p : Segment.Params) : Chosen p (.ok l) (.firstMatch l p) := by
  unfold Segment.firstMatch
  cases hfind : l.find? (·.accepts p) with
  | none =>
    rw [List.find?_eq_none] at hfind
    exact .none fun g hg => by simpa using hfind g hg
  | some g =>
    obtain ⟨hg, before, after, rfl, hbefore⟩ := List.find?_eq_some_iff_append.1 hfind
    exact .first (fun h hh => by simpa using hbefore h hh) hg

theorem chosen_segmentOf (s : Services) (x : Subject) :
    Chosen ⟨x.geo.country, x.request.segment.ext⟩ (s.segments x.appId).answer (segmentOf s x) := by
  unfold segmentOf
  cases (s.segments x.appId).answer with
  | ok l => exact chosen_firstMatch l _
  | error e => exact .failed e

theorem Chosen.unique {p : Segment.Params} {answer : Except AuctionError (List Segment)} {g g' : Segment}
    (h : Chosen p answer g) (h' : Chosen p answer g') : g = g' := by
  have hmatch : ∀ {l : List Segment} {g : Segment}, Chosen p (.ok l) g → g = .firstMatch l p := by
    intro l g h
    unfold Segment.firstMatch
    cases h with
    | first hbefore hg =>
      rw [List.find?_append, List.find?_eq_none.2 (by simpa using hbefore), Option.none_or]
      simp [hg]
    | none hnone =>
      rw [List.find?_eq_none.2 (by simpa using hnone)]
      rfl
  cases answer with
  | ok l => rw [hmatch h, hmatch h']
  | error e =>
    cases h
    cases h'
    rfl

theorem Denotes.unique {key : String} {n m : Nat} (hn : Denotes key n) (hm : Denotes key m) : n = m :=
  Option.some.inj (hn.1.symm.trans hm.1)

/-- A key is decoded into the decimal digits of the number that it denotes. -/
theorem decodeKey_of_denotes {key : String} {n : Nat} (h : Denotes key n) :
    decodeKey key = .ok (toString n) := by
  unfold decodeKey
  rw [h.1]
  exact if_pos h.2

theorem decodeKey_of_not_denotes {key : String} (h : ∀ n, ¬ Denotes key n) :
    decodeKey key = .error .invalidAuctionKey := by
  unfold decodeKey
  split
  · rename_i n hn
    exact if_neg fun hbound => h n ⟨hn, hbound⟩
  · rfl

/-- A configuration that is not found is an invalid key to whoever asked for it. -/
theorem answer_reply_byUid (c : ConfigStore) (appId : Int64) (id uid : String) :
    (c.reply (.byUid appId id uid)).answer =
      (c.byUid appId id uid).answer.elim (.error .invalidAuctionKey) .ok := by
  unfold ConfigStore.reply
  dsimp only
  cases (c.byUid appId id uid).answer <;> rfl

section

variable (s : Services) (x : Subject)

/-- The lookups of an auction: one, unless the key cannot be read. -/
def lookups : List ConfigLookup := (lookupOf s x).toOption.toList

theorem route_resolution : Route s x (lookups s x) (resolution s x) := by
  unfold lookups resolution lookupOf
  by_cases hkey : x.request.impression.auctionKey.isEmpty = true
  · rw [if_pos hkey]
    exact .matched (String.isEmpty_iff.1 hkey) (chosen_segmentOf s x)
  · rw [if_neg hkey]
    have hne : x.request.impression.auctionKey ≠ "" := fun h => hkey (String.isEmpty_iff.2 h)
    by_cases hn : ∃ n, Denotes x.request.impression.auctionKey n
    · obtain ⟨n, hn⟩ := hn
      have hroute := Route.pinned (s := s) hne hn
      rw [decodeKey_of_denotes hn]
      rw [← answer_reply_byUid] at hroute
      exact hroute
    · have hnone := not_exists.1 hn
      rw [decodeKey_of_not_denotes hnone]
      exact .unreadable hne hnone

end

/-- The key decides which route is taken, and the stores decide what it comes to. -/
theorem Route.unique {s : Services} {x : Subject} {ls ls' : List ConfigLookup}
    {r r' : Except AuctionError Config} (h : Route s x ls r) (h' : Route s x ls' r') : ls = ls' ∧ r = r' := by
  cases h with
  | unreadable hkey hnone =>
    cases h' with
    | unreadable => exact ⟨rfl, rfl⟩
    | pinned _ hn => exact absurd hn (hnone _)
    | matched hempty _ => exact absurd hempty hkey
  | pinned hkey hn =>
    cases h' with
    | unreadable _ hnone => exact absurd hn (hnone _)
    | pinned _ hn' =>
      obtain rfl := hn.unique hn'
      exact ⟨rfl, rfl⟩
    | matched hempty _ => exact absurd hempty hkey
  | matched hempty hg =>
    cases h' with
    | unreadable hkey _ | pinned hkey _ => exact absurd hempty hkey
    | matched _ hg' =>
      obtain rfl := hg.unique hg'
      exact ⟨rfl, rfl⟩

/-- Without a key there is no invalid one. -/
theorem Route.ne_invalidAuctionKey {s : Services} {x : Subject} {ls : List ConfigLookup}
    {r : Except AuctionError Config} (h : Route s x ls r) (hkey : x.request.impression.auctionKey = "") :
    r ≠ .error .invalidAuctionKey := by
  cases h with
  | unreadable hne _ | pinned hne _ => exact absurd hkey hne
  | @matched g _ _ =>
    cases (s.configs.matching x.appId x.request.adType g.id x.request.sdkVersion).answer <;> nofun

/-! ## Lookups of an auction -/

/-- A step on the way to the configuration: the segments are fetched, or the configuration is looked up. -/
def Step.isLookup : Step → Bool
  | .segmentsFetched _ | .configLooked _ => true
  | _ => false

theorem filter_isLookup_eq_nil {l : List (Timed Step)} (h : ∀ u ∈ l, u.step.stage ≠ .resolving) :
    l.filter (·.step.isLookup) = [] := by
  rw [List.filter_eq_nil_iff]
  intro u hu
  have hstage := h u hu
  cases hstep : u.step <;> simp_all [Step.stage, Step.isLookup]

/-- What comes after resolving looks nothing up. -/
theorem filter_isLookup_bind {ε α β : Type} (p : Attempt ε Step α) {f : α → Attempt ε Step β}
    (hf : ∀ a, Takes (·.stage ≠ .resolving) (f a).run) (t : Nat) :
    ((p >>= f).run t).steps.filter (·.step.isLookup) = (p.run t).steps.filter (·.step.isLookup) := by
  obtain ⟨l, hsteps, hl⟩ := Attempt.steps_bind (p := p) hf t
  rw [hsteps, List.filter_append, filter_isLookup_eq_nil hl, List.append_nil]

theorem ne_resolving_of_eq {stage : Stage} (h : stage ≠ .resolving) (u : Step) (hu : u.stage = stage) :
    u.stage ≠ .resolving := hu ▸ h

section

variable (policy : Policy) (s : Services) (x : Subject) (t : Nat)

/-- The steps of finding the configuration, for an auction that starts at `t`. -/
def lookupSteps : List (Timed Step) :=
  ⟨t, .segmentsFetched x.appId⟩ ::
    (lookups s x).map fun l => ⟨t + (s.segments x.appId).delay, .configLooked l⟩

theorem filter_isLookup_settle :
    ((settle s x).run t).steps.filter (·.step.isLookup) = lookupSteps s x t := by
  rw [run_settle]
  unfold lookupSteps lookups
  cases lookupOf s x <;> rfl

theorem filter_isLookup_prepare :
    ((prepare policy s x).run t).steps.filter (·.step.isLookup) = lookupSteps s x t := by
  unfold prepare
  rw [Attempt.run_bind_of_ok (run_now t)]
  dsimp only
  rw [List.nil_append, filter_isLookup_bind, filter_isLookup_settle]
  rintro ⟨segment, c⟩
  refine Takes.attempt_bind ((takes_matchUnits policy s x c).imp ?_) fun _ => takes_pure _
  exact ne_resolving_of_eq (by decide)

theorem filter_isLookup_run :
    ((run policy s x).run t).steps.filter (·.step.isLookup) = lookupSteps s x t := by
  have hresolve : ((resolve policy s x).run t).steps.filter (·.step.isLookup) = lookupSteps s x t := by
    unfold resolve
    rw [filter_isLookup_bind, filter_isLookup_prepare]
    intro g
    refine Takes.attempt_bind ((takes_bid policy s x g).imp ?_) fun round => takes_check policy x g round
    exact ne_resolving_of_eq (by decide)
  unfold run
  rw [filter_isLookup_bind, Attempt.run_adapt, run_build, List.filter_append, hresolve]
  · exact List.append_nil _
  · exact fun result => (takes_conclude s x result).imp (ne_resolving_of_eq (by decide))

/-- The configuration of a request, from its segment. -/
def resolver : Action Config := do
  let segment ← resolveSegment s x
  resolveConfig s.configs x.appId x.request.adType segment.id x.request.impression.auctionKey
    x.request.sdkVersion

theorem run_resolver : ((resolver s x).run t).value = resolution s x ∧
    ((resolver s x).run t).steps = lookupSteps s x t := by
  unfold resolver resolution lookupSteps lookups
  rw [Attempt.run_bind_of_ok (run_resolveSegment s x t), run_resolveConfig]
  cases lookupOf s x <;> exact ⟨rfl, rfl⟩

end

/-! ## What an auction makes of it -/

section

variable {policy : Policy} {s : Services} {x : Subject} {t : Nat}

theorem run_of_resolution_error {e : AuctionError} (h : resolution s x = .error e) :
    ((run policy s x).run t).value = .error (.failed e) := by
  have hprepare : ((prepare policy s x).run t).value = .error e := by
    rw [value_prepare, h]
    rfl
  rw [value_run, (resolve_of_error hprepare).1]
  rfl

theorem resolution_of_prepare {g : Groundwork} (h : ((prepare policy s x).run t).value = .ok g) :
    resolution s x = .ok g.config := by
  revert h
  rw [value_prepare]
  rcases resolution s x with e | c
  · nofun
  dsimp only [Except.bind]
  rcases withUnitIds s x c with e | _
  · nofun
  dsimp only
  rcases (s.adUnits (opportunity policy x c)).answer with e | units
  · nofun
  dsimp only
  rcases withAdapters policy x.request c units with e | units
  · nofun
  · rintro ⟨⟩
    rfl

theorem resolution_of_run {response : Response} (h : ((run policy s x).run t).value = .ok response) :
    ∃ c, resolution s x = .ok c ∧ response.configId = c.id ∧ response.configUid = c.uid := by
  obtain ⟨result, hresult, rfl⟩ := run_ok h
  obtain ⟨g, round, hg, -, rfl⟩ := build_ok hresult
  exact ⟨g.config, resolution_of_prepare hg, rfl, rfl⟩

/-! ## A store that fails -/

variable {segments : Int64 → Reply (Except AuctionError (List Segment))} {e : AuctionError}

/-- A store of segments that fails for the app gives what one gives that has no segments for it. -/
theorem resolveSegment_of_failed (hfailed : (s.segments x.appId).answer = .error e)
    (hempty : segments x.appId = ⟨(s.segments x.appId).delay, .ok []⟩) :
    resolveSegment { s with segments := segments } x = resolveSegment s x := by
  have hsegment : segmentOf { s with segments := segments } x = segmentOf s x := by
    unfold segmentOf
    dsimp only
    rw [hempty, hfailed]
    rfl
  funext t
  have hrun := run_resolveSegment { s with segments := segments } x t
  rw [hsegment] at hrun
  dsimp only at hrun
  rw [hempty] at hrun
  exact hrun.trans (run_resolveSegment s x t).symm

theorem run_of_failed (hfailed : (s.segments x.appId).answer = .error e)
    (hempty : segments x.appId = ⟨(s.segments x.appId).delay, .ok []⟩) :
    run policy { s with segments := segments } x = run policy s x := by
  unfold run build resolve prepare settle
  -- nothing else reads the segments
  rw [resolveSegment_of_failed hfailed hempty]
  rfl

end

/-! ## One route -/

/-- There is one route from a request to its configuration. The resolver takes it and nothing else: it fetches
the segments once, makes the lookups of the route when they are there, and comes to what the route comes to;
without a key that is never an invalid key. An auction makes no other lookup, fails if the route fails, goes on
with the configuration that the route leads to, and names it in its answer. Where the store of segments fails,
it goes as if there were none. -/
theorem config_by_one_route (policy : Policy) (s : Services) (x : Subject) (t : Nat) :
    (∃ lookups result,
      (∀ lookups' result', Route s x lookups' result' ↔ lookups' = lookups ∧ result' = result) ∧
      ((resolver s x).run t).value = result ∧
      ((resolver s x).run t).steps = ⟨t, .segmentsFetched x.appId⟩ ::
        lookups.map (fun l => ⟨t + (s.segments x.appId).delay, .configLooked l⟩) ∧
      ((run policy s x).run t).steps.filter (·.step.isLookup) = ((resolver s x).run t).steps ∧
      (x.request.impression.auctionKey = "" → result ≠ .error .invalidAuctionKey) ∧
      (∀ e, result = .error e → ((run policy s x).run t).value = .error (.failed e)) ∧
      (∀ g, ((prepare policy s x).run t).value = .ok g → result = .ok g.config) ∧
      ∀ response, ((run policy s x).run t).value = .ok response →
        ∃ c, result = .ok c ∧ response.configId = c.id ∧ response.configUid = c.uid) ∧
    ∀ segments e, (s.segments x.appId).answer = .error e →
      segments x.appId = ⟨(s.segments x.appId).delay, .ok []⟩ →
      (run policy { s with segments := segments } x).run t = (run policy s x).run t := by
  have hroute := route_resolution s x
  obtain ⟨hvalue, hsteps⟩ := run_resolver s x t
  refine ⟨⟨lookups s x, resolution s x, fun lookups' result' => ⟨fun h => h.unique hroute, ?_⟩, hvalue, hsteps,
    (filter_isLookup_run policy s x t).trans hsteps.symm, hroute.ne_invalidAuctionKey,
    fun _ => run_of_resolution_error, fun _ => resolution_of_prepare, fun _ => resolution_of_run⟩,
    fun segments e hfailed hempty => ?_⟩
  · rintro ⟨rfl, rfl⟩
    exact hroute
  · rw [run_of_failed hfailed hempty]

/-- The store of segments fails after three milliseconds. -/
def segmentlessServices : Services :=
  { soleBidderServices with segments := fun _ => ⟨3, .error (.store "segments")⟩ }

/-- The request is pinned to the configuration with the number 32. -/
def pinnedSubject : Subject :=
  ⟨1, { impression := { auctionId := "a", auctionKey := "10" } }, {}⟩

/-- The one lookup is made when the store has failed; since it finds nothing, the key is invalid, and with a
store without segments it goes the same. -/
theorem config_by_one_route_pinned :
    ((run {} segmentlessServices pinnedSubject).run 0).steps.filter (·.step.isLookup) =
      [⟨0, .segmentsFetched 1⟩, ⟨3, .configLooked (.byUid 1 "0" "32")⟩] ∧
    ((run {} segmentlessServices pinnedSubject).run 0).value = .error (.failed .invalidAuctionKey) ∧
    (run {} { segmentlessServices with segments := fun _ => ⟨3, .ok []⟩ } pinnedSubject).run 0 =
      (run {} segmentlessServices pinnedSubject).run 0 := by
  obtain ⟨⟨lookups, result, hroute, -, hsteps, hrun, -, herror, -⟩, hfailed⟩ :=
    config_by_one_route {} segmentlessServices pinnedSubject 0
  have hpinned : Route segmentlessServices pinnedSubject [.byUid 1 "0" "32"] (.error .invalidAuctionKey) :=
    .pinned (n := 32) (by decide) ⟨by decide +kernel, by decide⟩
  obtain ⟨rfl, rfl⟩ := (hroute _ _).1 hpinned
  exact ⟨hrun.trans hsteps, herror _ rfl, hfailed _ _ rfl rfl⟩

end Mediation.Auction
