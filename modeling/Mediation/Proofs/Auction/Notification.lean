/-
What the listener of a round learns, and what comes of it. It is told once, when the last call has ended, of all
the answers there are; it is told nothing where nobody could be asked. What it makes of that is nobody's concern:
the round is the same whatever the listener, and whatever the bidders do there is a round.
-/
import Mediation.Proofs.Auction.Eligibility

namespace Mediation

namespace Bidding

/-! ## Who is asked -/

/-- An adapter may be asked in a round: it is allowed and installed, the client holds a token of it, and it has
settings. -/
structure MayBeAsked (p : Params) (a : Adapter) : Prop where
  allowed : a ∈ p.allowed
  installed : a ∈ p.request.adapterKeys
  token : (p.request.impression.token a).isSome
  settings : p.initConfigs.contains a

theorem mem_dispatched_iff {p : Params} {a : Adapter} : a ∈ p.dispatched ↔ MayBeAsked p a := by
  rw [dispatched_eq_filter, List.mem_filter, Bool.and_eq_true, Bool.and_eq_true, List.contains_iff_mem]
  exact ⟨fun ⟨hallowed, ⟨hinstalled, htoken⟩, hsettings⟩ => ⟨hallowed, hinstalled, htoken, hsettings⟩,
    fun ⟨hallowed, hinstalled, htoken, hsettings⟩ => ⟨hallowed, ⟨hinstalled, htoken⟩, hsettings⟩⟩

theorem dispatched_ne_nil_iff {p : Params} : p.dispatched ≠ [] ↔ ∃ a, MayBeAsked p a := by
  rw [Ne, List.eq_nil_iff_forall_not_mem, not_forall]
  simp only [Classical.not_not, mem_dispatched_iff]

end Bidding

namespace Auction

open Bidding

/-! ## What the listener learns -/

/-- The steps of a round in which somebody is asked. The bidders are called, and then the listener is told: of all the
answers, and not before the last call has been answered or cut off. -/
structure TellsOnce (bidders : Bidders) (p : Params) (start : Nat) (round : Round) (steps : List (Timed Step)) :
    Prop where
  steps : steps = (calls bidders p start).map (fun c => ⟨start, .round (.called c)⟩) ++
    [⟨roundEnd bidders p start,
      .round (.notified ⟨p.request.impression, round, p.request.app.bundle, p.request.adType⟩)⟩]
  ended : ∀ a, MayBeAsked p a → callEnd p start (bidders.get? a) ≤ roundEnd bidders p start
  last : ∃ a, MayBeAsked p a ∧ callEnd p start (bidders.get? a) = roundEnd bidders p start

section

variable (s : Services) (bidders : Bidders) (listener : Listener) (p : Params) (start : Nat)

/-- Services that hold rounds by asking some bidders and then tell a listener. -/
def Services.telling : Services := { s with rounds := .fanOut bidders listener }

theorem holdRound_telling : (s.telling bidders listener).holdRound p start =
    ⟨.ok (Bidding.holdRound s.clock bidders listener p start).value,
      (Bidding.holdRound s.clock bidders listener p start).finish,
      (Bidding.holdRound s.clock bidders listener p start).steps.map fun u => ⟨u.time, .round u.step⟩⟩ := by
  show Course.mk _ _ (_ ++ []) = _
  rw [List.append_nil]
  rfl

theorem tellsOnce_holdRound (h : ∃ a, MayBeAsked p a) : TellsOnce bidders p start
    (Bidding.holdRound s.clock bidders listener p start).value
    ((s.telling bidders listener).holdRound p start).steps where
  steps := by
    rw [holdRound_telling, steps_holdRound _ _ _ _ _ (dispatched_ne_nil_iff.2 h), List.map_append, List.map_map]
    rfl
  ended _ ha := callEnd_le_roundEnd bidders p start (mem_dispatched_iff.2 ha)
  last := by
    obtain ⟨a, ha, hend⟩ := exists_callEnd_eq_roundEnd bidders p start (dispatched_ne_nil_iff.2 h)
    exact ⟨a, mem_dispatched_iff.1 ha, hend⟩

end

/-- Every round comes to a result, whatever its bidders do, and to the same one whatever its listener makes of it: an
answer at least for each adapter that may be asked. If there is one, the listener is told exactly once, of that result
and of the impression, the app and the placement type it is for, when all calls have been answered or cut off. If
there is none, nobody is called and the listener is not told. -/
theorem holdRound_tells (s : Services) (bidders : Bidders) (p : Params) (start : Nat) :
    ∃ round : Round,
      round.responses = (p.dispatched.flatMap fun a => block p start a (bidders.get? a)).map
        (stamp p (s.clock.millis (roundEnd bidders p start))) ∧
      (∀ a, a ∈ p.dispatched ↔ MayBeAsked p a) ∧ (∀ a, block p start a (bidders.get? a) ≠ []) ∧
      ∀ listener, ((s.telling bidders listener).holdRound p start).value = .ok round ∧
        ((∃ a, MayBeAsked p a) →
          TellsOnce bidders p start round ((s.telling bidders listener).holdRound p start).steps) ∧
        ((∀ a, ¬ MayBeAsked p a) → ((s.telling bidders listener).holdRound p start).steps = []) := by
  refine ⟨{ responses := _ }, rfl, fun a => mem_dispatched_iff, fun a => block_ne_nil p start a _,
    fun listener => ⟨?_, fun h => ?_, fun h => ?_⟩⟩
  · rw [holdRound_telling, value_holdRound]
  · rw [← value_holdRound s.clock bidders listener p start]
    exact tellsOnce_holdRound s bidders listener p start h
  · have hnil : p.dispatched = [] := Classical.not_not.1 fun hne => (dispatched_ne_nil_iff.1 hne).elim h
    rw [holdRound_telling, holdRound_of_nil _ _ _ _ _ hnil]
    rfl

/-- Services of which only the clock matters to a round. -/
def idleServices : Services := fixedServices { id := 1, uid := "1", adUnitIds := [] } [] [] []

/-- A listener that fails after a while, and one that does not. -/
def failingListener : Listener := fun _ => ⟨50, .error (.store "down")⟩

def quietListener : Listener := fun _ => ⟨0, .ok ()⟩

/-- A mixed round calls the four bidders there are at its start and tells its listener when the time is up, and its
result does not show that the listener failed. Without an allowed adapter nothing happens. -/
theorem holdRound_tells_mixed : ∃ round : Round, round.responses.length = 6 ∧
    ((idleServices.telling (.ofList mixedBidders) failingListener).holdRound mixedRound 5).value = .ok round ∧
    ((idleServices.telling (.ofList mixedBidders) quietListener).holdRound mixedRound 5).value = .ok round ∧
    ((idleServices.telling (.ofList mixedBidders) failingListener).holdRound mixedRound 5).steps.map (·.time) =
      [5, 5, 5, 5, 10] ∧
    ((idleServices.telling (.ofList mixedBidders) failingListener).holdRound
      { mixedRound with allowed := [] } 5).steps = [] := by
  obtain ⟨round, hround, -, -, hheld⟩ := holdRound_tells idleServices (.ofList mixedBidders) mixedRound 5
  obtain ⟨hfailing, htells, -⟩ := hheld failingListener
  obtain ⟨_, -, -, -, hnobody⟩ :=
    holdRound_tells idleServices (.ofList mixedBidders) { mixedRound with allowed := [] } 5
  have hadmob : MayBeAsked mixedRound .admob := mem_dispatched_iff.1 (by decide +kernel)
  have htold := htells ⟨.admob, hadmob⟩
  have hend : roundEnd (.ofList mixedBidders) mixedRound 5 = 10 := by
    obtain ⟨a, ha, hlast⟩ := htold.last
    have hended := htold.ended .admob hadmob
    have hcut : callEnd mixedRound 5 ((Dict.ofList mixedBidders : Bidders).get? .admob) = 10 := by decide +kernel
    have hall : ∀ a ∈ mixedRound.dispatched,
        callEnd mixedRound 5 ((Dict.ofList mixedBidders : Bidders).get? a) ≤ 10 := by decide +kernel
    have hle := hall a (mem_dispatched_iff.2 ha)
    omega
  refine ⟨round, ?_, hfailing, (hheld quietListener).1, ?_, ?_⟩
  · rw [hround]
    decide +kernel
  · rw [htold.steps, List.map_append, List.map_map, hend]
    show ((calls (.ofList mixedBidders) mixedRound 5).map fun _ => 5) ++ [10] = [5, 5, 5, 5, 10]
    decide +kernel
  · exact (hnobody failingListener).2.2 fun a ha => List.not_mem_nil ha.allowed

end Auction

end Mediation
