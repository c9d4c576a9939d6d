/-
The deadline of an auction. The time that an auction may take is its timeout, or less if the client waits
for less. It runs from the start of the auction, so what the stores take of it the bidders do not have
any more. They are told what is left, and when nothing is left they are still asked, but not waited for.
-/
import Mediation.Proofs.Auction.Precedence
import Mediation.Settings.Reader

namespace Mediation

/-! ## Settings -/

namespace Settings

/-- Settings that the service runs under: the default ones, or those of some document and variables. -/
def Obtainable (s : Settings) : Prop :=
  s = {} ∨ ∃ document environment, read document environment = .ok s

theorem Obtainable.isValid {s : Settings} (h : s.Obtainable) : s.isValid := by
  rcases h with rfl | ⟨document, environment, h⟩
  · decide
  · exact isValid_of_read h

theorem Obtainable.defaultTimeout_pos {s : Settings} (h : s.Obtainable) :
    0 < s.policy.defaultTimeout.toNat := by
  have hvalid := h.isValid
  unfold Settings.isValid at hvalid
  rw [Bool.and_eq_true, Bool.and_eq_true, bne_iff_ne] at hvalid
  exact Nat.pos_of_ne_zero fun h => hvalid.1.1 (UInt32.toNat_inj.1 h)

end Settings

namespace Auction

/-! ## Time for an auction -/

/-- The greatest number of milliseconds that a timeout can be. -/
def longestTimeout : Int := 0xFFFFFFFF

/-- The timeout of a configuration in milliseconds, or a default where it sets none. -/
def timeoutMillis (c : Config) (default : UInt32) : Int :=
  if 0 < c.timeout.toInt then min c.timeout.toInt longestTimeout else default.toNat

theorem toNat_timeoutOr (c : Config) (default : UInt32) :
    ((c.timeoutOr default).toNat : Int) = timeoutMillis c default := by
  unfold Config.timeoutOr timeoutMillis longestTimeout
  split
  · rw [UInt32.toNat_ofNat', UInt32.size]
    omega
  · rfl

/-- An auction takes its timeout, or as long as the client waits if that is less. -/
theorem budget_eq (policy : Policy) (r : Request) (c : Config) : (budget policy r c : Int) =
    if 0 < r.tmax.toInt then min (timeoutMillis c policy.defaultTimeout) r.tmax.toInt
    else timeoutMillis c policy.defaultTimeout := by
  rw [← toNat_timeoutOr]
  unfold budget
  dsimp only
  split
  · omega
  · rfl

theorem timeoutMillis_bounds (c : Config) {default : UInt32} (h : 0 < default.toNat) :
    1 ≤ timeoutMillis c default ∧ timeoutMillis c default ≤ longestTimeout := by
  have hlt := default.toNat_lt
  unfold timeoutMillis longestTimeout
  split <;> omega

theorem budget_bounds {policy : Policy} (h : 0 < policy.defaultTimeout.toNat) (r : Request) (c : Config) :
    1 ≤ budget policy r c ∧ (budget policy r c : Int) ≤ longestTimeout := by
  have hbudget := budget_eq policy r c
  have htimeout := timeoutMillis_bounds c h
  split at hbudget <;> omega

end Auction

/-! ## Rounds with a deadline -/

namespace Bidding

theorem lastArrival_le {start bound : Nat} {l : List Arrival} (hstart : start ≤ bound)
    (h : ∀ e ∈ l, e.time ≤ bound) : lastArrival start l ≤ bound := by
  unfold lastArrival
  induction l generalizing start with
  | nil => exact hstart
  | cons e l ih =>
    exact ih (Nat.max_le.2 ⟨hstart, h e List.mem_cons_self⟩) fun e' he' => h e' (List.mem_cons_of_mem _ he')

section

variable (bidders : Bidders) (p : Params) (start : Nat)

/-- However long a bidder takes, its call has ended when the time is up, or at once if it was up before. -/
theorem time_arrival_le (place : Nat) (a : Adapter) :
    (arrival bidders p start place a).time ≤ max start p.deadline := by
  unfold arrival
  cases bidders.get? a with
  | none => exact Nat.le_max_left _ _
  | some b =>
    dsimp only
    split
    · -- an answer that is heard after the deadline takes no time
      rename_i h
      rcases heard_iff.1 h with hdelay | hdelay
      · dsimp only
        rw [hdelay]
        exact Nat.le_max_left _ _
      · exact Nat.le_trans hdelay (Nat.le_max_right _ _)
    · exact Nat.le_refl _

theorem roundEnd_le : roundEnd bidders p start ≤ max start p.deadline := by
  refine lastArrival_le (Nat.le_max_left _ _) fun e he => ?_
  rw [(arrivals_perm bidders p start).mem_iff] at he
  obtain ⟨⟨a, place⟩, -, rfl⟩ := List.mem_map.1 he
  exact time_arrival_le bidders p start place a

end

/-- What bidders are told of the time: what is left of it, and nothing when it is up. -/
theorem toInt_remaining {p : Params} {now : Nat} (h : p.deadline - now < Int64.maxValue.toInt.toNat) :
    (p.remaining now).toInt = max 0 ((p.deadline : Int) - now) := by
  unfold Params.remaining
  rw [Nat.min_eq_left (Nat.le_of_lt h), Int64.toInt_ofNat_of_lt (Nat.lt_trans h (by decide))]
  omega

end Bidding

namespace Auction

open Activity

/-! ## From the start to the round -/

section

variable (policy : Policy) (s : Services) (x : Subject)

theorem forward_settle : Forward (settle s x).run := by
  intro t
  rw [run_settle]
  rcases lookupOf s x with e | l
  · refine ⟨Nat.le_add_right _ _, fun u hu => ?_⟩
    simp only [List.mem_cons, List.not_mem_nil, or_false] at hu
    obtain rfl | rfl := hu <;> exact Nat.le_refl t
  · refine ⟨Nat.le_trans (Nat.le_add_right _ _) (Nat.le_add_right _ _), fun u hu => ?_⟩
    simp only [List.mem_cons, List.not_mem_nil, or_false] at hu
    obtain rfl | rfl | rfl := hu
    · exact Nat.le_refl t
    · exact Nat.le_refl t
    · exact Nat.le_add_right _ _

theorem forward_prepare : Forward (prepare policy s x).run := by
  refine (Forward.lift forward_now).attempt_bind fun started => ?_
  refine (forward_settle s x).attempt_bind fun p => ?_
  exact (forward_matchUnits policy s x p.2).attempt_bind fun _ => forward_pure _

end

section

variable {policy : Policy} {s : Services} {x : Subject} {t now : Nat}
variable {g : Groundwork} {configs : InitConfigs}

theorem started_of_prepare (h : ((prepare policy s x).run t).value = .ok g) : g.started = t := by
  unfold prepare at h
  rw [Attempt.run_bind_of_ok (run_now t)] at h
  obtain ⟨p, -, h, -⟩ := Attempt.run_bind_ok h
  obtain ⟨units, -, h, -⟩ := Attempt.run_bind_ok h
  cases h
  rfl

theorem Dispatches.le_now (h : Dispatches policy s x t g configs now) : t ≤ now := by
  rw [h.now]
  exact Nat.le_trans (forward_prepare policy s x t).1 (forward_roundSettings s x _ _ _).1

/-- The time of an auction runs from its start. -/
theorem Dispatches.deadline_eq (h : Dispatches policy s x t g configs now) :
    (g.params policy s x configs now).deadline = t + budget policy x.request g.config :=
  congrArg (· + _) (started_of_prepare h.prepared)

end

/-! ## Auctions with a deadline -/

/-- A round that starts at `now` keeps to the time of its auction, which started at `t` and may take
`millis`: all bidders are called at the start of the round and told what is left of the time, and nothing
happens by way of the round after the time is up, or after its start if it was up before. -/
structure KeepsTo (t millis now : Nat) (l : List (Timed Bidding.RoundStep)) : Prop where
  called : ∀ u ∈ l, ∀ call, u.step = .called call → u.time = now ∧
    call.base.tmax.toInt = max 0 ((millis : Int) - (now - t : Nat)) ∧ call.base.tmax.toInt ≤ millis
  ended : ∀ u ∈ l, u.time ≤ max now (t + millis)

section

variable {clock : Clock} {bidders : Bidding.Bidders} {listener : Bidding.Listener}

theorem keepsTo_holdRound {p : Bidding.Params} {t millis now : Nat} (ht : t ≤ now)
    (hp : p.deadline = t + millis) (hmillis : (millis : Int) ≤ longestTimeout) :
    KeepsTo t millis now (Bidding.holdRound clock bidders listener p now).steps := by
  by_cases hn : p.dispatched = []
  · rw [Bidding.holdRound_of_nil _ _ _ _ _ hn]
    exact ⟨fun u hu => absurd hu List.not_mem_nil, fun u hu => absurd hu List.not_mem_nil⟩
  · -- what is left of 32 bits of milliseconds is never cut to 64 bits
    have hmax : Int64.maxValue.toInt.toNat = 0x7FFFFFFFFFFFFFFF := by decide
    have htmax : (p.remaining now).toInt = max 0 ((millis : Int) - (now - t : Nat)) := by
      unfold longestTimeout at hmillis
      rw [Bidding.toInt_remaining (by omega)]
      omega
    have hend := Bidding.roundEnd_le bidders p now
    rw [hp] at hend
    rw [Bidding.steps_holdRound _ _ _ _ _ hn]
    constructor
    · intro u hu call hcall
      rcases List.mem_append.1 hu with hu | hu
      · obtain ⟨c, hc, rfl⟩ := List.mem_map.1 hu
        obtain ⟨a, -, rfl⟩ := List.mem_map.1 hc
        cases hcall
        refine ⟨rfl, htmax, ?_⟩
        show (p.remaining now).toInt ≤ _
        omega
      · cases List.mem_singleton.1 hu
        cases hcall
    · intro u hu
      rcases List.mem_append.1 hu with hu | hu
      · obtain ⟨c, -, rfl⟩ := List.mem_map.1 hu
        exact Nat.le_max_left _ _
      · cases List.mem_singleton.1 hu
        exact hend

end

/-- An auction may take the timeout of its configuration, cut to 32 bits, or the default one, and less if
the client waits for less, but at least a millisecond. All bidders of its round are called at one instant
and told what is left of that time since the auction started. The round ends when the time is up at the
latest, or at its start if the stores took all of it, however long the bidders take. -/
theorem run_keepsTo {settings : Settings} (hsettings : settings.Obtainable) {s : Services}
    {bidders : Bidding.Bidders} {listener : Bidding.Listener} (hs : s.rounds = .fanOut bidders listener)
    (x : Subject) (t : Nat) :
    (∀ c, (budget settings.policy x.request c : Int) =
        (if 0 < x.request.tmax.toInt then
          min (timeoutMillis c settings.auctions.defaultTimeout) x.request.tmax.toInt
        else timeoutMillis c settings.auctions.defaultTimeout) ∧
      1 ≤ budget settings.policy x.request c) ∧
    (ReachesDispatch settings.policy s x t → ∃ g configs now,
      Dispatches settings.policy s x t g configs now ∧ t ≤ now ∧
        KeepsTo t (budget settings.policy x.request g.config) now
          (roundSteps ((run settings.policy s x).run t).steps) ∧
        (Bidding.gather s.clock bidders (g.params settings.policy s x configs now) now).finish ≤
          max now (t + budget settings.policy x.request g.config)) := by
  have hbounds (c : Config) := budget_bounds hsettings.defaultTimeout_pos x.request c
  refine ⟨fun c => ⟨budget_eq settings.policy x.request c, (hbounds c).1⟩, fun h => ?_⟩
  obtain ⟨g, configs, now, hd⟩ := exists_dispatches h
  refine ⟨g, configs, now, hd, hd.le_now, ?_, ?_⟩
  · rw [roundSteps_run hs hd]
    exact keepsTo_holdRound hd.le_now hd.deadline_eq (hbounds g.config).2
  · rw [← hd.deadline_eq]
    exact Bidding.roundEnd_le bidders _ now

/-- A variable that sets the default timeout. -/
def hurriedVariables : List (String × String) := [("BIDON__AUCTION__DEFAULT_TIMEOUT_MS", "7")]

def hurriedSettings : Settings := { auctions := { defaultTimeout := 7 } }

/-- The one bidder takes longer than there is time. -/
def slowBidderServices : Services :=
  fixedServices { id := 1, uid := "1", adUnitIds := [1], bidding := [.bidmachine] }
    [⟨1, 1, .interstitial, none, .bidmachine, 11, "", true, none, {}⟩]
    [.bidmachine] [(.bidmachine, ⟨fun _ _ _ => ⟨50, .ok [.ofBid .bidmachine { price := 5.0 }]⟩⟩)]

/-- The client waits longer than there is time. -/
def patientSubject : Subject :=
  ⟨1, { childRequest [.bidmachine] [.bidmachine] with tmax := 100 }, {}⟩

/-- Of seven milliseconds the stores take six. The bidder is told of the one that is left, and the round
ends after it. -/
theorem run_keepsTo_hurried :
    Settings.read "[auction]" hurriedVariables = .ok hurriedSettings ∧
    ReachesDispatch hurriedSettings.policy slowBidderServices patientSubject 0 ∧
    KeepsTo 0 7 6 (roundSteps ((run hurriedSettings.policy slowBidderServices patientSubject).run 0).steps) ∧
    (roundSteps ((run hurriedSettings.policy slowBidderServices patientSubject).run 0).steps).map (·.time) =
      [6, 7] := by
  have hread : Settings.read "[auction]" hurriedVariables = .ok hurriedSettings := by decide +kernel
  have h : ReachesDispatch hurriedSettings.policy slowBidderServices patientSubject 0 := by
    unfold ReachesDispatch
    decide +kernel
  obtain ⟨-, hrun⟩ := run_keepsTo (.inr ⟨_, _, hread⟩) (s := slowBidderServices) rfl patientSubject 0
  obtain ⟨g, configs, now, hd, -, hkeeps, -⟩ := hrun h
  have hp : ∀ g ∈ ((prepare hurriedSettings.policy slowBidderServices patientSubject).run 0).value.toOption,
      budget hurriedSettings.policy patientSubject.request g.config = 7 ∧
        (settingsCourse hurriedSettings.policy slowBidderServices patientSubject 0 g).finish = 6 := by
    decide +kernel
  obtain ⟨hbudget, hnow⟩ := hp g (by rw [hd.prepared]; rfl)
  rw [hbudget, hd.now, hnow] at hkeeps
  exact ⟨hread, h, hkeeps, by decide +kernel⟩

end Auction

end Mediation
