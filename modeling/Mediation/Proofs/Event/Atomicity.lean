/-
A batch of events goes as a whole or not at all. If a payload is missing the engine gets nothing, and each
missing one is reported; else the engine gets every event, the first one before those that belong to it.
A channel then takes all rows of a group or none of them, since they share their topic: where that is not
mapped, or nobody reads the channel any more, each of them is reported.
-/
import Mediation.Proofs.Event.Handing
import Mediation.Proofs.Lists

namespace Mediation

namespace Event

/-! ## Handing over -/

/-- The records that the engine took. -/
def produced (l : List LogStep) : List Record :=
  l.filterMap fun
    | .produced r => some r
    | _ => none

/-- Why an engine does not take a message. -/
def Engine.refusal? (engine : Engine) (m : Message) : Option AuctionError :=
  match engine m with
  | .ok _ => none
  | .error e => some e

section

variable (engine : Engine) (l : List Message)

theorem produced_flatMap_handOver :
    produced (l.flatMap (handOver engine)) = l.filterMap fun m => (engine m).toOption := by
  unfold produced
  rw [List.filterMap_flatMap, List.filterMap_eq_flatMap_toList]
  refine List.flatMap_congr fun m _ => ?_
  unfold handOver
  cases engine m <;> rfl

theorem reported_flatMap_handOver :
    reported (l.flatMap (handOver engine)) = l.filterMap engine.refusal? := by
  unfold reported
  rw [List.filterMap_flatMap, List.filterMap_eq_flatMap_toList]
  refine List.flatMap_congr fun m _ => ?_
  unfold handOver Engine.refusal?
  cases engine m <;> rfl

end

/-! ## Batches -/

/-- An event has no payload. -/
def Entry.Fails (e : Entry) : Prop := ∃ err, e.payload = .error err

theorem Entry.fails_iff {e : Entry} : e.Fails ↔ e.payload.isOk = false := by
  unfold Fails
  cases e.payload <;> simp [Except.isOk, Except.toBool]

instance (e : Entry) : Decidable e.Fails := decidable_of_iff _ Entry.fails_iff.symm

namespace Batch

/-- One failure for each event that has no payload. -/
theorem forall₂_failures (b : Batch) : List.Forall₂ (fun e err => e.payload = .error err)
    (b.entries.filter (·.Fails)) b.failures := by
  unfold failures
  refine (forall₂_filterMap_of_iff fun e _ => ?_).imp fun e err h => ?_
  · rw [Bool.eq_iff_iff, decide_eq_true_iff]
    unfold Entry.Fails
    cases e.payload <;> simp
  · cases hp : e.payload with
    | ok _ => simp [hp] at h
    | error _ => simpa [hp] using h

/-- One message for each event, if all have a payload. -/
theorem forall₂_messages {b : Batch} (h : ∀ e ∈ b.entries, ¬ e.Fails) :
    List.Forall₂ (fun e m => m.topic = e.topic ∧ e.payload = .ok m.payload) b.entries b.messages := by
  unfold messages
  refine (forall₂_filterMap_of_forall fun e he => ?_).imp fun e m hm => ?_
  · have hok := h e he
    unfold Entry.Fails at hok
    cases hp : e.payload with
    | ok _ => rfl
    | error err => exact absurd ⟨err, hp⟩ hok
  · cases hp : e.payload with
    | ok p =>
      rw [hp] at hm
      obtain rfl := Option.some.inj hm
      exact ⟨rfl, rfl⟩
    | error _ => simp [hp] at hm

theorem failures_eq_nil_iff {b : Batch} : b.failures = [] ↔ ∀ e ∈ b.entries, ¬ e.Fails := by
  have hnil := (forall₂_failures b).length_eq
  rw [← List.length_eq_zero_iff, ← hnil, List.length_eq_zero_iff, List.filter_eq_nil_iff]
  simp only [decide_eq_true_eq]

/-- If a payload is missing, each that is missing is reported and nothing is handed over; if none is, all
are handed over in order and only what the engine does not take is reported. -/
structure AllOrNone (b : Batch) (engine : Engine) : Prop where
  failed : (∃ e ∈ b.entries, e.Fails) →
    List.Forall₂ (fun e err => e.payload = .error err) (b.entries.filter (·.Fails))
        (reported (b.log engine)) ∧
      handed (b.log engine) = [] ∧ produced (b.log engine) = []
  whole : (∀ e ∈ b.entries, ¬ e.Fails) →
    List.Forall₂ (fun e m => m.topic = e.topic ∧ e.payload = .ok m.payload) b.entries
        (handed (b.log engine)) ∧
      reported (b.log engine) = (handed (b.log engine)).filterMap engine.refusal?

theorem log_of_fails {b : Batch} (engine : Engine) (h : ∃ e ∈ b.entries, e.Fails) :
    b.log engine = b.failures.map .reported := by
  unfold log
  rw [if_neg]
  rw [List.isEmpty_iff, failures_eq_nil_iff]
  obtain ⟨e, he, hfails⟩ := h
  exact fun hnone => hnone e he hfails

theorem log_of_not_fails {b : Batch} (engine : Engine) (h : ∀ e ∈ b.entries, ¬ e.Fails) :
    b.log engine = b.messages.flatMap (handOver engine) := by
  unfold log
  rw [if_pos (List.isEmpty_iff.2 (failures_eq_nil_iff.2 h))]

theorem allOrNone (b : Batch) (engine : Engine) : b.AllOrNone engine where
  failed h := by
    rw [log_of_fails engine h]
    refine ⟨?_, handed_map_reported id _, ?_⟩
    · have hreported : reported (b.failures.map .reported) = b.failures.map id :=
        reported_map_reported id b.failures
      rw [hreported, List.map_id]
      exact forall₂_failures b
    · unfold produced
      rw [List.filterMap_map]
      exact List.filterMap_none _
  whole h := by
    rw [log_of_not_fails engine h, handed_flatMap_handOver, reported_flatMap_handOver]
    exact ⟨forall₂_messages h, rfl⟩

end Batch

/-! ## Engines that treat all messages of a batch alike -/

section

variable {b : Batch} {engine : Engine} (h : ∀ e ∈ b.entries, ¬ e.Fails)

include h

theorem log_of_taken {f : Message → Record} (htaken : ∀ m ∈ b.messages, engine m = .ok (f m)) :
    produced (b.log engine) = b.messages.map f ∧ reported (b.log engine) = [] := by
  rw [Batch.log_of_not_fails engine h, produced_flatMap_handOver, reported_flatMap_handOver]
  constructor
  · rw [← congrFun List.filterMap_eq_map]
    exact List.filterMap_congr fun m hm => by rw [htaken m hm]; rfl
  · refine List.filterMap_eq_nil_iff.2 fun m hm => ?_
    unfold Engine.refusal?
    rw [htaken m hm]

theorem log_of_refused {err : AuctionError} (hrefused : ∀ m ∈ b.messages, engine m = .error err) :
    produced (b.log engine) = [] ∧ reported (b.log engine) = b.messages.map fun _ => err := by
  rw [Batch.log_of_not_fails engine h, produced_flatMap_handOver, reported_flatMap_handOver]
  constructor
  · exact List.filterMap_eq_nil_iff.2 fun m hm => by rw [hrefused m hm]; rfl
  · rw [← congrFun List.filterMap_eq_map]
    refine List.filterMap_congr fun m hm => ?_
    unfold Engine.refusal?
    rw [hrefused m hm]
    rfl

end

namespace Channel

variable {c : Channel} {m : Message} {t : String}

theorem produce_of_unmapped (h : ∀ t, c.topics.get? m.topic = some t → t = "") :
    c.produce m = .error (.event ("topic for " ++ m.topic.wire ++ " not set")) := by
  have hnone : (c.topics.get? m.topic).filter (fun t => !t.isEmpty) = none := by
    rw [Option.filter_eq_none_iff]
    intro t ht
    simp [h t ht]
  unfold produce
  rw [hnone]

theorem produce_of_mapped (hmapped : c.topics.get? m.topic = some t) (ht : t ≠ "") :
    c.produce m =
      if c.isOpen then .ok ⟨t, m.payload⟩ else .error (.event "event channel closed") := by
  have hsome : (c.topics.get? m.topic).filter (fun t => !t.isEmpty) = some t := by
    rw [hmapped, Option.filter_some, if_pos (by simpa using ht)]
  unfold produce
  rw [hsome]

end Channel

end Event

/-! ## Groups -/

namespace AdEventGroup

/-- What a channel does with a group: all rows go under the name that their topic is mapped to, or none
goes and each is reported. -/
structure AllOrNone (g : AdEventGroup) (c : Event.Channel) : Prop where
  sent : ∀ t, c.topics.get? .adEvents = some t → t ≠ "" → c.isOpen = true →
    List.Forall₂ (fun e r => r.topic = t ∧ e.payload = .ok r.payload) g.rows
        (Event.produced (g.toBatch.log c.produce)) ∧
      Event.reported (g.toBatch.log c.produce) = []
  unmapped : (∀ t, c.topics.get? .adEvents = some t → t = "") →
    Event.produced (g.toBatch.log c.produce) = [] ∧
      Event.reported (g.toBatch.log c.produce) =
        g.rows.map fun _ => .event "topic for ad_events not set"
  closed : ∀ t, c.topics.get? .adEvents = some t → t ≠ "" → c.isOpen = false →
    Event.produced (g.toBatch.log c.produce) = [] ∧
      Event.reported (g.toBatch.log c.produce) = g.rows.map fun _ => .event "event channel closed"

theorem topic_of_mem_messages {g : AdEventGroup} {m : Event.Message} (hm : m ∈ g.toBatch.messages) :
    m.topic = .adEvents := by
  obtain ⟨entry, hentry, h⟩ := List.mem_filterMap.1 hm
  rw [entries_toBatch] at hentry
  obtain ⟨e, -, rfl⟩ := List.mem_map.1 hentry
  unfold AdEvent.toEntry at h
  cases hp : e.payload with
  | ok p =>
    rw [hp] at h
    exact Option.some.inj h ▸ rfl
  | error _ => simp [hp] at h

section

variable {g : AdEventGroup} (h : ∀ e ∈ g.toBatch.entries, ¬ e.Fails)

include h

/-- The messages of a group are those of its rows. -/
theorem forall₂_messages : List.Forall₂
    (fun e m => m.topic = .adEvents ∧ e.payload = .ok m.payload) g.rows g.toBatch.messages := by
  have hentries := Event.Batch.forall₂_messages h
  rw [entries_toBatch, List.forall₂_map_left_iff] at hentries
  exact hentries

theorem allOrNone (c : Event.Channel) : g.AllOrNone c where
  sent t hmapped ht hopen := by
    have htaken : ∀ m ∈ g.toBatch.messages, c.produce m = .ok ⟨t, m.payload⟩ := by
      intro m hm
      rw [Event.Channel.produce_of_mapped (topic_of_mem_messages hm ▸ hmapped) ht, if_pos hopen]
    obtain ⟨hproduced, hreported⟩ := Event.log_of_taken h htaken
    refine ⟨?_, hreported⟩
    rw [hproduced, List.forall₂_map_right_iff]
    exact (forall₂_messages h).imp fun e m hem => ⟨rfl, hem.2⟩
  unmapped hunmapped := by
    have hrefused : ∀ m ∈ g.toBatch.messages,
        c.produce m = .error (.event "topic for ad_events not set") := by
      intro m hm
      have htopic := topic_of_mem_messages hm
      rw [Event.Channel.produce_of_unmapped (htopic ▸ hunmapped), htopic]
      rfl
    obtain ⟨hproduced, hreported⟩ := Event.log_of_refused h hrefused
    rw [List.map_const'] at hreported ⊢
    exact ⟨hproduced, by rw [hreported, (forall₂_messages h).length_eq]⟩
  closed t hmapped ht hclosed := by
    have hrefused : ∀ m ∈ g.toBatch.messages,
        c.produce m = .error (.event "event channel closed") := by
      intro m hm
      rw [Event.Channel.produce_of_mapped (topic_of_mem_messages hm ▸ hmapped) ht, if_neg]
      exact Bool.eq_false_iff.1 hclosed
    obtain ⟨hproduced, hreported⟩ := Event.log_of_refused h hrefused
    rw [List.map_const'] at hreported ⊢
    exact ⟨hproduced, by rw [hreported, (forall₂_messages h).length_eq]⟩

end

end AdEventGroup

/-! ## Whole or not at all -/

namespace Event

/-- A batch is handed to the engine whole or not at all, and the rows of a group whose payloads are all
there go over a channel whole or not at all. -/
theorem log_allOrNone :
    (∀ (b : Batch) (engine : Engine), b.AllOrNone engine) ∧
      ∀ (g : AdEventGroup) (c : Channel), (∀ e ∈ g.rows, ¬ e.toEntry.Fails) → g.AllOrNone c := by
  refine ⟨Batch.allOrNone, fun g c h => AdEventGroup.allOrNone ?_ c⟩
  rw [AdEventGroup.entries_toBatch]
  simpa using h

/-- A bid after its request. -/
def answered (ext : String) : AdEventGroup :=
  ⟨{ eventType := "bid_request" }, [{ eventType := "bid", ext := ext }]⟩

def bus (isOpen : Bool) : Channel := ⟨.ofList [(.adEvents, "events-v1")], isOpen⟩

/-- If the extension of a bid is broken its request is not sent either; if not both are sent, over an open
channel, and over a closed one both are reported. -/
theorem log_allOrNone_answered :
    ((reported ((answered "broken").toBatch.log (bus true).produce)).length = 1 ∧
      produced ((answered "broken").toBatch.log (bus true).produce) = []) ∧
    (produced ((answered "").toBatch.log (bus true).produce)).map (·.topic) = ["events-v1", "events-v1"] ∧
    reported ((answered "").toBatch.log (bus false).produce) =
      [.event "event channel closed", .event "event channel closed"] := by
  have hfails : ∃ e ∈ (answered "broken").toBatch.entries, e.Fails := by decide +kernel
  have hrows : ∀ e ∈ (answered "").rows, ¬ e.toEntry.Fails := by decide +kernel
  refine ⟨?_, ?_, ?_⟩
  · obtain ⟨hreported, -, hproduced⟩ :=
      (log_allOrNone.1 (answered "broken").toBatch (bus true).produce).failed hfails
    refine ⟨?_, hproduced⟩
    rw [← hreported.length_eq]
    decide +kernel
  · obtain ⟨hsent, -⟩ :=
      (log_allOrNone.2 (answered "") (bus true) hrows).sent "events-v1" (by decide) (by decide) rfl
    generalize produced ((answered "").toBatch.log (bus true).produce) = l at hsent
    match l, hsent with
    | [_, _], .cons hrequest (.cons hbid .nil) =>
      rw [List.map_cons, List.map_cons, hrequest.1, hbid.1, List.map_nil]
  · exact ((log_allOrNone.2 (answered "") (bus false) hrows).closed "events-v1" (by decide) (by decide)
      rfl).2

end Event

end Mediation
