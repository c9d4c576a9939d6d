/-
What becomes of batches of ad events. The rows of a group that have one extension go to the engine one by
one if that is the text of an object; if not each of them is reported, and the engine gets none. A
message tells what its row was about.
-/
import Mediation.Proofs.Event.Payload

namespace Mediation

namespace Event

/-! ## Steps of logging -/

/-- The messages that the engine was handed. -/
def handed (l : List LogStep) : List Message :=
  l.filterMap fun
    | .handed m => some m
    | _ => none

/-- The errors that were reported. -/
def reported (l : List LogStep) : List AuctionError :=
  l.filterMap fun
    | .reported e => some e
    | _ => none

theorem handed_handOver (engine : Engine) (m : Message) : handed (handOver engine m) = [m] := by
  unfold handOver
  split <;> rfl

/-- What is handed over is what was to be, whatever the engine does with it. -/
theorem handed_flatMap_handOver (engine : Engine) (l : List Message) :
    handed (l.flatMap (handOver engine)) = l := by
  have hflatMap : handed (l.flatMap (handOver engine)) = l.flatMap fun m => handed (handOver engine m) :=
    List.filterMap_flatMap
  rw [hflatMap]
  simp only [handed_handOver, List.flatMap_singleton']

theorem handed_map_reported {α : Type} (f : α → AuctionError) (l : List α) :
    handed (l.map fun a => .reported (f a)) = [] := by
  unfold handed
  rw [List.filterMap_map]
  exact List.filterMap_none l

theorem reported_map_reported {α : Type} (f : α → AuctionError) (l : List α) :
    reported (l.map fun a => .reported (f a)) = l.map f := by
  unfold reported
  rw [List.filterMap_map]
  exact congrFun List.filterMap_eq_map l

/-! ## Batches -/

namespace Batch

/-- A batch whose payloads are all there is handed over. -/
theorem log_of_messages {b : Batch} {l : List Message} (engine : Engine)
    (h : b.entries = l.map fun m => ⟨m.topic, .ok m.payload⟩) :
    b.log engine = l.flatMap (handOver engine) := by
  have hfailures : b.failures = [] := by
    unfold failures
    rw [h, List.filterMap_map, List.filterMap_eq_nil_iff]
    exact fun m _ => rfl
  have hmessages : b.messages = l := by
    unfold messages
    rw [h, List.filterMap_map]
    exact List.filterMap_some
  unfold log
  rw [hfailures, if_pos List.isEmpty_nil, hmessages]

/-- A batch none of whose payloads is there is reported. -/
theorem log_of_errors {b : Batch} {err : AuctionError} (engine : Engine)
    (h : ∀ e ∈ b.entries, e.payload = .error err) :
    b.log engine = b.entries.map fun _ => .reported err := by
  have hfailures : b.failures = b.entries.map fun _ => err := by
    unfold failures
    rw [← congrFun List.filterMap_eq_map]
    refine List.filterMap_congr fun e he => ?_
    rw [h e he]
    rfl
  unfold log
  rw [hfailures, if_neg (by exact Bool.false_ne_true), List.map_map]
  rfl

end Batch

end Event

/-! ## Groups -/

/-- What an event is about. -/
structure EventLabel where
  eventType : String
  demandId : String
  status : String
  deriving DecidableEq, Repr

namespace AdEvent

def label (e : AdEvent) : EventLabel := ⟨e.eventType, e.demandId, e.status⟩

/-- The message of a row, with its extension read. -/
def message (ext : Dict String Json) (e : AdEvent) : Event.Message :=
  ⟨.adEvents, Event.flatten (e.columns ext)⟩

theorem payload_of_ok {e : AdEvent} {ext : Dict String Json} (h : Event.parseExt e.ext = .ok ext) :
    e.payload = .ok (e.message ext).payload := by
  unfold payload message
  rw [h]
  dsimp only [Except.map]

theorem payload_of_error {e : AdEvent} {err : AuctionError} (h : Event.parseExt e.ext = .error err) :
    e.payload = .error err := by
  unfold payload
  rw [h]
  rfl

end AdEvent

/-- What a message says that it is about. -/
def Event.Message.label? (m : Event.Message) : Option EventLabel := do
  let eventType ← (m.payload.get? "event_type").bind Json.str?
  let demandId ← (m.payload.get? "demand_id").bind Json.str?
  let status ← (m.payload.get? "status").bind Json.str?
  pure ⟨eventType, demandId, status⟩

/-- A message has each column of its row that is no object, under the name of the column. -/
theorem AdEvent.get?_message {e : AdEvent} {ext : Dict String Json} {k : String} {v : Json}
    (hk : ¬ "__".toList <:+: k.toList) (h : (e.columns ext).get? k = some v)
    (hv : ∀ members, v ≠ .obj members) : (e.message ext).payload.get? k = some v := by
  unfold message
  dsimp only
  exact Event.get?_flatten (Event.not_below_of_not_isInfix hk) (e.empty_not_mem_keys_columns ext) h hv

/-- A message says what its row is about. -/
theorem label?_message (e : AdEvent) (ext : Dict String Json) : (e.message ext).label? = some e.label := by
  obtain ⟨heventType, hdemandId, hstatus⟩ := e.get?_columns ext
  unfold Event.Message.label?
  rw [AdEvent.get?_message (by decide) heventType fun _ => Json.noConfusion,
    AdEvent.get?_message (by decide) hdemandId fun _ => Json.noConfusion,
    AdEvent.get?_message (by decide) hstatus fun _ => Json.noConfusion]
  rfl

namespace AdEventGroup

/-- The row of a group, then those that are produced together with it. -/
def rows (g : AdEventGroup) : List AdEvent := g.event :: g.children

theorem entries_toBatch (g : AdEventGroup) : g.toBatch.entries = g.rows.map AdEvent.toEntry := rfl

/-- If the extension of its rows is read, a group is handed over row by row. -/
theorem log_of_ok {g : AdEventGroup} {text : String} {ext : Dict String Json} (engine : Event.Engine)
    (hrows : ∀ e ∈ g.rows, e.ext = text) (hext : Event.parseExt text = .ok ext) :
    g.toBatch.log engine = (g.rows.map (·.message ext)).flatMap (Event.handOver engine) := by
  refine Event.Batch.log_of_messages engine ?_
  rw [entries_toBatch, List.map_map]
  refine List.map_congr_left fun e he => ?_
  unfold AdEvent.toEntry
  rw [AdEvent.payload_of_ok (hrows e he ▸ hext)]
  rfl

/-- If the extension of its rows is not read, none of a group is handed over and each is reported. -/
theorem log_of_error {g : AdEventGroup} {text : String} {err : AuctionError} (engine : Event.Engine)
    (hrows : ∀ e ∈ g.rows, e.ext = text) (hext : Event.parseExt text = .error err) :
    g.toBatch.log engine = g.rows.map fun _ => .reported err := by
  have hpayload : ∀ entry ∈ g.toBatch.entries, entry.payload = .error err := by
    intro entry hentry
    rw [entries_toBatch] at hentry
    obtain ⟨e, he, rfl⟩ := List.mem_map.1 hentry
    exact AdEvent.payload_of_error (hrows e he ▸ hext)
  rw [Event.Batch.log_of_errors engine hpayload, entries_toBatch, List.map_map]
  rfl

end AdEventGroup

end Mediation
