/-
Handing events over. An event and its children go together: when the payload of one of them cannot be
built, none is handed over and each failure is reported.
-/
import Mediation.Event.Topic

namespace Mediation.Event

/-! ## Events -/

/-- An event: its topic, and its payload unless that cannot be built. -/
structure Entry where
  topic : Topic
  payload : Except AuctionError (Dict String Json)

/-- An event with those that are produced together with it. -/
structure Batch where
  head : Entry
  children : List Entry

/-- What is handed to an engine. -/
structure Message where
  topic : Topic
  payload : Dict String Json
  deriving DecidableEq

namespace Batch

/-- The event, then its children. -/
def entries (b : Batch) : List Entry := b.head :: b.children

/-- The failures to build a payload, in order. -/
def failures (b : Batch) : List AuctionError :=
  b.entries.filterMap fun e =>
    match e.payload with
    | .ok _ => none
    | .error e => some e

/-- The messages of the events whose payload can be built, in order. -/
def messages (b : Batch) : List Message :=
  b.entries.filterMap fun e =>
    match e.payload with
    | .ok p => some ⟨e.topic, p⟩
    | .error _ => none

end Batch

/-! ## Engines -/

/-- A message under the name of a transport topic. -/
structure Record where
  topic : String
  payload : Dict String Json
  deriving DecidableEq

/-- Takes a message, or says why not. -/
abbrev Engine := Message → Except AuctionError Record

/-- A channel that carries records to whoever reads its other end. -/
structure Channel where
  /-- Transport topics; one that is empty counts as none. -/
  topics : Dict Topic String
  /-- Whether somebody still reads the other end. -/
  isOpen : Bool

/-- Sends a message over a channel. -/
def Channel.produce (c : Channel) : Engine := fun m =>
  match (c.topics.get? m.topic).filter fun t => !t.isEmpty with
  | none => .error (.event ("topic for " ++ m.topic.wire ++ " not set"))
  | some t => if c.isOpen then .ok ⟨t, m.payload⟩ else .error (.event "event channel closed")

/-! ## Logging -/

/-- A step of logging. -/
inductive LogStep where
  /-- A message was handed to the engine. -/
  | handed (m : Message)
  /-- The engine took it. -/
  | produced (r : Record)
  /-- An error was reported. -/
  | reported (e : AuctionError)
  deriving DecidableEq

/-- Hands one message to the engine. -/
def handOver (engine : Engine) (m : Message) : List LogStep :=
  match engine m with
  | .ok r => [.handed m, .produced r]
  | .error e => [.handed m, .reported e]

/-- Hands over a batch, or reports its failures. -/
def Batch.log (engine : Engine) (b : Batch) : List LogStep :=
  if b.failures.isEmpty then b.messages.flatMap (handOver engine) else b.failures.map .reported

end Mediation.Event
