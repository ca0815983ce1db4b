import MmrEngine.Connectors.Signatures
import MmrEngine.Flows.Consumer
import MmrEngine.Storage.KafkaMessages

/-!
# The Pipeline

Ingestion and the consumer worker as one system: what the broker stores for
`ingest_event` is what the worker polls.

The two parts share nothing but the topics. They take their steps in any order,
each with everything that can happen to it, and meet where the broker stores a
message: it is appended to a partition of its topic, as the bytes it was
published with, and the consumer's view of it is what those bytes decode to.
Which partition it is, the broker decides.

Nobody else writes to the topics, and every call of `ingest_event` is for an
event that arrived at the door.

## Main definitions

* `record`: A stored message, as it is consumed.
* `State`: Ingestion and consumer.
* `Initial`, `Step`: Nothing yet, and one step of either part.
-/

namespace MmrEngine

namespace Pipeline

open Kafka Webhooks

/-- A stored message, as the consumer sees it. The bytes are a JSON text. -/
def record [PyJson] (m : Ingestion.KafkaMessage) : Consumer.Record where
  rawValue := Json.dumps (.obj (messagePayload m))
  value := decodeValue (encodePayload (messagePayload m))

/-- Ingestion with its database and broker, and the consumer with its stores. -/
structure State where
  ingestion : Ingestion.World
  consumer : Consumer.System

def Initial (s : State) : Prop :=
  Ingestion.Initial s.ingestion ∧ Consumer.Initial s.consumer

section Machine

variable [PyJson] [DoorLibrary] (process : Nat → Nat) (topics : Ingestion.Topics)
  (secrets : Secrets)

/-- The broker stores the message of call `c` in a partition of its topic. -/
def State.store (s : State) (c : Nat) (d : Ingestion.Delivery) (partition : Nat) : State where
  ingestion := { s.ingestion with
    outbox := Function.update s.ingestion.outbox c (some { d with stored := true })
    log := s.ingestion.log ++ [(d.topic, d.message)] }
  consumer := { s.consumer with
    log := Function.update s.consumer.log { topic := d.topic, partition := partition }
      (s.consumer.log { topic := d.topic, partition := partition } ++ [record d.message]) }

/-- One step of ingestion, of the consumer, or of the broker between them. -/
inductive Step : State → State → Prop
  | ingest (s : State) (w : Ingestion.World)
      (hstep : Ingestion.Step process topics s.ingestion w) (hlog : w.log = s.ingestion.log)
      (harrived : ∀ c e key phase connected, s.ingestion.calls c = .idle →
        w.calls c = .running e key phase connected → Arrived secrets e) :
      Step s { s with ingestion := w }
  | store (s : State) (c : Nat) (d : Ingestion.Delivery) (partition : Nat)
      (hd : s.ingestion.outbox c = some d) (hnew : d.stored = false) :
      Step s (s.store c d partition)
  | consume (s : State) (c : Consumer.System) (hstep : Consumer.Step s.consumer c)
      (hlog : c.log = s.consumer.log) :
      Step s { s with consumer := c }

end Machine

end Pipeline

end MmrEngine
