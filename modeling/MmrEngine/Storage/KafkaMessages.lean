import MmrEngine.Core.JsonText
import MmrEngine.Flows.Ingestion
import MmrEngine.Flows.Transform
import MmrEngine.Lib.Base64
import MmrEngine.Lib.Utf8

/-!
# Messages in Kafka

The bytes of the messages: what the producer makes of a dictionary, and what
the consumer makes of the bytes.

`publish` writes its payload as JSON in UTF-8. `poll_one` reads it back and
keeps the bytes beside the value, for a message it cannot read has to go to the
dead-letter topic as it is. There it stands in Base64 among the members of
another JSON object, with where it came from and why it is there.

A message that was published is read as the dictionary it was written from. So
is a dead letter, whatever its bytes were, and they are still in it.

## Main definitions

* `encodePayload`: The value of a published record.
* `decodeValue`: The value of a consumed message.
* `messagePayload`: `kafka_message`, as `ingest_event` publishes it.
* `deadLetterPayload`: What the worker publishes for a message it gives up.
* `DeadLetter.read`: A dead letter, read again.

## Theorems

* `decodeValue_encodePayload`: A dictionary whose values were read comes back.
* `published_message_decodes`: What `ingest_event` publishes is what is consumed.
* `dead_letter_round_trip`: Nothing of a message given up is lost.
-/

namespace MmrEngine

namespace Kafka

open Json Ingestion Transform

/-- `raw.decode("utf-8")`. What is no UTF-8 would be written back otherwise. -/
def decodeUtf8 (raw : List UInt8) : Option String :=
  if Utf8.encode (Utf8.decode raw) = raw then some (String.ofList (Utf8.decode raw)) else none

section Values

variable [PyJson]

/-- `json.dumps(payload, default=str).encode("utf-8")`. -/
def encodePayload (payload : Dict) : List UInt8 := Utf8.encode (dumps (.obj payload)).toList

/-- `value` of a `ConsumedMessage`: the JSON object, if the bytes are one. -/
def decodeValue (raw : List UInt8) : Option Dict :=
  ((decodeUtf8 raw).bind loads).bind asDict

end Values

/-- `kafka_message` of `ingest_event`. -/
def messagePayload (m : KafkaMessage) : Dict :=
  [("psp_name", .str m.pspName), ("event_type", .str m.eventType), ("payload", .obj m.payload),
    ("content_hash", .str m.contentHash), ("received_at", .str m.receivedAt),
    ("idempotency_key", .str m.idempotencyKey)]

/-- A message that was given up: where it was, why, and its bytes. -/
@[ext] structure DeadLetter where
  original : Position
  error : String
  rawValue : List UInt8

/-- The payload `_dead_letter` publishes. -/
def deadLetterPayload (d : DeadLetter) : Dict :=
  [("original_topic", .str d.original.partition.topic),
    ("original_partition", .int d.original.partition.partition),
    ("original_offset", .int d.original.offset), ("error", .str d.error),
    ("raw_value_b64", .str (String.ofList (Base64.encode d.rawValue)))]

/-- The key it is published under. -/
def deadLetterKey (original : Position) : String :=
  "dlq:" ++ original.partition.topic ++ ":" ++ toString original.partition.partition ++ ":" ++
    toString original.offset

/-- A text or a number among the members of an object. -/
def textField (d : Dict) (key : String) : Option String :=
  match d.lookup key with
  | some (.str s) => some s
  | _ => none

def natField (d : Dict) (key : String) : Option Nat :=
  match d.lookup key with
  | some (.int n) => some n.toNat
  | _ => none

/-- What somebody who reads the dead-letter topic gets out of a record. -/
def DeadLetter.read [PyJson] (raw : List UInt8) : Option DeadLetter := do
  let d ← decodeValue raw
  let topic ← textField d "original_topic"
  let partition ← natField d "original_partition"
  let offset ← natField d "original_offset"
  let error ← textField d "error"
  let text ← textField d "raw_value_b64"
  let rawValue ← Base64.decode text.toList
  return { original := { partition := { topic := topic, partition := partition }, offset := offset }
           error := error
           rawValue := rawValue }

section RoundTrip

variable [PyJson]

omit [PyJson] in
/-- What was written as UTF-8 is read. -/
theorem decodeUtf8_encode (s : String) : decodeUtf8 (Utf8.encode s.toList) = some s := by
  rw [decodeUtf8, Utf8.decode_encode, if_pos rfl, String.ofList_toList]

/-- A dictionary whose values were read comes back from its bytes. -/
theorem decodeValue_encodePayload {payload : Dict} (h : Parsed (.obj payload)) :
    decodeValue (encodePayload payload) = some payload := by
  rw [decodeValue, encodePayload, decodeUtf8_encode, Option.bind_some, loads_dumps h]
  rfl

/-- A message is readable when its payload was read from somewhere. -/
theorem parsed_messagePayload {m : KafkaMessage} (h : Parsed (.obj m.payload)) :
    Parsed (.obj (messagePayload m)) := by
  refine .obj _ (show List.Nodup ["psp_name", "event_type", "payload", "content_hash",
    "received_at", "idempotency_key"] by decide) (fun field hfield => ?_)
  simp only [messagePayload, List.mem_cons, List.not_mem_nil, or_false] at hfield
  rcases hfield with rfl | rfl | rfl | rfl | rfl | rfl
  · exact .str _
  · exact .str _
  · exact h
  · exact .str _
  · exact .str _
  · exact .str _

theorem parsed_deadLetterPayload (d : DeadLetter) : Parsed (.obj (deadLetterPayload d)) := by
  refine .obj _ (show List.Nodup ["original_topic", "original_partition", "original_offset",
    "error", "raw_value_b64"] by decide) (fun field hfield => ?_)
  simp only [deadLetterPayload, List.mem_cons, List.not_mem_nil, or_false] at hfield
  rcases hfield with rfl | rfl | rfl | rfl | rfl
  · exact .str _
  · exact .int _
  · exact .int _
  · exact .str _
  · exact .str _

/-- The message `ingest_event` publishes for an event whose payload came as a
    JSON text is decoded by the consumer to the very dictionary it was. -/
theorem published_message_decodes {body : String} {e : IngestArgs}
    (h : loads body = some (.obj e.rawPayload)) (key : String) :
    decodeValue (encodePayload (messagePayload (kafkaMessage e key)))
      = some (messagePayload (kafkaMessage e key)) :=
  decodeValue_encodePayload (parsed_messagePayload (loads_parsed h))

/-- From the record of a dead letter one gets back where the message was, why it
    was given up, and every byte of it, also of one that is no UTF-8. -/
theorem dead_letter_round_trip (d : DeadLetter) :
    DeadLetter.read (encodePayload (deadLetterPayload d)) = some d := by
  have htopic : textField (deadLetterPayload d) "original_topic"
      = some d.original.partition.topic := rfl
  have hpartition : natField (deadLetterPayload d) "original_partition"
      = some d.original.partition.partition := rfl
  have hoffset : natField (deadLetterPayload d) "original_offset" = some d.original.offset := rfl
  have herror : textField (deadLetterPayload d) "error" = some d.error := rfl
  have hvalue : textField (deadLetterPayload d) "raw_value_b64"
      = some (String.ofList (Base64.encode d.rawValue)) := rfl
  rw [DeadLetter.read, decodeValue_encodePayload (parsed_deadLetterPayload d)]
  simp only [Option.bind_eq_bind, Option.bind_some, htopic, hpartition, hoffset, herror, hvalue,
    String.toList_ofList, Base64.decode_encode, Option.pure_def]

end RoundTrip

/-- A refund of 400 kobo. -/
def refundPayload : Dict :=
  [("event", .str "refund.processed"), ("data", .obj [("amount", .int 400), ("note", .null)])]

theorem parsed_refundPayload : @Parsed asciiJson (.obj refundPayload) := by
  let lib := asciiJson
  refine .obj _ (show List.Nodup ["event", "data"] by decide) (fun field hfield => ?_)
  simp only [refundPayload, List.mem_cons, List.not_mem_nil, or_false] at hfield
  rcases hfield with rfl | rfl
  · exact .str _
  · refine .obj _ (show List.Nodup ["amount", "note"] by decide) (fun field hfield => ?_)
    simp only [List.mem_cons, List.not_mem_nil, or_false] at hfield
    rcases hfield with rfl | rfl
    · exact .int _
    · exact .null

def refund : IngestArgs where
  pspName := "paystack"
  eventType := "refund.processed"
  rawPayload := refundPayload
  contentHash := "0f"
  receivedAt := "2024-10-04T00:00:00+00:00"

/-- The refund was read from a body, and is consumed as it was. -/
theorem published_message_decodes_refund :
    @loads asciiJson (@dumps asciiJson.toPyText (.obj refundPayload)) = some (.obj refund.rawPayload) ∧
      @decodeValue asciiJson (@encodePayload asciiJson (messagePayload (kafkaMessage refund "k")))
        = some (messagePayload (kafkaMessage refund "k")) := by
  let lib := asciiJson
  have hbody : loads (dumps (.obj refundPayload)) = some (.obj refund.rawPayload) :=
    loads_dumps parsed_refundPayload
  exact ⟨hbody, published_message_decodes hbody "k"⟩

end Kafka

end MmrEngine
