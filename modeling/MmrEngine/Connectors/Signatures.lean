import MmrEngine.Api.Webhooks
import MmrEngine.Core.JsonText
import MmrEngine.Flows.Ingestion
import MmrEngine.Lib.Utf8

/-!
# Where Events Come From

The two ways an event enters: a webhook with the PSP's signature, and a
transaction a poll has listed. Either ends in the arguments of `ingest_event`.

Paystack signs the body, with a keyed hash; Flutterwave sends a secret the two
parties share. Both comparisons are of bytes, and an empty header is refused
before anything is compared. What follows the signature is the parsing of the
body and the connector's `build_event`.

A polled transaction is presented as the event a webhook for it would carry. Its
content hash is of its own text, with the members in the order of their names.

The two hashes, and how the bytes of a body are decoded before they are parsed,
are the library's.

## Main definitions

* `DoorLibrary`: The hashes and the decoding of a body.
* `Secrets`: The credentials of the settings.
* `validateSignature`: `validate_signature` of both connectors.
* `receiveEvent`: `_receive` up to `ingest_event`.
* `polledArgs`: A polled transaction, as `ingest_polled` presents it.
* `Arrived`: An event that came in by one of the two.
-/

namespace MmrEngine

namespace Webhooks

open Json Ingestion

/-- What the door takes from the library. -/
class DoorLibrary where
  /-- The hex digest of HMAC-SHA512, of a key and a message. -/
  hmacSha512Hex : List UInt8 → List UInt8 → String
  /-- The hex digest of SHA-256. -/
  sha256Hex : List UInt8 → String
  /-- `json.loads` decodes bytes by the encoding it detects. -/
  decodeBody : List UInt8 → Option String

/-- `paystack_secret_key` and `flutterwave_secret_hash`. -/
structure Secrets where
  paystackSecretKey : String
  flutterwaveSecretHash : String

/-- `s.encode("utf-8")`. -/
def utf8 (s : String) : List UInt8 := Utf8.encode s.toList

section Door

variable [PyJson] [DoorLibrary]

/-- `validate_signature` of the connectors. -/
def validateSignature (secrets : Secrets) (psp : Connector) (rawBody : List UInt8)
    (signatureHeader : String) : Bool :=
  match psp with
  | .paystack =>
    let expected := DoorLibrary.hmacSha512Hex (utf8 secrets.paystackSecretKey) rawBody
    signatureHeader ≠ "" && utf8 expected == utf8 (PyText.lower signatureHeader)
  | .flutterwave =>
    let expected := secrets.flutterwaveSecretHash
    signatureHeader ≠ "" && expected ≠ "" && utf8 expected == utf8 signatureHeader

/-- `json.loads(raw_body)`. -/
def parseBody (rawBody : List UInt8) : Option Json := (DoorLibrary.decodeBody rawBody).bind loads

/-- `connector.build_event`, as the arguments of `ingest_event`. -/
def buildEvent (psp : Connector) (rawBody : List UInt8) (payload : Dict) (receivedAt : String) :
    IngestArgs where
  pspName := psp.pspName
  eventType := extractEventType payload
  rawPayload := payload
  contentHash := DoorLibrary.sha256Hex rawBody
  receivedAt := receivedAt

/-- `_receive`, up to the call of `ingest_event`. -/
def receiveEvent (secrets : Secrets) (psp : Connector) (rawBody : List UInt8) (signature : String)
    (receivedAt : String) : Except Response IngestArgs :=
  if !validateSignature secrets psp rawBody signature then .error .invalidSignature
  else
    match parseBody rawBody with
    | none => .error (.badRequest "Body must be JSON")
    | some value =>
      match value.asDict with
      | none => .error (.badRequest "Body must be a JSON object")
      | some payload => .ok (buildEvent psp rawBody payload receivedAt)

/-- What was received was signed, and was read as an object. -/
theorem receiveEvent_ok {secrets : Secrets} {psp : Connector} {rawBody : List UInt8}
    {signature receivedAt : String} {e : IngestArgs}
    (h : receiveEvent secrets psp rawBody signature receivedAt = .ok e) :
    validateSignature secrets psp rawBody signature = true ∧
      ∃ payload, parseBody rawBody = some (.obj payload) ∧
        e = buildEvent psp rawBody payload receivedAt := by
  unfold receiveEvent at h
  cases hvalid : validateSignature secrets psp rawBody signature with
  | false => rw [hvalid] at h; cases h
  | true =>
      rw [hvalid] at h
      refine ⟨rfl, ?_⟩
      cases hbody : parseBody rawBody with
      | none => rw [hbody] at h; cases h
      | some value =>
          rw [hbody] at h
          cases value with
          | obj payload => exact ⟨payload, rfl, (Except.ok.inj h).symm⟩
          | _ => cases h

end Door

/-! ### Polled transactions -/

mutual

/-- A value with the members of every object in the order of their names, as
    `sort_keys=True` writes it. -/
def sortKeys : Json → Json
  | .arr xs => .arr (sortElements xs)
  | .obj fields => .obj ((sortMembers fields).mergeSort fun f f' => decide (f.1 ≤ f'.1))
  | v => v

def sortElements : List Json → List Json
  | [] => []
  | x :: xs => sortKeys x :: sortElements xs

def sortMembers : Dict → Dict
  | [] => []
  | (k, v) :: fields => (k, sortKeys v) :: sortMembers fields

end

/-- `{"event": event_type, "data": tx}`, of whatever a page listed. -/
def polledBody (psp : Connector) (tx : Json) : Dict :=
  [("event", .str psp.polledEvent), ("data", tx)]

section Polled

variable [PyJson] [DoorLibrary]

/-- The arguments `ingest_polled` calls `ingest_event` with. -/
def polledArgs (psp : Connector) (tx : Json) (receivedAt : String) : IngestArgs where
  pspName := psp.pspName
  eventType := psp.polledEvent
  rawPayload := polledBody psp tx
  contentHash := DoorLibrary.sha256Hex (utf8 (dumps (sortKeys (.obj (polledBody psp tx)))))
  receivedAt := receivedAt

/-- An event that came in with a valid signature, or was listed by a poll. -/
inductive Arrived (secrets : Secrets) : IngestArgs → Prop
  | webhook (psp : Connector) (rawBody : List UInt8) (signature receivedAt : String)
      (e : IngestArgs) (h : receiveEvent secrets psp rawBody signature receivedAt = .ok e) :
      Arrived secrets e
  | polled (psp : Connector) (tx : Json) (receivedAt : String) (hread : Parsed tx) :
      Arrived secrets (polledArgs psp tx receivedAt)

omit [DoorLibrary] in
theorem extractEventType_polled (psp : Connector) (tx : Json) :
    extractEventType (polledBody psp tx) = psp.polledEvent := by
  have hname : (Json.str psp.polledEvent).truthy = true := by
    cases psp with
    | _ => rfl
  have hget : (polledBody psp tx).get "event" .null = .str psp.polledEvent := rfl
  rw [extractEventType, hget, Json.orElse, if_pos hname]
  rfl

omit [DoorLibrary] in
theorem parsed_polledBody (psp : Connector) {tx : Json} (h : Parsed tx) :
    Parsed (.obj (polledBody psp tx)) := by
  refine .obj _ (show List.Nodup ["event", "data"] by decide) (fun field hfield => ?_)
  simp only [polledBody, List.mem_cons, List.not_mem_nil, or_false] at hfield
  rcases hfield with rfl | rfl
  · exact .str _
  · exact h

/-- Either way the event is of a known PSP, is filed under the name its own
    payload states, and its payload was read. -/
theorem arrived_spec {secrets : Secrets} {e : IngestArgs} (h : Arrived secrets e) :
    ∃ psp : Connector, e.pspName = psp.pspName ∧ e.eventType = extractEventType e.rawPayload ∧
      Parsed (.obj e.rawPayload) := by
  cases h with
  | webhook psp rawBody signature receivedAt _ h =>
      rcases receiveEvent_ok h with ⟨-, payload, hbody, rfl⟩
      rcases Option.bind_eq_some_iff.mp hbody with ⟨text, -, hread⟩
      exact ⟨psp, rfl, rfl, loads_parsed hread⟩
  | polled psp tx receivedAt hread =>
      exact ⟨psp, rfl, (extractEventType_polled psp tx).symm, parsed_polledBody psp hread⟩

end Polled

end Webhooks

end MmrEngine
