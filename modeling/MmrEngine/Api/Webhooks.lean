import MmrEngine.Engine.Idempotency

/-!
# Webhook Endpoints

`_receive`, from the signature to the answer, and the polled copies of charges
that go through the same `ingest_event`.

The request is authenticated by the PSP's signature, parsed, wrapped by the
connector and handed to `ingest_event`. What the database and the broker make of
the key is `Flows.Ingestion`; here it is an arbitrary outcome for each key. A
failure of `ingest_event` of any kind is answered 503, which makes the PSP
retry.

## Main definitions

* `Connector`: The PSPs with a webhook endpoint.
* `extractEventType`: The event name as the connectors read it.
* `webhookKey`: The key `ingest_event` computes for a webhook.
* `receive`: The endpoint.
* `polledPayload`, `polledKey`: A polled charge as an event, and its key.
-/

namespace MmrEngine

namespace Webhooks

/-- The PSPs with a connector. -/
inductive Connector where
  | paystack
  | flutterwave
  deriving DecidableEq, Repr

def Connector.pspName : Connector → String
  | .paystack => "paystack"
  | .flutterwave => "flutterwave"

/-- `_POLLING`: the event a webhook for a successful charge would carry. -/
def Connector.polledEvent : Connector → String
  | .paystack => "charge.success"
  | .flutterwave => "charge.completed"

section Keys

variable [PyText]

/-- `str(payload.get("event") or "unknown")`, for both PSPs. -/
def extractEventType (payload : Dict) : String :=
  ((payload.get "event" .null).orElse (.str "unknown")).toStr

/-- The key `ingest_event` computes for the event the connector builds. -/
def webhookKey (psp : Connector) (payload : Dict) (contentHash : String) :
    Except PyError String :=
  Idempotency.ingestKey psp.pspName (extractEventType payload) payload contentHash

/-- `{"event": event_type, "data": tx}`. -/
def polledPayload (psp : Connector) (tx : Dict) : Dict :=
  [("event", .str psp.polledEvent), ("data", .obj tx)]

/-- The key `ingest_event` computes for a polled transaction. -/
def polledKey (psp : Connector) (tx : Dict) (contentHash : String) : Except PyError String :=
  Idempotency.ingestKey psp.pspName psp.polledEvent (polledPayload psp tx) contentHash

end Keys

/-- Why an event that has a key was not recorded. -/
inductive BackendFailure where
  | database
  | broker
  deriving DecidableEq, Repr

/-- What the endpoint answers. -/
inductive Response where
  | invalidSignature
  | badRequest (detail : String)
  | accepted (isNew : Bool) (idempotencyKey : String)
  | unavailable
  deriving DecidableEq, Repr

def Response.status : Response → Nat
  | .invalidSignature => 401
  | .badRequest _ => 400
  | .accepted _ _ => 200
  | .unavailable => 503

/-- `_receive`: the body is what `json.loads` made of it, or `none` where it says
    that it is no JSON. What `json.loads` raises otherwise, for a number of more
    than 4300 digits or brackets nested too deep, is answered 500 and left out:
    the body is one it reads or refuses. `backend` is what database and broker
    make of a key: whether it was new, or a failure. A key the database refuses
    is such a failure. -/
def receive [PyText] (psp : Connector) (validSignature : Bool) (body : Option Json)
    (contentHash : String) (backend : String → Except BackendFailure Bool) : Response :=
  if !validSignature then .invalidSignature
  else
    match body with
    | none => .badRequest "Body must be JSON"
    | some value =>
      match value.asDict with
      | none => .badRequest "Body must be a JSON object"
      | some payload =>
        match webhookKey psp payload contentHash with
        -- Never acknowledge an event we failed to record.
        | .error _ => .unavailable
        | .ok key =>
          match backend key with
          | .error _ => .unavailable
          | .ok isNew => .accepted isNew key

end Webhooks

end MmrEngine
