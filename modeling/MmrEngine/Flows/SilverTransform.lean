import MmrEngine.Engine.CanonicalRecord
import MmrEngine.Engine.Fx
import MmrEngine.Engine.Settlement
import MmrEngine.Lib.UniqueTable

/-!
# From an Event to Its Silver Row

`normalise_to_silver` in full.

The flow reads the event's timestamp and currency itself, before it calls the
normaliser, to pick the FX rate and to compute when settlement is expected. The
normaliser then reads both again, out of the same payload, for the row.

What the call reads elsewhere is given with it: the rate snapshots at its first
lookup and those a capture leaves for the second, the settlement windows, what
the schema and the table accept. A duplicate finds the row of its key.

The years a `datetime` can have bound the timestamp itself. That adding to one
in the last days of the year 9999 raises is not modelled.

## Main definitions

* `SilverCall`: A call, and what it reads.
* `SilverError`: What it raises.
* `eventTimestamp`, `resolveFxRate`, `expectedSettlementAt`: What the flow works
  out itself.
* `writeRecord`, `normaliseToSilver`: The write, and the whole call.
-/

namespace MmrEngine

namespace SilverTransform

open Canonical

/-- A call of `normalise_to_silver`, and what it reads beside its arguments;
    `captured` is `none` where the capture raises. -/
structure SilverCall where
  pspName : String
  payload : Dict
  eventType : String
  bronzeIngestionId : String
  runId : String
  recordId : String
  now : ℤ
  snapshots : List Fx.Snapshot
  captured : Option (List Fx.Snapshot)
  windows : List Settlement.SettlementWindow
  schemaAccepts : CanonicalRecord → Bool
  tableAccepts : CanonicalRecord → Bool

/-- What a call raises: an exception of the normaliser's or of the same kind,
    Pandera's `SchemaError`, or one of the database or the provider. -/
inductive SilverError where
  | event (e : EventError)
  | schemaError
  | backend
  deriving DecidableEq, Repr

def liftEvent {β : Type} : Except EventError β → Except SilverError β
  | .ok b => .ok b
  | .error e => .error (.event e)

/-- `data.get("paid_at") or data.get("created_at") or data.get("createdAt")`. -/
def eventTimestamp (data : Dict) : Json :=
  (data.get "paid_at" .null).orElse
    ((data.get "created_at" .null).orElse (data.get "createdAt" .null))

/-- The snapshot's id and rate, as the row refers to them. -/
def fxColumns (found : Nat × ℚ) : Option String × Option ℚ :=
  (some (toString found.1), some found.2)

/-- `_resolve_fx_rate`. -/
def resolveFxRate (c : SilverCall) (currencyRaw : String) (initiatedAt : ℤ) :
    Except SilverError (Option String × Option ℚ) :=
  if currencyRaw = "NGN" then .ok (none, none)
  else
    let currencyPair := "NGN/" ++ currencyRaw
    match Fx.getFxRateAt c.snapshots currencyPair initiatedAt, c.captured with
    | some found, _ => .ok (fxColumns found)
    | none, none => .error .backend
    | none, some captured =>
      match Fx.getFxRateAt captured currencyPair initiatedAt with
      | some found => .ok (fxColumns found)
      | none =>
        .error (.event (.raised (.permanent ("no FX rate for " ++ currencyPair ++
          " at or shortly after " ++ Datetime.isoformat initiatedAt))))

/-- When the flow expects settlement, for what the event is filed under. -/
def expectedSettlementAt [PyText] (c : SilverCall) (initiatedAt : ℤ) : Option ℤ :=
  let disposition := Normaliser.classifyEvent c.pspName c.eventType c.payload
  (Settlement.computeExpectedSettlement c.windows c.pspName
    (disposition.transactionType.getD .credit) (Datetime.ofInstant initiatedAt)
    "standard").map Datetime.instant

/-- `silver_canonical_transactions`, unique by idempotency key. -/
abbrev SilverTable := UniqueTable CanonicalRecord.idempotencyKey

/-- Validation and `INSERT ... ON CONFLICT DO NOTHING`, with the id of the row
    of the key and whether it is new. -/
def writeRecord (c : SilverCall) (record : CanonicalRecord) (silver : SilverTable) :
    Except SilverError (SilverTable × String × Bool) :=
  if c.schemaAccepts record = false then .error .schemaError
  else if c.tableAccepts record = false then .error .backend
  else
    match h : silver.find? record.idempotencyKey with
    | some row => .ok (silver, row.id, false)
    | none => .ok (silver.insert record h, record.id, true)

section

variable [PyLibrary]

/-- What the flow hands to the normaliser. -/
def normaliserArgs (c : SilverCall) (initiatedAt : ℤ) (fx : Option String × Option ℚ) :
    NormaliseArgs where
  recordId := c.recordId
  now := c.now
  bronzeIngestionId := c.bronzeIngestionId
  runId := c.runId
  fxRateSnapshotId := fx.1
  fxRateApplied := fx.2
  expectedSettlementAt := expectedSettlementAt c initiatedAt

def normaliseToSilver (c : SilverCall) (silver : SilverTable) :
    Except SilverError (SilverTable × String × Bool) :=
  match normalisers.lookup c.pspName with
  | none => .error (.event (.raised (.keyError c.pspName)))
  | some normaliser => do
    let data ← liftEvent (liftPy (asObject (getObject c.payload "data")))
    let initiatedAt ← liftEvent (parseTimestamp (eventTimestamp data))
    let fx ← resolveFxRate c (currencyOf data) initiatedAt
    let record ← liftEvent (normaliser (normaliserArgs c initiatedAt fx) c.payload)
    writeRecord c record silver

end

end SilverTransform

end MmrEngine
