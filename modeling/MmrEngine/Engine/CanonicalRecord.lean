import MmrEngine.Core.Decimal
import MmrEngine.Engine.Masking
import MmrEngine.Engine.Normaliser

/-!
# Canonical Records

The two normalisers in full: a PSP's payload becomes a Silver record, or
raises.

`Engine.Normaliser` has the part of them that decides the key. Here is every
field access in the order of the source, with the exception each one can
raise. Some are the normaliser's own `PermanentEventError`s, for a payload that
lacks what a record needs. The others come out of Python: `.get` and `.strip`
on a value that has no such attribute, joining what is no text, a result too
large for a `Decimal` or a `datetime`. The consumer tells the two kinds apart,
so `EventError` does.

Amounts are values, without the representation Python would print: the message
of a non-positive amount leaves the amount out.

## Main definitions

* `EventError`: What a normaliser raises.
* `decimalField`, `parseTimestamp`, `toNgn`: The parsing helpers.
* `Counterparty`, `paystackCounterparty`, `flutterwaveCounterparty`: The external
  party of an event.
* `CanonicalRecord`, `canonicalRecord`: The Silver record.
* `normalisePaystackEvent`, `normaliseFlutterwaveEvent`: The normalisers.
-/

namespace MmrEngine

namespace Canonical

/-- What a normaliser raises, by kind. -/
inductive EventError where
  | raised (e : PyError)
  | decimal (e : Decimal.DecimalError)
  | overflowError
  | valueError
  deriving DecidableEq, Repr

/-- `PermanentEventError`. -/
def EventError.isPermanent : EventError → Bool
  | .raised (.permanent _) => true
  | _ => false

def permanent {β : Type} (message : String) : Except EventError β :=
  .error (.raised (.permanent message))

/-- An exception of the JSON values' own operations. -/
def liftPy {β : Type} : Except PyError β → Except EventError β
  | .ok b => .ok b
  | .error e => .error (.raised e)

/-- An exception of the arithmetic. -/
def liftDecimal {β : Type} : Except Decimal.DecimalError β → Except EventError β
  | .ok b => .ok b
  | .error e => .error (.decimal e)

/-- The object `.get` is called on. -/
def asObject (value : Json) : Except PyError Dict :=
  match value.asDict with
  | some d => .ok d
  | none => .error .attributeError

/-- The text `.strip` is called on, for a value that may be `None`. -/
def optionalText : Json → Except PyError (Option String)
  | .null => .ok none
  | .str s => .ok (some s)
  | _ => .error .attributeError

/-- `data.get(field) or {}`. -/
def getObject (data : Dict) (field : String) : Json := (data.get field .null).orElse (.obj [])

section Parsing

variable [PyLibrary]

/-- `_decimal`: the amount behind a JSON value. -/
def decimalField (value : Json) (field : String) : Except EventError ℚ :=
  match value with
  | .null => permanent (field ++ " missing or not numeric")
  -- In Python a boolean is a number.
  | .bool _ => permanent (field ++ " missing or not numeric")
  | value =>
    match PyLibrary.decimalOf value.toStr with
    | none => permanent (field ++ " is not a number: " ++ value.reprOf)
    | some .notFinite => permanent (field ++ " is not finite")
    | some (.finite x) => .ok x

/-- `ts.replace("Z", "+00:00")`. -/
def replaceZ (s : String) : String :=
  String.ofList (s.toList.flatMap fun c => if c = 'Z' then "+00:00".toList else [c])

/-- Parse an ISO-8601 timestamp into UTC. -/
def parseTimestamp (value : Json) : Except EventError ℤ :=
  if value.truthy = false then permanent "event has no timestamp"
  else
    match PyLibrary.fromIsoFormat (replaceZ value.toStr) with
    | none => permanent ("unparseable timestamp " ++ value.reprOf)
    | some ts =>
      match ts.utcOffset with
      | none => permanent ("timestamp without timezone " ++ value.reprOf)
      | some offset =>
        let utc := ts.wallClock - offset
        -- `astimezone` leaves the years a `datetime` can have.
        if datetimeMin ≤ utc ∧ utc ≤ datetimeMax then .ok utc else .error .overflowError

/-- `str(data.get("currency") or "NGN").upper()`. -/
def currencyOf (data : Dict) : String :=
  PyLibrary.upper ((data.get "currency" .null).orElse (.str "NGN")).toStr

/-- `convert_to_ngn`: foreign amount over rate, to millionths. -/
def convertToNgn (amountRaw : ℚ) (currencyRaw : String) (fxRate : ℚ) : Except EventError ℚ :=
  if PyLibrary.upper currencyRaw = "NGN" then .ok amountRaw
  else if fxRate ≤ 0 then .error .valueError
  else liftDecimal (Decimal.toMillionths amountRaw fxRate)

/-- The naira amount with the rate and snapshot it was converted with. -/
def toNgn (amountRaw : ℚ) (currencyRaw : String) (fxRateSnapshotId : Option String)
    (fxRateApplied : Option ℚ) : Except EventError (ℚ × Option String × Option ℚ) :=
  if currencyRaw = "NGN" then .ok (amountRaw, none, none)
  else
    match fxRateApplied with
    | none => permanent ("FX rate required for non-NGN currency: " ++ currencyRaw)
    | some rate => do
      let amountNgn ← convertToNgn amountRaw currencyRaw rate
      return (amountNgn, fxRateSnapshotId, some rate)

end Parsing

/-- The external party of an event, as the payload has it. -/
structure Counterparty where
  name : Json
  account : Json
  bankCode : Json
  bankName : Json

/-- `" ".join(p for p in (first, last) if p) or None`. -/
def joinNames (first last : Json) : Except PyError Json :=
  match ([first, last].filter Json.truthy).mapM (fun | .str s => some s | _ => none) with
  | none => .error .typeError
  | some [] => .ok .null
  | some parts => .ok (.str (" ".intercalate parts))

/-- The payer of a charge, the recipient of a transfer. -/
def paystackCounterparty (isCredit : Bool) (data : Dict) : Except PyError Counterparty := do
  if isCredit then
    let customer ← asObject (getObject data "customer")
    let customerName ← joinNames (customer.get "first_name" .null) (customer.get "last_name" .null)
    let auth ← asObject (getObject data "authorization")
    return {
      name := (auth.get "sender_name" .null).orElse
        ((auth.get "account_name" .null).orElse customerName)
      account := (auth.get "sender_bank_account_number" .null).orElse
        (auth.get "account_number" .null)
      bankCode := auth.get "bank_code" .null
      bankName := (auth.get "sender_bank" .null).orElse (auth.get "bank" .null) }
  else
    let recipient ← asObject (getObject data "recipient")
    let details ← asObject (getObject recipient "details")
    return {
      name := (details.get "account_name" .null).orElse (recipient.get "name" .null)
      account := details.get "account_number" .null
      bankCode := details.get "bank_code" .null
      bankName := details.get "bank_name" .null }

def flutterwaveCounterparty (data : Dict) : Except PyError Counterparty := do
  let account ← asObject (getObject data "account")
  let known := (account.get "account_name" .null).orElse (data.get "full_name" .null)
  -- The customer is only looked at when there is no other name.
  let name ← if known.truthy then pure known else (getObject data "customer").attr "name"
  return {
    name := name
    account := (account.get "account_number" .null).orElse (data.get "account_number" .null)
    bankCode := (account.get "bank_code" .null).orElse (data.get "bank_code" .null)
    bankName := (account.get "bank" .null).orElse (data.get "bank_name" .null) }

/-- What the caller passes beside the payload, and what the record takes from
    the clock and from `uuid4`. -/
structure NormaliseArgs where
  recordId : String
  now : ℤ
  bronzeIngestionId : String
  runId : String
  fxRateSnapshotId : Option String
  fxRateApplied : Option ℚ
  expectedSettlementAt : Option ℤ

/-- A row for `silver_canonical_transactions`. -/
structure CanonicalRecord where
  id : String
  idempotencyKey : String
  bronzeIngestionId : String
  pspName : String
  pspTransactionRef : String
  pspEventType : String
  pspEventReceivedAt : ℤ
  transactionType : Option TransactionType
  amountRaw : ℚ
  currencyRaw : String
  amountNgn : ℚ
  fxRateSnapshotId : Option String
  fxRateApplied : Option ℚ
  senderAccountMasked : Option String := none
  senderBankCode : Option String := none
  senderBankName : Option String := none
  beneficiaryAccountMasked : Option String
  beneficiaryBankCode : Json
  beneficiaryBankName : Json
  beneficiaryNameMasked : Option String
  counterpartyNameTokens : List String
  narration : Option String
  initiatedAt : ℤ
  settledAt : Option ℤ
  expectedSettlementAt : Option ℤ
  settlementStatus : Option SettlementStatus
  hasPiiMasked : Bool := true
  pspMetadata : Dict
  processedByRunId : String

/-- What a PSP's normaliser has worked out before it builds the record. -/
structure Extracted where
  pspName : String
  reference : String
  eventType : String
  disposition : Normaliser.EventDisposition
  amountRaw : ℚ
  currencyRaw : String
  ngn : ℚ × Option String × Option ℚ
  counterparty : Counterparty
  narration : Json
  initiatedAt : ℤ
  pspMetadata : Dict

section Records

variable [PyLibrary]

/-- `_canonical_record`. -/
def canonicalRecord (args : NormaliseArgs) (x : Extracted) : Except EventError CanonicalRecord := do
  if x.amountRaw ≤ 0 then permanent "non-positive amount"
  else
    let account ← liftPy (optionalText x.counterparty.account)
    let name ← liftPy (optionalText x.counterparty.name)
    let narration ← liftPy (optionalText x.narration)
    return {
      id := args.recordId
      idempotencyKey := Idempotency.buildIdempotencyKey x.pspName x.reference x.eventType
      bronzeIngestionId := args.bronzeIngestionId
      pspName := x.pspName
      pspTransactionRef := x.reference
      pspEventType := x.eventType
      pspEventReceivedAt := args.now
      transactionType := x.disposition.transactionType
      amountRaw := x.amountRaw
      currencyRaw := x.currencyRaw
      amountNgn := x.ngn.1
      fxRateSnapshotId := x.ngn.2.1
      fxRateApplied := x.ngn.2.2
      beneficiaryAccountMasked := Pii.maskAccountNumber account
      beneficiaryBankCode := x.counterparty.bankCode
      beneficiaryBankName := x.counterparty.bankName
      beneficiaryNameMasked := Pii.maskName name
      counterpartyNameTokens := Pii.tokenizeName name
      narration := Pii.scrubNarration narration
      initiatedAt := x.initiatedAt
      -- What is settled counts as settled when it was initiated.
      settledAt := if x.disposition.settlementStatus = some .settled then some x.initiatedAt else none
      expectedSettlementAt := args.expectedSettlementAt
      settlementStatus := x.disposition.settlementStatus
      pspMetadata := x.pspMetadata
      processedByRunId := args.runId }

/-- `_extract_paystack_narration`: the first custom field's value as a text. -/
def extractPaystackNarration (data : Dict) : Json :=
  match (data.get "metadata" .null).asDict with
  | none => .null
  | some metadata =>
    match metadata.get "custom_fields" .null with
    | .arr (.obj field :: _) =>
      match Dict.get field "value" .null with
      | .null => .null
      | value => .str value.toStr
    | _ => .null

/-- `int(fees) if isinstance(fees, int) else None`. -/
def feesKobo : Json → Json
  | .int n => .int n
  | .bool b => .int (if b then 1 else 0)
  | _ => .null

/-- `str(data[field]) if data.get(field) is not None else None`. -/
def feeText (data : Dict) (field : String) : Json :=
  match data.get field .null with
  | .null => .null
  | fee => .str fee.toStr

/-- The payload's own event name, how it is classified, and its data. Looking a
    list or an object up in the vocabulary is a `TypeError`. -/
def acceptEvent (pspName : String) (payload : Dict) :
    Except EventError (String × Normaliser.EventDisposition × Dict) :=
  match payload.lookup "event" with
  | none => .error (.raised (.keyError "event"))
  | some event =>
    match (payload.get "data" .null).asDict with
    | none => permanent "payload has no data object"
    | some data =>
      match event with
      | .str eventType =>
        let disposition := Normaliser.classifyEvent pspName eventType payload
        if disposition.process then .ok (eventType, disposition, data)
        else permanent (disposition.reason.getD "event not processable")
      | .arr _ | .obj _ => .error (.raised .typeError)
      | v => permanent ("unhandled " ++ pspName ++ " event " ++ v.reprOf)

/-- Paystack's timestamp: when it was paid, or else created. -/
def paystackTimestamp (data : Dict) : Json :=
  (data.get "paid_at" .null).orElse
    ((data.get "created_at" .null).orElse (data.get "createdAt" .null))

/-- The record for an accepted Paystack event; amounts are in kobo. -/
def paystackRecord (args : NormaliseArgs) (eventType : String)
    (disposition : Normaliser.EventDisposition) (data : Dict) :
    Except EventError CanonicalRecord := do
  let reference ← liftPy (Normaliser.paystackReference data)
  let amount ← decimalField (data.get "amount" .null) "data.amount"
  -- From kobo to naira.
  let amountRaw ← liftDecimal (Decimal.divide amount 100)
  let currencyRaw := currencyOf data
  let ngn ← toNgn amountRaw currencyRaw args.fxRateSnapshotId args.fxRateApplied
  let initiatedAt ← parseTimestamp (paystackTimestamp data)
  let counterparty ←
    liftPy (paystackCounterparty (disposition.transactionType = some .credit) data)
  canonicalRecord args {
    pspName := "paystack"
    reference := reference
    eventType := eventType
    disposition := disposition
    amountRaw := amountRaw
    currencyRaw := currencyRaw
    ngn := ngn
    counterparty := counterparty
    narration := extractPaystackNarration data
    initiatedAt := initiatedAt
    pspMetadata := [("channel", data.get "channel" .null),
      ("fees_kobo", feesKobo (data.get "fees" .null)), ("paystack_id", data.get "id" .null),
      ("status", data.get "status" .null)] }

/-- The record for an accepted Flutterwave event; amounts are in major units. -/
def flutterwaveRecord (args : NormaliseArgs) (eventType : String)
    (disposition : Normaliser.EventDisposition) (data : Dict) :
    Except EventError CanonicalRecord := do
  let reference ← liftPy (Normaliser.flutterwaveReference data)
  let amountRaw ← decimalField (data.get "amount" .null) "data.amount"
  let currencyRaw := currencyOf data
  let ngn ← toNgn amountRaw currencyRaw args.fxRateSnapshotId args.fxRateApplied
  let initiatedAt ← parseTimestamp (data.get "created_at" .null)
  let counterparty ← liftPy (flutterwaveCounterparty data)
  canonicalRecord args {
    pspName := "flutterwave"
    reference := reference
    eventType := eventType
    disposition := disposition
    amountRaw := amountRaw
    currencyRaw := currencyRaw
    ngn := ngn
    counterparty := counterparty
    narration := data.get "narration" .null
    initiatedAt := initiatedAt
    pspMetadata := [("flw_ref", data.get "flw_ref" .null), ("app_fee", feeText data "app_fee"),
      ("merchant_fee", feeText data "merchant_fee"), ("flutterwave_id", data.get "id" .null),
      ("status", data.get "status" .null)] }

def normalisePaystackEvent (args : NormaliseArgs) (payload : Dict) :
    Except EventError CanonicalRecord := do
  let accepted ← acceptEvent "paystack" payload
  paystackRecord args accepted.1 accepted.2.1 accepted.2.2

def normaliseFlutterwaveEvent (args : NormaliseArgs) (payload : Dict) :
    Except EventError CanonicalRecord := do
  let accepted ← acceptEvent "flutterwave" payload
  flutterwaveRecord args accepted.1 accepted.2.1 accepted.2.2

/-- `NORMALISERS`. -/
def normalisers : List (String × (NormaliseArgs → Dict → Except EventError CanonicalRecord)) :=
  [("paystack", normalisePaystackEvent), ("flutterwave", normaliseFlutterwaveEvent)]

end Records

end Canonical

end MmrEngine
