import MmrEngine.Api.Webhooks
import MmrEngine.Engine.CanonicalRecord

/-!
# Two Extractions of One Reference

The reference of an event is read twice: at the door, where the idempotency key
is registered, and in the normaliser, where the key goes into the Silver row.

The extraction at the door takes `data or {}` for an object. That covers a
missing `data` and everything falsy, and nothing else: for any other value that
is no object it raises, on every delivery of the event alike.

Where the normaliser accepts a payload the two agree. It requires a reference
with something in it, so the fallback to the content hash is not taken, and it
accepts only event names of its vocabulary, which are texts and what the
connector reads. What it strips from the reference the key strips anyway.

## Main definitions

* `DataReadable`: What the extraction at the door can read.
* `Connector.normalise`: The normaliser of a PSP.
* `ExtractedFrom`: What it has worked out of a payload.

## Theorems

* `webhookKey_ok_iff`: When the door computes a key.
* `unprocessable_at_the_door_iff`: When a signed body is answered 503 for its own
  sake.
* `normalise_steps`: A record has every step of its normaliser behind it.
* `normalise_ok`: What an accepted payload looks like.
* `normalisedKey_of_normalise`: The key as `Engine.Normaliser` computes it.
* `same_key_at_the_door_and_in_silver`: The two keys of an accepted payload.
-/

namespace MmrEngine

namespace Webhooks

open Idempotency

section Door

variable [PyText]

/-- `data` is missing, falsy, or an object. -/
def DataReadable (payload : Dict) : Prop :=
  (payload.get "data" .null).truthy = false ∨
    ((payload.get "data" .null).asDict).isSome = true

/-- The reference as a PSP's extraction reads it, out of an object. -/
def Connector.referenceField (psp : Connector) (data : Dict) : Json :=
  match psp with
  | .paystack => data.get "reference" .null
  | .flutterwave => (data.get "tx_ref" .null).orElse (data.get "reference" .null)

/-- The fields of the data a PSP's reference is read from. -/
def Connector.referenceFields : Connector → List String
  | .paystack => ["reference"]
  | .flutterwave => ["tx_ref", "reference"]

omit [PyText] in
theorem attr_obj (data : Dict) (key : String) :
    (Json.obj data).attr key = .ok (data.get key .null) := rfl

/-- Out of an object the extraction reads the reference field, or falls back to
    the content hash. -/
theorem extractTransactionRef_obj (psp : Connector) {payload data : Dict}
    (h : (payload.get "data" .null).orElse (.obj []) = .obj data) (contentHash : String) :
    extractTransactionRef psp.pspName payload contentHash
      = .ok (if (psp.referenceField data).truthy then (psp.referenceField data).toStr
          else hashRef contentHash) := by
  cases psp with
  | paystack =>
      simp only [extractTransactionRef, Connector.pspName, h, if_true, attr_obj]
      rfl
  | flutterwave =>
      have hne : ("flutterwave" : String) ≠ "paystack" := by decide
      simp only [extractTransactionRef, Connector.pspName, h, hne, if_false, if_true, attr_obj,
        Connector.referenceField]
      -- `reference` is read only where `tx_ref` is falsy.
      by_cases htx : (data.get "tx_ref" .null).truthy = true
      · simp only [Json.orElse, htx, if_true, bind, Except.bind, pure, Except.pure]
      · simp only [Json.orElse, htx, if_false, bind, Except.bind, pure, Except.pure,
          Bool.false_eq_true]

/-- Out of anything else it raises. -/
theorem extractTransactionRef_of_not_obj (psp : Connector) {payload : Dict}
    (h : ((payload.get "data" .null).orElse (.obj [])).asDict = none) (contentHash : String) :
    extractTransactionRef psp.pspName payload contentHash = .error .attributeError := by
  have hattr : ∀ key, ((payload.get "data" .null).orElse (.obj [])).attr key
      = .error .attributeError := by
    intro key
    rw [Json.attr, h]
  cases psp with
  | paystack =>
      simp only [extractTransactionRef, Connector.pspName, if_true, hattr]
      rfl
  | flutterwave =>
      have hne : ("flutterwave" : String) ≠ "paystack" := by decide
      simp only [extractTransactionRef, Connector.pspName, hne, if_false, if_true, hattr]
      rfl

omit [PyText] in
theorem asDict_isSome_iff (v : Json) : v.asDict.isSome = true ↔ ∃ d, v = .obj d := by
  cases v <;> simp [Json.asDict]

omit [PyText] in
/-- An object is itself after `or {}`, also an empty one. -/
theorem orElse_of_asDict {v : Json} {data : Dict} (h : v.asDict = some data) :
    v.orElse (.obj []) = .obj data := by
  cases v with
  | obj fields =>
      rw [← Option.some.inj h]
      cases fields <;> rfl
  | _ => cases h

omit [PyText] in
/-- What the door can read is an object after `or {}`. -/
theorem dataReadable_iff (payload : Dict) :
    DataReadable payload ↔ ∃ data, (payload.get "data" .null).orElse (.obj []) = .obj data := by
  unfold DataReadable Json.orElse
  by_cases htruthy : (payload.get "data" .null).truthy = true
  · simp [htruthy, asDict_isSome_iff]
  · simp [htruthy]

/-- The door computes a key exactly for the payloads it can read. -/
theorem webhookKey_ok_iff (psp : Connector) (payload : Dict) (contentHash : String) :
    (∃ key, webhookKey psp payload contentHash = .ok key) ↔ DataReadable payload := by
  rw [dataReadable_iff]
  constructor
  · rintro ⟨key, hkey⟩
    cases hobj : ((payload.get "data" .null).orElse (.obj [])).asDict with
    | some data =>
        refine ⟨data, ?_⟩
        cases hv : (payload.get "data" .null).orElse (.obj []) with
        | obj fields =>
            rw [hv] at hobj
            rw [Option.some.inj hobj]
        | _ => rw [hv] at hobj; cases hobj
    | none =>
        rw [webhookKey, ingestKey, extractTransactionRef_of_not_obj psp hobj] at hkey
        cases hkey
  · rintro ⟨data, hdata⟩
    rw [webhookKey, ingestKey, extractTransactionRef_obj psp hdata]
    exact ⟨_, rfl⟩

/-- A signed JSON object gets its key, and is answered 503 only for a failure of
    the database or the broker, exactly when its `data` is missing, falsy or an
    object. -/
theorem unprocessable_at_the_door_iff (psp : Connector) (payload : Dict) (contentHash : String) :
    ((∃ key, webhookKey psp payload contentHash = .ok key) ∧
        ∀ backend, (receive psp true (some (.obj payload)) contentHash backend).status = 503 →
          ∃ key e, webhookKey psp payload contentHash = .ok key ∧ backend key = .error e) ↔
      ((payload.get "data" .null).truthy = false ∨
        ((payload.get "data" .null).asDict).isSome = true) := by
  refine Iff.trans ?_ (webhookKey_ok_iff psp payload contentHash)
  constructor
  · exact fun h => h.1
  · rintro ⟨key, hkey⟩
    refine ⟨⟨key, hkey⟩, fun backend h503 => ?_⟩
    -- With a key in hand only the database or the broker can raise.
    cases hb : backend key with
    | error e => exact ⟨key, e, hkey, hb⟩
    | ok isNew =>
        simp only [receive, Json.asDict, hkey, hb, Bool.not_true, Bool.false_eq_true, if_false,
          Response.status] at h503
        cases h503

end Door

/-- A signed charge whose `data` is a text: the database and the broker accept
    every key, and the answer is 503 all the same. -/
theorem door_refuses_text_data :
    (@receive asciiText .paystack true
        (some (.obj [("event", .str "charge.success"), ("data", .str "see attachment")])) "00"
        fun _ => .ok true).status = 503 ∧
      @webhookKey asciiText .paystack
          [("event", .str "charge.success"), ("data", .str "see attachment")] "00"
        = .error .attributeError := by
  exact ⟨rfl, rfl⟩

section Accepted

variable [PyLibrary]

open Canonical

/-- The normaliser of a PSP. -/
def Connector.normalise : Connector → NormaliseArgs → Dict → Except EventError CanonicalRecord
  | .paystack => normalisePaystackEvent
  | .flutterwave => normaliseFlutterwaveEvent

omit [PyLibrary] in
/-- A computation that succeeded did so step by step. -/
theorem bind_eq_ok {ε α β : Type} {x : Except ε α} {f : α → Except ε β} {b : β} :
    x >>= f = .ok b ↔ ∃ a, x = .ok a ∧ f a = .ok b := by
  cases x with
  | error e => simp [bind, Except.bind]
  | ok a => simp [bind, Except.bind]

omit [PyLibrary] in
theorem liftPy_eq_ok {β : Type} {x : Except PyError β} {b : β} :
    liftPy x = .ok b ↔ x = .ok b := by
  cases x <;> simp [liftPy]

/-- An accepted event has an object for its data and a name of the vocabulary. -/
theorem acceptEvent_eq_ok {pspName : String} {payload : Dict} {eventType : String}
    {disposition : Normaliser.EventDisposition} {data : Dict}
    (h : acceptEvent pspName payload = .ok (eventType, disposition, data)) :
    payload.lookup "event" = some (.str eventType) ∧
      (payload.get "data" .null).asDict = some data ∧
      Normaliser.Modelled pspName eventType payload ∧
      disposition = Normaliser.classifyEvent pspName eventType payload := by
  unfold acceptEvent at h
  cases hev : payload.lookup "event" with
  | none => rw [hev] at h; cases h
  | some event =>
      rw [hev] at h
      cases hd : (payload.get "data" .null).asDict with
      | none => rw [hd] at h; cases h
      | some d =>
          rw [hd] at h
          cases event with
          | str s =>
              simp only [] at h
              by_cases hp : (Normaliser.classifyEvent pspName s payload).process = true
              · rw [if_pos hp] at h
                cases h
                exact ⟨rfl, rfl, (Normaliser.classifyEvent_process _ _ _).mp hp, rfl⟩
              · rw [if_neg hp] at h
                cases h
          | _ => cases h

/-- The key of a record is that of what it was built from. -/
theorem canonicalRecord_key {args : NormaliseArgs} {x : Extracted} {record : CanonicalRecord}
    (h : canonicalRecord args x = .ok record) :
    record.idempotencyKey = buildIdempotencyKey x.pspName x.reference x.eventType := by
  unfold canonicalRecord at h
  by_cases hpos : x.amountRaw ≤ 0
  · rw [if_pos hpos] at h
    cases h
  · rw [if_neg hpos] at h
    rcases bind_eq_ok.mp h with ⟨account, -, h⟩
    rcases bind_eq_ok.mp h with ⟨name, -, h⟩
    rcases bind_eq_ok.mp h with ⟨narration, -, h⟩
    rw [← Except.ok.inj h]

/-- The reference a normaliser puts into the key, and the record. -/
def Connector.reference : Connector → Dict → Except PyError String
  | .paystack => Normaliser.paystackReference
  | .flutterwave => Normaliser.flutterwaveReference

/-- A reference the normaliser accepts is a truthy value, stripped. -/
theorem reference_eq_ok {psp : Connector} {data : Dict} {ref : String}
    (h : psp.reference data = .ok ref) :
    (psp.referenceField data).truthy = true ∧ ref = strip (psp.referenceField data).toStr := by
  cases psp with
  | paystack =>
      simp only [Connector.reference, Normaliser.paystackReference, Normaliser.requireStr] at h
      by_cases hc : (data.get "reference" .null).truthy = true ∧
          strip (data.get "reference" .null).toStr ≠ ""
      · rw [if_pos hc] at h
        exact ⟨hc.1, (Except.ok.inj h).symm⟩
      · rw [if_neg hc] at h
        cases h
  | flutterwave =>
      simp only [Connector.reference, Normaliser.flutterwaveReference] at h
      simp only [Connector.referenceField]
      by_cases htruthy :
          ((data.get "tx_ref" .null).orElse (data.get "reference" .null)).truthy = true
      · rw [Json.orElse.eq_def _ (.str ""), if_pos htruthy] at h
        by_cases hempty : strip
            ((data.get "tx_ref" .null).orElse (data.get "reference" .null)).toStr = ""
        · rw [if_pos hempty] at h
          cases h
        · rw [if_neg hempty] at h
          exact ⟨htruthy, (Except.ok.inj h).symm⟩
      · -- Nothing to strip is nothing at all.
        rw [Json.orElse.eq_def _ (.str ""), if_neg htruthy] at h
        simp only [Json.toStr, strip_empty, if_true] at h
        cases h

/-- The amount in the currency's major unit. -/
def Connector.majorUnits (psp : Connector) (amount : ℚ) : Except EventError ℚ :=
  match psp with
  | .paystack => liftDecimal (Decimal.divide amount 100)
  | .flutterwave => .ok amount

def Connector.timestamp (psp : Connector) (data : Dict) : Json :=
  match psp with
  | .paystack => paystackTimestamp data
  | .flutterwave => data.get "created_at" .null

/-- What a normaliser has worked out of a payload before it builds the record. -/
structure ExtractedFrom (psp : Connector) (args : NormaliseArgs) (payload data : Dict)
    (x : Extracted) : Prop where
  pspName : x.pspName = psp.pspName
  event : payload.lookup "event" = some (.str x.eventType)
  object : (payload.get "data" .null).asDict = some data
  modelled : Normaliser.Modelled psp.pspName x.eventType payload
  disposition : x.disposition = Normaliser.classifyEvent psp.pspName x.eventType payload
  reference : psp.reference data = .ok x.reference
  amount : ∃ amount, decimalField (data.get "amount" .null) "data.amount" = .ok amount ∧
    psp.majorUnits amount = .ok x.amountRaw
  currency : x.currencyRaw = currencyOf data
  ngn : toNgn x.amountRaw x.currencyRaw args.fxRateSnapshotId args.fxRateApplied = .ok x.ngn
  initiatedAt : parseTimestamp (psp.timestamp data) = .ok x.initiatedAt

/-- A normaliser that returns a record has taken every step. -/
theorem normalise_steps {psp : Connector} {args : NormaliseArgs} {payload : Dict}
    {record : CanonicalRecord} (h : psp.normalise args payload = .ok record) :
    ∃ data x, ExtractedFrom psp args payload data x ∧ canonicalRecord args x = .ok record := by
  cases psp with
  | paystack =>
      rcases bind_eq_ok.mp h with ⟨⟨eventType, disposition, data⟩, hacc, hrec⟩
      rcases acceptEvent_eq_ok hacc with ⟨hev, hd, hmod, hdisposition⟩
      rcases bind_eq_ok.mp hrec with ⟨ref, href, hrec⟩
      rcases bind_eq_ok.mp hrec with ⟨amount, hamount, hrec⟩
      rcases bind_eq_ok.mp hrec with ⟨amountRaw, hmajor, hrec⟩
      rcases bind_eq_ok.mp hrec with ⟨ngn, hngn, hrec⟩
      rcases bind_eq_ok.mp hrec with ⟨initiatedAt, hinitiated, hrec⟩
      -- What the counterparty is does not matter to what is extracted.
      rcases bind_eq_ok.mp hrec with ⟨counterparty, -, hrec⟩
      refine ⟨data, _, ?_, hrec⟩
      exact ⟨rfl, hev, hd, hmod, hdisposition, liftPy_eq_ok.mp href, ⟨amount, hamount, hmajor⟩,
        rfl, hngn, hinitiated⟩
  | flutterwave =>
      rcases bind_eq_ok.mp h with ⟨⟨eventType, disposition, data⟩, hacc, hrec⟩
      rcases acceptEvent_eq_ok hacc with ⟨hev, hd, hmod, hdisposition⟩
      rcases bind_eq_ok.mp hrec with ⟨ref, href, hrec⟩
      -- Flutterwave reports major units, so there is no conversion to peel off.
      rcases bind_eq_ok.mp hrec with ⟨amountRaw, hamount, hrec⟩
      rcases bind_eq_ok.mp hrec with ⟨ngn, hngn, hrec⟩
      rcases bind_eq_ok.mp hrec with ⟨initiatedAt, hinitiated, hrec⟩
      rcases bind_eq_ok.mp hrec with ⟨counterparty, -, hrec⟩
      refine ⟨data, _, ?_, hrec⟩
      exact ⟨rfl, hev, hd, hmod, hdisposition, liftPy_eq_ok.mp href, ⟨amountRaw, hamount, rfl⟩,
        rfl, hngn, hinitiated⟩

/-- An accepted payload: its event name, its data and its reference, and the key
    of its record. -/
theorem normalise_ok {psp : Connector} {args : NormaliseArgs} {payload : Dict}
    {record : CanonicalRecord} (h : psp.normalise args payload = .ok record) :
    ∃ eventType data ref, payload.lookup "event" = some (.str eventType) ∧
      (payload.get "data" .null).asDict = some data ∧
      Normaliser.Modelled psp.pspName eventType payload ∧ psp.reference data = .ok ref ∧
      record.idempotencyKey = buildIdempotencyKey psp.pspName ref eventType := by
  rcases normalise_steps h with ⟨data, x, hx, hrec⟩
  refine ⟨x.eventType, data, x.reference, hx.event, hx.object, hx.modelled, hx.reference, ?_⟩
  rw [canonicalRecord_key hrec, hx.pspName]

/-- The part of a normaliser that decides the key computes the key of the
    record. -/
theorem normalisedKey_of_normalise {psp : Connector} {args : NormaliseArgs} {payload : Dict}
    {record : CanonicalRecord} (h : psp.normalise args payload = .ok record) :
    Normaliser.normalisedKey psp.pspName psp.reference payload = .ok record.idempotencyKey := by
  rcases normalise_ok h with ⟨eventType, data, ref, hev, hd, hmod, href, hkey⟩
  have hproc := (Normaliser.classifyEvent_process _ _ _).mpr hmod
  rw [hkey]
  simp only [Normaliser.normalisedKey, hev, hd, hproc, if_true, href]
  rfl

/-- A modelled event has a name. -/
theorem modelled_ne_empty {pspName eventType : String} {payload : Dict}
    (h : Normaliser.Modelled pspName eventType payload) : eventType ≠ "" := by
  rintro rfl
  rcases h with ⟨data, -, ⟨-, h⟩ | ⟨-, ⟨h, -⟩ | ⟨h, -⟩⟩⟩
  · revert h
    decide
  · revert h
    decide
  · revert h
    decide

/-- The key at the door, for data that is an object with a reference. -/
theorem ingestKey_of_reference {psp : Connector} {payload data : Dict} (eventType : String)
    (hd : (payload.get "data" .null).asDict = some data)
    (htruthy : (psp.referenceField data).truthy = true) (contentHash : String) :
    ingestKey psp.pspName eventType payload contentHash
      = .ok (buildIdempotencyKey psp.pspName (psp.referenceField data).toStr eventType) := by
  rw [ingestKey, extractTransactionRef_obj psp (orElse_of_asDict hd), if_pos htruthy]
  rfl

/-- The key registered at the door is the key of the Silver row, for every
    payload the normaliser makes a record of, whether it came by webhook or was
    polled; and a polled transaction whose reference fields are those of an
    accepted webhook, of the event polling presents it as, has that key too. -/
theorem same_key_at_the_door_and_in_silver {psp : Connector} {args : NormaliseArgs}
    {payload : Dict} {record : CanonicalRecord} (h : psp.normalise args payload = .ok record)
    (contentHash : String) :
    webhookKey psp payload contentHash = .ok record.idempotencyKey ∧
      (∀ tx, payload = polledPayload psp tx →
        polledKey psp tx contentHash = .ok record.idempotencyKey) ∧
      ∀ (data tx : Dict) (polledHash : String), payload.get "data" .null = .obj data →
        extractEventType payload = psp.polledEvent →
        (∀ field ∈ psp.referenceFields, data.get field .null = tx.get field .null) →
        polledKey psp tx polledHash = webhookKey psp payload contentHash := by
  rcases normalise_ok h with ⟨eventType, data, ref, hev, hd, hmod, href, hbuilt⟩
  rcases reference_eq_ok href with ⟨htruthy, hstrip⟩
  -- `build_idempotency_key` strips once more, so it does not matter who stripped before.
  have hkey : record.idempotencyKey
      = buildIdempotencyKey psp.pspName (psp.referenceField data).toStr eventType := by
    rw [hbuilt, hstrip, buildIdempotencyKey, buildIdempotencyKey, strip_strip]
  -- An accepted name is not empty, so the connector reads it as well.
  have htype : extractEventType payload = eventType := by
    have hget : payload.get "event" .null = .str eventType := by
      rw [Dict.get, hev]
      rfl
    have hname : (Json.str eventType).truthy = true := by
      simpa [Json.truthy] using modelled_ne_empty hmod
    rw [extractEventType, hget, Json.orElse, if_pos hname]
    rfl
  have hdoor : webhookKey psp payload contentHash = .ok record.idempotencyKey := by
    rw [webhookKey, htype, ingestKey_of_reference eventType hd htruthy, hkey]
  refine ⟨hdoor, ?_, ?_⟩
  · rintro tx rfl
    -- A polled payload names the event it is filed under.
    have hpolled : eventType = psp.polledEvent := by
      rw [polledPayload] at hev
      simpa [List.lookup_cons] using hev.symm
    rw [polledKey, ← hpolled, ingestKey_of_reference eventType hd htruthy, hkey]
  · intro data' tx polledHash hdata hevent hagree
    have hsame : data' = data := by
      rw [hdata] at hd
      exact Option.some.inj hd
    subst hsame
    -- Both sides look at the same fields, in the same order.
    have hfield : psp.referenceField tx = psp.referenceField data' := by
      cases psp with
      | paystack => exact (hagree "reference" (by decide)).symm
      | flutterwave =>
          simp only [Connector.referenceField, hagree "tx_ref" (by decide),
            hagree "reference" (by decide)]
    have hdata' : ((polledPayload psp tx).get "data" .null).asDict = some tx := rfl
    rw [hdoor, hkey, polledKey, ← hevent, htype,
      ingestKey_of_reference eventType hdata' (by rw [hfield]; exact htruthy), hfield]

end Accepted

/-- A Flutterwave charge with a padded reference. -/
def paddedCharge : Dict :=
  [("event", .str "charge.completed"),
    ("data", .obj [("tx_ref", .str " FLW-1 "), ("amount", .int 5000),
      ("status", .str "successful"), ("created_at", .str "2026-01-01T00:00:00Z")])]

def someArgs : Canonical.NormaliseArgs where
  recordId := "r"
  now := 0
  bronzeIngestionId := "b"
  runId := "run"
  fxRateSnapshotId := none
  fxRateApplied := none
  expectedSettlementAt := none

theorem same_key_at_the_door_and_in_silver_padded :
    ∃ record, @Connector.normalise asciiLibrary .flutterwave someArgs paddedCharge = .ok record ∧
      @webhookKey asciiText .flutterwave paddedCharge "00" = .ok record.idempotencyKey := by
  have hok :
      (@Connector.normalise asciiLibrary .flutterwave someArgs paddedCharge).isOk = true := by
    decide
  cases h : @Connector.normalise asciiLibrary .flutterwave someArgs paddedCharge with
  | error e =>
      rw [h] at hok
      cases hok
  | ok record =>
      exact ⟨record, rfl, (@same_key_at_the_door_and_in_silver asciiLibrary _ _ _ _ h "00").1⟩

end Webhooks

end MmrEngine
