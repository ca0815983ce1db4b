import MmrEngine.Flows.SilverTransform
import MmrEngine.Theory.RecordExactness

/-!
# One Event, Two Timestamps

`normalise_to_silver` reads the event's timestamp with a chain of three fields,
to pick the FX rate and to compute when settlement is expected; the row gets
the timestamp its normaliser reads. Paystack's normaliser has the same chain.
Flutterwave's reads `created_at` and nothing else.

So a Flutterwave event has one timestamp exactly if `created_at` is the instant
the chain gives, and where `created_at` is empty the normaliser refuses, for
lack of a timestamp, what the flow has already read one from.

## Main definitions

* `OneTimestamp`: A row, its rate and its expected settlement are of one instant.
* `ReachesTimestamp`: A normaliser gets as far as the timestamp.
* `Elsewhere`: A step does not fail for lack of a timestamp.

## Theorems

* `written_key`, `written_from`: The key of a written row, and what it was made of.
* `normalise_lacks_timestamp_iff`: When a normaliser lacks a timestamp.
* `one_timestamp_iff`: When there is one timestamp.
-/

namespace MmrEngine

namespace SilverTransform

open Canonical Webhooks

/-! ### The written row -/

section Written

variable [PyLibrary]

/-- The row's timestamp is the one the flow has read, its rate is the one at
    that instant, and so is its expected settlement. -/
structure OneTimestamp (c : SilverCall) (data : Dict) (row : CanonicalRecord) : Prop where
  initiatedAt : parseTimestamp (eventTimestamp data) = .ok row.initiatedAt
  rate : resolveFxRate c row.currencyRaw row.initiatedAt
    = .ok (row.fxRateSnapshotId, row.fxRateApplied)
  settlement : row.expectedSettlementAt = expectedSettlementAt c row.initiatedAt

omit [PyLibrary] in
theorem liftEvent_eq_ok {β : Type} {x : Except EventError β} {b : β} :
    liftEvent x = .ok b ↔ x = .ok b := by
  cases x <;> simp [liftEvent]

theorem normalisers_lookup (psp : Connector) :
    normalisers.lookup psp.pspName = some psp.normalise := by
  cases psp with
  | paystack => rfl
  | flutterwave => rfl

omit [PyLibrary] in
/-- The data of an accepted payload is what the flow takes for it. -/
theorem asObject_getObject {payload data : Dict}
    (h : (payload.get "data" .null).asDict = some data) :
    asObject (getObject payload "data") = .ok data := by
  rw [getObject, orElse_of_asDict h]
  rfl

/-- The rate a row refers to is the one its currency was resolved to. -/
theorem toNgn_columns {amountRaw : ℚ} {currency : String} {snapshot : Option String}
    {fxRate : Option ℚ} {ngn : ℚ × Option String × Option ℚ}
    (h : toNgn amountRaw currency snapshot fxRate = .ok ngn) :
    ngn.2 = if currency = "NGN" then (none, none) else (snapshot, fxRate) := by
  unfold toNgn at h
  split at h
  · next hngn =>
      rw [if_pos hngn, ← Except.ok.inj h]
  · next hngn =>
      rw [if_neg hngn]
      cases hfx : fxRate with
      | none =>
          rw [hfx] at h
          cases h
      | some rate =>
          rw [hfx] at h
          rcases bind_eq_ok.mp h with ⟨amountNgn, -, h⟩
          rw [← Except.ok.inj h]

omit [PyLibrary] in
/-- A naira event is resolved to no rate. -/
theorem resolveFxRate_columns {c : SilverCall} {currency : String} {t : ℤ}
    {fx : Option String × Option ℚ} (h : resolveFxRate c currency t = .ok fx) :
    (if currency = "NGN" then (none, none) else fx) = fx := by
  split
  · next hngn =>
      rw [resolveFxRate, if_pos hngn] at h
      exact Except.ok.inj h
  · rfl

omit [PyLibrary] in
/-- The row that a write adds is the record. -/
theorem writeRecord_new {c : SilverCall} {record row : CanonicalRecord}
    {silver silver' : SilverTable} {id : String} {isNew : Bool}
    (h : writeRecord c record silver = .ok (silver', id, isNew)) (hrow : row ∈ silver'.rows)
    (hnew : row ∉ silver.rows) : row = record := by
  unfold writeRecord at h
  split at h
  · cases h
  · split at h
    · cases h
    · split at h
      · -- A duplicate adds none.
        cases h
        exact absurd hrow hnew
      · cases h
        rcases List.mem_append.mp hrow with hold | hlast
        · exact absurd hold hnew
        · exact List.mem_singleton.mp hlast

/-- A row that is new in the table is what the normaliser has made, with the
    timestamp and the rate that the flow has worked out. -/
theorem written_normalised {c : SilverCall} {psp : Connector} (hpsp : c.pspName = psp.pspName)
    {silver silver' : SilverTable} {id : String} {isNew : Bool}
    (h : normaliseToSilver c silver = .ok (silver', id, isNew)) {row : CanonicalRecord}
    (hrow : row ∈ silver'.rows) (hnew : row ∉ silver.rows) :
    ∃ data t fx, asObject (getObject c.payload "data") = .ok data ∧
      parseTimestamp (eventTimestamp data) = .ok t ∧
      resolveFxRate c (currencyOf data) t = .ok fx ∧
      psp.normalise (normaliserArgs c t fx) c.payload = .ok row := by
  unfold normaliseToSilver at h
  rw [hpsp, normalisers_lookup] at h
  rcases bind_eq_ok.mp h with ⟨data, hdata, h⟩
  rcases bind_eq_ok.mp h with ⟨t, ht, h⟩
  rcases bind_eq_ok.mp h with ⟨fx, hfx, h⟩
  rcases bind_eq_ok.mp h with ⟨record, hrecord, h⟩
  have hsame := writeRecord_new h hrow hnew
  subst hsame
  exact ⟨data, t, fx, liftPy_eq_ok.mp (liftEvent_eq_ok.mp hdata), liftEvent_eq_ok.mp ht, hfx,
    liftEvent_eq_ok.mp hrecord⟩

/-- It goes in under the key that a redelivery of its message is found by. -/
theorem written_key {c : SilverCall} {psp : Connector} (hpsp : c.pspName = psp.pspName)
    {silver silver' : SilverTable} {id : String} {isNew : Bool}
    (h : normaliseToSilver c silver = .ok (silver', id, isNew)) {row : CanonicalRecord}
    (hrow : row ∈ silver'.rows) (hnew : row ∉ silver.rows) :
    Normaliser.normalisedKey psp.pspName psp.reference c.payload = .ok row.idempotencyKey := by
  rcases written_normalised hpsp h hrow hnew with ⟨_, _, _, -, -, -, hrecord⟩
  exact normalisedKey_of_normalise hrecord

/-- What a row that is new in the table was made of. -/
theorem written_from {c : SilverCall} {psp : Connector} (hpsp : c.pspName = psp.pspName)
    {silver silver' : SilverTable} {id : String} {isNew : Bool}
    (h : normaliseToSilver c silver = .ok (silver', id, isNew)) {row : CanonicalRecord}
    (hrow : row ∈ silver'.rows) (hnew : row ∉ silver.rows) :
    ∃ data t fx x, ExtractedFrom psp (normaliserArgs c t fx) c.payload data x ∧
      BuiltFrom (normaliserArgs c t fx) x row ∧
      parseTimestamp (eventTimestamp data) = .ok t ∧
      resolveFxRate c (currencyOf data) t = .ok fx := by
  rcases written_normalised hpsp h hrow hnew with ⟨data, t, fx, hdata, ht, hfx, hrecord⟩
  rcases normalise_steps hrecord with ⟨data', x, hx, hbuild⟩
  -- The flow and the normaliser look at the same object.
  have hobject : data = data' := by
    rw [asObject_getObject hx.object] at hdata
    exact (Except.ok.inj hdata).symm
  subst hobject
  exact ⟨data, t, fx, x, hx, canonicalRecord_builtFrom hbuild, ht, hfx⟩

/-- A written row is of one timestamp exactly if its normaliser has read the
    instant the flow has read. -/
theorem oneTimestamp_iff {c : SilverCall} {psp : Connector} {data : Dict} {t : ℤ}
    {fx : Option String × Option ℚ} {x : Extracted} {row : CanonicalRecord}
    (hx : ExtractedFrom psp (normaliserArgs c t fx) c.payload data x)
    (hbuilt : BuiltFrom (normaliserArgs c t fx) x row)
    (ht : parseTimestamp (eventTimestamp data) = .ok t)
    (hfx : resolveFxRate c (currencyOf data) t = .ok fx) :
    OneTimestamp c data row ↔
      parseTimestamp (psp.timestamp data) = parseTimestamp (eventTimestamp data) := by
  have hinitiated := hx.initiatedAt
  rw [← hbuilt.initiatedAt] at hinitiated
  constructor
  · intro h
    rw [hinitiated, h.initiatedAt]
  · intro h
    -- The instant the row has is the one everything else was worked out for.
    have hsame : t = row.initiatedAt := by
      rw [hinitiated, ht] at h
      exact (Except.ok.inj h).symm
    subst hsame
    have hcolumns : (row.fxRateSnapshotId, row.fxRateApplied) = fx := by
      have hngn := congrArg Prod.snd hbuilt.ngn
      rw [toNgn_columns hx.ngn, hx.currency] at hngn
      exact hngn.trans (resolveFxRate_columns hfx)
    refine ⟨ht, ?_, hbuilt.expectedSettlementAt⟩
    rw [hbuilt.currencyRaw, hx.currency, hcolumns]
    exact hfx

end Written

/-! ### The missing timestamp -/

section Missing

/-- `PermanentEventError("event has no timestamp")`. -/
def lacksTimestamp : EventError := .raised (.permanent "event has no timestamp")

/-- Whatever is raised, it is not for lack of a timestamp. -/
def Elsewhere {β : Type} (x : Except EventError β) : Prop := x ≠ .error lacksTimestamp

/-- A message with another beginning is another message. -/
theorem message_ne {start : String} (rest : String)
    (h : ¬ start.toList <+: "event has no timestamp".toList) :
    start ++ rest ≠ "event has no timestamp" := by
  intro hc
  refine h ⟨rest.toList, ?_⟩
  rw [← String.toList_append, hc]

theorem elsewhere_ok {β : Type} (b : β) : Elsewhere (.ok b : Except EventError β) :=
  fun h => by cases h

theorem elsewhere_permanent {β : Type} {message : String} (h : message ≠ "event has no timestamp") :
    Elsewhere (permanent message : Except EventError β) := by
  intro hc
  cases hc
  exact h rfl

/-- A step that does not fail this way leaves it to what follows. -/
theorem bind_lacks_iff {α β : Type} {x : Except EventError α} {f : α → Except EventError β}
    (hx : Elsewhere x) :
    x >>= f = .error lacksTimestamp ↔ ∃ a, x = .ok a ∧ f a = .error lacksTimestamp := by
  cases x with
  | error e =>
      constructor
      · intro h
        exact absurd (congrArg Except.error (Except.error.inj h)) hx
      · rintro ⟨a, ha, -⟩
        cases ha
  | ok a => simp [bind, Except.bind]

theorem elsewhere_bind {α β : Type} {x : Except EventError α} {f : α → Except EventError β}
    (hx : Elsewhere x) (hf : ∀ a, Elsewhere (f a)) : Elsewhere (x >>= f) := by
  intro h
  rcases (bind_lacks_iff hx).mp h with ⟨a, -, ha⟩
  exact hf a ha

theorem elsewhere_liftDecimal {β : Type} (x : Except Decimal.DecimalError β) :
    Elsewhere (liftDecimal x) := by
  intro h
  cases x <;> cases h

/-- Python's own exceptions are none of the normaliser's. -/
theorem elsewhere_liftPy {β : Type} {x : Except PyError β} (hx : Raises x) :
    Elsewhere (liftPy x) := by
  intro h
  cases x with
  | ok b => cases h
  | error e =>
      have hpermanent := hx e rfl
      cases h
      cases hpermanent

variable [PyLibrary]

/-- No reason the classifier gives speaks of a timestamp. -/
theorem classifyEvent_reason (pspName eventType : String) (payload : Dict) :
    (Normaliser.classifyEvent pspName eventType payload).reason
      ≠ some "event has no timestamp" := by
  -- A message is told from the other by its beginning.
  have hstart : ∀ {start rest : String},
      ¬ start.toList <+: "event has no timestamp".toList →
      some (start ++ rest) ≠ some "event has no timestamp" :=
    fun h hc => message_ne _ h (Option.some.inj hc)
  unfold Normaliser.classifyEvent
  split
  · decide
  · split
    · split
      · exact hstart (by decide)
      · exact Option.some_ne_none _ ∘ Eq.symm
    · split
      · split
        · exact hstart (by decide)
        · simp only []
          split
          · exact hstart (by decide)
          · split
            · rw [String.append_assoc]
              exact hstart (by decide)
            · exact Option.some_ne_none _ ∘ Eq.symm
      · exact hstart (by decide)

theorem elsewhere_acceptEvent (pspName : String) (payload : Dict) :
    Elsewhere (acceptEvent pspName payload) := by
  have hunhandled : ∀ v : Json,
      "unhandled " ++ pspName ++ " event " ++ v.reprOf ≠ "event has no timestamp" := by
    intro v
    rw [String.append_assoc, String.append_assoc]
    exact message_ne _ (by decide)
  unfold acceptEvent
  split
  · intro h
    cases h
  · split
    · exact elsewhere_permanent (by decide)
    · split
      · next eventType _ =>
          simp only []
          split
          · exact elsewhere_ok _
          · refine elsewhere_permanent ?_
            -- A rejected event fails with the classifier's own reason.
            cases hr : (Normaliser.classifyEvent pspName eventType payload).reason with
            | none => decide
            | some reason =>
                exact fun hc => classifyEvent_reason _ _ _ (hr.trans (congrArg some hc))
      · intro h
        cases h
      · intro h
        cases h
      · exact elsewhere_permanent (hunhandled _)

theorem elsewhere_reference (psp : Connector) (data : Dict) :
    Elsewhere (liftPy (psp.reference data)) := by
  cases psp with
  | paystack =>
      simp only [Connector.reference, Normaliser.paystackReference, Normaliser.requireStr]
      split
      · exact elsewhere_ok _
      · exact elsewhere_permanent (by decide)
  | flutterwave =>
      simp only [Connector.reference, Normaliser.flutterwaveReference]
      split
      · exact elsewhere_permanent (by decide)
      · exact elsewhere_ok _

theorem elsewhere_amount (value : Json) : Elsewhere (decimalField value "data.amount") := by
  unfold decimalField
  cases value with
  | null => exact elsewhere_permanent (by decide)
  | bool b => exact elsewhere_permanent (by decide)
  | _ =>
      simp only []
      split
      · exact elsewhere_permanent (message_ne _ (by decide))
      · exact elsewhere_permanent (by decide)
      · exact elsewhere_ok _

theorem elsewhere_toNgn (amountRaw : ℚ) (currency : String) (snapshot : Option String)
    (fxRate : Option ℚ) : Elsewhere (toNgn amountRaw currency snapshot fxRate) := by
  unfold toNgn
  split
  · exact elsewhere_ok _
  · cases fxRate with
    | none => exact elsewhere_permanent (message_ne _ (by decide))
    | some rate =>
        refine elsewhere_bind ?_ fun _ => elsewhere_ok _
        unfold convertToNgn
        split
        · exact elsewhere_ok _
        · split
          · intro h
            cases h
          · exact elsewhere_liftDecimal _

/-- The timestamp is missing where its field is empty, and nowhere else. -/
theorem parseTimestamp_lacks_iff (value : Json) :
    parseTimestamp value = .error lacksTimestamp ↔ value.truthy = false := by
  constructor
  · intro h
    by_contra htruthy
    refine absurd h ?_
    unfold parseTimestamp
    rw [if_neg htruthy]
    split
    · exact elsewhere_permanent (message_ne _ (by decide))
    · split
      · exact elsewhere_permanent (message_ne _ (by decide))
      · simp only []
        split
        · exact elsewhere_ok _
        · intro hc
          cases hc
  · intro h
    rw [parseTimestamp, if_pos h]
    rfl

omit [PyLibrary] in
theorem elsewhere_party {party : Except PyError Counterparty} {readable : Prop}
    {maskable : Counterparty → Prop} (h : PartySpec party readable maskable) :
    Elsewhere (liftPy party) := by
  refine elsewhere_liftPy fun e he => ?_
  rcases h with ⟨-, c, hc, -⟩ | ⟨-, e', he', hraises⟩
  · rw [hc] at he
    cases he
  · rw [he'] at he
    rw [← Except.error.inj he]
    exact hraises

theorem elsewhere_canonicalRecord (args : NormaliseArgs) (x : Extracted) :
    Elsewhere (canonicalRecord args x) := by
  unfold canonicalRecord
  split
  · exact elsewhere_permanent (by decide)
  · refine elsewhere_bind (elsewhere_liftPy (optionalText_raises _)) fun _ => ?_
    refine elsewhere_bind (elsewhere_liftPy (optionalText_raises _)) fun _ => ?_
    exact elsewhere_bind (elsewhere_liftPy (optionalText_raises _)) fun _ => elsewhere_ok _

/-- A normaliser gets as far as the timestamp: what comes before it succeeds. -/
def ReachesTimestamp (psp : Connector) (args : NormaliseArgs) (payload data : Dict) : Prop :=
  ∃ eventType disposition reference amount amountRaw ngn,
    acceptEvent psp.pspName payload = .ok (eventType, disposition, data) ∧
    psp.reference data = .ok reference ∧
    decimalField (data.get "amount" .null) "data.amount" = .ok amount ∧
    psp.majorUnits amount = .ok amountRaw ∧
    toNgn amountRaw (currencyOf data) args.fxRateSnapshotId args.fxRateApplied = .ok ngn

/-- The steps from the timestamp on. -/
theorem lastSteps_lack_iff {args : NormaliseArgs} {ts : Json} {party : Except PyError Counterparty}
    {build : ℤ → Counterparty → Extracted} (hparty : Elsewhere (liftPy party)) :
    (do
        let initiatedAt ← parseTimestamp ts
        let counterparty ← liftPy party
        canonicalRecord args (build initiatedAt counterparty)) = .error lacksTimestamp ↔
      ts.truthy = false := by
  rw [← parseTimestamp_lacks_iff]
  cases hts : parseTimestamp ts with
  | error e =>
      constructor
      · exact fun h => congrArg Except.error (Except.error.inj h)
      · exact fun h => congrArg Except.error (Except.error.inj h)
  | ok t =>
      -- With a timestamp in hand nothing else fails for lack of one.
      have hrest : Elsewhere (liftPy party >>= fun counterparty =>
          canonicalRecord args (build t counterparty)) :=
        elsewhere_bind hparty fun _ => elsewhere_canonicalRecord _ _
      exact ⟨fun h => absurd h hrest, fun h => by cases h⟩

/-- The steps up to the timestamp, over what follows them. -/
theorem firstSteps_lack_iff (psp : Connector) (args : NormaliseArgs) (data : Dict)
    {record : String → ℚ → ℚ × Option String × Option ℚ → Except EventError CanonicalRecord}
    (hrecord : ∀ reference amountRaw ngn, record reference amountRaw ngn = .error lacksTimestamp ↔
      (psp.timestamp data).truthy = false) :
    (do
        let reference ← liftPy (psp.reference data)
        let amount ← decimalField (data.get "amount" .null) "data.amount"
        let amountRaw ← psp.majorUnits amount
        let ngn ← toNgn amountRaw (currencyOf data) args.fxRateSnapshotId args.fxRateApplied
        record reference amountRaw ngn) = .error lacksTimestamp ↔
      (∃ reference amount amountRaw ngn, psp.reference data = .ok reference ∧
        decimalField (data.get "amount" .null) "data.amount" = .ok amount ∧
        psp.majorUnits amount = .ok amountRaw ∧
        toNgn amountRaw (currencyOf data) args.fxRateSnapshotId args.fxRateApplied = .ok ngn) ∧
      (psp.timestamp data).truthy = false := by
  have hmajor : ∀ amount, Elsewhere (psp.majorUnits amount) := by
    intro amount
    cases psp with
    | paystack => exact elsewhere_liftDecimal _
    | flutterwave => exact elsewhere_ok _
  -- None of the first steps fails this way, so each has succeeded.
  simp only [bind_lacks_iff (elsewhere_reference psp data), bind_lacks_iff (elsewhere_amount _),
    bind_lacks_iff (hmajor _), bind_lacks_iff (elsewhere_toNgn _ _ _ _), hrecord, liftPy_eq_ok]
  constructor
  · rintro ⟨reference, href, amount, hamount, amountRaw, hraw, ngn, hngn, hts⟩
    exact ⟨⟨reference, amount, amountRaw, ngn, href, hamount, hraw, hngn⟩, hts⟩
  · rintro ⟨⟨reference, amount, amountRaw, ngn, href, hamount, hraw, hngn⟩, hts⟩
    exact ⟨reference, href, amount, hamount, amountRaw, hraw, ngn, hngn, hts⟩

/-- The whole normaliser, over what it makes of an accepted event. -/
theorem accepted_lacks_iff (psp : Connector) (args : NormaliseArgs) (payload : Dict)
    {record : String → Normaliser.EventDisposition → Dict → Except EventError CanonicalRecord}
    (hrecord : ∀ eventType disposition data,
      record eventType disposition data = .error lacksTimestamp ↔
        (∃ reference amount amountRaw ngn, psp.reference data = .ok reference ∧
          decimalField (data.get "amount" .null) "data.amount" = .ok amount ∧
          psp.majorUnits amount = .ok amountRaw ∧
          toNgn amountRaw (currencyOf data) args.fxRateSnapshotId args.fxRateApplied = .ok ngn) ∧
        (psp.timestamp data).truthy = false) :
    (acceptEvent psp.pspName payload >>= fun accepted =>
        record accepted.1 accepted.2.1 accepted.2.2) = .error lacksTimestamp ↔
      ∃ data, ReachesTimestamp psp args payload data ∧ (psp.timestamp data).truthy = false := by
  rw [bind_lacks_iff (elsewhere_acceptEvent _ _)]
  constructor
  · rintro ⟨⟨eventType, disposition, data⟩, hacc, h⟩
    rcases (hrecord _ _ _).mp h with ⟨⟨reference, amount, amountRaw, ngn, hsteps⟩, hts⟩
    exact ⟨data, ⟨eventType, disposition, reference, amount, amountRaw, ngn, hacc, hsteps⟩, hts⟩
  · rintro ⟨data, ⟨eventType, disposition, reference, amount, amountRaw, ngn, hacc, hsteps⟩, hts⟩
    exact ⟨(eventType, disposition, data), hacc,
      (hrecord _ _ _).mpr ⟨⟨reference, amount, amountRaw, ngn, hsteps⟩, hts⟩⟩

/-- A normaliser refuses a payload for lack of a timestamp exactly if it gets
    there and finds its field empty. -/
theorem normalise_lacks_timestamp_iff (psp : Connector) (args : NormaliseArgs) (payload : Dict) :
    psp.normalise args payload = .error lacksTimestamp ↔
      ∃ data, ReachesTimestamp psp args payload data ∧ (psp.timestamp data).truthy = false := by
  cases psp with
  | paystack =>
      refine accepted_lacks_iff .paystack args payload fun eventType disposition data => ?_
      refine firstSteps_lack_iff .paystack args data fun reference amountRaw ngn => ?_
      refine lastSteps_lack_iff ?_
      -- The counterparty is the payer of a credit and the recipient of a debit.
      cases decide (disposition.transactionType = some .credit) with
      | true => exact elsewhere_party (payer_spec data)
      | false => exact elsewhere_party (recipient_spec data)
  | flutterwave =>
      refine accepted_lacks_iff .flutterwave args payload fun eventType disposition data => ?_
      refine firstSteps_lack_iff .flutterwave args data fun reference amountRaw ngn => ?_
      exact lastSteps_lack_iff (elsewhere_party (account_spec data))

omit [PyLibrary] in
/-- What gets that far has an object for its data. -/
theorem fieldsOf_of_asDict {v : Json} {data : Dict} (h : v.asDict = some data) :
    fieldsOf v = data := by
  rw [fieldsOf, h]
  rfl

/-- For every call, of either PSP: a row it writes is of one timestamp exactly
    if the event is Paystack's or its `created_at` is the instant the flow has
    read; and a payload the flow has read a timestamp from is refused by the
    normaliser for lack of one exactly if it is Flutterwave's, has no
    `created_at`, and nothing before the timestamp fails. -/
theorem one_timestamp_iff {c : SilverCall} {psp : Connector} (hpsp : c.pspName = psp.pspName) :
    (∀ silver silver' id isNew row, normaliseToSilver c silver = .ok (silver', id, isNew) →
      row ∈ silver'.rows → row ∉ silver.rows →
      (OneTimestamp c (fieldsOf (c.payload.get "data" .null)) row ↔
        psp = .paystack ∨
          parseTimestamp ((fieldsOf (c.payload.get "data" .null)).get "created_at" .null)
            = parseTimestamp (eventTimestamp (fieldsOf (c.payload.get "data" .null))))) ∧
    ∀ t args, parseTimestamp (eventTimestamp (fieldsOf (c.payload.get "data" .null))) = .ok t →
      (psp.normalise args c.payload = .error lacksTimestamp ↔
        psp = .flutterwave ∧
          ((fieldsOf (c.payload.get "data" .null)).get "created_at" .null).truthy = false ∧
          ReachesTimestamp psp args c.payload (fieldsOf (c.payload.get "data" .null))) := by
  constructor
  · intro silver silver' id isNew row h hrow hnew
    rcases written_from hpsp h hrow hnew with ⟨data, t, fx, x, hx, hbuilt, ht, hfx⟩
    rw [fieldsOf_of_asDict hx.object, oneTimestamp_iff hx hbuilt ht hfx]
    cases psp with
    | paystack =>
        -- The normaliser has the flow's own chain.
        exact ⟨fun _ => Or.inl rfl, fun _ => rfl⟩
    | flutterwave =>
        exact ⟨Or.inr, fun h => h.resolve_left fun hc => by cases hc⟩
  · intro t args ht
    rw [normalise_lacks_timestamp_iff]
    constructor
    · rintro ⟨data, hreaches, hempty⟩
      have hfields : fieldsOf (c.payload.get "data" .null) = data := by
        rcases hreaches with ⟨_, _, _, _, _, _, hacc, _⟩
        exact fieldsOf_of_asDict (acceptEvent_eq_ok hacc).2.1
      rw [hfields] at ht ⊢
      cases psp with
      | paystack =>
          -- What the flow has read, Paystack's normaliser reads too.
          have hmissing := (parseTimestamp_lacks_iff _).mpr hempty
          cases hmissing.symm.trans ht
      | flutterwave => exact ⟨rfl, hempty, hreaches⟩
    · rintro ⟨rfl, hempty, hreaches⟩
      exact ⟨_, hreaches, hempty⟩

end Missing

section Exhibit

/-- A Flutterwave charge in naira, with these timestamps. -/
def chargeWith (timestamps : Dict) : Dict :=
  [("event", .str "charge.completed"),
    ("data", .obj ([("tx_ref", .str "FLW-3"), ("amount", .int 5000),
      ("status", .str "successful")] ++ timestamps))]

/-- The call for it, where charges settle a day later. -/
def callWith (timestamps : Dict) : SilverCall where
  pspName := "flutterwave"
  payload := chargeWith timestamps
  eventType := "charge.completed"
  bronzeIngestionId := "b"
  runId := "run"
  recordId := "r"
  now := 0
  snapshots := []
  captured := some []
  windows := [{
    pspName := "flutterwave", transactionType := .credit, settlementLagHundredths := 2400
    settlementDays := .calendar, cutoffTimeWat := none, effectiveFrom := 0 }]
  schemaAccepts _ := true
  tableAccepts _ := true

/-- What a call has written into an empty table. -/
def written (c : SilverCall) : Option (List CanonicalRecord) :=
  (@normaliseToSilver asciiLibrary c (UniqueTable.empty _)).toOption.map fun r => r.1.rows

theorem written_eq_some {c : SilverCall} {rows : List CanonicalRecord} (h : written c = some rows) :
    ∃ silver' id isNew, @normaliseToSilver asciiLibrary c (UniqueTable.empty _)
      = .ok (silver', id, isNew) ∧ silver'.rows = rows := by
  unfold written at h
  cases hresult : @normaliseToSilver asciiLibrary c (UniqueTable.empty _) with
  | error e =>
      rw [hresult] at h
      cases h
  | ok r =>
      rw [hresult] at h
      exact ⟨r.1, r.2.1, r.2.2, rfl, Option.some.inj h⟩

/-- What a call on an empty table raises. -/
def raised (c : SilverCall) : Option SilverError :=
  match @normaliseToSilver asciiLibrary c (UniqueTable.empty _) with
  | .error e => some e
  | .ok _ => none

theorem raised_eq_some {c : SilverCall} {e : SilverError} (h : raised c = some e) :
    @normaliseToSilver asciiLibrary c (UniqueTable.empty _) = .error e := by
  unfold raised at h
  split at h
  · next he => rw [he, Option.some.inj h]
  · cases h

/-- A row that is there with these instants, initiated and expected to settle. -/
theorem written_instants {c : SilverCall} (initiatedAt expectedAt : ℤ)
    (h : (written c).map (fun rows => rows.map fun row =>
      (row.initiatedAt, row.expectedSettlementAt)) = some [(initiatedAt, some expectedAt)]) :
    ∃ silver' id isNew row, @normaliseToSilver asciiLibrary c (UniqueTable.empty _)
      = .ok (silver', id, isNew) ∧ row ∈ silver'.rows ∧ row.initiatedAt = initiatedAt ∧
        row.expectedSettlementAt = some expectedAt := by
  rcases Option.map_eq_some_iff.mp h with ⟨rows, hrows, hmap⟩
  rcases written_eq_some hrows with ⟨silver', id, isNew, hresult, rfl⟩
  have hmem : (initiatedAt, some expectedAt) ∈ silver'.rows.map fun row =>
      (row.initiatedAt, row.expectedSettlementAt) := hmap ▸ List.mem_cons_self
  rcases List.mem_map.mp hmem with ⟨row, hrow, heq⟩
  rcases Prod.mk.inj heq with ⟨hinitiated, hexpected⟩
  exact ⟨silver', id, isNew, row, hresult, hrow, hinitiated, hexpected⟩

/-- Created on New Year's Day. -/
def createdOnly : Dict := [("created_at", .str "2026-01-01T00:00:00Z")]

/-- Paid a day later. -/
def createdAndPaid : Dict := ("paid_at", .str "2026-01-02T00:00:00Z") :: createdOnly

def paidOnly : Dict := [("paid_at", .str "2026-01-02T00:00:00Z")]

/-- With `created_at` alone there is one timestamp. -/
theorem one_timestamp_iff_created :
    ∃ row, row.initiatedAt = 1767225600000000 ∧
      @OneTimestamp asciiLibrary (callWith createdOnly)
        (fieldsOf ((chargeWith createdOnly).get "data" .null)) row := by
  have hwritten := written_instants (c := callWith createdOnly) 1767225600000000 1767312000000000
    (by decide +kernel)
  rcases hwritten with ⟨silver', id, isNew, row, hresult, hrow, hinitiated, -⟩
  refine ⟨row, hinitiated, ?_⟩
  refine ((@one_timestamp_iff asciiLibrary (callWith createdOnly) .flutterwave rfl).1 _ _ _ _ row
    hresult hrow List.not_mem_nil).mpr (Or.inr ?_)
  decide

/-- With both, the row is of the day it was created, and its expected settlement
    of the day it was paid; with `paid_at` alone the flow reads a timestamp and
    the normaliser lacks one. -/
theorem two_timestamps :
    (∃ silver' id isNew row,
      @normaliseToSilver asciiLibrary (callWith createdAndPaid) (UniqueTable.empty _)
        = .ok (silver', id, isNew) ∧ row ∈ silver'.rows ∧
      row.initiatedAt = 1767225600000000 ∧ row.expectedSettlementAt = some 1767398400000000 ∧
      ¬ @OneTimestamp asciiLibrary (callWith createdAndPaid)
        (fieldsOf ((chargeWith createdAndPaid).get "data" .null)) row) ∧
    (∃ t, @parseTimestamp asciiLibrary
      (eventTimestamp (fieldsOf ((chargeWith paidOnly).get "data" .null))) = .ok t) ∧
    @normaliseToSilver asciiLibrary (callWith paidOnly) (UniqueTable.empty _)
      = .error (.event lacksTimestamp) := by
  have hpaid : @parseTimestamp asciiLibrary
      (eventTimestamp (fieldsOf ((chargeWith createdAndPaid).get "data" .null)))
        = .ok 1767312000000000 := by decide
  refine ⟨?_, ⟨1767312000000000, by decide⟩, ?_⟩
  · have hwritten := written_instants (c := callWith createdAndPaid) 1767225600000000
      1767398400000000 (by decide +kernel)
    rcases hwritten with ⟨silver', id, isNew, row, hresult, hrow, hinitiated, hexpected⟩
    refine ⟨silver', id, isNew, row, hresult, hrow, hinitiated, hexpected, ?_⟩
    rintro ⟨hread, -, -⟩
    -- The flow has read the second of January, the row says the first.
    have hsame := hpaid.symm.trans hread
    rw [hinitiated] at hsame
    exact absurd (Except.ok.inj hsame) (by decide)
  · exact raised_eq_some (by decide)

end Exhibit

end SilverTransform

end MmrEngine
