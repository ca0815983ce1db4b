import MmrEngine.Engine.Idempotency

/-!
# Event Classification

`classify_event` decides whether an event becomes a Silver row, and as what;
the reference extraction of the two normalisers decides under which key.

Paystack encodes the outcome of a transaction in the event name, Flutterwave
in `data.status`. The classifier is an allow-list: an event outside the
vocabularies, or a Flutterwave charge that did not succeed, is not processed.
`Modelled` says what is on that list in terms of the event alone, and
`classifyEvent_process` that the classifier accepts exactly that.

Of the normalisers only the part that decides the Silver idempotency key is
here: the event name they read from the payload itself, and the reference.
Amounts, timestamps, masking and validation can only make a normaliser fail,
and the flow that calls it treats their failures as an unknown outcome.

## Main definitions

* `EventDisposition`: Whether and how an event is processed.
* `classifyEvent`: The allow-list.
* `reportedStatus`: The status text the classifier looks up.
* `Modelled`: What the allow-list accepts, read off the event.
* `normalisedKey`: The idempotency key a normaliser puts into its record.

## Theorems

* `classifyEvent_process`: The classifier accepts exactly the modelled events.
* `classifyEvent_rejected`: A rejected event has no type and no status.
* `flutterwaveStatus_lookup`: The outcome read from a Flutterwave status.
-/

namespace MmrEngine

/-- `silver_canonical_transactions.transaction_type`. -/
inductive TransactionType where
  | credit
  | debit
  | reversal
  deriving DecidableEq, Repr

/-- `silver_canonical_transactions.settlement_status`. -/
inductive SettlementStatus where
  | pending
  | settled
  | failed
  | reversed
  | disputed
  deriving DecidableEq, Repr

namespace Normaliser

/-- Whether an event should become a Silver row, and how to classify it. -/
structure EventDisposition where
  process : Bool
  transactionType : Option TransactionType := none
  settlementStatus : Option SettlementStatus := none
  reason : Option String := none
  deriving DecidableEq, Repr

def paystackEvents : List (String × TransactionType × SettlementStatus) :=
  [("charge.success", .credit, .settled),
   ("transfer.success", .debit, .settled),
   ("transfer.failed", .debit, .failed),
   ("transfer.reversed", .reversal, .reversed)]

def flutterwaveEvents : List (String × TransactionType) :=
  [("charge.completed", .credit), ("transfer.completed", .debit)]

def flutterwaveStatus : List (String × SettlementStatus) :=
  [("successful", .settled), ("success", .settled), ("failed", .failed),
   ("pending", .pending), ("new", .pending)]

section Classify

variable [PyText]

/-- `str(data.get("status", "")).lower()`. -/
def reportedStatus (data : Dict) : String :=
  PyText.lower (data.get "status" (.str "")).toStr

def classifyEvent (pspName eventType : String) (payload : Dict) : EventDisposition :=
  match (payload.get "data" .null).asDict with
  | none => { process := false, reason := some "payload has no data object" }
  | some data =>
    if pspName = "paystack" then
      match paystackEvents.lookup eventType with
      | none =>
        { process := false
          reason := some ("unhandled paystack event " ++ PyText.reprStr eventType) }
      | some (txType, settlement) =>
        { process := true, transactionType := some txType, settlementStatus := some settlement }
    else if pspName = "flutterwave" then
      match flutterwaveEvents.lookup eventType with
      | none =>
        { process := false
          reason := some ("unhandled flutterwave event " ++ PyText.reprStr eventType) }
      | some txType =>
        let status := reportedStatus data
        match flutterwaveStatus.lookup status with
        | none =>
          { process := false
            reason := some ("unrecognised flutterwave status " ++ PyText.reprStr status) }
        | some settlement =>
          -- A failed or pending charge never moved money in.
          if txType = .credit ∧ settlement ≠ .settled then
            { process := false
              reason := some ("flutterwave charge not successful (" ++ status ++ ")") }
          else
            { process := true, transactionType := some txType,
              settlementStatus := some settlement }
    else
      { process := false, reason := some ("no normaliser for PSP " ++ PyText.reprStr pspName) }

end Classify

/-- The status group of a Flutterwave status text: the texts of one group
    report one outcome. -/
inductive StatusGroup where
  | succeeded
  | failed
  | awaiting
  deriving DecidableEq, Repr

def statusGroup (status : String) : Option StatusGroup :=
  if status = "successful" ∨ status = "success" then some .succeeded
  else if status = "failed" then some .failed
  else if status = "pending" ∨ status = "new" then some .awaiting
  else none

def StatusGroup.settlement : StatusGroup → SettlementStatus
  | .succeeded => .settled
  | .failed => .failed
  | .awaiting => .pending

theorem flutterwaveStatus_lookup (status : String) :
    flutterwaveStatus.lookup status = (statusGroup status).map StatusGroup.settlement := by
  unfold flutterwaveStatus statusGroup
  simp only [List.lookup_cons, List.lookup_nil]
  by_cases h1 : status = "successful"
  · subst h1; decide
  by_cases h2 : status = "success"
  · subst h2; decide
  by_cases h3 : status = "failed"
  · subst h3; decide
  by_cases h4 : status = "pending"
  · subst h4; decide
  by_cases h5 : status = "new"
  · subst h5; decide
  -- No row of the table matches.
  simp only [beq_eq_false_iff_ne.mpr h1, beq_eq_false_iff_ne.mpr h2,
    beq_eq_false_iff_ne.mpr h3, beq_eq_false_iff_ne.mpr h4, beq_eq_false_iff_ne.mpr h5, h1, h2,
    h3, h4, h5, or_self, if_false, Option.map_none]

theorem paystackEvents_isSome (eventType : String) :
    (paystackEvents.lookup eventType).isSome = true ↔
      (eventType = "charge.success" ∨ eventType = "transfer.success" ∨
        eventType = "transfer.failed" ∨ eventType = "transfer.reversed") := by
  unfold paystackEvents
  simp only [List.lookup_cons, List.lookup_nil]
  by_cases h1 : eventType = "charge.success"
  · subst h1; decide
  by_cases h2 : eventType = "transfer.success"
  · subst h2; decide
  by_cases h3 : eventType = "transfer.failed"
  · subst h3; decide
  by_cases h4 : eventType = "transfer.reversed"
  · subst h4; decide
  simp only [beq_eq_false_iff_ne.mpr h1, beq_eq_false_iff_ne.mpr h2,
    beq_eq_false_iff_ne.mpr h3, beq_eq_false_iff_ne.mpr h4, h1, h2, h3, h4, or_self,
    Option.isSome_none, Bool.false_eq_true]

theorem flutterwaveEvents_lookup (eventType : String) :
    flutterwaveEvents.lookup eventType =
      if eventType = "charge.completed" then some .credit
      else if eventType = "transfer.completed" then some .debit else none := by
  unfold flutterwaveEvents
  simp only [List.lookup_cons, List.lookup_nil]
  by_cases h1 : eventType = "charge.completed"
  · subst h1; decide
  by_cases h2 : eventType = "transfer.completed"
  · subst h2; decide
  simp only [beq_eq_false_iff_ne.mpr h1, beq_eq_false_iff_ne.mpr h2, h1, h2, if_false]

section Modelled

variable [PyText]

/-- The allow-list, read off the event: `data` is an object, the event name is
    in the PSP's vocabulary, and a Flutterwave event reports a known status,
    which for a charge has to be success. -/
def Modelled (pspName eventType : String) (payload : Dict) : Prop :=
  ∃ data, (payload.get "data" .null).asDict = some data ∧
    ((pspName = "paystack" ∧ (eventType = "charge.success" ∨ eventType = "transfer.success" ∨
        eventType = "transfer.failed" ∨ eventType = "transfer.reversed")) ∨
      (pspName = "flutterwave" ∧
        ((eventType = "charge.completed" ∧
            statusGroup (reportedStatus data) = some .succeeded) ∨
          (eventType = "transfer.completed" ∧ statusGroup (reportedStatus data) ≠ none))))

/-- The group a payload's `data.status` belongs to. -/
def reportedGroup (payload : Dict) : Option StatusGroup :=
  (payload.get "data" .null).asDict.bind fun data => statusGroup (reportedStatus data)

/-- The classifier accepts exactly the modelled events. -/
theorem classifyEvent_process (pspName eventType : String) (payload : Dict) :
    (classifyEvent pspName eventType payload).process = true ↔
      Modelled pspName eventType payload := by
  unfold classifyEvent Modelled
  cases hdata : (payload.get "data" .null).asDict with
  | none => simp only [Bool.false_eq_true, reduceCtorEq, false_and, exists_false]
  | some data =>
      simp only [Option.some.injEq, exists_eq_left']
      by_cases hps : pspName = "paystack"
      · subst hps
        have hlook := paystackEvents_isSome eventType
        have hne : ("paystack" : String) ≠ "flutterwave" := by decide
        simp only [if_true, true_and, hne, false_and, or_false]
        cases hl : paystackEvents.lookup eventType with
        | none =>
            rw [hl] at hlook
            simpa only [Option.isSome_none] using hlook
        | some o =>
            rw [hl] at hlook
            simpa only [Option.isSome_some, true_iff] using hlook
      by_cases hfw : pspName = "flutterwave"
      · subst hfw
        have hne : ("flutterwave" : String) ≠ "paystack" := by decide
        have hct : ("charge.completed" : String) ≠ "transfer.completed" := by decide
        simp only [hne, if_false, if_true, true_and, false_and, false_or]
        rw [flutterwaveEvents_lookup]
        by_cases hc : eventType = "charge.completed"
        · -- A charge: only the success group is accepted.
          subst hc
          simp only [if_true, flutterwaveStatus_lookup, true_and, hct, false_and, or_false]
          cases statusGroup (reportedStatus data) with
          | none => simp only [Option.map_none, Bool.false_eq_true, reduceCtorEq]
          | some g => cases g <;> simp [StatusGroup.settlement]
        by_cases ht : eventType = "transfer.completed"
        · subst ht
          simp only [hc, if_false, if_true, flutterwaveStatus_lookup, true_and, false_and,
            false_or]
          cases statusGroup (reportedStatus data) with
          | none =>
              simp only [Option.map_none, Bool.false_eq_true, ne_eq, not_true_eq_false]
          | some g =>
              simp only [Option.map_some, reduceCtorEq, false_and, if_false, ne_eq,
                not_false_eq_true]
        · simp only [hc, ht, if_false, Bool.false_eq_true, false_and, or_self]
      · simp only [hps, hfw, if_false, Bool.false_eq_true, false_and, or_self]

/-- A rejected event carries no type and no status. -/
theorem classifyEvent_rejected {pspName eventType : String} {payload : Dict}
    (h : ¬ Modelled pspName eventType payload) :
    (classifyEvent pspName eventType payload).process = false ∧
      (classifyEvent pspName eventType payload).transactionType = none ∧
      (classifyEvent pspName eventType payload).settlementStatus = none := by
  have hp : (classifyEvent pspName eventType payload).process = false := by
    rw [← Bool.not_eq_true, classifyEvent_process]
    exact h
  refine ⟨hp, ?_⟩
  -- Every branch that sets a type also sets `process`.
  revert hp
  unfold classifyEvent
  cases (payload.get "data" .null).asDict with
  | none => exact fun _ => ⟨rfl, rfl⟩
  | some data =>
      by_cases hps : pspName = "paystack"
      · simp only [if_pos hps]
        cases paystackEvents.lookup eventType with
        | none => exact fun _ => ⟨rfl, rfl⟩
        | some o => exact fun hp => Bool.noConfusion hp
      by_cases hfw : pspName = "flutterwave"
      · simp only [if_neg hps, if_pos hfw]
        cases flutterwaveEvents.lookup eventType with
        | none => exact fun _ => ⟨rfl, rfl⟩
        | some txType =>
            simp only []
            cases flutterwaveStatus.lookup (reportedStatus data) with
            | none => exact fun _ => ⟨rfl, rfl⟩
            | some settlement =>
                simp only []
                by_cases hc : txType = .credit ∧ settlement ≠ .settled
                · rw [if_pos hc]
                  exact fun _ => ⟨rfl, rfl⟩
                · rw [if_neg hc]
                  exact fun hp => Bool.noConfusion hp
      · simp only [if_neg hps, if_neg hfw, and_self, implies_true]

/-- An accepted Paystack event is classified by its name alone. -/
theorem classifyEvent_paystack {eventType : String} {payload payload' : Dict}
    (h : Modelled "paystack" eventType payload) (h' : Modelled "paystack" eventType payload') :
    classifyEvent "paystack" eventType payload = classifyEvent "paystack" eventType payload' := by
  rcases h with ⟨data, hdata, _⟩
  rcases h' with ⟨data', hdata', _⟩
  unfold classifyEvent
  simp only [hdata, hdata', if_true]

/-- An accepted Flutterwave event settles as its status group says. -/
theorem classifyEvent_flutterwave {eventType : String} {payload : Dict}
    (h : Modelled "flutterwave" eventType payload) :
    classifyEvent "flutterwave" eventType payload =
      { process := true
        transactionType := flutterwaveEvents.lookup eventType
        settlementStatus := (reportedGroup payload).map StatusGroup.settlement } := by
  have hpr := (classifyEvent_process "flutterwave" eventType payload).mpr h
  rcases h with ⟨data, hdata, _⟩
  have hne : ("flutterwave" : String) ≠ "paystack" := by decide
  unfold reportedGroup
  rw [hdata, Option.bind_some, ← flutterwaveStatus_lookup]
  unfold classifyEvent at hpr ⊢
  simp only [hdata, hne, if_false, if_true] at hpr ⊢
  -- An accepted event has a known name and a known status.
  cases hl : flutterwaveEvents.lookup eventType with
  | none => simp only [hl, Bool.false_eq_true] at hpr
  | some txType =>
      simp only [hl] at hpr ⊢
      cases hs : flutterwaveStatus.lookup (reportedStatus data) with
      | none => simp only [hs, Bool.false_eq_true] at hpr
      | some settlement =>
          simp only [hs] at hpr ⊢
          split
          · rename_i hc
            simp only [if_pos hc, Bool.false_eq_true] at hpr
          · rfl

end Modelled

section Keys

variable [PyText]

def requireStr (data : Dict) (field : String) : Except PyError String :=
  let value := data.get field .null
  if value.truthy = true ∧ strip value.toStr ≠ "" then
    .ok (strip value.toStr)
  else
    .error (.permanent ("data." ++ field ++ " is required"))

def paystackReference (data : Dict) : Except PyError String := requireStr data "reference"

def flutterwaveReference (data : Dict) : Except PyError String :=
  let value := (data.get "tx_ref" .null).orElse (data.get "reference" .null)
  let reference := strip (value.orElse (.str "")).toStr
  if reference = "" then
    .error (.permanent "flutterwave event has no tx_ref/reference")
  else
    .ok reference

/-- The part of a normaliser that decides `record["idempotency_key"]`. The
    event name is the payload's own, not the one the message was filed under;
    looking a list or an object up in the vocabulary is a `TypeError`. -/
def normalisedKey (pspName : String) (reference : Dict → Except PyError String)
    (payload : Dict) : Except PyError String :=
  match payload.lookup "event" with
  | none => .error (.keyError "event")
  | some event =>
    match (payload.get "data" .null).asDict with
    | none => .error (.permanent "payload has no data object")
    | some data =>
      match event with
      | .str eventType =>
        let disposition := classifyEvent pspName eventType payload
        if disposition.process then do
          let ref ← reference data
          return Idempotency.buildIdempotencyKey pspName ref eventType
        else
          .error (.permanent (disposition.reason.getD "event not processable"))
      | .arr _ | .obj _ => .error .typeError
      | v => .error (.permanent ("unhandled " ++ pspName ++ " event " ++ v.reprOf))

def normalisePaystackEvent (payload : Dict) : Except PyError String :=
  normalisedKey "paystack" paystackReference payload

def normaliseFlutterwaveEvent (payload : Dict) : Except PyError String :=
  normalisedKey "flutterwave" flutterwaveReference payload

def normalisers : List (String × (Dict → Except PyError String)) :=
  [("paystack", normalisePaystackEvent), ("flutterwave", normaliseFlutterwaveEvent)]

end Keys

end Normaliser

end MmrEngine
