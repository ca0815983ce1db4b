import MmrEngine.Engine.Normaliser
import MmrEngine.Lib.UniqueTable

/-!
# The Bronze-to-Silver Transform

`process_kafka_message`: one message goes into Bronze, always, and into Silver
if the classifier accepts it.

Both writes are transactions of their own, keyed so that a redelivery finds
what an earlier attempt has left: Bronze by the position of the message in
Kafka, Silver by the idempotency key the normaliser computes. Either may fail
before it has taken effect, or after (`Fault`). What happens between the two
(the FX rate, the settlement window, the rest of the record and its validation)
writes nothing that is looked at here; it can only fail, and `prepare` says
whether it does.

The caller tells two kinds of failure apart: a permanent one is
`PermanentEventError` or a schema error, a transient one everything else.

## Main definitions

* `Position`: Topic, partition and offset.
* `Stores`: The Bronze log and the Silver rows.
* `Fault`, `Faults`: What goes wrong in one attempt.
* `writeBronzeParquet`, `normaliseToSilver`: The two writes.
* `processKafkaMessage`: The whole attempt.
* `accepts`, `silverKey`: What becomes of a message, and under which key.

## Theorems

* `processKafkaMessage_grows`: An attempt only adds rows, whatever goes wrong.
* `processKafkaMessage_ok`: A successful attempt leaves the message processed to
  completion.
-/

namespace MmrEngine

namespace Transform

open Normaliser

/-- A partition of a topic. -/
structure Partition where
  topic : String
  partition : Nat
  deriving DecidableEq

/-- Where a message is. -/
structure Position where
  partition : Partition
  offset : Nat
  deriving DecidableEq

/-- A row of `bronze_ingestion_log`. -/
structure BronzeRow where
  id : Nat
  position : Position
  pspName : String
  sourceType : Json
  contentHash : Json

/-- A row of `silver_canonical_transactions`, with the columns that say where
    it came from. -/
structure SilverRecord where
  id : Nat
  idempotencyKey : String
  bronzeIngestionId : Nat
  pspName : String

/-- The Bronze log, unique by position, the Silver rows, unique by idempotency
    key, and the next row id. -/
structure Stores where
  bronze : UniqueTable BronzeRow.position
  silver : UniqueTable SilverRecord.idempotencyKey
  nextId : Nat

/-- The two kinds of failure the consumer tells apart. -/
inductive ProcessError where
  | permanent
  | transient
  deriving DecidableEq, Repr

def ProcessError.of : PyError → ProcessError
  | .permanent _ => .permanent
  | _ => .transient

/-- How a transaction goes wrong: nothing is written, or everything is and its
    answer is lost. -/
inductive Fault where
  | none
  | lost (e : ProcessError)
  | answerLost (e : ProcessError)

/-- What goes wrong in one attempt. -/
structure Faults where
  bronze : Fault
  prepare : Option ProcessError
  silver : Fault

/-- What `process_kafka_message` returns. -/
inductive Outcome where
  | skipped (reason : Option String) (bronzeIngestionId : Nat)
  | written (bronzeIngestionId silverTransactionId : Nat) (pspName : String)
  | duplicate (bronzeIngestionId silverTransactionId : Nat) (pspName : String)

/-- A transaction from `s` to `s'`, under a fault. -/
def transact {α : Type} (fault : Fault) (s s' : Stores) (result : α) :
    Stores × Except ProcessError α :=
  match fault with
  | .none => (s', .ok result)
  | .lost e => (s, .error e)
  | .answerLost e => (s', .error e)

/-- `INSERT INTO bronze_ingestion_log ... ON CONFLICT DO NOTHING`, or the row
    that is there. -/
def writeBronzeParquet (fault : Fault) (position : Position) (pspName : String)
    (contentHash : Json) (kafkaMessage : Dict) (s : Stores) : Stores × Except ProcessError Nat :=
  let (bronze, row) := s.bronze.insertOrFind
    { id := s.nextId
      position := position
      pspName := pspName
      sourceType := kafkaMessage.get "source_type" (.str "webhook")
      contentHash := contentHash }
  transact fault s { s with bronze := bronze, nextId := s.nextId + 1 } row.id

section

variable [PyText]

/-- `INSERT INTO silver_canonical_transactions ... ON CONFLICT DO NOTHING`, or
    the row that is there; a row with another id was there before. -/
def normaliseToSilver (faults : Faults) (pspName : String) (payload : Dict)
    (bronzeIngestionId : Nat) (s : Stores) : Stores × Except ProcessError (Nat × Bool) :=
  match normalisers.lookup pspName with
  -- `NORMALISERS[psp_name]` raises a `KeyError`, which is retried.
  | none => (s, .error .transient)
  | some normaliser =>
    match faults.prepare, normaliser payload with
    | some e, _ => (s, .error e)
    | none, .error e => (s, .error (.of e))
    | none, .ok key =>
      let (silver, row) := s.silver.insertOrFind
        { id := s.nextId
          idempotencyKey := key
          bronzeIngestionId := bronzeIngestionId
          pspName := pspName }
      transact faults.silver s { s with silver := silver, nextId := s.nextId + 1 }
        (row.id, decide (row.id = s.nextId))

def processKafkaMessage (faults : Faults) (position : Position) (kafkaMessage : Dict)
    (s : Stores) : Stores × Except ProcessError Outcome :=
  match kafkaMessage.lookup "psp_name", kafkaMessage.lookup "event_type",
    kafkaMessage.lookup "payload", kafkaMessage.lookup "content_hash" with
  | some psp, some event, some payload, some contentHash =>
    match payload.asDict with
    | none => (s, .error .permanent)
    | some payload =>
      let pspName := psp.toStr
      match writeBronzeParquet faults.bronze position pspName contentHash kafkaMessage s with
      | (s, .error e) => (s, .error e)
      | (s, .ok bronzeIngestionId) =>
        -- The event is in the Bronze log by now, also if it is skipped.
        let disposition := classifyEvent pspName event.toStr payload
        if disposition.process then
          match normaliseToSilver faults pspName payload bronzeIngestionId s with
          | (s, .error e) => (s, .error e)
          | (s, .ok (silverId, isNew)) =>
            (s, .ok (if isNew then .written bronzeIngestionId silverId pspName
              else .duplicate bronzeIngestionId silverId pspName))
        else (s, .ok (.skipped disposition.reason bronzeIngestionId))
  -- A field is missing; no retry brings it.
  | _, _, _, _ => (s, .error .permanent)

/-- `classify_event` accepts the message. -/
def accepts (message : Dict) : Bool :=
  match message.lookup "psp_name", message.lookup "event_type",
    (message.lookup "payload").bind Json.asDict with
  | some psp, some event, some payload => (classifyEvent psp.toStr event.toStr payload).process
  | _, _, _ => false

/-- The idempotency key of the message's record. -/
def silverKey (message : Dict) : Option String :=
  match message.lookup "psp_name", (message.lookup "payload").bind Json.asDict with
  | some psp, some payload =>
    match normalisers.lookup psp.toStr with
    | some normaliser => (normaliser payload).toOption
    | none => none
  | _, _ => none

end

/-- The message at `position` has been processed to completion: it is in the
    Bronze log, and if the classifier accepts it, exactly one Silver row has its
    idempotency key. -/
structure Complete [PyText] (s : Stores) (position : Position) (message : Dict) : Prop where
  bronze : ∃ r ∈ s.bronze.rows, r.position = position
  silver : accepts message = true → ∃ key, silverKey message = some key ∧
    (s.silver.rows.filter fun r => r.idempotencyKey = key).length = 1

/-- No row is lost. -/
structure Grows (s s' : Stores) : Prop where
  bronze : ∀ r ∈ s.bronze.rows, r ∈ s'.bronze.rows
  silver : ∀ r ∈ s.silver.rows, r ∈ s'.silver.rows

theorem grows_refl (s : Stores) : Grows s s := ⟨fun _ h => h, fun _ h => h⟩

theorem grows_trans {s s' s'' : Stores} (h : Grows s s') (h' : Grows s' s'') : Grows s s'' :=
  ⟨fun r hr => h'.bronze r (h.bronze r hr), fun r hr => h'.silver r (h.silver r hr)⟩

theorem transact_grows {α : Type} {fault : Fault} {s s' : Stores} {result : α}
    (h : Grows s s') : Grows s (transact fault s s' result).1 := by
  cases fault with
  | none => exact h
  | lost e => exact grows_refl s
  | answerLost e => exact h

/-- A transaction that succeeds has had no fault. -/
theorem transact_ok {α : Type} {fault : Fault} {s s' s₁ : Stores} {result r : α}
    (h : transact fault s s' result = (s₁, .ok r)) : s₁ = s' := by
  cases fault with
  | none => exact (Prod.mk.inj h).1.symm
  | lost e => cases (Prod.mk.inj h).2
  | answerLost e => cases (Prod.mk.inj h).2

section Bronze

variable {fault : Fault} {position : Position} {pspName : String} {contentHash : Json}
  {kafkaMessage : Dict} {s s' : Stores}

theorem writeBronzeParquet_grows :
    Grows s (writeBronzeParquet fault position pspName contentHash kafkaMessage s).1 :=
  transact_grows ⟨fun _ hr => UniqueTable.insertOrFind_subset _ _ hr, fun _ hr => hr⟩

/-- A successful write leaves a row for the position. -/
theorem writeBronzeParquet_ok {id : Nat}
    (h : writeBronzeParquet fault position pspName contentHash kafkaMessage s = (s', .ok id)) :
    ∃ r ∈ s'.bronze.rows, r.position = position := by
  rw [transact_ok h]
  rcases UniqueTable.insertOrFind_row s.bronze
    { id := s.nextId
      position := position
      pspName := pspName
      sourceType := kafkaMessage.get "source_type" (.str "webhook")
      contentHash := contentHash } with ⟨hmem, hposition⟩
  exact ⟨_, hmem, hposition⟩

end Bronze

section Silver

variable [PyText] {faults : Faults} {pspName : String} {payload : Dict} {bronzeIngestionId : Nat}
  {s s' : Stores}

theorem normaliseToSilver_grows :
    Grows s (normaliseToSilver faults pspName payload bronzeIngestionId s).1 := by
  unfold normaliseToSilver
  split
  · exact grows_refl s
  · split
    · exact grows_refl s
    · exact grows_refl s
    · exact transact_grows ⟨fun _ hr => hr, fun _ hr => UniqueTable.insertOrFind_subset _ _ hr⟩

/-- A successful write leaves a row of the normaliser's key. -/
theorem normaliseToSilver_ok {result : Nat × Bool}
    (h : normaliseToSilver faults pspName payload bronzeIngestionId s = (s', .ok result)) :
    ∃ normaliser key, normalisers.lookup pspName = some normaliser ∧
      normaliser payload = .ok key ∧ ∃ r ∈ s'.silver.rows, r.idempotencyKey = key := by
  unfold normaliseToSilver at h
  split at h
  · cases (Prod.mk.inj h).2
  · next normaliser hlookup =>
      split at h
      · cases (Prod.mk.inj h).2
      · cases (Prod.mk.inj h).2
      · next key _ hkey =>
          refine ⟨normaliser, key, hlookup, hkey, ?_⟩
          rw [transact_ok h]
          rcases UniqueTable.insertOrFind_row s.silver
            { id := s.nextId
              idempotencyKey := key
              bronzeIngestionId := bronzeIngestionId
              pspName := pspName } with ⟨hmem, hkey'⟩
          exact ⟨_, hmem, hkey'⟩

end Silver

section Process

variable [PyText] {faults : Faults} {position : Position} {kafkaMessage : Dict} {s s' : Stores}

/-- What is complete stays complete. -/
theorem complete_grows {message : Dict} (hgrows : Grows s s') (h : Complete s position message) :
    Complete s' position message := by
  rcases h.bronze with ⟨r, hr, hposition⟩
  refine ⟨⟨r, hgrows.bronze r hr, hposition⟩, fun haccepts => ?_⟩
  rcases h.silver haccepts with ⟨key, hkey, hone⟩
  rcases (s.silver.count_eq_one_iff key).mp hone with ⟨x, hx, hxkey⟩
  exact ⟨key, hkey, (s'.silver.count_eq_one_iff key).mpr ⟨x, hgrows.silver x hx, hxkey⟩⟩

/-- An attempt only adds rows, whatever goes wrong. -/
theorem processKafkaMessage_grows :
    Grows s (processKafkaMessage faults position kafkaMessage s).1 := by
  unfold processKafkaMessage
  split
  · split
    · exact grows_refl s
    · next psp event _ contentHash _ _ _ _ _ payload _ =>
        -- Past the checks Bronze is written, and Silver on top of it if at all.
        have hbronze : Grows s (writeBronzeParquet faults.bronze position psp.toStr contentHash
          kafkaMessage s).1 := writeBronzeParquet_grows
        simp only []
        split
        · next s₁ e heq =>
            rw [heq] at hbronze
            exact hbronze
        · next s₁ id heq =>
            rw [heq] at hbronze
            split
            · have hsilver : Grows s₁ (normaliseToSilver faults psp.toStr payload id s₁).1 :=
                normaliseToSilver_grows
              split
              · next s₂ e heq₂ =>
                  rw [heq₂] at hsilver
                  exact grows_trans hbronze hsilver
              · next s₂ silverId isNew heq₂ =>
                  rw [heq₂] at hsilver
                  exact grows_trans hbronze hsilver
            · exact hbronze
  · exact grows_refl s

/-- A successful attempt leaves the message processed to completion. -/
theorem processKafkaMessage_ok {outcome : Outcome}
    (h : processKafkaMessage faults position kafkaMessage s = (s', .ok outcome)) :
    Complete s' position kafkaMessage := by
  unfold processKafkaMessage at h
  split at h
  · next psp event payloadJson contentHash hpsp hevent hpayload _ =>
      split at h
      · cases (Prod.mk.inj h).2
      · next payload hdict =>
          simp only [] at h
          -- Past the checks the classifier decides.
          have haccepts : accepts kafkaMessage
              = (classifyEvent psp.toStr event.toStr payload).process := by
            simp only [accepts, hpsp, hevent, hpayload, Option.bind_some, hdict]
          split at h
          · cases (Prod.mk.inj h).2
          · next s₁ id heq =>
              have hbronze := writeBronzeParquet_ok heq
              split at h
              · next hprocess =>
                  split at h
                  · cases (Prod.mk.inj h).2
                  · next s₂ silverId isNew heq₂ =>
                      rw [← (Prod.mk.inj h).1]
                      have hgrows : Grows s₁ s₂ := by
                        have hsilver : Grows s₁
                            (normaliseToSilver faults psp.toStr payload id s₁).1 :=
                          normaliseToSilver_grows
                        rw [heq₂] at hsilver
                        exact hsilver
                      rcases hbronze with ⟨r, hr, hposition⟩
                      -- The Bronze row is still there after the second write.
                      refine ⟨⟨r, hgrows.bronze r hr, hposition⟩, fun _ => ?_⟩
                      rcases normaliseToSilver_ok heq₂ with
                        ⟨normaliser, key, hlookup, hkey, hrow⟩
                      refine ⟨key, ?_, (s₂.silver.count_eq_one_iff key).mpr hrow⟩
                      simp only [silverKey, hpsp, hpayload, Option.bind_some, hdict, hlookup, hkey]
                      rfl
              · next hprocess =>
                  rw [← (Prod.mk.inj h).1]
                  refine ⟨hbronze, fun hc => ?_⟩
                  rw [haccepts] at hc
                  exact absurd hc hprocess
  · cases (Prod.mk.inj h).2

end Process

end Transform

end MmrEngine
