import MmrEngine.Flows.Pipeline
import MmrEngine.Theory.Provenance

/-!
# From the Door to Silver

What becomes of an event that was acknowledged, and where a Silver row came
from, over every interleaving of ingestion and the consumer.

Each half of the pipeline has its own invariant, and both survive the
composition: a step of the pipeline is a step of one half, or one of each where
the broker stores a message. What the composition adds is the link between the
two logs (`PipelineInv.stored`, `PipelineInv.traced`), that whatever was
published came from an event that arrived (`Published`), and that a Silver row
has its key from the message it was made of (`PipelineInv.silver`).

The bytes in between do no harm: a message decodes to what was published, and
the key the normaliser computes from it is the one that was registered
(`silverKey_published`).

## Main definitions

* `Published`: A message is that of an event that arrived.
* `MessageAt`: A message is at a position, and was published.
* `PipelineInv`: The invariant.

## Theorems

* `silverKey_published`: The key of a Silver row is the key of the message.
* `pipelineInv_step`: A step keeps the invariant.
* `acknowledged_event_settled`: No acknowledged event is lost.
* `silver_row_traced`: No Silver row is invented.
-/

namespace MmrEngine

namespace Pipeline

open Idempotency Kafka Webhooks

section Invariant

variable [PyJson] [DoorLibrary] {process : Nat → Nat} {topics : Ingestion.Topics}
  {secrets : Secrets} {s s' : State}

/-- The message of an event that arrived, under the key registered for it, in
    the topic of its PSP. -/
def Published (topics : Ingestion.Topics) (secrets : Secrets) (topic : String)
    (m : Ingestion.KafkaMessage) : Prop :=
  ∃ e key, Arrived secrets e ∧
    ingestKey e.pspName e.eventType e.rawPayload e.contentHash = .ok key ∧
    topic = topics.get e.pspName ∧ m = Ingestion.kafkaMessage e key

/-- What is consumed of a published message is what was published. -/
theorem record_value {topic : String} {m : Ingestion.KafkaMessage}
    (h : Published topics secrets topic m) : (record m).value = some (messagePayload m) := by
  rcases h with ⟨e, key, harrived, -, -, rfl⟩
  rcases arrived_spec harrived with ⟨-, -, -, hread⟩
  have hpayload : Json.Parsed (.obj (Ingestion.kafkaMessage e key).payload) := hread
  rw [record, decodeValue_encodePayload (parsed_messagePayload hpayload)]

omit [PyJson] [DoorLibrary] in
theorem silverKey_of_fields [PyText] {message : Dict} {psp : String} {payload : Dict}
    (hpsp : message.lookup "psp_name" = some (.str psp))
    (hpayload : message.lookup "payload" = some (.obj payload)) :
    Transform.silverKey message = (Normaliser.normalisers.lookup psp).bind
      fun normaliser => (normaliser payload).toOption := by
  rw [Transform.silverKey, hpsp, hpayload]
  simp only [Option.bind_some, Json.asDict, Json.toStr]
  cases Normaliser.normalisers.lookup psp with
  | none => rfl
  | some normaliser => rfl

/-- The key of the Silver row of a message is the key it was published with. -/
theorem silverKey_published {topic key : String} {m : Ingestion.KafkaMessage}
    (h : Published topics secrets topic m) {position : Transform.Position}
    (hkey : Transform.silverKey (Consumer.kafkaMessage position (messagePayload m)) = some key) :
    key = m.idempotencyKey := by
  rcases h with ⟨e, registered, harrived, hregistered, -, rfl⟩
  rcases arrived_spec harrived with ⟨psp, hpsp, hevent, -⟩
  have hsilver : Transform.silverKey
      (Consumer.kafkaMessage position (messagePayload (Ingestion.kafkaMessage e registered)))
        = (Normaliser.normalisers.lookup e.pspName).bind
            fun normaliser => (normaliser e.rawPayload).toOption :=
    silverKey_of_fields rfl rfl
  rw [hsilver, hpsp] at hkey
  cases hlookup : Normaliser.normalisers.lookup psp.pspName with
  | none => rw [hlookup] at hkey; cases hkey
  | some normaliser =>
      rw [hlookup, Option.bind_some] at hkey
      cases hnormalised : normaliser e.rawPayload with
      | error err => rw [hnormalised] at hkey; cases hkey
      | ok key' =>
          rw [hnormalised] at hkey
          have hdoor := webhookKey_of_normaliser hlookup hnormalised e.contentHash
          rw [webhookKey, ← hevent, ← hpsp, hregistered] at hdoor
          rw [← Option.some.inj hkey, ← Except.ok.inj hdoor]
          rfl

/-- `m` is the message at `position`, and in the log of its topic. -/
def MessageAt (s : State) (position : Transform.Position) (m : Ingestion.KafkaMessage) : Prop :=
  (s.consumer.log position.partition)[position.offset]? = some (record m) ∧
    (position.partition.topic, m) ∈ s.ingestion.log

/-- The invariant of the pipeline. -/
structure PipelineInv (process : Nat → Nat) (topics : Ingestion.Topics) (secrets : Secrets)
    (s : State) : Prop where
  ingestion : Transition.Reachable Ingestion.Initial (Ingestion.Step process topics) s.ingestion
  consumer : Consumer.ConsumerInv s.consumer
  arrived : ∀ c e, (s.ingestion.calls c).args? = some e → Arrived secrets e
  outbox : ∀ c d, s.ingestion.outbox c = some d → Published topics secrets d.topic d.message
  stored : ∀ topic m, (topic, m) ∈ s.ingestion.log → Published topics secrets topic m ∧
    ∃ position, position.partition.topic = topic ∧ MessageAt s position m
  traced : ∀ position r, (s.consumer.log position.partition)[position.offset]? = some r →
    ∃ m, r = record m ∧ MessageAt s position m
  silver : ∀ r ∈ s.consumer.stores.silver.rows, ∃ position m, MessageAt s position m ∧
    Transform.MadeOf s.consumer.stores position
      (Consumer.kafkaMessage position (messagePayload m)) r

omit [DoorLibrary] in
theorem messageAt_mono {position : Transform.Position} {m : Ingestion.KafkaMessage}
    (hconsumer : ∀ p, s.consumer.log p <+: s'.consumer.log p)
    (hingestion : ∀ x ∈ s.ingestion.log, x ∈ s'.ingestion.log) (h : MessageAt s position m) :
    MessageAt s' position m := by
  refine ⟨?_, hingestion _ h.2⟩
  rcases hconsumer position.partition with ⟨rest, hrest⟩
  have hlt := (List.getElem?_eq_some_iff.mp h.1).1
  rw [← hrest, List.getElem?_append_left hlt]
  exact h.1

omit [DoorLibrary] in
/-- Where neither log changes, what is in them stays. -/
theorem messageAt_same {position : Transform.Position} {m : Ingestion.KafkaMessage}
    (hconsumer : s'.consumer.log = s.consumer.log) (hingestion : s'.ingestion.log = s.ingestion.log)
    (h : MessageAt s position m) : MessageAt s' position m := by
  unfold MessageAt
  rw [hconsumer, hingestion]
  exact h

theorem pipelineInv_initial (h : Initial s) : PipelineInv process topics secrets s := by
  rcases h with ⟨hingestion, hlog, hcommitted, hbronze, hsilver, hdead, hworker⟩
  refine ⟨Transition.reachable_of_init hingestion,
    Consumer.consumerInv_down hworker fun p n hn => ?_, fun c e hc => ?_, fun c d hd => ?_,
    fun topic m hm => ?_, fun position r hr => ?_, fun r hr => ?_⟩
  · rw [hcommitted p] at hn
    exact absurd hn (Nat.not_lt_zero n)
  · rw [hingestion.2.1 c] at hc
    cases hc
  · rw [hingestion.2.2.1 c] at hd
    cases hd
  · rw [hingestion.2.2.2.2.1] at hm
    cases hm
  · rw [hlog] at hr
    cases hr
  · rw [hsilver] at hr
    cases hr

/-- Ingestion takes a step of its own. -/
theorem pipelineInv_ingest {w : Ingestion.World} (hinv : PipelineInv process topics secrets s)
    (hstep : Ingestion.Step process topics s.ingestion w) (hlog : w.log = s.ingestion.log)
    (harrived : ∀ c e key phase connected, s.ingestion.calls c = .idle →
      w.calls c = .running e key phase connected → Arrived secrets e) :
    PipelineInv process topics secrets { s with ingestion := w } := by
  have hsame : ∀ {position m}, MessageAt s position m →
      MessageAt { s with ingestion := w } position m :=
    fun hat => messageAt_same (s := s) rfl hlog hat
  refine ⟨Transition.reachable_step hinv.ingestion hstep, hinv.consumer, fun c e hc => ?_,
    fun c d hd => ?_, fun topic m hm => ?_, fun position r hr => ?_, fun r hr => ?_⟩
  · rcases Ingestion.args?_step hstep hc with hold | ⟨hidle, key, hbegun⟩
    · exact hinv.arrived c e hold
    · exact harrived c e key _ _ hidle hbegun
  · rcases Ingestion.outbox_step hstep hd with ⟨d₀, hd₀, htopic, hmessage⟩ |
      ⟨e, key, connected, hc, htopic, hmessage⟩
    · rw [htopic, hmessage]
      exact hinv.outbox c d₀ hd₀
    · -- The message is new: it is of the event its call was made for.
      have hcalls := (Ingestion.inv_of_reachable hinv.ingestion).2
      exact ⟨e, key, hinv.arrived c e (by rw [hc]; rfl), (hcalls.running _ _ _ _ _ hc).1, htopic,
        hmessage⟩
  · rw [hlog] at hm
    rcases hinv.stored topic m hm with ⟨hpublished, position, htopic, hat⟩
    exact ⟨hpublished, position, htopic, hsame hat⟩
  · rcases hinv.traced position r hr with ⟨m, hrecord, hat⟩
    exact ⟨m, hrecord, hsame hat⟩
  · rcases hinv.silver r hr with ⟨position, m, hat, hmade⟩
    exact ⟨position, m, hsame hat, hmade⟩

/-- The consumer takes a step of its own. -/
theorem pipelineInv_consume {c : Consumer.System} (hinv : PipelineInv process topics secrets s)
    (hstep : Consumer.Step s.consumer c) (hlog : c.log = s.consumer.log) :
    PipelineInv process topics secrets { s with consumer := c } := by
  have hsame : ∀ {position m}, MessageAt s position m →
      MessageAt { s with consumer := c } position m := fun hat => messageAt_same hlog rfl hat
  refine ⟨hinv.ingestion, Consumer.consumerInv_step hinv.consumer hstep, hinv.arrived, hinv.outbox,
    fun topic m hm => ?_, fun position r hr => ?_, fun r hr => ?_⟩
  · rcases hinv.stored topic m hm with ⟨hpublished, position, htopic, hat⟩
    exact ⟨hpublished, position, htopic, hsame hat⟩
  · have hr' : (s.consumer.log position.partition)[position.offset]? = some r := by
      rw [← hlog]
      exact hr
    rcases hinv.traced position r hr' with ⟨m, hrecord, hat⟩
    exact ⟨m, hrecord, hsame hat⟩
  · rcases Consumer.mem_silver_step hstep hr with hold | ⟨position, r', value, hr', hvalue, hmade⟩
    · rcases hinv.silver r hold with ⟨position, m, hat, hmade⟩
      exact ⟨position, m, hsame hat, Transform.madeOf_grows (Consumer.grows_step hstep) hmade⟩
    · -- The message it was made of is one that was published.
      rcases hinv.traced position r' hr' with ⟨m, rfl, hat⟩
      rw [record_value (hinv.stored _ _ hat.2).1] at hvalue
      rw [← Option.some.inj hvalue] at hmade
      exact ⟨position, m, hsame hat, hmade⟩

/-- The broker stores a message. -/
theorem pipelineInv_store {c : Nat} {d : Ingestion.Delivery} {partition : Nat}
    (hinv : PipelineInv process topics secrets s) (hd : s.ingestion.outbox c = some d)
    (hnew : d.stored = false) : PipelineInv process topics secrets (s.store c d partition) := by
  -- For either half it is a step of its own.
  have hingestion : Ingestion.Step process topics s.ingestion
      (s.store c d partition).ingestion :=
    Ingestion.Step.brokerStores s.ingestion c d hd hnew
  have hconsumer := Consumer.Step.append s.consumer { topic := d.topic, partition := partition }
    (record d.message)
  have hprefix : ∀ p, s.consumer.log p <+: (s.store c d partition).consumer.log p := by
    intro p
    simp only [State.store]
    by_cases hp : p = { topic := d.topic, partition := partition }
    · rw [hp, Function.update_self]
      exact List.prefix_append _ _
    · rw [Function.update_of_ne hp]
  have hkept : ∀ {position m}, MessageAt s position m →
      MessageAt (s.store c d partition) position m :=
    fun hat => messageAt_mono hprefix (fun _ hx => List.mem_append_left _ hx) hat
  have hself : (s.store c d partition).consumer.log { topic := d.topic, partition := partition }
      = s.consumer.log { topic := d.topic, partition := partition } ++ [record d.message] :=
    Function.update_self _ _ _
  have hlast : MessageAt (s.store c d partition)
      { partition := { topic := d.topic, partition := partition }
        offset := (s.consumer.log { topic := d.topic, partition := partition }).length }
      d.message := by
    refine ⟨?_, List.mem_append_right _ List.mem_cons_self⟩
    rw [hself, List.getElem?_append_right (Nat.le_refl _), Nat.sub_self]
    rfl
  refine ⟨Transition.reachable_step hinv.ingestion hingestion,
    Consumer.consumerInv_step hinv.consumer hconsumer, hinv.arrived, fun c' d' hd' => ?_,
    fun topic m hm => ?_, fun position r hr => ?_, fun r hr => ?_⟩
  · by_cases hc : c' = c
    · subst hc
      have hsame : some d' = some { d with stored := true } :=
        hd'.symm.trans (Function.update_self _ _ _)
      rw [Option.some.inj hsame]
      exact hinv.outbox c' d hd
    · exact hinv.outbox c' d' ((Function.update_of_ne hc _ _).symm.trans hd')
  · rcases List.mem_append.mp hm with hold | hadded
    · rcases hinv.stored topic m hold with ⟨hpublished, position, htopic, hat⟩
      exact ⟨hpublished, position, htopic, hkept hat⟩
    · rcases Prod.mk.inj (List.mem_singleton.mp hadded) with ⟨rfl, rfl⟩
      exact ⟨hinv.outbox c d hd, _, rfl, hlast⟩
  · by_cases hp : position.partition = { topic := d.topic, partition := partition }
    · have hposition : position
          = { partition := { topic := d.topic, partition := partition }
              offset := position.offset } := by rw [← hp]
      rw [hp, hself] at hr
      by_cases hlt : position.offset
          < (s.consumer.log { topic := d.topic, partition := partition }).length
      · rw [List.getElem?_append_left hlt, ← hp] at hr
        rcases hinv.traced position r hr with ⟨m, hrecord, hat⟩
        exact ⟨m, hrecord, hkept hat⟩
      · -- Past the old end there is only the new message.
        have hend : position.offset
            = (s.consumer.log { topic := d.topic, partition := partition }).length := by
          have hbound := (List.getElem?_eq_some_iff.mp hr).1
          rw [List.length_append, List.length_singleton] at hbound
          omega
        rw [hend, List.getElem?_concat_length] at hr
        rw [hposition, hend]
        exact ⟨d.message, (Option.some.inj hr).symm, hlast⟩
    · have hother : (s.store c d partition).consumer.log position.partition
          = s.consumer.log position.partition := Function.update_of_ne hp _ _
      rw [hother] at hr
      rcases hinv.traced position r hr with ⟨m, hrecord, hat⟩
      exact ⟨m, hrecord, hkept hat⟩
  · rcases hinv.silver r hr with ⟨position, m, hat, hmade⟩
    exact ⟨position, m, hkept hat, hmade⟩

/-- A step keeps the invariant. -/
theorem pipelineInv_step (hinv : PipelineInv process topics secrets s)
    (h : Step process topics secrets s s') : PipelineInv process topics secrets s' := by
  cases h with
  | ingest w hstep hlog harrived => exact pipelineInv_ingest hinv hstep hlog harrived
  | store c d partition hd hnew => exact pipelineInv_store hinv hd hnew
  | consume c hstep hlog => exact pipelineInv_consume hinv hstep hlog

theorem pipelineInv_of_reachable
    (h : Transition.Reachable Initial (Step process topics secrets) s) :
    PipelineInv process topics secrets s :=
  Transition.invariant_of_step (I := PipelineInv process topics secrets)
    (fun _ hinit => pipelineInv_initial hinit) (fun _ _ hinv hstep => pipelineInv_step hinv hstep) h

/-- For a call that has returned there is a message in Kafka, of an event with
    its key that came in by a signed webhook or a poll. Once the offset of the
    message has been committed, it is in Bronze, and if the classifier accepts
    the event, exactly one Silver row has the key the caller was told; or the
    dead-letter topic has the text of the message. -/
theorem acknowledged_event_settled
    (h : Transition.Reachable Initial (Step process topics secrets) s)
    {c : Nat} {e : Ingestion.IngestArgs} {reply : Ingestion.Reply}
    (hc : s.ingestion.calls c = .returned e reply) :
    ∃ (e' : Ingestion.IngestArgs) (position : Transform.Position), Arrived secrets e' ∧
      ingestKey e'.pspName e'.eventType e'.rawPayload e'.contentHash = .ok reply.idempotencyKey ∧
      position.partition.topic = topics.get e'.pspName ∧
      MessageAt s position (Ingestion.kafkaMessage e' reply.idempotencyKey) ∧
      (position.offset < s.consumer.committed position.partition →
        ((∃ b ∈ s.consumer.stores.bronze.rows, b.position = position) ∧
          ((Normaliser.classifyEvent e'.pspName e'.eventType e'.rawPayload).process = true →
            (s.consumer.stores.silver.rows.filter
              fun r => r.idempotencyKey = reply.idempotencyKey).length = 1)) ∨
        ∃ d ∈ s.consumer.deadLetters, d.originalPosition = position ∧
          d.rawValue = Json.dumps
            (.obj (messagePayload (Ingestion.kafkaMessage e' reply.idempotencyKey)))) := by
  have hinv := pipelineInv_of_reachable h
  have hkeys := (Ingestion.inv_of_reachable hinv.ingestion).1
  rcases Ingestion.acknowledged_of_returned hkeys hc with ⟨c', d, -, -, hkey, hlog⟩
  rcases hinv.stored _ _ hlog with ⟨hpublished, position, htopic, hat⟩
  have hread := record_value hpublished
  have hsame : ∀ key, Transform.silverKey
      (Consumer.kafkaMessage position (messagePayload d.message)) = some key →
      key = d.message.idempotencyKey := fun _ hsilver => silverKey_published hpublished hsilver
  rcases hpublished with ⟨e', key, harrived, hregistered, htopic', hmessage⟩
  rw [hmessage] at hkey hat hread hsame
  have hkey' : key = reply.idempotencyKey := hkey
  subst hkey'
  refine ⟨e', position, harrived, hregistered, htopic.trans htopic', hat, fun hcommitted => ?_⟩
  -- What the consumer has passed is handled, and what it handled is this message.
  rcases hinv.consumer.committed position.partition position.offset hcommitted with
    ⟨record', hrecord', hdone⟩
  have hrecord : record' = record (Ingestion.kafkaMessage e' reply.idempotencyKey) :=
    Option.some.inj (hrecord'.symm.trans hat.1)
  subst hrecord
  rcases hdone with ⟨value, hvalue, hcomplete⟩ | ⟨d', hd', hposition, hraw⟩
  · rw [hread] at hvalue
    rw [← Option.some.inj hvalue] at hcomplete
    refine Or.inl ⟨hcomplete.bronze, fun hprocess => ?_⟩
    rcases hcomplete.silver hprocess with ⟨key, hsilver, hone⟩
    rw [hsame key hsilver] at hone
    exact hone
  · exact Or.inr ⟨d', hd', hposition, hraw⟩

/-- Every Silver row was made of a message in Kafka, of an event that came in by
    a signed webhook or a poll and that the classifier accepts. It has the key
    that was registered for the event, alone of all rows, and refers to the
    Bronze row of the message. -/
theorem silver_row_traced (h : Transition.Reachable Initial (Step process topics secrets) s)
    {r : Transform.SilverRecord} (hr : r ∈ s.consumer.stores.silver.rows) :
    ∃ (e : Ingestion.IngestArgs) (position : Transform.Position), Arrived secrets e ∧
      ingestKey e.pspName e.eventType e.rawPayload e.contentHash = .ok r.idempotencyKey ∧
      position.partition.topic = topics.get e.pspName ∧
      MessageAt s position (Ingestion.kafkaMessage e r.idempotencyKey) ∧
      (Normaliser.classifyEvent e.pspName e.eventType e.rawPayload).process = true ∧
      (∃ b ∈ s.consumer.stores.bronze.rows, b.position = position ∧ b.id = r.bronzeIngestionId) ∧
      (s.consumer.stores.silver.rows.filter
        fun r' => r'.idempotencyKey = r.idempotencyKey).length = 1 := by
  have hinv := pipelineInv_of_reachable h
  rcases hinv.silver r hr with ⟨position, m, hat, hmade⟩
  have hpublished := (hinv.stored _ _ hat.2).1
  have hkey := silverKey_published hpublished hmade.key
  rcases hpublished with ⟨e, registered, harrived, hregistered, htopic, rfl⟩
  have hsame : registered = r.idempotencyKey := hkey.symm
  subst hsame
  exact ⟨e, position, harrived, hregistered, htopic, hat, hmade.accepted, hmade.bronze,
    s.consumer.stores.silver.count_of_mem hr⟩

end Invariant

section Exhibit

/-- The payload of a successful charge. -/
def chargePayload : Dict :=
  [("event", .str "charge.success"), ("data", .obj [("reference", .str "T1")])]

def chargeBody : List UInt8 := @encodePayload asciiJson chargePayload

def chargeSignature : String :=
  "1d02808ab3f54694d9a713652d97de0c7d3af9371de4eb1a8403c60c377422bd" ++
    "f571f6bc077406de6ee768a6dad838b1a4262efc4d74b93dc61a523a5948e58b"

/-- The two hashes are those of the body of the charge. -/
@[reducible] def chargeLibrary : DoorLibrary where
  hmacSha512Hex _ _ := chargeSignature
  sha256Hex _ := "3145cca81149080b7a6aba3bd7c06791d70ac368c1726ee0c7260b3139c13fa8"
  decodeBody := decodeUtf8

def exhibitSecrets : Secrets where
  paystackSecretKey := "sk_test"
  flutterwaveSecretHash := ""

/-- The charge, as `ingest_event` gets it. -/
def charge : Ingestion.IngestArgs :=
  @buildEvent asciiJson chargeLibrary .paystack chargeBody chargePayload "t"

theorem parsed_chargePayload : @Json.Parsed asciiJson (.obj chargePayload) := by
  let lib := asciiJson
  refine .obj _ (show List.Nodup ["event", "data"] by decide) (fun field hfield => ?_)
  simp only [chargePayload, List.mem_cons, List.not_mem_nil, or_false] at hfield
  rcases hfield with rfl | rfl
  · exact .str _
  · refine .obj _ (show List.Nodup ["reference"] by decide) (fun field hfield => ?_)
    rw [List.mem_singleton.mp hfield]
    exact .str _

theorem plain_chargeSignature : plain chargeSignature = true :=
  plain_append (by decide +kernel) (by decide +kernel)

theorem arrived_charge : @Arrived asciiJson chargeLibrary exhibitSecrets charge := by
  let lib := asciiJson
  let door := chargeLibrary
  have hvalid : validateSignature exhibitSecrets .paystack chargeBody chargeSignature = true := by
    have hne : chargeSignature ≠ "" := by
      intro hempty
      exact absurd (String.append_eq_empty_iff.mp hempty).1 (by decide)
    rw [validateSignature, lower_plain plain_chargeSignature]
    simp only [decide_eq_true hne, Bool.true_and]
    exact beq_self_eq_true _
  have hbody : parseBody chargeBody = some (.obj chargePayload) := by
    have hdecode : DoorLibrary.decodeBody chargeBody = some (Json.dumps (.obj chargePayload)) :=
      decodeUtf8_encode _
    rw [parseBody, hdecode, Option.bind_some, Json.loads_dumps parsed_chargePayload]
  refine .webhook .paystack chargeBody chargeSignature "t" _ ?_
  rw [receiveEvent, hvalid, hbody]
  rfl

section Runs

variable [PyJson] [DoorLibrary] {process : Nat → Nat} {topics : Ingestion.Topics}
  {secrets : Secrets} {s : State}

theorem reachable_begin (h : Transition.Reachable Initial (Step process topics secrets) s) (c : Nat)
    (e : Ingestion.IngestArgs) (key : String) (hidle : s.ingestion.calls c = .idle)
    (hkey : ingestKey e.pspName e.eventType e.rawPayload e.contentHash = .ok key)
    (harrived : Arrived secrets e) :
    Transition.Reachable Initial (Step process topics secrets)
      { s with ingestion := s.ingestion.goto c (.running e key .registering true) } := by
  refine Transition.reachable_step h (.ingest s _ (.begin _ c e key hidle hkey) rfl ?_)
  intro c' e' key' phase connected hidle' hc'
  by_cases hsame : c' = c
  · subst hsame
    have hcall := (Function.update_self _ _ _).symm.trans hc'
    rw [← (Ingestion.Call.running.inj hcall).1]
    exact harrived
  · have hcall := (Function.update_of_ne hsame _ _).symm.trans hc'
    rw [hidle'] at hcall
    cases hcall

/-- A step of a call that has begun. -/
theorem reachable_ingest {w : Ingestion.World}
    (h : Transition.Reachable Initial (Step process topics secrets) s) (c : Nat)
    (hstep : Ingestion.Step process topics s.ingestion w) (hlog : w.log = s.ingestion.log)
    (hbegun : s.ingestion.calls c ≠ .idle)
    (hother : ∀ c', c' ≠ c → w.calls c' = s.ingestion.calls c') :
    Transition.Reachable Initial (Step process topics secrets) { s with ingestion := w } := by
  refine Transition.reachable_step h (.ingest s w hstep hlog ?_)
  intro c' e key phase connected hidle hc'
  have hne : c' ≠ c := by
    rintro rfl
    exact hbegun hidle
  rw [hother c' hne, hidle] at hc'
  cases hc'

end Runs

/-- The message of the charge, and where it is. -/
def chargeKey : String := "paystack:T1:charge.success"

def chargePosition : Transform.Position where
  partition := Consumer.paystackPartition
  offset := 0

/-- What the worker makes of the message, once it has been decoded. -/
def handleCharge (s : Transform.Stores) :
    Transform.Stores × (Transform.Position → Nat) × Consumer.Stage :=
  @Consumer.handle asciiJson.toPyText Consumer.noFaults chargePosition
    { rawValue := ""
      value := some (messagePayload (Ingestion.kafkaMessage charge chargeKey)) } (fun _ => 0) s

/-- Only what a record decodes to matters. -/
theorem handle_congr [PyText] {faults : Transform.Faults} {position : Transform.Position}
    {r r' : Consumer.Record} (h : r.value = r'.value) (attempts : Transform.Position → Nat)
    (s : Transform.Stores) : Consumer.handle faults position r attempts s
      = Consumer.handle faults position r' attempts s := by
  rw [Consumer.handle, Consumer.handle, h]

theorem value_charge : (@record asciiJson (Ingestion.kafkaMessage charge chargeKey)).value
    = some (messagePayload (Ingestion.kafkaMessage charge chargeKey)) := by
  let lib := asciiJson
  have hpayload : Json.Parsed (.obj (Ingestion.kafkaMessage charge chargeKey).payload) :=
    parsed_chargePayload
  rw [record, decodeValue_encodePayload (parsed_messagePayload hpayload)]

theorem handle_charge (s : Transform.Stores) :
    @Consumer.handle asciiJson.toPyText Consumer.noFaults chargePosition
        (@record asciiJson (Ingestion.kafkaMessage charge chargeKey)) (fun _ => 0) s
      = ((handleCharge s).1, (handleCharge s).2.1, (handleCharge s).2.2) := by
  have hsame : @Consumer.handle asciiJson.toPyText Consumer.noFaults chargePosition
      (@record asciiJson (Ingestion.kafkaMessage charge chargeKey)) (fun _ => 0) s
        = handleCharge s := @handle_congr asciiJson.toPyText _ _ _ _ value_charge _ _
  rw [hsame]

theorem handleCharge_commits :
    (handleCharge Consumer.emptySystem.stores).2.2 = .committing chargePosition := by
  decide

theorem handleCharge_row : ((handleCharge Consumer.emptySystem.stores).1.silver.rows.map
    Transform.SilverRecord.idempotencyKey) = [chargeKey] := by
  decide +kernel

def initialState : State where
  ingestion := Ingestion.emptyWorld
  consumer := Consumer.emptySystem

/-- A signed charge is registered, published and acknowledged, and the consumer
    takes it into Silver. -/
theorem charge_run : letI := asciiJson
    letI := chargeLibrary
    ∃ (s : State) (e : Ingestion.IngestArgs) (reply : Ingestion.Reply) (r : Transform.SilverRecord),
      Transition.Reachable Initial (Step (fun _ => 0) Ingestion.exhibitTopics exhibitSecrets) s ∧
      s.ingestion.calls 0 = .returned e reply ∧ reply.idempotencyKey = chargeKey ∧
      s.consumer.committed Consumer.paystackPartition = 1 ∧
      r ∈ s.consumer.stores.silver.rows ∧ r.idempotencyKey = chargeKey := by
  let lib := asciiJson
  let door := chargeLibrary
  have hkey : ingestKey charge.pspName charge.eventType charge.rawPayload charge.contentHash
      = .ok chargeKey := by decide
  have h0 : Transition.Reachable Initial
      (Step (fun _ => 0) Ingestion.exhibitTopics exhibitSecrets) initialState :=
    Transition.reachable_of_init ⟨⟨rfl, fun _ => rfl, fun _ => rfl, fun _ => rfl, rfl, rfl⟩,
      fun _ => rfl, fun _ => rfl, rfl, rfl, rfl, rfl⟩
  have h1 := reachable_begin h0 0 charge chargeKey rfl hkey arrived_charge
  have h2 := reachable_ingest h1 0 (Ingestion.Step.registerNew _ 0 _ _ 0 rfl
    (fun _ _ h => by cases h) rfl) rfl (fun h => by cases h)
    (fun _ hc => Function.update_of_ne hc _ _)
  have h3 := reachable_ingest h2 0 (Ingestion.Step.produce _ 0 _ _ _ rfl) rfl (fun h => by cases h)
    (fun _ hc => Function.update_of_ne hc _ _)
  have h4 := Transition.reachable_step h3 (.store _ 0 _ 0 rfl rfl)
  have h5 := reachable_ingest h4 0 (Ingestion.Step.delivered _ 0 _ List.mem_cons_self rfl rfl) rfl
    (fun h => by cases h) (fun _ _ => rfl)
  have h6 := reachable_ingest h5 0 (Ingestion.Step.published _ 0 _ _ _ _ rfl rfl rfl) rfl
    (fun h => by cases h) (fun _ hc => Function.update_of_ne hc _ _)
  have h7 := reachable_ingest h6 0 (Ingestion.Step.commitReturns _ 0 _ _ _ rfl) rfl
    (fun h => by cases h) (fun _ hc => Function.update_of_ne hc _ _)
  have h8 := Transition.reachable_step h7 (.consume _ _ (Consumer.Step.start _ rfl) rfl)
  have h9 := Transition.reachable_step h8 (.consume _ _ (Consumer.Step.poll _ _
    Consumer.paystackPartition rfl rfl (by decide)) rfl)
  have h10 := Transition.reachable_step h9 (.consume _ _ (Consumer.Step.handled _ _ chargePosition _
    Consumer.noFaults _ _ _ rfl rfl rfl (handle_charge _)) rfl)
  have h11 := Transition.reachable_step h10 (.consume _ _
    (Consumer.Step.commit _ _ chargePosition rfl handleCharge_commits) rfl)
  have hmem : chargeKey ∈ (handleCharge Consumer.emptySystem.stores).1.silver.rows.map
      Transform.SilverRecord.idempotencyKey := by
    rw [handleCharge_row]
    exact List.mem_cons_self
  rcases List.mem_map.mp hmem with ⟨r, hr, hrkey⟩
  exact ⟨_, _, _, r, h11, rfl, rfl, rfl, hr, hrkey⟩

/-- The charge that was acknowledged has its message, and what becomes of it. -/
theorem acknowledged_event_settled_charge : letI := asciiJson
    letI := chargeLibrary
    ∃ (s : State) (e' : Ingestion.IngestArgs) (position : Transform.Position),
      Transition.Reachable Initial (Step (fun _ => 0) Ingestion.exhibitTopics exhibitSecrets) s ∧
      s.consumer.committed Consumer.paystackPartition = 1 ∧ Arrived exhibitSecrets e' ∧
      MessageAt s position (Ingestion.kafkaMessage e' chargeKey) ∧
      (position.offset < s.consumer.committed position.partition →
        ((∃ b ∈ s.consumer.stores.bronze.rows, b.position = position) ∧
          ((Normaliser.classifyEvent e'.pspName e'.eventType e'.rawPayload).process = true →
            (s.consumer.stores.silver.rows.filter
              fun r => r.idempotencyKey = chargeKey).length = 1)) ∨
        ∃ d ∈ s.consumer.deadLetters, d.originalPosition = position ∧
          d.rawValue = Json.dumps
            (.obj (messagePayload (Ingestion.kafkaMessage e' chargeKey)))) := by
  let lib := asciiJson
  let door := chargeLibrary
  rcases charge_run with ⟨s, e, reply, r, hreach, hcall, hkey, hcommitted, -, -⟩
  rcases acknowledged_event_settled hreach hcall with ⟨e', position, harrived, -, -, hat, hdone⟩
  rw [hkey] at hat hdone
  exact ⟨s, e', position, hreach, hcommitted, harrived, hat, hdone⟩

/-- The Silver row of the charge has its message. -/
theorem silver_row_traced_charge : letI := asciiJson
    letI := chargeLibrary
    ∃ (s : State) (e : Ingestion.IngestArgs) (position : Transform.Position),
      Transition.Reachable Initial (Step (fun _ => 0) Ingestion.exhibitTopics exhibitSecrets) s ∧
      Arrived exhibitSecrets e ∧ MessageAt s position (Ingestion.kafkaMessage e chargeKey) ∧
      (∃ b ∈ s.consumer.stores.bronze.rows, b.position = position) ∧
      (s.consumer.stores.silver.rows.filter fun r => r.idempotencyKey = chargeKey).length = 1 := by
  let lib := asciiJson
  let door := chargeLibrary
  rcases charge_run with ⟨s, _, _, r, hreach, -, -, -, hr, hkey⟩
  rcases silver_row_traced hreach hr with
    ⟨e, position, harrived, -, -, hat, -, ⟨b, hb, hposition, -⟩, hone⟩
  rw [hkey] at hat hone
  exact ⟨s, e, position, hreach, harrived, hat, ⟨b, hb, hposition⟩, hone⟩

end Exhibit

end Pipeline

end MmrEngine
