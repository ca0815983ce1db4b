import MmrEngine.Theory.Acknowledgement
import MmrEngine.Theory.NoMessageSkipped
import MmrEngine.Theory.ReferenceExtraction

/-!
# Provenance

Where the things that are kept along the way come from: the arguments of a call
of `ingest_event`, the message it hands over, and the Silver row made of it.

A call gets its arguments when it begins and keeps them until it ends, and a
message is written once, by the call that publishes it. A Silver row is written
by an attempt at one message, after the Bronze row of that message, and under
the key the normaliser computes from it. That key is the one the door computes
for the same payload.

## Main definitions

* `Call.args?`: The arguments of a call, while it has any.
* `MadeOf`: A Silver row was made of a message.

## Theorems

* `webhookKey_of_normaliser`: The normaliser's key is the key at the door.
* `args?_step`, `outbox_step`: What a step does to arguments and messages.
* `mem_processKafkaMessage`: An attempt adds Silver rows only of its message.
* `mem_silver_step`: So does a step of the consumer.
-/

namespace MmrEngine

namespace Webhooks

open Idempotency

section SameKey

variable [PyText]

/-- A library with these text operations. The others do not matter. -/
@[reducible] def libraryOf (text : PyText) : PyLibrary where
  toPyText := text
  upper s := s
  isdigit _ := false
  isdecimal _ := false
  nfkd s := s
  combining _ := false
  hmacHex s := s
  decimalOf _ := none
  fromIsoFormat _ := none

/-- What a normaliser takes for the reference is the field the door reads. -/
theorem reference_of_normaliser {psp : Connector} {normaliser : Dict → Except PyError String}
    (hlookup : Normaliser.normalisers.lookup psp.pspName = some normaliser) :
    ∃ reference : Dict → Except PyError String,
      normaliser = Normaliser.normalisedKey psp.pspName reference ∧
      ∀ data ref, reference data = .ok ref →
        (psp.referenceField data).truthy = true ∧ ref = strip (psp.referenceField data).toStr := by
  let lib := libraryOf ‹PyText›
  cases psp with
  | paystack =>
      refine ⟨Normaliser.paystackReference, (Option.some.inj hlookup).symm, fun data ref href => ?_⟩
      exact @reference_eq_ok lib .paystack data ref href
  | flutterwave =>
      refine ⟨Normaliser.flutterwaveReference, (Option.some.inj hlookup).symm,
        fun data ref href => ?_⟩
      exact @reference_eq_ok lib .flutterwave data ref href

/-- A key a normaliser computes is the key the door computes. -/
theorem webhookKey_of_normaliser {psp : Connector} {normaliser : Dict → Except PyError String}
    {payload : Dict} {key : String}
    (hlookup : Normaliser.normalisers.lookup psp.pspName = some normaliser)
    (h : normaliser payload = .ok key) (contentHash : String) :
    webhookKey psp payload contentHash = .ok key := by
  let lib := libraryOf ‹PyText›
  rcases reference_of_normaliser hlookup with ⟨reference, rfl, hreference⟩
  unfold Normaliser.normalisedKey at h
  cases hevent : payload.lookup "event" with
  | none => rw [hevent] at h; cases h
  | some event =>
      cases hdata : (payload.get "data" .null).asDict with
      | none => rw [hevent, hdata] at h; cases h
      | some data =>
          rw [hevent, hdata] at h
          cases event with
          | str eventType =>
              simp only [] at h
              split at h
              · next hprocess =>
                  rcases bind_eq_ok.mp h with ⟨ref, href, hkey⟩
                  rcases hreference data ref href with ⟨htruthy, hstrip⟩
                  have hmodelled := (Normaliser.classifyEvent_process _ _ _).mp hprocess
                  have hget : payload.get "event" .null = .str eventType := by
                    rw [Dict.get, hevent]
                    rfl
                  have hname : (Json.str eventType).truthy = true := by
                    simpa [Json.truthy] using @modelled_ne_empty lib _ _ _ hmodelled
                  have htype : extractEventType payload = eventType := by
                    rw [extractEventType, hget, Json.orElse, if_pos hname]
                    rfl
                  have hdoor := @ingestKey_of_reference lib psp payload data eventType hdata htruthy
                    contentHash
                  rw [webhookKey, htype, hdoor, ← Except.ok.inj hkey, hstrip, buildIdempotencyKey,
                    buildIdempotencyKey, strip_strip]
              · cases h
          | _ => cases h

end SameKey

end Webhooks

namespace Ingestion

section Calls

variable [PyText] {process : Nat → Nat} {topics : Topics} {w w' : World}

/-- The arguments of a running or returned call. -/
def Call.args? : Call → Option IngestArgs
  | .running e _ _ _ => some e
  | .returned e _ => some e
  | _ => none

omit [PyText] in
theorem args?_orphan {call : Call} {e : IngestArgs} (h : call.orphan.args? = some e) :
    call.args? = some e := by
  cases call with
  | running e' key phase connected => cases connected <;> cases h
  | _ => exact h

omit [PyText] in
/-- Where one call moves, the others keep their arguments. -/
theorem args?_goto {c c₀ : Nat} {call : Call} {e : IngestArgs}
    (h : (Function.update w.calls c₀ call c).args? = some e)
    (hcall : call.args? = some e → (w.calls c₀).args? = some e) : (w.calls c).args? = some e := by
  by_cases hc : c = c₀
  · rw [hc, Function.update_self] at h
    rw [hc]
    exact hcall h
  · rw [Function.update_of_ne hc] at h
    exact h

/-- A call gets its arguments when it begins, and keeps them. -/
theorem args?_step (h : Step process topics w w') {c : Nat} {e : IngestArgs}
    (hargs : (w'.calls c).args? = some e) :
    (w.calls c).args? = some e ∨
      w.calls c = .idle ∧ ∃ key, w'.calls c = .running e key .registering true := by
  cases h with
  | begin c₀ e₀ key hidle hkey =>
      by_cases hc : c = c₀
      · subst hc
        have hcall : (w.goto c (.running e₀ key .registering true)).calls c
            = .running e₀ key .registering true := Function.update_self _ _ _
        rw [hcall] at hargs
        rw [← Option.some.inj hargs]
        exact Or.inr ⟨hidle, key, hcall⟩
      · have hother : (w.goto c₀ (.running e₀ key .registering true)).calls c = w.calls c :=
          Function.update_of_ne hc _ _
        rw [hother] at hargs
        exact Or.inl hargs
  | registerNew c₀ e₀ key now hc hfree hnew =>
      exact Or.inl (args?_goto hargs (fun hn => by rw [hc]; exact hn))
  | registerDuplicate c₀ e₀ key now r hc hfree hseen =>
      exact Or.inl (args?_goto hargs (fun hn => by rw [hc]; exact hn))
  | produce c₀ e₀ key connected hc =>
      exact Or.inl (args?_goto hargs (fun hn => by rw [hc]; exact hn))
  | published c₀ e₀ key connected d hc hd hresult =>
      exact Or.inl (args?_goto hargs (fun hn => by rw [hc]; exact hn))
  | disconnect c₀ e₀ key phase hc =>
      exact Or.inl (args?_goto hargs (fun hn => by rw [hc]; exact hn))
  | commitReturns c₀ e₀ key reply hc =>
      exact Or.inl (args?_goto hargs (fun hn => by rw [hc]; exact hn))
  | crash p =>
      by_cases hp : process c = p
      · simp only [if_pos hp] at hargs
        exact Or.inl (args?_orphan hargs)
      · simp only [if_neg hp] at hargs
        exact Or.inl hargs
  -- The broker leaves the calls alone, and every other step ends one.
  | brokerStores c₀ d hd hnew => exact Or.inl hargs
  | delivered c₀ d hqueued hd hstored => exact Or.inl hargs
  | notDelivered c₀ d err hqueued hd => exact Or.inl hargs
  | _ => exact Or.inl (args?_goto hargs (fun hn => by cases hn))

omit [PyText] in
/-- What is noted on a message leaves the message as it is. -/
theorem outbox_amend {c c₀ : Nat} {d d₀ d₁ : Delivery} (hd₀ : w.outbox c₀ = some d₀)
    (hd : Function.update w.outbox c₀ (some d₁) c = some d) (htopic : d₁.topic = d₀.topic)
    (hmessage : d₁.message = d₀.message) :
    ∃ d', w.outbox c = some d' ∧ d.topic = d'.topic ∧ d.message = d'.message := by
  by_cases hc : c = c₀
  · rw [hc, Function.update_self] at hd
    rw [hc, ← Option.some.inj hd]
    exact ⟨d₀, hd₀, htopic, hmessage⟩
  · rw [Function.update_of_ne hc] at hd
    exact ⟨d, hd, rfl, rfl⟩

/-- A message is written by a call that publishes, and does not change. -/
theorem outbox_step (h : Step process topics w w') {c : Nat} {d : Delivery}
    (hd : w'.outbox c = some d) :
    (∃ d₀, w.outbox c = some d₀ ∧ d.topic = d₀.topic ∧ d.message = d₀.message) ∨
      ∃ e key connected, w.calls c = .running e key .publishing connected ∧
        d.topic = topics.get e.pspName ∧ d.message = kafkaMessage e key := by
  cases h with
  | produce c₀ e key connected hc =>
      by_cases hne : c = c₀
      · subst hne
        have hnew : some d = some _ := hd.symm.trans (Function.update_self _ _ _)
        rw [Option.some.inj hnew]
        exact Or.inr ⟨e, key, connected, hc, rfl, rfl⟩
      · exact Or.inl ⟨d, (Function.update_of_ne hne _ _).symm.trans hd, rfl, rfl⟩
  | brokerStores c₀ d₀ hd₀ hnew => exact Or.inl (outbox_amend hd₀ hd rfl rfl)
  | delivered c₀ d₀ hqueued hd₀ hstored => exact Or.inl (outbox_amend hd₀ hd rfl rfl)
  | notDelivered c₀ d₀ err hqueued hd₀ => exact Or.inl (outbox_amend hd₀ hd rfl rfl)
  | _ => exact Or.inl ⟨d, hd, rfl, rfl⟩

omit [PyText] in
/-- A call that has returned has committed its key, so there is a message. -/
theorem acknowledged_of_returned (hinv : KeysInv w) {c : Nat} {e : IngestArgs} {reply : Reply}
    (hc : w.calls c = .returned e reply) : Acknowledged w reply.idempotencyKey := by
  have hin : { call := c, key := reply.idempotencyKey, isNew := reply.isNew } ∈
      keyCommits w.commits reply.idempotencyKey :=
    List.mem_filter.mpr ⟨hinv.returned c e reply hc, decide_eq_true rfl⟩
  have hcount := hinv.count reply.idempotencyKey
  cases hrow : (w.keys reply.idempotencyKey).committed with
  | some r => exact hinv.recorded _ r hrow
  | none =>
      rw [hrow] at hcount
      have hnil : keyCommits w.commits reply.idempotencyKey = [] := hcount
      rw [hnil] at hin
      cases hin

end Calls

end Ingestion

namespace Transform

/-- A transaction that succeeds returns its result. -/
theorem transact_result {α : Type} {fault : Fault} {s s' s₁ : Stores} {result r : α}
    (h : transact fault s s' result = (s₁, .ok r)) : r = result := by
  cases fault with
  | none => exact (Except.ok.inj (Prod.mk.inj h).2).symm
  | lost e => cases (Prod.mk.inj h).2
  | answerLost e => cases (Prod.mk.inj h).2

/-- What a transaction leaves is what was there before, or what it writes. -/
theorem transact_stores {α : Type} (fault : Fault) (s s' : Stores) (result : α) :
    (transact fault s s' result).1 = s ∨ (transact fault s s' result).1 = s' := by
  cases fault with
  | lost e => exact Or.inl rfl
  | _ => exact Or.inr rfl

variable [PyText] {faults : Faults} {position : Position} {message : Dict} {s s' : Stores}
  {r : SilverRecord}

/-- The Silver row was made of the message, by way of its Bronze row. -/
structure MadeOf (s : Stores) (position : Position) (message : Dict) (r : SilverRecord) : Prop where
  accepted : accepts message = true
  key : silverKey message = some r.idempotencyKey
  bronze : ∃ b ∈ s.bronze.rows, b.position = position ∧ b.id = r.bronzeIngestionId

theorem madeOf_grows (hgrows : Grows s s') (h : MadeOf s position message r) :
    MadeOf s' position message r := by
  rcases h.bronze with ⟨b, hb, hposition, hid⟩
  exact ⟨h.accepted, h.key, b, hgrows.bronze b hb, hposition, hid⟩

omit [PyText] in
/-- The write to Bronze leaves Silver alone, and its id is that of the row of
    the position. -/
theorem writeBronzeParquet_spec {fault : Fault} {pspName : String} {contentHash : Json}
    {kafkaMessage : Dict} {outcome : Except ProcessError Nat}
    (h : writeBronzeParquet fault position pspName contentHash kafkaMessage s = (s', outcome)) :
    s'.silver = s.silver ∧
      ∀ id, outcome = .ok id → ∃ b ∈ s'.bronze.rows, b.position = position ∧ b.id = id := by
  constructor
  · have hstores : (writeBronzeParquet fault position pspName contentHash kafkaMessage s).1.silver
        = s.silver := by
      rcases transact_stores fault s _ _ with hold | hnew
      · exact congrArg Stores.silver hold
      · exact (congrArg Stores.silver hnew).trans rfl
    rw [h] at hstores
    exact hstores
  · rintro id rfl
    have hstores := transact_ok h
    have hid := transact_result h
    rcases UniqueTable.insertOrFind_row s.bronze
      { id := s.nextId
        position := position
        pspName := pspName
        sourceType := kafkaMessage.get "source_type" (.str "webhook")
        contentHash := contentHash } with ⟨hmem, hposition⟩
    rw [hstores, hid]
    exact ⟨_, hmem, hposition, rfl⟩

/-- A new Silver row has the key the normaliser computes. -/
theorem mem_normaliseToSilver {pspName : String} {payload : Dict} {bronzeIngestionId : Nat}
    (h : r ∈ (normaliseToSilver faults pspName payload bronzeIngestionId s).1.silver.rows) :
    r ∈ s.silver.rows ∨ r.bronzeIngestionId = bronzeIngestionId ∧
      ∃ normaliser, Normaliser.normalisers.lookup pspName = some normaliser ∧
        normaliser payload = .ok r.idempotencyKey := by
  unfold normaliseToSilver at h
  split at h
  · exact Or.inl h
  · next normaliser hlookup =>
      split at h
      · exact Or.inl h
      · exact Or.inl h
      · next key _ hkey =>
          rcases transact_stores faults.silver s _ _ with hsame | hnew
          · rw [hsame] at h
            exact Or.inl h
          · rw [hnew] at h
            rcases UniqueTable.mem_insertOrFind h with rfl | hold
            · exact Or.inr ⟨rfl, normaliser, hlookup, hkey⟩
            · exact Or.inl hold

/-- A Silver row that is there after an attempt was there before, or has been
    made of the message. -/
theorem mem_processKafkaMessage
    (h : r ∈ (processKafkaMessage faults position message s).1.silver.rows) :
    r ∈ s.silver.rows ∨
      MadeOf (processKafkaMessage faults position message s).1 position message r := by
  unfold processKafkaMessage at h ⊢
  split at h
  · next psp event payloadJson contentHash hpsp hevent hpayload _ =>
      split at h
      · exact Or.inl h
      · next payload hdict =>
          simp only [] at h ⊢
          -- What is new in Silver then is of the write after the one to Bronze.
          split at h
          · next s₁ e hbronze =>
              rw [(writeBronzeParquet_spec hbronze).1] at h
              exact Or.inl h
          · next s₁ id hbronze =>
              rcases writeBronzeParquet_spec hbronze with ⟨hsilver, hrow⟩
              split at h
              · next hprocess =>
                  rw [if_pos hprocess]
                  have hstep : r ∈
                      (normaliseToSilver faults psp.toStr payload id s₁).1.silver.rows := by
                    split at h
                    · next s₂ e heq =>
                        rw [heq]
                        exact h
                    · next s₂ silverId isNew heq =>
                        rw [heq]
                        exact h
                  have hgrows : Grows s₁ (normaliseToSilver faults psp.toStr payload id s₁).1 :=
                    normaliseToSilver_grows
                  rcases mem_normaliseToSilver hstep with hold | ⟨hid, normaliser, hlookup, hkey⟩
                  · rw [hsilver] at hold
                    exact Or.inl hold
                  · rcases hrow id rfl with ⟨b, hb, hposition, hbid⟩
                    have hmade : MadeOf (normaliseToSilver faults psp.toStr payload id s₁).1
                        position message r := by
                      refine ⟨?_, ?_, b, hgrows.bronze b hb, hposition, hbid.trans hid.symm⟩
                      · simp only [accepts, hpsp, hevent, hpayload, Option.bind_some, hdict,
                          hprocess]
                      · simp only [silverKey, hpsp, hpayload, Option.bind_some, hdict, hlookup,
                          hkey]
                        rfl
                    split
                    · next s₂ e heq =>
                        rw [heq] at hmade
                        exact Or.inr hmade
                    · next s₂ silverId isNew heq =>
                        rw [heq] at hmade
                        exact Or.inr hmade
              · rw [hsilver] at h
                exact Or.inl h
  · exact Or.inl h

end Transform

namespace Consumer

open Transform

variable [PyText]

/-- What `_handle` adds to Silver has been made of the message. -/
theorem mem_handle {faults : Faults} {position : Position} {record : Record}
    {attempts attempts' : Position → Nat} {stores stores' : Stores} {stage : Stage}
    (h : handle faults position record attempts stores = (stores', attempts', stage))
    {r : SilverRecord} (hr : r ∈ stores'.silver.rows) :
    r ∈ stores.silver.rows ∨
      ∃ value, record.value = some value ∧
        MadeOf stores' position (kafkaMessage position value) r := by
  unfold handle at h
  cases hvalue : record.value with
  | none =>
      rw [hvalue] at h
      rw [← (Prod.mk.inj h).1] at hr
      exact Or.inl hr
  | some value =>
      rw [hvalue] at h
      -- Whatever comes next, the stores are those the attempt leaves.
      have hstores : stores'
          = (processKafkaMessage faults position (kafkaMessage position value) stores).1 := by
        simp only [] at h
        split at h
        · next heq => rw [heq, ← (Prod.mk.inj h).1]
        · next heq => rw [heq, ← (Prod.mk.inj h).1]
        · next heq => rw [heq, ← (Prod.mk.inj h).1]
      rw [hstores] at hr ⊢
      exact (mem_processKafkaMessage hr).imp_right fun hmade => ⟨value, rfl, hmade⟩

/-- What a step adds to Silver has been made of a message of the log. -/
theorem mem_silver_step {s s' : System} (h : Step s s') {r : SilverRecord}
    (hr : r ∈ s'.stores.silver.rows) :
    r ∈ s.stores.silver.rows ∨
      ∃ position record value, (s.log position.partition)[position.offset]? = some record ∧
        record.value = some value ∧ MadeOf s'.stores position (kafkaMessage position value) r := by
  cases h with
  | handled w position record faults stores attempts stage hw hstage hrecord hresult =>
      rcases mem_handle hresult hr with hold | ⟨value, hvalue, hmade⟩
      · exact Or.inl hold
      · exact Or.inr ⟨position, record, value, hrecord, hvalue, hmade⟩
  | _ => exact Or.inl hr

/-- A step only adds rows. -/
theorem grows_step {s s' : System} (h : Step s s') : Grows s.stores s'.stores := by
  cases h with
  | handled w position record faults stores attempts stage hw hstage hrecord hresult =>
      exact (handle_spec hresult).1
  | _ => exact grows_refl _

end Consumer

end MmrEngine
