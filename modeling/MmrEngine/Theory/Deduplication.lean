import MmrEngine.Engine.Normaliser

/-!
# What Deduplication Swallows

When two events share an idempotency key, and when that loses an outcome.

`ingest_event` keeps the first event of a key and answers the second one
without storing it. That is harmless exactly when the two report the same
thing. The key is built from the PSP, the reference and the event name; the
classifier also reads `data.status`, compares the event name case-sensitively
and wants `data` to be an object. `SameReport` is the condition under which the
difference does not show: neither event is on the allow-list, or both are and,
for Flutterwave, their statuses are in one group.

The direction that takes an argument is that two modelled events of one key
are of one PSP and one event name. References may contain colons, so the key
is taken apart from both ends (`Idempotency.key_split`), which needs that the
names of the vocabularies contain none.

## Main definitions

* `PspEvent`: One event as `ingest_event` receives it.
* `SameDisposition`: Two dispositions agree in everything but the reason.
* `SameReport`: Two events are both unmodelled, or both modelled with one
  outcome.

## Theorems

* `modelled_names`: The names of a modelled event are plain and colon-free.
* `modelled_of_same_key`: Modelled events of one key share PSP and event name.
* `dedup_keeps_outcome_iff`: Exactly when a shared key is harmless.
* `dedup_swallows_charge_outcome`: A charge that succeeds on retry is swallowed.
-/

namespace MmrEngine

namespace Deduplication

open Normaliser

/-- One event as `ingest_event` receives it. -/
structure PspEvent where
  pspName : String
  eventType : String
  payload : Dict
  contentHash : String

section

variable [PyText]

def PspEvent.key (e : PspEvent) : Except PyError String :=
  Idempotency.ingestKey e.pspName e.eventType e.payload e.contentHash

def PspEvent.disposition (e : PspEvent) : EventDisposition :=
  classifyEvent e.pspName e.eventType e.payload

def PspEvent.Modelled (e : PspEvent) : Prop :=
  Normaliser.Modelled e.pspName e.eventType e.payload

end

/-- Agreement on the process flag, the transaction type and the settlement
    status; the reason is for the log. -/
def SameDisposition (d d' : EventDisposition) : Prop :=
  d.process = d'.process ∧ d.transactionType = d'.transactionType ∧
    d.settlementStatus = d'.settlementStatus

theorem settlement_injective {g g' : Option StatusGroup}
    (h : g.map StatusGroup.settlement = g'.map StatusGroup.settlement) : g = g' := by
  rcases g with _ | g <;> rcases g' with _ | g'
  · rfl
  · simp only [Option.map_none, Option.map_some, reduceCtorEq] at h
  · simp only [Option.map_none, Option.map_some, reduceCtorEq] at h
  · cases g <;> cases g' <;> first | rfl | exact absurd h (by decide)

section

variable [PyText]

/-- The outcome-relevant content agrees: neither event is on the allow-list,
    or both are and a Flutterwave pair reports one status group. -/
def SameReport (e e' : PspEvent) : Prop :=
  (¬ e.Modelled ∧ ¬ e'.Modelled) ∨
    (e.Modelled ∧ e'.Modelled ∧
      (e.pspName = "flutterwave" → reportedGroup e.payload = reportedGroup e'.payload))

theorem modelled_names {e : PspEvent} (h : e.Modelled) :
    plain e.pspName = true ∧ ':' ∉ e.pspName.toList ∧
      plain e.eventType = true ∧ ':' ∉ e.eventType.toList := by
  rcases h with ⟨_, _, ⟨hp, he⟩ | ⟨hp, he⟩⟩
  · rw [hp]
    rcases he with he | he | he | he <;> rw [he] <;> decide
  · rw [hp]
    rcases he with ⟨he, _⟩ | ⟨he, _⟩ <;> rw [he] <;> decide

/-- Two modelled events of one key are of one PSP and one event name. -/
theorem modelled_of_same_key {e e' : PspEvent} {k : String} (h : e.Modelled) (h' : e'.Modelled)
    (hk : e.key = .ok k) (hk' : e'.key = .ok k) :
    e.pspName = e'.pspName ∧ e.eventType = e'.eventType := by
  rcases modelled_names h with ⟨hp, hpc, he, hec⟩
  rcases modelled_names h' with ⟨hp', hpc', he', hec'⟩
  rcases Idempotency.ingestKey_ok hk with ⟨ref, href⟩
  rcases Idempotency.ingestKey_ok hk' with ⟨ref', href'⟩
  rw [Idempotency.buildIdempotencyKey_plain hp he] at href
  rw [Idempotency.buildIdempotencyKey_plain hp' he'] at href'
  have hsplit := Idempotency.key_split hpc hpc' hec hec' (href.symm.trans href')
  exact ⟨hsplit.1, hsplit.2.2⟩

/-- Same report, same disposition, once the two share a key. -/
theorem same_disposition_of_same_report {e e' : PspEvent} {k : String} (hk : e.key = .ok k)
    (hk' : e'.key = .ok k) (h : SameReport e e') :
    SameDisposition e.disposition e'.disposition := by
  rcases h with ⟨hn, hn'⟩ | ⟨hm, hm', hgroup⟩
  · rcases classifyEvent_rejected hn with ⟨h1, h2, h3⟩
    rcases classifyEvent_rejected hn' with ⟨h1', h2', h3'⟩
    exact ⟨h1.trans h1'.symm, h2.trans h2'.symm, h3.trans h3'.symm⟩
  · rcases modelled_of_same_key hm hm' hk hk' with ⟨hpsp, hev⟩
    unfold PspEvent.Modelled at hm hm'
    unfold PspEvent.disposition
    rw [← hpsp, ← hev] at hm' ⊢
    rcases hm with ⟨data, hdata, ⟨hps, hname⟩ | ⟨hfw, hname⟩⟩
    · -- Paystack: the event name decides everything.
      rw [hps] at hm' ⊢
      rw [classifyEvent_paystack ⟨data, hdata, Or.inl ⟨rfl, hname⟩⟩ hm']
      exact ⟨rfl, rfl, rfl⟩
    · -- Flutterwave: the settlement comes from the status group.
      have hg := hgroup hfw
      rw [hfw] at hm' ⊢
      rw [classifyEvent_flutterwave ⟨data, hdata, Or.inr ⟨rfl, hname⟩⟩,
        classifyEvent_flutterwave hm', hg]
      exact ⟨rfl, rfl, rfl⟩

/-- Different reports show in the disposition. -/
theorem same_report_of_same_disposition {e e' : PspEvent} {k : String} (hk : e.key = .ok k)
    (hk' : e'.key = .ok k) (h : SameDisposition e.disposition e'.disposition) :
    SameReport e e' := by
  rcases h with ⟨hproc, _, hstatus⟩
  have hiff : e.Modelled ↔ e'.Modelled := by
    unfold PspEvent.Modelled
    rw [← classifyEvent_process, ← classifyEvent_process]
    unfold PspEvent.disposition at hproc
    rw [hproc]
  by_cases hm : e.Modelled
  · have hm' := hiff.mp hm
    refine Or.inr ⟨hm, hm', fun hfw => ?_⟩
    have hfw' : e'.pspName = "flutterwave" := (modelled_of_same_key hm hm' hk hk').1 ▸ hfw
    unfold PspEvent.disposition at hstatus
    unfold PspEvent.Modelled at hm hm'
    rw [hfw] at hm hstatus
    rw [hfw'] at hm' hstatus
    rw [classifyEvent_flutterwave hm, classifyEvent_flutterwave hm'] at hstatus
    exact settlement_injective hstatus
  · exact Or.inl ⟨hm, fun hm' => hm (hiff.mpr hm')⟩

/-- A shared key is harmless exactly when the two events report the same. -/
theorem dedup_keeps_outcome_iff (e e' : PspEvent) :
    (∀ k, e.key = .ok k → e'.key = .ok k → SameDisposition e.disposition e'.disposition) ↔
      ((∀ k, e.key = .ok k → e'.key ≠ .ok k) ∨ SameReport e e') := by
  constructor
  · intro h
    by_cases hsame : ∃ k, e.key = .ok k ∧ e'.key = .ok k
    · rcases hsame with ⟨k, hk, hk'⟩
      exact Or.inr (same_report_of_same_disposition hk hk' (h k hk hk'))
    · exact Or.inl fun k hk hk' => hsame ⟨k, hk, hk'⟩
  · intro h k hk hk'
    rcases h with hne | hsame
    · exact absurd hk' (hne k hk)
    · exact same_disposition_of_same_report hk hk' hsame

end

/-- A Flutterwave charge with the given status. -/
def chargeEvent (status : String) : PspEvent where
  pspName := "flutterwave"
  eventType := "charge.completed"
  payload := [("event", .str "charge.completed"),
    ("data", .obj [("tx_ref", .str "ORD-1"), ("status", .str status)])]
  contentHash := "00"

/-- A charge reported failed and then, under the same `tx_ref`, successful: one
    key, and the second event, which alone moves money, is never stored. -/
theorem dedup_swallows_charge_outcome :
    ¬ ∀ (_ : PyText) (e e' : PspEvent) (k : String), e.key = .ok k → e'.key = .ok k →
      SameDisposition e.disposition e'.disposition := by
  intro h
  let text := asciiText
  have hk : (chargeEvent "failed").key = .ok "flutterwave:ORD-1:charge.completed" := by decide
  have hk' : (chargeEvent "successful").key = .ok "flutterwave:ORD-1:charge.completed" := by
    decide
  have hsame := (h text _ _ _ hk hk').1
  exact absurd hsame (by decide)

end Deduplication

end MmrEngine
