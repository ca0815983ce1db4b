import MmrEngine.Theory.Acknowledgement

/-!
# The Components of a Key

What an idempotency key says about the event it was built for.

A key is three components and two colons, and the reference in the middle may
bring colons of its own. The two names around it bring none: lowering produces
no colon and stripping only takes characters away, so a name without a colon
has none after normalisation either. That makes the key a framed text, and the
components can be read off from its two ends (`Framed.write_injective`). Two
keys are then equal only if all three components are.

Nothing is asked of the reference. Something has to be asked of the names: an
event name with a colon can pass for the end of a reference.

The last two theorems are about the calls of `ingest_event`. The keys of two
calls that have returned are equal exactly if they were for the same event, and
of all calls for one event only one can have been answered as new. What is one
event goes by what `extract_transaction_ref` returns: where the PSP sent no
reference that is a text made of the content hash, which another hash with the
same beginning or a reference of that very text would make too.

## Main definitions

* `normalName`: A PSP name or an event name as it stands in a key.
* `components`: The components of a key, as a framed text.
* `SameEvent`: Two calls are for one event, as far as the key goes.

## Theorems

* `buildIdempotencyKey_toList`: The key is its components, written.
* `same_key_iff`: Keys are equal exactly if the components are.
* `buildIdempotencyKey_eq_iff`: The same, component by component.
* `returned_key_eq_iff`: When two calls have returned the same key.
* `new_events_differ`: Calls answered as new were for different events.
-/

namespace MmrEngine

namespace Idempotency

open Framing

section Components

variable [PyText]

def normalName (name : String) : String := strip (PyText.lower name)

theorem colon_not_mem_normalName {name : String} (h : ':' ∉ name.toList) :
    ':' ∉ (normalName name).toList := by
  intro hc
  exact PyText.lower_colon name h (mem_of_mem_strip hc)

/-- The components of a key. Only the names have to be free of colons. -/
def components (pspName pspTransactionRef eventType : String) (hpsp : ':' ∉ pspName.toList)
    (hevent : ':' ∉ eventType.toList) : Framed ':' where
  head := (normalName pspName).toList
  body := (strip pspTransactionRef).toList
  tail := (normalName eventType).toList
  head_free := colon_not_mem_normalName hpsp
  tail_free := colon_not_mem_normalName hevent

variable {p₁ r₁ e₁ p₂ r₂ e₂ : String} (hp₁ : ':' ∉ p₁.toList) (he₁ : ':' ∉ e₁.toList)
  (hp₂ : ':' ∉ p₂.toList) (he₂ : ':' ∉ e₂.toList)

theorem components_eq_iff : components p₁ r₁ e₁ hp₁ he₁ = components p₂ r₂ e₂ hp₂ he₂ ↔
    normalName p₁ = normalName p₂ ∧ strip r₁ = strip r₂ ∧ normalName e₁ = normalName e₂ := by
  rw [Framed.ext_iff]
  simp only [components, String.toList_inj]

theorem buildIdempotencyKey_toList :
    (buildIdempotencyKey p₁ r₁ e₁).toList = (components p₁ r₁ e₁ hp₁ he₁).write := by
  have hcolon : (":" : String).toList = [':'] := rfl
  simp only [buildIdempotencyKey, components, normalName, Framed.write, String.toList_append,
    hcolon, List.append_assoc, List.cons_append, List.nil_append]

theorem same_key_iff : buildIdempotencyKey p₁ r₁ e₁ = buildIdempotencyKey p₂ r₂ e₂ ↔
    components p₁ r₁ e₁ hp₁ he₁ = components p₂ r₂ e₂ hp₂ he₂ := by
  rw [← String.toList_inj, buildIdempotencyKey_toList hp₁ he₁, buildIdempotencyKey_toList hp₂ he₂]
  exact Framed.write_injective.eq_iff

/-- For names without a colon and any references: two keys are equal exactly if
    the PSP names agree after lowering and stripping, the references after
    stripping, and the event names after lowering and stripping. -/
theorem buildIdempotencyKey_eq_iff {p₁ r₁ e₁ p₂ r₂ e₂ : String}
    (hp₁ : ':' ∉ p₁.toList) (he₁ : ':' ∉ e₁.toList)
    (hp₂ : ':' ∉ p₂.toList) (he₂ : ':' ∉ e₂.toList) :
    buildIdempotencyKey p₁ r₁ e₁ = buildIdempotencyKey p₂ r₂ e₂ ↔
      strip (PyText.lower p₁) = strip (PyText.lower p₂) ∧ strip r₁ = strip r₂ ∧
        strip (PyText.lower e₁) = strip (PyText.lower e₂) := by
  rw [same_key_iff hp₁ he₁ hp₂ he₂]
  exact components_eq_iff hp₁ he₁ hp₂ he₂

end Components

/-- A reference with a colon: written with other capitals and more whitespace
    around it, it has the same key, and a reference that is its beginning has
    another one. -/
theorem buildIdempotencyKey_eq_iff_colon : letI := asciiText
    buildIdempotencyKey " PAYSTACK" "T1:refund " "Charge.Success" =
        buildIdempotencyKey "paystack" "T1:refund" "charge.success" ∧
      buildIdempotencyKey "paystack" "T1:refund" "charge.success" ≠
        buildIdempotencyKey "paystack" "T1" "charge.success" := by
  let := asciiText
  constructor
  · exact (buildIdempotencyKey_eq_iff (by decide) (by decide) (by decide) (by decide)).mpr
      (by decide +kernel)
  · intro h
    have hsplit := (buildIdempotencyKey_eq_iff (by decide) (by decide) (by decide)
      (by decide)).mp h
    exact absurd hsplit.2.1 (by decide)

/-- Without the condition on the names the end of a reference can be the
    beginning of an event name. -/
example : letI := asciiText
    buildIdempotencyKey "paystack" "T1:refund" "done" =
      buildIdempotencyKey "paystack" "T1" "refund:done" := by decide

end Idempotency

namespace Ingestion

open Idempotency

section Calls

variable [PyText] {process : Nat → Nat} {topics : Topics}

/-- Two calls are for one event, as far as the key goes: PSP name and event name
    are the same up to normalisation, and so is what is extracted as the
    reference, which is `hashRef` of the content hash where there is none. -/
def SameEvent (e e' : IngestArgs) : Prop :=
  normalName e.pspName = normalName e'.pspName ∧
    (extractTransactionRef e.pspName e.rawPayload e.contentHash).map strip =
      (extractTransactionRef e'.pspName e'.rawPayload e'.contentHash).map strip ∧
    normalName e.eventType = normalName e'.eventType

theorem sameEvent_iff {e e' : IngestArgs} {ref ref' : String}
    (href : extractTransactionRef e.pspName e.rawPayload e.contentHash = .ok ref)
    (href' : extractTransactionRef e'.pspName e'.rawPayload e'.contentHash = .ok ref') :
    SameEvent e e' ↔ normalName e.pspName = normalName e'.pspName ∧ strip ref = strip ref' ∧
      normalName e.eventType = normalName e'.eventType := by
  unfold SameEvent
  rw [href, href']
  simp only [Except.map, Except.ok.injEq]

omit [PyText] in
/-- Two commits that inserted one key are one commit. -/
theorem eq_of_new {commits : List Registration} {key : String} {row : Option KeyRow}
    (hcount : KeyCount commits key row) {m m' : Registration} (hm : m ∈ commits)
    (hm' : m' ∈ commits) (hkey : m.key = key) (hkey' : m'.key = key) (hnew : m.isNew = true)
    (hnew' : m'.isNew = true) : m = m' := by
  have hin : m ∈ (keyCommits commits key).filter Registration.isNew :=
    List.mem_filter.mpr ⟨List.mem_filter.mpr ⟨hm, decide_eq_true hkey⟩, hnew⟩
  have hin' : m' ∈ (keyCommits commits key).filter Registration.isNew :=
    List.mem_filter.mpr ⟨List.mem_filter.mpr ⟨hm', decide_eq_true hkey'⟩, hnew'⟩
  cases row with
  | none =>
      -- A key without a row has no commits.
      have hnil : keyCommits commits key = [] := hcount
      rw [hnil] at hin
      cases hin
  | some r =>
      rcases List.length_eq_one_iff.mp hcount.2 with ⟨only, honly⟩
      rw [honly, List.mem_singleton] at hin hin'
      rw [hin, hin']

variable {w : World} {c c' : Nat} {e e' : IngestArgs} {reply reply' : Reply}

/-- In every reachable world: the keys of two calls that have returned, for
    names without a colon, are equal exactly if the calls were for one event, by
    PSP name, extracted reference and event name. -/
theorem returned_key_eq_iff (h : Transition.Reachable Initial (Step process topics) w)
    (hc : w.calls c = .returned e reply) (hc' : w.calls c' = .returned e' reply')
    (hp : ':' ∉ e.pspName.toList) (he : ':' ∉ e.eventType.toList)
    (hp' : ':' ∉ e'.pspName.toList) (he' : ':' ∉ e'.eventType.toList) :
    reply.idempotencyKey = reply'.idempotencyKey ↔ SameEvent e e' := by
  have hcalls := (inv_of_reachable h).2
  rcases ingestKey_ref (hcalls.returned c e reply hc) with ⟨ref, href, hkey⟩
  rcases ingestKey_ref (hcalls.returned c' e' reply' hc') with ⟨ref', href', hkey'⟩
  rw [sameEvent_iff href href', hkey, hkey', same_key_iff hp he hp' he']
  exact components_eq_iff hp he hp' he'

/-- In every reachable world: of the calls for one event, only one has been
    answered as new. -/
theorem new_events_differ (h : Transition.Reachable Initial (Step process topics) w)
    (hc : w.calls c = .returned e reply) (hc' : w.calls c' = .returned e' reply')
    (hnew : reply.isNew = true) (hnew' : reply'.isNew = true) (hne : c ≠ c') :
    ¬ SameEvent e e' := by
  intro hsame
  rcases inv_of_reachable h with ⟨hkeys, hcalls⟩
  rcases ingestKey_ref (hcalls.returned c e reply hc) with ⟨ref, href, hkey⟩
  rcases ingestKey_ref (hcalls.returned c' e' reply' hc') with ⟨ref', href', hkey'⟩
  rcases (sameEvent_iff href href').mp hsame with ⟨hpsp, hreference, hevent⟩
  have hequal : reply'.idempotencyKey = reply.idempotencyKey := by
    unfold normalName at hpsp hevent
    rw [hkey, hkey', buildIdempotencyKey, buildIdempotencyKey, hpsp, hreference, hevent]
  have hsecond := hkeys.returned c' e' reply' hc'
  rw [hequal] at hsecond
  -- Both calls have inserted the key, which one commit of a key does.
  have heq := eq_of_new (hkeys.count reply.idempotencyKey) (hkeys.returned c e reply hc) hsecond
    rfl rfl hnew hnew'
  exact hne (congrArg Registration.call heq)

end Calls

section Exhibit

/-- Another successful charge. -/
def otherCharge : IngestArgs where
  pspName := "paystack"
  eventType := "charge.success"
  rawPayload := [("data", .obj [("reference", .str "T1:refund")])]
  contentHash := "h"
  receivedAt := "t"

/-- Two charges have been recorded, each of them new. -/
theorem two_charges_run : letI := asciiText
    ∃ (w : World) (reply reply' : Reply),
      Transition.Reachable Initial (Step (fun _ => 0) exhibitTopics) w ∧
      w.calls 0 = .returned chargeSuccess reply ∧ w.calls 1 = .returned otherCharge reply' ∧
      reply.isNew = true ∧ reply'.isNew = true := by
  let text := asciiText
  have hkey : ingestKey chargeSuccess.pspName chargeSuccess.eventType chargeSuccess.rawPayload
      chargeSuccess.contentHash = .ok "paystack:T1:charge.success" := by decide
  have hkey' : ingestKey otherCharge.pspName otherCharge.eventType otherCharge.rawPayload
      otherCharge.contentHash = .ok "paystack:T1:refund:charge.success" := by decide
  have h0 : Transition.Reachable Initial (Step (fun _ => 0) exhibitTopics) emptyWorld :=
    Transition.reachable_of_init ⟨rfl, fun _ => rfl, fun _ => rfl, fun _ => rfl, rfl, rfl⟩
  have h1 := Transition.reachable_step h0 (Step.begin _ 0 chargeSuccess _ rfl hkey)
  have h2 := Transition.reachable_step h1
    (Step.registerNew _ 0 _ _ 0 rfl (fun _ _ h => by cases h) rfl)
  have h3 := Transition.reachable_step h2 (Step.produce _ 0 _ _ _ rfl)
  have h4 := Transition.reachable_step h3 (Step.brokerStores _ 0 _ rfl rfl)
  have h5 := Transition.reachable_step h4 (Step.delivered _ 0 _ List.mem_cons_self rfl rfl)
  have h6 := Transition.reachable_step h5 (Step.published _ 0 _ _ _ _ rfl rfl rfl)
  have h7 := Transition.reachable_step h6 (Step.commitReturns _ 0 _ _ _ rfl)
  have h8 := Transition.reachable_step h7 (Step.begin _ 1 otherCharge _ rfl hkey')
  have h9 := Transition.reachable_step h8
    (Step.registerNew _ 1 _ _ 1 rfl (fun _ _ h => by cases h) rfl)
  have h10 := Transition.reachable_step h9 (Step.produce _ 1 _ _ _ rfl)
  have h11 := Transition.reachable_step h10 (Step.brokerStores _ 1 _ rfl rfl)
  have h12 := Transition.reachable_step h11 (Step.delivered _ 1 _ List.mem_cons_self rfl rfl)
  have h13 := Transition.reachable_step h12 (Step.published _ 1 _ _ _ _ rfl rfl rfl)
  have h14 := Transition.reachable_step h13 (Step.commitReturns _ 1 _ _ _ rfl)
  exact ⟨_, _, _, h14, rfl, rfl, rfl, rfl⟩

/-- The reference of one charge is the beginning of the other's. -/
theorem returned_key_eq_iff_charges : letI := asciiText
    ∃ (w : World) (reply reply' : Reply),
      Transition.Reachable Initial (Step (fun _ => 0) exhibitTopics) w ∧
      (reply.idempotencyKey = reply'.idempotencyKey ↔ SameEvent chargeSuccess otherCharge) := by
  let text := asciiText
  rcases two_charges_run with ⟨w, reply, reply', h, hc, hc', -, -⟩
  exact ⟨w, reply, reply', h,
    returned_key_eq_iff h hc hc' (by decide) (by decide) (by decide) (by decide)⟩

theorem new_events_differ_charges : letI := asciiText
    ∃ w : World, Transition.Reachable Initial (Step (fun _ => 0) exhibitTopics) w ∧
      ¬ SameEvent chargeSuccess otherCharge := by
  let text := asciiText
  rcases two_charges_run with ⟨w, _, _, h, hc, hc', hnew, hnew'⟩
  exact ⟨w, h, new_events_differ h hc hc' hnew hnew' (by decide)⟩

end Exhibit

end Ingestion

end MmrEngine
