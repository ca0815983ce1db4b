import MmrEngine.Core.Json
import MmrEngine.Lib.Framing

/-!
# Idempotency Keys

The key an event is deduplicated on, `psp:reference:event`, and the reference
it is built from.

`ingest_event` takes the reference out of the raw payload with
`extract_transaction_ref`, falling back to the content hash when the PSP sent
none. The PSP name and the event type are lowered and stripped, the reference
only stripped. `data.status` plays no part, which is the fact everything about
lost outcomes turns on.

Two keys of the vocabulary can be told apart from the outside in: the PSP name
is a prefix without a colon, the event type a suffix without one, and whatever
colons the reference brings stay in between. `key_split` is that argument.

## Main definitions

* `buildIdempotencyKey`: The canonical key.
* `extractTransactionRef`: The PSP's own reference for an event.
* `ingestKey`: The key `ingest_event` registers for its arguments.

## Theorems

* `key_split`: A key determines its colon-free first and last components.
* `buildIdempotencyKey_plain`: A key of plain components, spelled out.
-/

namespace MmrEngine

namespace Idempotency

variable [PyText]

def buildIdempotencyKey (pspName pspTransactionRef eventType : String) : String :=
  strip (PyText.lower pspName) ++ ":" ++ strip pspTransactionRef ++ ":" ++
    strip (PyText.lower eventType)

/-- `sha256-` and the first 32 characters of the content hash, for events
    without a reference. -/
def hashRef (contentHash : String) : String :=
  "sha256-" ++ String.ofList (contentHash.toList.take 32)

def extractTransactionRef (pspName : String) (rawPayload : Dict) (contentHash : String) :
    Except PyError String := do
  let data := (rawPayload.get "data" .null).orElse (.obj [])
  let ref : Json ←
    if pspName = "paystack" then
      data.attr "reference"
    else if pspName = "flutterwave" then do
      let txRef ← data.attr "tx_ref"
      if txRef.truthy then pure txRef else data.attr "reference"
    else
      -- No other PSP has a reference the engine knows how to read.
      pure .null
  return if ref.truthy then ref.toStr else hashRef contentHash

/-- The key `ingest_event` registers: `extract_transaction_ref`, then
    `build_idempotency_key`. -/
def ingestKey (pspName eventType : String) (rawPayload : Dict) (contentHash : String) :
    Except PyError String := do
  let ref ← extractTransactionRef pspName rawPayload contentHash
  return buildIdempotencyKey pspName ref eventType

theorem ingestKey_ref {pspName eventType : String} {rawPayload : Dict} {contentHash k : String}
    (h : ingestKey pspName eventType rawPayload contentHash = .ok k) :
    ∃ ref, extractTransactionRef pspName rawPayload contentHash = .ok ref ∧
      k = buildIdempotencyKey pspName ref eventType := by
  unfold ingestKey at h
  cases href : extractTransactionRef pspName rawPayload contentHash with
  | error e =>
      rw [href] at h
      cases h
  | ok ref =>
      rw [href] at h
      exact ⟨ref, rfl, (Except.ok.inj h).symm⟩

theorem ingestKey_ok {pspName eventType : String} {rawPayload : Dict} {contentHash k : String}
    (h : ingestKey pspName eventType rawPayload contentHash = .ok k) :
    ∃ ref, k = buildIdempotencyKey pspName ref eventType := by
  rcases ingestKey_ref h with ⟨ref, _, hkey⟩
  exact ⟨ref, hkey⟩

theorem buildIdempotencyKey_plain {p e : String} (hp : plain p = true) (he : plain e = true)
    (ref : String) : buildIdempotencyKey p ref e = p ++ ":" ++ strip ref ++ ":" ++ e := by
  unfold buildIdempotencyKey
  rw [strip_lower_plain hp, strip_lower_plain he]

omit [PyText] in
/-- Two colon-separated texts with colon-free first and last components agree
    in all three, whatever colons the middle holds. -/
theorem key_split {p p' r r' e e' : String} (hp : ':' ∉ p.toList) (hp' : ':' ∉ p'.toList)
    (he : ':' ∉ e.toList) (he' : ':' ∉ e'.toList)
    (h : p ++ ":" ++ r ++ ":" ++ e = p' ++ ":" ++ r' ++ ":" ++ e') :
    p = p' ∧ r = r' ∧ e = e' := by
  have hl := congrArg String.toList h
  simp only [String.toList_append, List.append_assoc] at hl
  have hcolon : (":" : String).toList = [':'] := rfl
  rw [hcolon] at hl
  simp only [List.cons_append, List.nil_append] at hl
  rcases Framing.head_of_separator hp hp' hl with ⟨hpp, hrest⟩
  -- The last component is what follows the last colon of the rest.
  rcases Framing.tail_of_separator he he' hrest with ⟨hrr, hee⟩
  exact ⟨String.toList_inj.mp hpp, String.toList_inj.mp hrr, String.toList_inj.mp hee⟩

end Idempotency

end MmrEngine
