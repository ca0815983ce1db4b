import MmrEngine.Theory.ReferenceExtraction

/-!
# Which Malformed Payloads Fail Permanently

When everything a normaliser raises is a `PermanentEventError`.

A normaliser is a sequence of steps, and what a later step would raise does not
show if an earlier one fails. `OnlyPermanent` is the property of one step and
`onlyPermanent_bind` how it composes: the first step fails permanently only,
and so does the rest after whatever it succeeds with. So the condition below is
nested the way the steps follow each other.

What it asks is about the shapes of the payload. A value that is asked for a
field has to be an object unless it is falsy, a name or account that is masked
has to be a text or null, an amount has to fit a `Decimal` and its conversion,
and a timestamp has to stay a `datetime` in UTC. None of this is checked by the
normalisers.

## Main definitions

* `OnlyPermanent`: Everything raised is a `PermanentEventError`.
* `ObjectOrFalsy`, `TextOrFalsy`, `TextOrNull`: The shapes of a value.
* `PartyReadable`, `PartyMaskable`: The shapes of the counterparty's fields.
* `ConversionFits`, `TimestampFits`: The values that have a result.
* `PayloadSound`: The condition on the payload.

## Theorems

* `onlyPermanent_bind`: How the property composes.
* `onlyPermanent_toNgn`, `onlyPermanent_parseTimestamp`,
  `onlyPermanent_canonicalRecord`: The steps.
* `recordSteps_onlyPermanent`: The steps both normalisers share.
* `malformed_payload_permanent_iff`: The normalisers.
-/

namespace MmrEngine

namespace Canonical

open Webhooks

/-- Everything raised is a `PermanentEventError`. -/
def OnlyPermanent {β : Type} (r : Except EventError β) : Prop :=
  ∀ e, r = .error e → e.isPermanent = true

theorem onlyPermanent_ok {β : Type} (b : β) : OnlyPermanent (.ok b : Except EventError β) :=
  fun _ h => by cases h

theorem onlyPermanent_permanent {β : Type} (message : String) :
    OnlyPermanent (permanent message : Except EventError β) := by
  intro e h
  cases h
  rfl

theorem ok_bind {ε α β : Type} (a : α) (f : α → Except ε β) : Except.ok a >>= f = f a := rfl

theorem onlyPermanent_bind {α β : Type} {x : Except EventError α} {f : α → Except EventError β} :
    OnlyPermanent (x >>= f) ↔ OnlyPermanent x ∧ ∀ a, x = .ok a → OnlyPermanent (f a) := by
  cases x with
  | error e =>
      have hbind : (Except.error e >>= f) = .error e := rfl
      rw [hbind]
      simp [OnlyPermanent]
  | ok a =>
      rw [ok_bind]
      simp [onlyPermanent_ok]

/-- The exceptions of Python's own operations are none of the normaliser's. -/
def Raises {β : Type} (x : Except PyError β) : Prop :=
  ∀ e, x = .error e → (EventError.raised e).isPermanent = false

/-- A step that raises Python's exceptions alone must not raise. -/
theorem onlyPermanent_liftPy {β : Type} {x : Except PyError β} (hx : Raises x) :
    OnlyPermanent (liftPy x) ↔ ∃ b, x = .ok b := by
  cases x with
  | ok b => simp [liftPy, onlyPermanent_ok]
  | error e =>
      have he := hx e rfl
      simp [liftPy, OnlyPermanent, he]

theorem onlyPermanent_liftDecimal {β : Type} (x : Except Decimal.DecimalError β) :
    OnlyPermanent (liftDecimal x) ↔ ¬ ∃ e, x = .error e := by
  cases x with
  | ok b => simp [liftDecimal, onlyPermanent_ok]
  | error e => simp [liftDecimal, OnlyPermanent, EventError.isPermanent]

/-- `.get` works on it, after `or {}`. -/
def ObjectOrFalsy (v : Json) : Prop := v.truthy = false ∨ v.asDict.isSome = true

/-- `join` takes it, where only truthy values are joined. -/
def TextOrFalsy (v : Json) : Prop := v.truthy = false ∨ ∃ s, v = .str s

/-- `.strip` works on it, where `None` is not stripped. -/
def TextOrNull (v : Json) : Prop := v = .null ∨ ∃ s, v = .str s

/-- The fields of an object, or none for anything else. -/
def fieldsOf (v : Json) : Dict := v.asDict.getD []

theorem asObject_or (data : Dict) (field : String) :
    (ObjectOrFalsy (data.get field .null) ∧
        asObject (getObject data field) = .ok (fieldsOf (data.get field .null))) ∨
      (¬ ObjectOrFalsy (data.get field .null) ∧
        asObject (getObject data field) = .error .attributeError) := by
  unfold ObjectOrFalsy getObject asObject fieldsOf Json.orElse
  cases data.get field .null with
  | obj fields => cases fields <;> simp [Json.truthy, Json.asDict]
  | null => simp [Json.truthy, Json.asDict]
  | bool b => cases b <;> simp [Json.truthy, Json.asDict]
  | int n => by_cases h : n = 0 <;> simp [Json.truthy, Json.asDict, h]
  | float x => by_cases h : (Json.float x).truthy = true <;> simp [Json.asDict, h]
  | str s => by_cases h : s = "" <;> simp [Json.truthy, Json.asDict, h]
  | arr xs => cases xs <;> simp [Json.truthy, Json.asDict]

theorem optionalText_raises (v : Json) : Raises (optionalText v) := by
  intro e h
  cases v <;> simp [optionalText] at h <;> subst h <;> rfl

theorem optionalText_ok_iff (v : Json) : (∃ t, optionalText v = .ok t) ↔ TextOrNull v := by
  cases v <;> simp [optionalText, TextOrNull]

section Steps

variable [PyLibrary]

theorem onlyPermanent_reference (psp : Connector) (data : Dict) :
    OnlyPermanent (liftPy (psp.reference data)) := by
  intro e h
  cases psp with
  | paystack =>
      simp only [Connector.reference, Normaliser.paystackReference, Normaliser.requireStr] at h
      split at h
      · cases h
      · cases h
        rfl
  | flutterwave =>
      simp only [Connector.reference, Normaliser.flutterwaveReference] at h
      split at h
      · cases h
        rfl
      · cases h

theorem onlyPermanent_decimalField (value : Json) (field : String) :
    OnlyPermanent (decimalField value field) := by
  intro e h
  unfold decimalField at h
  cases value with
  | null => cases h; rfl
  | bool b => cases h; rfl
  | _ =>
      simp only [] at h
      split at h
      · cases h; rfl
      · cases h; rfl
      · cases h

/-- No conversion is needed, or there is no rate for it, or its result has a
    place for every digit. -/
def ConversionFits (currency : String) (fxRate : Option ℚ) (amountRaw : ℚ) : Prop :=
  currency = "NGN" ∨ PyLibrary.upper currency = "NGN" ∨
    ∀ rate, fxRate = some rate → |amountRaw / rate| < Decimal.conversionLimit

theorem onlyPermanent_toNgn {amountRaw : ℚ} {currency : String} (snapshot : Option String)
    {fxRate : Option ℚ} (hrate : ∀ r, fxRate = some r → 0 < r) :
    OnlyPermanent (toNgn amountRaw currency snapshot fxRate) ↔
      ConversionFits currency fxRate amountRaw := by
  unfold toNgn ConversionFits
  by_cases hngn : currency = "NGN"
  · simp [hngn, onlyPermanent_ok]
  cases fxRate with
  | none => simp [hngn, onlyPermanent_permanent]
  | some rate =>
      have hpos := hrate rate rfl
      simp only [hngn, if_false, onlyPermanent_bind, convertToNgn, false_or, Option.some.injEq,
        forall_eq']
      by_cases hupper : PyLibrary.upper currency = "NGN"
      · simp [hupper, onlyPermanent_ok, pure, Except.pure]
      · have hlift := onlyPermanent_liftDecimal (Decimal.toMillionths amountRaw rate)
        rw [Decimal.conversion_fails_iff, not_le] at hlift
        simp only [hupper, if_false, not_le.mpr hpos, hlift, false_or]
        exact ⟨fun h => h.1, fun h => ⟨h, fun a _ => onlyPermanent_ok _⟩⟩

/-- Where a conversion has not failed there is a naira amount, unless there is
    no rate for it. -/
theorem toNgn_ok_iff {amountRaw : ℚ} {currency : String} (snapshot : Option String)
    {fxRate : Option ℚ} (hrate : ∀ r, fxRate = some r → 0 < r)
    (hfits : ConversionFits currency fxRate amountRaw) :
    (∃ ngn, toNgn amountRaw currency snapshot fxRate = .ok ngn) ↔
      currency = "NGN" ∨ fxRate.isSome = true := by
  have honly := (onlyPermanent_toNgn snapshot hrate).mpr hfits
  unfold toNgn at honly ⊢
  by_cases hngn : currency = "NGN"
  · simp [hngn]
  cases fxRate with
  | none => simp [hngn, permanent]
  | some rate =>
      simp only [hngn, if_false, false_or, Option.isSome_some, iff_true] at honly ⊢
      cases hconv : convertToNgn amountRaw currency rate with
      | ok ngn => exact ⟨_, rfl⟩
      | error e =>
          -- A conversion has no permanent failure to offer.
          rw [hconv] at honly
          have hperm := honly e rfl
          unfold convertToNgn at hconv
          split at hconv
          · cases hconv
          · split at hconv
            · cases hconv
              cases hperm
            · cases hd : Decimal.toMillionths amountRaw rate with
              | ok x => rw [hd] at hconv; cases hconv
              | error d =>
                  rw [hd] at hconv
                  cases hconv
                  cases hperm

/-- A timestamp with an offset stays within the years of a `datetime` in UTC. -/
def TimestampFits (value : Json) : Prop :=
  ∀ ts offset, value.truthy = true → PyLibrary.fromIsoFormat (replaceZ value.toStr) = some ts →
    ts.utcOffset = some offset →
    datetimeMin ≤ ts.wallClock - offset ∧ ts.wallClock - offset ≤ datetimeMax

theorem onlyPermanent_parseTimestamp (value : Json) :
    OnlyPermanent (parseTimestamp value) ↔ TimestampFits value := by
  unfold parseTimestamp
  by_cases htruthy : value.truthy = false
  · rw [if_pos htruthy]
    refine ⟨fun _ ts offset htrue => ?_, fun _ => onlyPermanent_permanent _⟩
    rw [htruthy] at htrue
    cases htrue
  rw [if_neg htruthy]
  rw [Bool.not_eq_false] at htruthy
  cases hts : PyLibrary.fromIsoFormat (replaceZ value.toStr) with
  | none =>
      refine ⟨fun _ ts offset _ h => ?_, fun _ => onlyPermanent_permanent _⟩
      rw [hts] at h
      cases h
  | some ts =>
      -- The one timestamp there is to speak of.
      have hone : TimestampFits value ↔ ∀ offset, ts.utcOffset = some offset →
          datetimeMin ≤ ts.wallClock - offset ∧ ts.wallClock - offset ≤ datetimeMax := by
        refine ⟨fun h offset => h ts offset htruthy hts, fun h ts' offset _ hts' => ?_⟩
        rw [hts] at hts'
        rw [← Option.some.inj hts']
        exact h offset
      rw [hone]
      simp only []
      cases ts.utcOffset with
      | none => exact ⟨fun _ offset h => (by cases h), fun _ => onlyPermanent_permanent _⟩
      | some offset =>
          simp only [Option.some.injEq, forall_eq']
          by_cases hfits : datetimeMin ≤ ts.wallClock - offset ∧
              ts.wallClock - offset ≤ datetimeMax
          · rw [if_pos hfits]
            exact ⟨fun _ => hfits, fun _ => onlyPermanent_ok _⟩
          · rw [if_neg hfits]
            refine ⟨fun h => ?_, fun h => absurd h hfits⟩
            have hperm := h _ rfl
            cases hperm

/-- The record is built from texts, unless the amount is refused first. -/
theorem onlyPermanent_canonicalRecord (args : NormaliseArgs) (x : Extracted) :
    OnlyPermanent (canonicalRecord args x) ↔
      (0 < x.amountRaw → TextOrNull x.counterparty.account ∧ TextOrNull x.counterparty.name ∧
        TextOrNull x.narration) := by
  unfold canonicalRecord
  by_cases hpos : x.amountRaw ≤ 0
  · simp [hpos, onlyPermanent_permanent, not_lt.mpr hpos]
  rw [if_neg hpos]
  simp only [not_le.mp hpos, forall_const, onlyPermanent_bind,
    onlyPermanent_liftPy (optionalText_raises _), optionalText_ok_iff, liftPy_eq_ok]
  constructor
  · rintro ⟨haccount, h⟩
    rcases (optionalText_ok_iff _).mpr haccount with ⟨account, hok⟩
    rcases h account hok with ⟨hname, h⟩
    rcases (optionalText_ok_iff _).mpr hname with ⟨name, hok'⟩
    exact ⟨haccount, hname, (h name hok').1⟩
  · rintro ⟨haccount, hname, hnarration⟩
    exact ⟨haccount, fun _ _ => ⟨hname, fun _ _ => ⟨hnarration, fun _ _ => onlyPermanent_ok _⟩⟩⟩

end Steps

section Party

theorem textOrNull_orElse (a b : Json) :
    TextOrNull (a.orElse b) ↔ if a.truthy then TextOrFalsy a else TextOrNull b := by
  unfold Json.orElse TextOrNull TextOrFalsy
  by_cases h : a.truthy = true
  · simp only [h, if_true, Bool.true_eq_false, false_or]
    refine ⟨fun hor => ?_, Or.inr⟩
    rcases hor with rfl | hstr
    · cases h
    · exact hstr
  · simp [h]

/-- A fallback that is a text or null leaves the values before it to be texts. -/
theorem textOrNull_orElse_textOrNull {a b v : Json} (hv : TextOrNull v) :
    TextOrNull (a.orElse (b.orElse v)) ↔ TextOrFalsy (a.orElse b) := by
  simp only [textOrNull_orElse]
  by_cases ha : a.truthy = true
  · simp [ha, Json.orElse]
  · by_cases hb : b.truthy = true
    · simp [ha, hb, Json.orElse]
    · have hfalsy : TextOrFalsy b := Or.inl (by simpa using hb)
      simp [ha, hb, hv, hfalsy, Json.orElse]

/-- The text of a value, if it is one. -/
def textOf : Json → Option String
  | .str s => some s
  | _ => none

theorem textOf_cases {v : Json} (hv : v.truthy = true) :
    (∃ s, v = .str s) ∨ (¬ TextOrFalsy v ∧ textOf v = none) := by
  cases v with
  | str s => exact Or.inl ⟨s, rfl⟩
  | _ => exact Or.inr ⟨by simp [TextOrFalsy, hv], rfl⟩

theorem joinNames_eq (first last : Json) : joinNames first last =
    match ([first, last].filter Json.truthy).mapM textOf with
    | none => .error .typeError
    | some [] => .ok .null
    | some parts => .ok (.str (" ".intercalate parts)) := rfl

/-- The names that are there are joined if they are texts. -/
theorem joinNames_cases (first last : Json) :
    (TextOrFalsy first ∧ TextOrFalsy last ∧ ∃ v, joinNames first last = .ok v ∧ TextOrNull v) ∨
      (¬ (TextOrFalsy first ∧ TextOrFalsy last) ∧ joinNames first last = .error .typeError) := by
  rw [joinNames_eq]
  by_cases hf : first.truthy = true <;> by_cases hl : last.truthy = true
  · -- Both names are there, and each has to be a text.
    rw [List.filter_cons_of_pos hf, List.filter_cons_of_pos hl, List.filter_nil]
    rcases textOf_cases hf with ⟨s, rfl⟩ | ⟨hbad, hnone⟩
    · rcases textOf_cases hl with ⟨t, rfl⟩ | ⟨hbad, hnone⟩
      · exact Or.inl ⟨Or.inr ⟨s, rfl⟩, Or.inr ⟨t, rfl⟩, .str (" ".intercalate [s, t]), rfl,
          Or.inr ⟨_, rfl⟩⟩
      · refine Or.inr ⟨fun h => hbad h.2, ?_⟩
        simp [List.mapM_cons, hnone]
    · refine Or.inr ⟨fun h => hbad h.1, ?_⟩
      simp [List.mapM_cons, hnone]
  · -- Only the first name is there.
    rw [List.filter_cons_of_pos hf, List.filter_cons_of_neg hl, List.filter_nil]
    rw [Bool.not_eq_true] at hl
    rcases textOf_cases hf with ⟨s, rfl⟩ | ⟨hbad, hnone⟩
    · exact Or.inl ⟨Or.inr ⟨s, rfl⟩, Or.inl hl, .str (" ".intercalate [s]), rfl,
        Or.inr ⟨_, rfl⟩⟩
    · refine Or.inr ⟨fun h => hbad h.1, ?_⟩
      simp [List.mapM_cons, hnone]
  · -- Only the last name is there.
    rw [List.filter_cons_of_neg hf, List.filter_cons_of_pos hl, List.filter_nil]
    rw [Bool.not_eq_true] at hf
    rcases textOf_cases hl with ⟨t, rfl⟩ | ⟨hbad, hnone⟩
    · exact Or.inl ⟨Or.inl hf, Or.inr ⟨t, rfl⟩, .str (" ".intercalate [t]), rfl,
        Or.inr ⟨_, rfl⟩⟩
    · refine Or.inr ⟨fun h => hbad h.2, ?_⟩
      simp [List.mapM_cons, hnone]
  · -- Neither is, and there is nothing to join.
    rw [List.filter_cons_of_neg hf, List.filter_cons_of_neg hl, List.filter_nil]
    rw [Bool.not_eq_true] at hf hl
    exact Or.inl ⟨Or.inl hf, Or.inl hl, .null, rfl, Or.inl rfl⟩

/-- What a Paystack charge has to look like for its payer to be read. -/
def PayerReadable (data : Dict) : Prop :=
  ObjectOrFalsy (data.get "customer" .null) ∧
    TextOrFalsy ((fieldsOf (data.get "customer" .null)).get "first_name" .null) ∧
    TextOrFalsy ((fieldsOf (data.get "customer" .null)).get "last_name" .null) ∧
    ObjectOrFalsy (data.get "authorization" .null)

/-- And for the payer's account and name to be masked. -/
def PayerMaskable (data : Dict) : Prop :=
  let auth := fieldsOf (data.get "authorization" .null)
  TextOrNull ((auth.get "sender_bank_account_number" .null).orElse
      (auth.get "account_number" .null)) ∧
    TextOrFalsy ((auth.get "sender_name" .null).orElse (auth.get "account_name" .null))

/-- What a Paystack transfer has to look like for its recipient to be read. -/
def RecipientReadable (data : Dict) : Prop :=
  ObjectOrFalsy (data.get "recipient" .null) ∧
    ObjectOrFalsy ((fieldsOf (data.get "recipient" .null)).get "details" .null)

def RecipientMaskable (data : Dict) : Prop :=
  let recipient := fieldsOf (data.get "recipient" .null)
  let details := fieldsOf (recipient.get "details" .null)
  TextOrNull (details.get "account_number" .null) ∧
    TextOrNull ((details.get "account_name" .null).orElse (recipient.get "name" .null))

/-- The name a Flutterwave event gives without its customer. -/
def knownName (data : Dict) : Json :=
  ((fieldsOf (data.get "account" .null)).get "account_name" .null).orElse
    (data.get "full_name" .null)

/-- What a Flutterwave event has to look like for its party to be read. -/
def AccountReadable (data : Dict) : Prop :=
  ObjectOrFalsy (data.get "account" .null) ∧
    ((knownName data).truthy = false → ObjectOrFalsy (data.get "customer" .null))

def AccountMaskable (data : Dict) : Prop :=
  TextOrNull (((fieldsOf (data.get "account" .null)).get "account_number" .null).orElse
      (data.get "account_number" .null)) ∧
    TextOrNull ((knownName data).orElse
      ((fieldsOf (data.get "customer" .null)).get "name" .null)) ∧
    TextOrNull (data.get "narration" .null)

/-- A party is read, with what its masking takes, or Python raises. -/
def PartySpec (party : Except PyError Counterparty) (readable : Prop)
    (maskable : Counterparty → Prop) : Prop :=
  (readable ∧ ∃ c, party = .ok c ∧ maskable c) ∨
    (¬ readable ∧ ∃ e, party = .error e ∧ (EventError.raised e).isPermanent = false)

theorem payer_spec (data : Dict) :
    PartySpec (paystackCounterparty true data) (PayerReadable data) fun c =>
      (TextOrNull c.account ∧ TextOrNull c.name) ↔ PayerMaskable data := by
  unfold PartySpec PayerReadable PayerMaskable paystackCounterparty
  simp only [if_true]
  rcases asObject_or data "customer" with ⟨hcustomer, hobj⟩ | ⟨hcustomer, hobj⟩
  · rw [hobj]
    rcases joinNames_cases ((fieldsOf (data.get "customer" .null)).get "first_name" .null)
        ((fieldsOf (data.get "customer" .null)).get "last_name" .null) with
      ⟨hfirst, hlast, v, hjoin, hv⟩ | ⟨hbad, hjoin⟩
    · rcases asObject_or data "authorization" with ⟨hauth, hobj'⟩ | ⟨hauth, hobj'⟩
      · refine Or.inl ⟨⟨hcustomer, hfirst, hlast, hauth⟩, ?_⟩
        simp only [bind, Except.bind, pure, Except.pure, hjoin, hobj']
        -- Without another name there is the joined one, which is a text or null.
        exact ⟨_, rfl, and_congr_right fun _ => textOrNull_orElse_textOrNull hv⟩
      · refine Or.inr ⟨fun h => hauth h.2.2.2, .attributeError, ?_, rfl⟩
        simp only [bind, Except.bind, hjoin, hobj']
    · refine Or.inr ⟨fun h => hbad ⟨h.2.1, h.2.2.1⟩, .typeError, ?_, rfl⟩
      simp only [bind, Except.bind, hjoin]
  · refine Or.inr ⟨fun h => hcustomer h.1, .attributeError, ?_, rfl⟩
    rw [hobj]
    rfl

theorem recipient_spec (data : Dict) :
    PartySpec (paystackCounterparty false data) (RecipientReadable data) fun c =>
      (TextOrNull c.account ∧ TextOrNull c.name) ↔ RecipientMaskable data := by
  unfold PartySpec RecipientReadable RecipientMaskable paystackCounterparty
  simp only [Bool.false_eq_true, if_false]
  rcases asObject_or data "recipient" with ⟨hrecipient, hobj⟩ | ⟨hrecipient, hobj⟩
  · rw [hobj]
    rcases asObject_or (fieldsOf (data.get "recipient" .null)) "details" with
      ⟨hdetails, hobj'⟩ | ⟨hdetails, hobj'⟩
    · refine Or.inl ⟨⟨hrecipient, hdetails⟩, ?_⟩
      simp only [bind, Except.bind, pure, Except.pure, hobj']
      exact ⟨_, rfl, Iff.rfl⟩
    · refine Or.inr ⟨fun h => hdetails h.2, .attributeError, ?_, rfl⟩
      simp only [bind, Except.bind, hobj']
  · refine Or.inr ⟨fun h => hrecipient h.1, .attributeError, ?_, rfl⟩
    rw [hobj]
    rfl

/-- The customer's name, where it is asked for. -/
theorem customerName_or (data : Dict) :
    (ObjectOrFalsy (data.get "customer" .null) ∧ (getObject data "customer").attr "name" =
        .ok ((fieldsOf (data.get "customer" .null)).get "name" .null)) ∨
      (¬ ObjectOrFalsy (data.get "customer" .null) ∧
        (getObject data "customer").attr "name" = .error .attributeError) := by
  have hattr : (getObject data "customer").attr "name" =
      (asObject (getObject data "customer")).map fun d => Dict.get d "name" .null := by
    unfold asObject Json.attr
    cases (getObject data "customer").asDict <;> rfl
  rw [hattr]
  rcases asObject_or data "customer" with ⟨hcustomer, hobj⟩ | ⟨hcustomer, hobj⟩
  · exact Or.inl ⟨hcustomer, by rw [hobj]; rfl⟩
  · exact Or.inr ⟨hcustomer, by rw [hobj]; rfl⟩

theorem account_spec (data : Dict) :
    PartySpec (flutterwaveCounterparty data) (AccountReadable data) fun c =>
      (TextOrNull c.account ∧ TextOrNull c.name ∧ TextOrNull (data.get "narration" .null)) ↔
        AccountMaskable data := by
  unfold PartySpec AccountReadable AccountMaskable flutterwaveCounterparty
  rcases asObject_or data "account" with ⟨haccount, hobj⟩ | ⟨haccount, hobj⟩
  · rw [hobj]
    have hknown : ((fieldsOf (data.get "account" .null)).get "account_name" .null).orElse
        (data.get "full_name" .null) = knownName data := rfl
    simp only [bind, Except.bind, hknown]
    by_cases hname : (knownName data).truthy = true
    · refine Or.inl ⟨⟨haccount, fun h => ?_⟩, ?_⟩
      · -- A known name hides the customer, whatever that is.
        rw [hname] at h
        cases h
      · have horElse : ∀ v, (knownName data).orElse v = knownName data := by
          intro v
          simp [Json.orElse, hname]
        simp only [hname, if_true, pure, Except.pure, horElse]
        exact ⟨_, rfl, Iff.rfl⟩
    · have horElse : ∀ v, (knownName data).orElse v = v := by
        intro v
        simp [Json.orElse, hname]
      simp only [hname, Bool.false_eq_true, if_false, horElse]
      rcases customerName_or data with ⟨hcustomer, hattr⟩ | ⟨hcustomer, hattr⟩
      · refine Or.inl ⟨⟨haccount, fun _ => hcustomer⟩, ?_⟩
        simp only [hattr, pure, Except.pure]
        exact ⟨_, rfl, Iff.rfl⟩
      · refine Or.inr ⟨fun h => hcustomer (h.2 trivial), .attributeError, ?_, rfl⟩
        simp only [hattr]
  · refine Or.inr ⟨fun h => haccount h.1, .attributeError, ?_, rfl⟩
    rw [hobj]
    rfl

end Party

end Canonical

namespace Webhooks

open Canonical

section Normalisers

variable [PyLibrary]

/-- An amount in kobo does not overflow when it is divided. -/
def Connector.AmountFits (psp : Connector) (amount : ℚ) : Prop :=
  match psp with
  | .paystack => |amount / 100| < Decimal.overflowLimit
  | .flutterwave => True

def Connector.PartyReadable (psp : Connector) (eventType : String) (data : Dict) : Prop :=
  match psp with
  | .paystack => if eventType = "charge.success" then PayerReadable data else RecipientReadable data
  | .flutterwave => AccountReadable data

def Connector.PartyMaskable (psp : Connector) (eventType : String) (data : Dict) : Prop :=
  match psp with
  | .paystack => if eventType = "charge.success" then PayerMaskable data else RecipientMaskable data
  | .flutterwave => AccountMaskable data

/-- A timestamp with an offset, read from a text. -/
def TimestampAware (value : Json) : Prop :=
  value.truthy = true ∧
    ∃ ts, PyLibrary.fromIsoFormat (replaceZ value.toStr) = some ts ∧ ts.utcOffset.isSome = true

/-- The payload's shapes, as far as the normaliser gets to see them. -/
def PayloadSound (psp : Connector) (args : NormaliseArgs) (eventType : String)
    (data : Dict) : Prop :=
  ∀ reference amount, psp.reference data = .ok reference →
    decimalField (data.get "amount" .null) "data.amount" = .ok amount →
    psp.AmountFits amount ∧ ∀ amountRaw, psp.majorUnits amount = .ok amountRaw →
      ConversionFits (currencyOf data) args.fxRateApplied amountRaw ∧
      (currencyOf data = "NGN" ∨ args.fxRateApplied.isSome = true →
        TimestampFits (psp.timestamp data) ∧
        (TimestampAware (psp.timestamp data) →
          psp.PartyReadable eventType data ∧
          (0 < amountRaw → psp.PartyMaskable eventType data)))

/-- A timestamp that fits is read exactly if it has an offset. -/
theorem parseTimestamp_ok_iff {value : Json} (hfits : TimestampFits value) :
    (∃ t, parseTimestamp value = .ok t) ↔ TimestampAware value := by
  unfold parseTimestamp TimestampAware
  by_cases htruthy : value.truthy = false
  · simp [htruthy, permanent]
  rw [if_neg htruthy]
  rw [Bool.not_eq_false] at htruthy
  cases hts : PyLibrary.fromIsoFormat (replaceZ value.toStr) with
  | none => simp [permanent]
  | some ts =>
      cases hoff : ts.utcOffset with
      | none => simp [permanent, hoff]
      | some offset => simp [htruthy, hoff, hfits ts offset htruthy hts hoff]

/-- The steps after the amount, which both normalisers take. -/
theorem recordSteps_onlyPermanent {args : NormaliseArgs} {amountRaw : ℚ} {currency : String}
    {ts narration : Json} {party : Except PyError Counterparty} {readable maskable : Prop}
    {build : ℚ × Option String × Option ℚ → ℤ → Counterparty → Extracted}
    (hrate : ∀ r, args.fxRateApplied = some r → 0 < r)
    (hbuild : ∀ ngn t c, (build ngn t c).amountRaw = amountRaw ∧
      (build ngn t c).counterparty = c ∧ (build ngn t c).narration = narration)
    (hparty : PartySpec party readable fun c =>
      (TextOrNull c.account ∧ TextOrNull c.name ∧ TextOrNull narration) ↔ maskable) :
    OnlyPermanent (do
        let ngn ← toNgn amountRaw currency args.fxRateSnapshotId args.fxRateApplied
        let initiatedAt ← parseTimestamp ts
        let counterparty ← liftPy party
        canonicalRecord args (build ngn initiatedAt counterparty)) ↔
      ConversionFits currency args.fxRateApplied amountRaw ∧
      (currency = "NGN" ∨ args.fxRateApplied.isSome = true →
        TimestampFits ts ∧
        (TimestampAware ts → readable ∧ (0 < amountRaw → maskable))) := by
  -- The party and the record, whatever was worked out before.
  have hlast : ∀ ngn t, OnlyPermanent (do
        let counterparty ← liftPy party
        canonicalRecord args (build ngn t counterparty)) ↔
      readable ∧ (0 < amountRaw → maskable) := by
    intro ngn t
    rw [onlyPermanent_bind]
    rcases hparty with ⟨hreadable, c, hc, hmaskable⟩ | ⟨hunreadable, e, he, hpermanent⟩
    · rcases hbuild ngn t c with ⟨hamount, hcounterparty, hnarration⟩
      rw [hc]
      simp only [liftPy, onlyPermanent_ok, true_and, Except.ok.injEq, forall_eq',
        onlyPermanent_canonicalRecord, hamount, hcounterparty, hnarration, hmaskable, hreadable]
    · rw [he]
      simp [liftPy, OnlyPermanent, hpermanent, hunreadable]
  rw [onlyPermanent_bind, onlyPermanent_toNgn _ hrate]
  refine and_congr_right fun hconversion => ?_
  have hngn := toNgn_ok_iff args.fxRateSnapshotId hrate hconversion
  have hrest : ∀ ngn, OnlyPermanent (do
        let initiatedAt ← parseTimestamp ts
        let counterparty ← liftPy party
        canonicalRecord args (build ngn initiatedAt counterparty)) ↔
      TimestampFits ts ∧ (TimestampAware ts → readable ∧ (0 < amountRaw → maskable)) := by
    intro ngn
    rw [onlyPermanent_bind, onlyPermanent_parseTimestamp]
    refine and_congr_right fun hfits => ?_
    rw [← parseTimestamp_ok_iff hfits]
    constructor
    · rintro h ⟨t, ht⟩
      exact (hlast ngn t).mp (h t ht)
    · exact fun h t ht => (hlast ngn t).mpr (h ⟨t, ht⟩)
  rw [← hngn]
  constructor
  · rintro h ⟨ngn, hok⟩
    exact (hrest ngn).mp (h ngn hok)
  · exact fun h ngn hok => (hrest ngn).mpr (h ⟨ngn, hok⟩)

/-- A payload the classifier accepts is accepted. -/
theorem acceptEvent_of_process {pspName eventType : String} {payload : Dict}
    (hev : payload.lookup "event" = some (.str eventType))
    (hproc : (Normaliser.classifyEvent pspName eventType payload).process = true) :
    acceptEvent pspName payload = .ok (eventType,
      Normaliser.classifyEvent pspName eventType payload,
      fieldsOf (payload.get "data" .null)) := by
  rcases (Normaliser.classifyEvent_process _ _ _).mp hproc with ⟨data, hdata, -⟩
  simp only [acceptEvent, hev, hdata, hproc, if_true, fieldsOf, Option.getD_some]

/-- Of the Paystack events only the charge moves money in. -/
theorem paystack_credit_iff {eventType : String} {payload : Dict}
    (hproc : (Normaliser.classifyEvent "paystack" eventType payload).process = true) :
    (Normaliser.classifyEvent "paystack" eventType payload).transactionType = some .credit ↔
      eventType = "charge.success" := by
  rcases (Normaliser.classifyEvent_process _ _ _).mp hproc with ⟨data, hdata, hmod⟩
  rcases hmod with ⟨-, hname⟩ | ⟨hpsp, -⟩
  · unfold Normaliser.classifyEvent
    rw [hdata]
    rcases hname with rfl | rfl | rfl | rfl <;> simp [Normaliser.paystackEvents, List.lookup_cons]
  · exact absurd hpsp (by decide)

/-- What Paystack narrates is made a text. -/
theorem textOrNull_paystackNarration (data : Dict) :
    TextOrNull (extractPaystackNarration data) := by
  unfold extractPaystackNarration
  split
  · exact Or.inl rfl
  · split
    · split
      · exact Or.inl rfl
      · exact Or.inr ⟨_, rfl⟩
    · exact Or.inl rfl

theorem paystackParty_spec (data : Dict) {isCredit : Bool} {eventType : String}
    (hcredit : isCredit = true ↔ eventType = "charge.success") :
    PartySpec (paystackCounterparty isCredit data) (Connector.paystack.PartyReadable eventType data)
      fun c => (TextOrNull c.account ∧ TextOrNull c.name ∧
        TextOrNull (extractPaystackNarration data)) ↔
          Connector.paystack.PartyMaskable eventType data := by
  simp only [textOrNull_paystackNarration, and_true, Connector.PartyReadable,
    Connector.PartyMaskable]
  cases isCredit with
  | true =>
      rw [if_pos (hcredit.mp rfl), if_pos (hcredit.mp rfl)]
      exact payer_spec data
  | false =>
      have hother : eventType ≠ "charge.success" := fun h => Bool.noConfusion (hcredit.mpr h)
      rw [if_neg hother, if_neg hother]
      exact recipient_spec data

omit [PyLibrary] in
theorem onlyPermanent_majorUnits (psp : Connector) (amount : ℚ) :
    OnlyPermanent (psp.majorUnits amount) ↔ psp.AmountFits amount := by
  cases psp with
  | paystack =>
      rw [Connector.majorUnits, Connector.AmountFits, onlyPermanent_liftDecimal, ← not_le,
        ← Decimal.divide_overflows_iff]
      refine not_congr ⟨?_, fun h => ⟨_, h⟩⟩
      rintro ⟨e, he⟩
      rcases Decimal.divide_cases amount 100 with h | ⟨x, h, -⟩
      · exact h
      · rw [h] at he
        cases he
  | flutterwave => simp [Connector.majorUnits, Connector.AmountFits, onlyPermanent_ok]

/-- The steps up to the amount, over what follows them. -/
theorem amountSteps_onlyPermanent (psp : Connector) (data : Dict)
    {record : String → ℚ → Except EventError CanonicalRecord} {sound : ℚ → Prop}
    (hrecord : ∀ reference amountRaw, OnlyPermanent (record reference amountRaw) ↔
      sound amountRaw) :
    OnlyPermanent (do
        let reference ← liftPy (psp.reference data)
        let amount ← decimalField (data.get "amount" .null) "data.amount"
        let amountRaw ← psp.majorUnits amount
        record reference amountRaw) ↔
      ∀ reference amount, psp.reference data = .ok reference →
        decimalField (data.get "amount" .null) "data.amount" = .ok amount →
        psp.AmountFits amount ∧ ∀ amountRaw, psp.majorUnits amount = .ok amountRaw →
          sound amountRaw := by
  simp only [onlyPermanent_bind, onlyPermanent_reference, onlyPermanent_decimalField, true_and,
    onlyPermanent_majorUnits, hrecord, liftPy_eq_ok]
  exact ⟨fun h reference amount href => h reference href amount,
    fun h reference href amount => h reference amount href⟩

theorem paystackRecord_onlyPermanent {args : NormaliseArgs} {eventType : String}
    {disposition : Normaliser.EventDisposition} (data : Dict)
    (hrate : ∀ r, args.fxRateApplied = some r → 0 < r)
    (hcredit : disposition.transactionType = some .credit ↔ eventType = "charge.success") :
    OnlyPermanent (paystackRecord args eventType disposition data) ↔
      PayloadSound .paystack args eventType data := by
  refine amountSteps_onlyPermanent .paystack data fun reference amountRaw => ?_
  refine recordSteps_onlyPermanent hrate (fun ngn t c => ⟨rfl, rfl, rfl⟩)
    (paystackParty_spec data ?_)
  rw [decide_eq_true_iff]
  exact hcredit

theorem flutterwaveRecord_onlyPermanent {args : NormaliseArgs} {eventType : String}
    {disposition : Normaliser.EventDisposition} (data : Dict)
    (hrate : ∀ r, args.fxRateApplied = some r → 0 < r) :
    OnlyPermanent (flutterwaveRecord args eventType disposition data) ↔
      PayloadSound .flutterwave args eventType data := by
  refine amountSteps_onlyPermanent .flutterwave data fun reference amountRaw => ?_
  exact recordSteps_onlyPermanent hrate (fun ngn t c => ⟨rfl, rfl, rfl⟩) (account_spec data)

/-- A normaliser of a PSP, whatever payload the classifier accepts and whatever
    positive rate, fails with `PermanentEventError` alone exactly when the
    payload is sound. -/
theorem malformed_payload_permanent_iff {psp : Connector} {args : NormaliseArgs} {payload : Dict}
    {eventType : String} (hrate : ∀ r, args.fxRateApplied = some r → 0 < r)
    (hev : payload.lookup "event" = some (.str eventType))
    (hproc : (Normaliser.classifyEvent psp.pspName eventType payload).process = true) :
    (∀ e, psp.normalise args payload = .error e → e.isPermanent = true) ↔
      PayloadSound psp args eventType (fieldsOf (payload.get "data" .null)) := by
  have hacc := acceptEvent_of_process hev hproc
  cases psp with
  | paystack =>
      change OnlyPermanent (acceptEvent "paystack" payload >>= fun accepted =>
        paystackRecord args accepted.1 accepted.2.1 accepted.2.2) ↔ _
      rw [show acceptEvent "paystack" payload = _ from hacc, ok_bind]
      exact paystackRecord_onlyPermanent _ hrate (paystack_credit_iff hproc)
  | flutterwave =>
      change OnlyPermanent (acceptEvent "flutterwave" payload >>= fun accepted =>
        flutterwaveRecord args accepted.1 accepted.2.1 accepted.2.2) ↔ _
      rw [show acceptEvent "flutterwave" payload = _ from hacc, ok_bind]
      exact flutterwaveRecord_onlyPermanent _ hrate

end Normalisers

/-- Arguments with a rate. -/
def ratedArgs : NormaliseArgs :=
  { someArgs with fxRateSnapshotId := some "fx", fxRateApplied := some 1500 }

/-- A charge that becomes a record is sound. -/
theorem malformed_payload_permanent_iff_padded :
    @PayloadSound asciiLibrary .flutterwave ratedArgs "charge.completed"
      (fieldsOf (paddedCharge.get "data" .null)) := by
  have hok :
      (@Connector.normalise asciiLibrary .flutterwave ratedArgs paddedCharge).isOk = true := by
    decide
  refine (@malformed_payload_permanent_iff asciiLibrary .flutterwave ratedArgs paddedCharge
    "charge.completed" ?_ rfl (by decide)).mp ?_
  · intro r hr
    rw [← Option.some.inj hr]
    norm_num
  · intro e he
    rw [he] at hok
    cases hok

/-- A Flutterwave charge whose `account` is a text. -/
def textAccountCharge : Dict :=
  [("event", .str "charge.completed"),
    ("data", .obj [("tx_ref", .str "FLW-1"), ("amount", .int 5000),
      ("status", .str "successful"), ("created_at", .str "2026-01-01T00:00:00Z"),
      ("account", .str "0123456789")])]

theorem text_account_is_not_permanent :
    (@Normaliser.classifyEvent asciiText "flutterwave" "charge.completed"
        textAccountCharge).process = true ∧
      ∃ e, @Connector.normalise asciiLibrary .flutterwave ratedArgs textAccountCharge = .error e ∧
        e.isPermanent = false := by
  refine ⟨by decide, ?_⟩
  have hraised : (match @Connector.normalise asciiLibrary .flutterwave ratedArgs
      textAccountCharge with | .error e => !e.isPermanent | .ok _ => false) = true := by
    decide
  cases h : @Connector.normalise asciiLibrary .flutterwave ratedArgs textAccountCharge with
  | error e =>
      rw [h] at hraised
      exact ⟨e, rfl, by simpa using hraised⟩
  | ok record =>
      rw [h] at hraised
      cases hraised

end Webhooks

end MmrEngine
