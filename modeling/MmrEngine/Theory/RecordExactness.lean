import MmrEngine.Theory.PermanentFailures

/-!
# Every Record Is Storable and Exact

What a normaliser returns, for any payload and any positive rate that comes
with its snapshot.

The amount is positive, kobo become naira without a rounding, naira stay as
they are and come without a rate. A foreign amount has the rate and its
snapshot, and its naira amount is within a millionth of the exact quotient:
division rounds to 28 digits, the last of which is a millionth or less where
quantizing succeeds, and quantizing rounds once more.

So the row satisfies the `CHECK` constraints that relate its columns. The
currency is in a `CHAR(3)` column, which cuts off trailing blanks and ignores
them in comparisons; the schema that stands between the normaliser and the
table admits only currencies it keeps as they are (`char3_supported`).

## Main definitions

* `BuiltFrom`: The record of what a normaliser has worked out.
* `FxRequired`, `ChecksPass`: The constraints of the table.
* `Exact`: What is said of the amounts.

## Theorems

* `toNgn_spec`: The naira amount of a positive amount.
* `kobo_exact`: Kobo become naira without a rounding.
* `record_storable_and_exact`: Every record a normaliser returns.
-/

namespace MmrEngine

namespace Webhooks

open Canonical

/-- The record of what a normaliser has worked out. -/
structure BuiltFrom (args : NormaliseArgs) (x : Extracted) (record : CanonicalRecord) : Prop where
  positive : 0 < x.amountRaw
  amountRaw : record.amountRaw = x.amountRaw
  currencyRaw : record.currencyRaw = x.currencyRaw
  ngn : (record.amountNgn, record.fxRateSnapshotId, record.fxRateApplied) = x.ngn
  transactionType : record.transactionType = x.disposition.transactionType
  settlementStatus : record.settlementStatus = x.disposition.settlementStatus
  initiatedAt : record.initiatedAt = x.initiatedAt
  settledAt : record.settledAt =
    if record.settlementStatus = some .settled then some record.initiatedAt else none
  expectedSettlementAt : record.expectedSettlementAt = args.expectedSettlementAt
  masked : record.hasPiiMasked = true

/-! ### The table's constraints -/

/-- `chk_silver_tx_fx_required`. -/
def FxRequired (currency : String) (fxRateSnapshotId : Option String) : Prop :=
  (currency = "NGN" ∧ fxRateSnapshotId = none) ∨ (currency ≠ "NGN" ∧ fxRateSnapshotId ≠ none)

/-- A text in a `CHAR(3)` column, as comparisons see it: blanks at the end are
    cut off, and anything else beyond three characters is refused. -/
def char3 (s : String) : Option String :=
  if (s.toList.drop 3).all (· = ' ') then
    some (String.ofList ((s.toList.take 3).reverse.dropWhile (· = ' ')).reverse)
  else none

/-- `SUPPORTED_CURRENCIES` of the schema. -/
def supportedCurrencies : List String := ["NGN", "USD", "GBP", "EUR"]

/-- The constraints that relate the columns of a row. -/
structure ChecksPass (record : CanonicalRecord) : Prop where
  fxRequired : FxRequired record.currencyRaw record.fxRateSnapshotId
  fxRequiredStored : record.currencyRaw ∈ supportedCurrencies →
    ∃ stored, char3 record.currencyRaw = some stored ∧ FxRequired stored record.fxRateSnapshotId
  piiMasked : record.hasPiiMasked = true
  settledAfterInitiated : ∀ t, record.settledAt = some t → record.initiatedAt ≤ t

/-- The column keeps the currencies of the schema. -/
theorem char3_supported : ∀ c ∈ supportedCurrencies, char3 c = some c := by
  decide

/-! ### The amounts -/

/-- What is said of the amounts, and of the rate behind them. -/
structure Exact (record : CanonicalRecord) : Prop where
  positive : 0 < record.amountRaw
  naira : record.currencyRaw = "NGN" → record.amountNgn = record.amountRaw ∧
    record.fxRateSnapshotId = none ∧ record.fxRateApplied = none
  foreign : record.currencyRaw ≠ "NGN" → ∃ snapshot rate,
    record.fxRateSnapshotId = some snapshot ∧ record.fxRateApplied = some rate ∧
      |record.amountNgn - record.amountRaw / rate| ≤ 1 / 10 ^ 6

/-- Kobo become naira without a rounding, as long as they have 28 digits. -/
theorem kobo_exact {n : ℤ} (hn : |n| < 10 ^ 28) {x : ℚ} (h : Decimal.divide n 100 = .ok x) :
    100 * x = n := by
  have hmagnitude : |(n : ℚ) / 100| = ((|n| : ℤ) : ℚ) * 10 ^ (-2 : ℤ) := by
    rw [abs_div, Int.cast_abs, abs_of_pos (by norm_num : (0 : ℚ) < 100)]
    norm_num
    ring
  have hfits : Decimal.roundedMagnitude |(n : ℚ) / 100| = |(n : ℚ) / 100| := by
    refine Decimal.roundedMagnitude_of_units |n| hmagnitude ?_
    rcases eq_or_lt_of_le (abs_nonneg ((n : ℚ) / 100)) with hzero | hpos
    · rw [← hzero]
      simp [Decimal.lastPlace, Decimal.etiny]
    · -- Below `10 ^ 26` the last of 28 digits is a hundredth or less.
      refine Decimal.lastPlace_le (m := 25) (by unfold Decimal.etiny; omega) hpos ?_
      have hcast : ((|n| : ℤ) : ℚ) < 10 ^ 28 := by exact_mod_cast hn
      rw [hmagnitude]
      norm_num at hcast ⊢
      linarith
  rw [Decimal.divide_exact h hfits]
  ring

section Records

variable [PyLibrary]

theorem canonicalRecord_builtFrom {args : NormaliseArgs} {x : Extracted} {record : CanonicalRecord}
    (h : canonicalRecord args x = .ok record) : BuiltFrom args x record := by
  unfold canonicalRecord at h
  by_cases hpos : x.amountRaw ≤ 0
  · rw [if_pos hpos] at h
    cases h
  · rw [if_neg hpos] at h
    rcases bind_eq_ok.mp h with ⟨account, -, h⟩
    rcases bind_eq_ok.mp h with ⟨name, -, h⟩
    rcases bind_eq_ok.mp h with ⟨narration, -, h⟩
    cases h
    exact ⟨not_le.mp hpos, rfl, rfl, rfl, rfl, rfl, rfl, rfl, rfl, rfl⟩

/-- The naira amount of a positive amount in a currency that is upper case. -/
theorem toNgn_spec {amountRaw : ℚ} {currency : String} {snapshot : Option String}
    {fxRate : Option ℚ} {ngn : ℚ × Option String × Option ℚ} (hpos : 0 < amountRaw)
    (hupper : PyLibrary.upper currency = currency) (hrate : ∀ r, fxRate = some r → 0 < r)
    (h : toNgn amountRaw currency snapshot fxRate = .ok ngn) :
    (currency = "NGN" ∧ ngn = (amountRaw, none, none)) ∨
      (currency ≠ "NGN" ∧ ∃ rate, fxRate = some rate ∧ ngn.2 = (snapshot, some rate) ∧
        |ngn.1 - amountRaw / rate| ≤ 1 / 10 ^ 6) := by
  unfold toNgn at h
  by_cases hngn : currency = "NGN"
  · rw [if_pos hngn] at h
    exact Or.inl ⟨hngn, (Except.ok.inj h).symm⟩
  · rw [if_neg hngn] at h
    cases hfx : fxRate with
    | none =>
        rw [hfx] at h
        cases h
    | some rate =>
        rw [hfx] at h
        rcases bind_eq_ok.mp h with ⟨amountNgn, hconvert, h⟩
        have hr := hrate rate hfx
        -- The currency is upper case already, so the second look at it changes nothing.
        rw [convertToNgn, hupper, if_neg hngn, if_neg (not_le.mpr hr)] at hconvert
        have hquotient : Decimal.toMillionths amountRaw rate = .ok amountNgn := by
          cases hd : Decimal.toMillionths amountRaw rate with
          | ok y =>
              rw [hd] at hconvert
              rw [Except.ok.inj hconvert]
          | error e =>
              rw [hd] at hconvert
              cases hconvert
        have herror := Decimal.toMillionths_error (div_pos hpos hr) hquotient
        rw [← Except.ok.inj h]
        exact Or.inr ⟨hngn, rate, rfl, rfl, herror⟩

omit [PyLibrary] in
/-- What moves money in is settled. -/
theorem classifyEvent_credit [PyText] {pspName eventType : String} {payload : Dict}
    (h : (Normaliser.classifyEvent pspName eventType payload).transactionType = some .credit) :
    (Normaliser.classifyEvent pspName eventType payload).settlementStatus = some .settled := by
  unfold Normaliser.classifyEvent at h ⊢
  cases hdata : (payload.get "data" .null).asDict with
  | none =>
      rw [hdata] at h
      cases h
  | some data =>
      rw [hdata] at h
      simp only [] at h ⊢
      by_cases hps : pspName = "paystack"
      · rw [if_pos hps] at h ⊢
        cases hl : Normaliser.paystackEvents.lookup eventType with
        | none =>
            rw [hl] at h
            cases h
        | some o =>
            rw [hl] at h
            -- The only credit of the vocabulary is the successful charge.
            have hcredits : ∀ e ∈ Normaliser.paystackEvents, e.2.1 = .credit →
                e.2.2 = .settled := by decide
            rcases List.lookup_eq_some_iff.mp hl with ⟨before, after, hsplit, -⟩
            have hmem : (eventType, o) ∈ Normaliser.paystackEvents := by
              rw [hsplit]
              exact List.mem_append_right _ List.mem_cons_self
            exact congrArg some (hcredits _ hmem (Option.some.inj h))
      rw [if_neg hps] at h ⊢
      by_cases hfw : pspName = "flutterwave"
      · rw [if_pos hfw] at h ⊢
        cases hl : Normaliser.flutterwaveEvents.lookup eventType with
        | none =>
            rw [hl] at h
            cases h
        | some txType =>
            rw [hl] at h
            simp only [] at h ⊢
            cases hs : Normaliser.flutterwaveStatus.lookup (Normaliser.reportedStatus data) with
            | none =>
                rw [hs] at h
                cases h
            | some settlement =>
                rw [hs] at h
                simp only [] at h ⊢
                by_cases hc : txType = .credit ∧ settlement ≠ .settled
                · rw [if_pos hc] at h
                  cases h
                · rw [if_neg hc] at h ⊢
                  have hcredit : txType = .credit := Option.some.inj h
                  by_cases hsettled : settlement = .settled
                  · exact congrArg some hsettled
                  · exact absurd ⟨hcredit, hsettled⟩ hc
      · rw [if_neg hfw] at h
        cases h

omit [PyLibrary] in
theorem liftDecimal_eq_ok {β : Type} {x : Except Decimal.DecimalError β} {b : β} :
    liftDecimal x = .ok b ↔ x = .ok b := by
  cases x <;> simp [liftDecimal]

/-- An integer is read as its text is. -/
theorem decimalField_int {n : ℤ} {field : String}
    (h : PyLibrary.decimalOf (toString n) = some (.finite n)) :
    decimalField (.int n) field = .ok (n : ℚ) := by
  have htext : (Json.int n).toStr = toString n := rfl
  simp only [decimalField, htext, h]

omit [PyLibrary] in
/-- The amounts of a record, from the naira amount it was built with. -/
theorem exact_of_builtFrom {args : NormaliseArgs} {x : Extracted} {record : CanonicalRecord}
    (hbuilt : BuiltFrom args x record)
    (hsnapshot : ∀ r, args.fxRateApplied = some r → args.fxRateSnapshotId.isSome = true)
    (hngn : (x.currencyRaw = "NGN" ∧ x.ngn = (x.amountRaw, none, none)) ∨
      (x.currencyRaw ≠ "NGN" ∧ ∃ rate, args.fxRateApplied = some rate ∧
        x.ngn.2 = (args.fxRateSnapshotId, some rate) ∧
        |x.ngn.1 - x.amountRaw / rate| ≤ 1 / 10 ^ 6)) : Exact record := by
  have hfields := hbuilt.ngn
  have hcurrency := hbuilt.currencyRaw
  have hamount := hbuilt.amountRaw
  rcases hngn with ⟨hcur, hvalue⟩ | ⟨hcur, rate, hfx, hvalue, herror⟩
  · -- Naira: the amount as it is.
    rw [hvalue] at hfields
    rcases Prod.mk.inj hfields with ⟨hngn, hrest⟩
    rcases Prod.mk.inj hrest with ⟨hid, hrate⟩
    refine ⟨hamount ▸ hbuilt.positive, fun _ => ⟨hngn.trans hamount.symm, hid, hrate⟩, ?_⟩
    exact fun hne => absurd (hcurrency.trans hcur) hne
  · -- Another currency: the rate that was given, with its snapshot.
    rcases Option.isSome_iff_exists.mp (hsnapshot rate hfx) with ⟨snapshot, hid⟩
    rw [← hfields] at hvalue herror
    rcases Prod.mk.inj hvalue with ⟨hid', hrate⟩
    refine ⟨hamount ▸ hbuilt.positive, fun heq => absurd (hcurrency.symm.trans heq) hcur, ?_⟩
    intro _
    refine ⟨snapshot, rate, hid'.trans hid, hrate, ?_⟩
    rw [hamount]
    exact herror

omit [PyLibrary] in
/-- The constraints follow from what is said of the amounts. -/
theorem checksPass_of_exact {args : NormaliseArgs} {x : Extracted} {record : CanonicalRecord}
    (hexact : Exact record) (hbuilt : BuiltFrom args x record) : ChecksPass record := by
  have hrequired : FxRequired record.currencyRaw record.fxRateSnapshotId := by
    by_cases hngn : record.currencyRaw = "NGN"
    · exact Or.inl ⟨hngn, (hexact.naira hngn).2.1⟩
    · rcases hexact.foreign hngn with ⟨snapshot, rate, hid, _⟩
      exact Or.inr ⟨hngn, hid ▸ Option.some_ne_none snapshot⟩
  refine ⟨hrequired, fun hsupported => ?_, hbuilt.masked, fun t ht => ?_⟩
  · exact ⟨_, char3_supported _ hsupported, hrequired⟩
  · rw [hbuilt.settledAt] at ht
    split at ht
    · exact le_of_eq (Option.some.inj ht)
    · cases ht

/-- Every record a normaliser returns, for any payload and any positive rate
    that comes with its snapshot: the amounts, the settlement, the constraints,
    and for an integer amount in kobo of at most 28 digits its exact value in
    naira. -/
theorem record_storable_and_exact
    (hupper : ∀ s, PyLibrary.upper (PyLibrary.upper s) = PyLibrary.upper s)
    {psp : Connector} {args : NormaliseArgs} {payload : Dict} {record : CanonicalRecord}
    (hrate : ∀ r, args.fxRateApplied = some r → 0 < r ∧ args.fxRateSnapshotId.isSome = true)
    (h : psp.normalise args payload = .ok record) :
    Exact record ∧ ChecksPass record ∧
      record.settledAt
        = (if record.settlementStatus = some .settled then some record.initiatedAt else none) ∧
      (record.transactionType = some .credit → record.settlementStatus = some .settled) ∧
      (psp = .paystack → ∀ (data : Dict) (n : ℤ), payload.get "data" .null = .obj data →
        |n| < 10 ^ 28 →
        (decimalField (data.get "amount" .null) "data.amount" = .ok n ∨
          (data.get "amount" .null = .int n ∧
            PyLibrary.decimalOf (toString n) = some (.finite n))) →
        100 * record.amountRaw = n) := by
  rcases normalise_steps h with ⟨data, x, hx, hrecord⟩
  have hbuilt := canonicalRecord_builtFrom hrecord
  -- The conversion looks at the currency's upper case once more.
  have hupper' : PyLibrary.upper x.currencyRaw = x.currencyRaw := by
    rw [hx.currency]
    exact hupper _
  have hngn := toNgn_spec hbuilt.positive hupper' (fun r hr => (hrate r hr).1) hx.ngn
  have hexact := exact_of_builtFrom hbuilt (fun r hr => (hrate r hr).2) hngn
  refine ⟨hexact, checksPass_of_exact hexact hbuilt, hbuilt.settledAt, fun hcredit => ?_, ?_⟩
  · rw [hbuilt.transactionType, hx.disposition] at hcredit
    rw [hbuilt.settlementStatus, hx.disposition]
    exact classifyEvent_credit hcredit
  · -- The kobo part: the amount that was read is the integer itself.
    rintro rfl data' n hdata hn hread
    have hsame : data' = data := by
      have hobject := hx.object
      rw [hdata] at hobject
      exact Option.some.inj hobject
    subst hsame
    have hdecimal : decimalField (data'.get "amount" .null) "data.amount" = .ok (n : ℚ) := by
      rcases hread with hread | ⟨hint, hlibrary⟩
      · exact hread
      · rw [hint]
        exact decimalField_int hlibrary
    rcases hx.amount with ⟨amount, hamount, hmajor⟩
    rw [hdecimal] at hamount
    rw [← Except.ok.inj hamount] at hmajor
    rw [hbuilt.amountRaw]
    exact kobo_exact hn (liftDecimal_eq_ok.mp hmajor)

end Records

theorem toUpper_toUpper (c : Char) : c.toUpper.toUpper = c.toUpper := by
  unfold Char.toUpper
  split
  · next h =>
      -- What has been moved down by 32 is below the small letters.
      refine dif_neg fun hlow => ?_
      have h1 := UInt32.le_iff_toNat_le.mp h.1
      have h2 := UInt32.le_iff_toNat_le.mp h.2
      have h3 := UInt32.le_iff_toNat_le.mp hlow.1
      simp only [UInt32.toNat_add, UInt32.toNat_sub, Char.reduceVal, UInt32.reduceToNat] at h1 h2 h3
      omega
  · rfl

theorem asciiLibrary_upper_upper (s : String) :
    asciiLibrary.upper (asciiLibrary.upper s) = asciiLibrary.upper s := by
  show String.ofList ((String.ofList (s.toList.map Char.toUpper)).toList.map Char.toUpper) = _
  rw [String.toList_ofList, List.map_map]
  exact congrArg String.ofList (List.map_congr_left fun c _ => toUpper_toUpper c)

/-- A Flutterwave charge of five dollars. -/
def dollarCharge : Dict :=
  [("event", .str "charge.completed"),
    ("data", .obj [("tx_ref", .str "FLW-2"), ("amount", .int 5), ("currency", .str "usd"),
      ("status", .str "successful"), ("created_at", .str "2026-01-01T00:00:00Z")])]

/-- A naira is worth a sixteen hundredth of a dollar. -/
def dollarArgs : NormaliseArgs :=
  { someArgs with fxRateSnapshotId := some "fx", fxRateApplied := some (1 / 1600) }

/-- A record is made of the charge, and the table takes it. -/
theorem record_storable_and_exact_dollars :
    ∃ record, @Connector.normalise asciiLibrary .flutterwave dollarArgs dollarCharge = .ok record ∧
      record.currencyRaw ≠ "NGN" ∧ record.fxRateSnapshotId = some "fx" ∧ Exact record ∧
      ChecksPass record := by
  have hok : (@Connector.normalise asciiLibrary .flutterwave dollarArgs dollarCharge).toOption.map
      (fun record => (record.currencyRaw, record.fxRateSnapshotId)) = some ("USD", some "fx") := by
    decide +kernel
  cases h : @Connector.normalise asciiLibrary .flutterwave dollarArgs dollarCharge with
  | error e =>
      rw [h] at hok
      cases hok
  | ok record =>
      rw [h] at hok
      rcases Prod.mk.inj (Option.some.inj hok) with ⟨hcurrency, hid⟩
      have hrate : ∀ r, dollarArgs.fxRateApplied = some r →
          0 < r ∧ dollarArgs.fxRateSnapshotId.isSome = true := by
        intro r hr
        rw [← Option.some.inj hr]
        exact ⟨by norm_num, rfl⟩
      rcases @record_storable_and_exact asciiLibrary asciiLibrary_upper_upper .flutterwave
        dollarArgs dollarCharge record hrate h with ⟨hexact, hchecks, _⟩
      have hforeign : record.currencyRaw ≠ "NGN" := by
        rw [show record.currencyRaw = "USD" from hcurrency]
        decide
      exact ⟨record, rfl, hforeign, hid, hexact, hchecks⟩

end Webhooks

end MmrEngine
