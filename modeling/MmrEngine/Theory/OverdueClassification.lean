import MmrEngine.Theory.GoldHistory

/-!
# The Statement and the Classifier

`_MISSING_SETTLEMENT_SQL` is said to mirror `classify_missing_settlement`. It
does for every transaction with an expected settlement time, at any instant: it
selects what is past due, by a microsecond too, with the same severity and the
same exposure.

Without an expected time the two part. The classifier calls the settlement
missing, of high severity, and the statement never selects the transaction.

Both compute hours with some rounding, one in doubles and one in `NUMERIC`s of
sixteen digits. `overdueSeverity_rounded` says why the numbers here are exact:
a rounding that keeps the two limits, and what lies a microsecond above them,
leaves every severity as it is.

## Main definitions

* `Selected`: The statement selects a transaction, and with what.
* `Classified`: The classifier calls a settlement missing, and with what.
* `KeepsLimits`: What is asked of a rounding.

## Theorems

* `overdueSeverity_rounded`: Rounding changes no severity.
* `selected_iff_classified_iff`: When the statement raises what the classifier says.
-/

namespace MmrEngine

namespace GoldCalls

open Discrepancy Gold

section Rounding

/-- A microsecond, in hours. -/
def microsecondInHours : ℚ := 1 / 3600000000

/-- A rounding of hours that keeps the limits and separates what is above them. -/
structure KeepsLimits (round : ℚ → ℚ) : Prop where
  mono : Monotone round
  limit : ∀ h : ℚ, h = 24 ∨ h = 48 → round h = h ∧ h < round (h + microsecondInHours)

variable {round : ℚ → ℚ}

/-- A number of microseconds is past a limit exactly if it is rounded past it. -/
theorem limit_lt_rounded (hround : KeepsLimits round) (limit : ℤ)
    (hlimit : (limit : ℚ) = 24 ∨ (limit : ℚ) = 48) (delta : ℤ) :
    (limit : ℚ) < round (totalSeconds delta / 3600) ↔ (limit : ℚ) < totalSeconds delta / 3600 := by
  rcases hround.limit _ hlimit with ⟨hfix, habove⟩
  constructor
  · intro h
    by_contra hle
    have hmono := hround.mono (not_lt.mp hle)
    rw [hfix] at hmono
    exact absurd h (not_lt.mpr hmono)
  · intro h
    -- The next microsecond is the least that can be past the limit.
    have hnext : (limit : ℚ) + microsecondInHours ≤ totalSeconds delta / 3600 := by
      have hstrict : limit * 3600000000 < delta := by
        have hcast : (limit : ℚ) * 3600000000 < delta := by
          unfold totalSeconds at h
          linarith
        exact_mod_cast hcast
      have hcast : (limit : ℚ) * 3600000000 + 1 ≤ delta := by exact_mod_cast hstrict
      unfold totalSeconds microsecondInHours
      linarith
    exact lt_of_lt_of_le habove (hround.mono hnext)

/-- Rounding changes no severity. -/
theorem overdueSeverity_rounded (hround : KeepsLimits round) (delta : ℤ) :
    overdueSeverity (round (totalSeconds delta / 3600))
      = overdueSeverity (totalSeconds delta / 3600) := by
  have h48 := limit_lt_rounded hround 48 (Or.inr (by norm_num)) delta
  have h24 := limit_lt_rounded hround 24 (Or.inl (by norm_num)) delta
  simp only [Int.cast_ofNat] at h48 h24
  simp only [overdueSeverity, h48, h24]

end Rounding

section Agreement

variable {T : Type} [DecidableEq T]

/-- The statement, run at `now`, selects a transaction with a severity and an
    exposure. -/
def Selected (s : Tables T) (now : ℤ) (x : T) (severity : DiscrepancySeverity) (exposure : ℚ) :
    Prop :=
  ∃ o ∈ overdue s.silver.rows s.isMatched now,
    o.transactionId = x ∧ o.finding.severity = severity ∧ o.finding.exposure = exposure

/-- The classifier calls the settlement of a transaction missing, with a
    severity and an exposure. -/
def Classified (r : SilverRow T) (now : ℤ) (severity : DiscrepancySeverity) (exposure : ℚ) : Prop :=
  let result := classifyMissingSettlement r.amountNgn r.expectedSettlementAt now
  result.discrepancyType = some .missingSettlement ∧ result.severity = some severity ∧
    result.estimatedExposureNgn = exposure

instance (r : SilverRow T) (now : ℤ) (severity : DiscrepancySeverity) (exposure : ℚ) :
    Decidable (Classified r now severity exposure) :=
  inferInstanceAs (Decidable (_ ∧ _ ∧ _))

variable {s : Tables T} {r : SilverRow T} {now : ℤ} {severity : DiscrepancySeverity} {exposure : ℚ}

/-- What the statement says of a transaction that is past due. -/
def PastDue (r : SilverRow T) (now : ℤ) (severity : DiscrepancySeverity) (exposure : ℚ) : Prop :=
  ∃ expected, r.expectedSettlementAt = some expected ∧ expected < now ∧
    prescribedSeverity expected now = severity ∧ r.amountNgn = exposure

/-- A pending transaction nobody has matched is selected if it is past due. -/
theorem selected_iff (hr : r ∈ s.silver.rows)
    (htype : r.transactionType = .credit ∨ r.transactionType = .debit)
    (hpending : r.settlementStatus = .pending) (hunmatched : s.isMatched r.id = false) :
    Selected s now r.id severity exposure ↔ PastDue r now severity exposure := by
  constructor
  · rintro ⟨o, ho, hid, hseverity, hexposure⟩
    rcases mem_overdue.mp ho with ⟨r', hr', hrow⟩
    -- An id is in Silver once, so the selected row is this one.
    have hsame : r' = r := by
      have hid' := (overdueRow_eq_some hrow).1.symm.trans hid
      exact List.inj_on_of_nodup_map s.silver.unique hr' hr hid'
    subst hsame
    unfold overdueRow at hrow
    split at hrow
    · cases hrow
    · next expected hexpected =>
        split at hrow
        · next hcond =>
            cases hrow
            exact ⟨expected, hexpected, hcond.2.2.1, hseverity, hexposure⟩
        · cases hrow
  · rintro ⟨expected, hexpected, hdue, hseverity, hexposure⟩
    have hrow := overdueRow_of_due htype hpending hexpected hdue hunmatched
    exact ⟨_, mem_overdue.mpr ⟨r, hr, hrow⟩, rfl, hseverity, hexposure⟩

omit [DecidableEq T] in
/-- What the classifier calls missing: what is past due, and what has no
    expected time. -/
theorem classified_iff :
    Classified r now severity exposure ↔
      PastDue r now severity exposure ∨
        (r.expectedSettlementAt = none ∧ severity = .high ∧ r.amountNgn = exposure) := by
  unfold Classified PastDue
  cases hexpected : r.expectedSettlementAt with
  | none => simp [classifyMissingSettlement, eq_comm]
  | some expected =>
      have hdue : totalSeconds (now - expected) ≤ 0 ↔ now ≤ expected := by
        rw [totalSeconds, div_le_iff₀ (by norm_num), zero_mul, Int.cast_nonpos, sub_nonpos]
      by_cases hlt : expected < now
      · simp [classifyMissingSettlement, hdue, not_le.mpr hlt, hlt, prescribedSeverity]
      · simp [classifyMissingSettlement, hdue, not_lt.mp hlt, hlt]

/-- The statement raises what the classifier says, for every severity and every
    exposure, exactly if the transaction has an expected settlement time. -/
theorem selected_iff_classified_iff (now : ℤ) (hr : r ∈ s.silver.rows)
    (htype : r.transactionType = .credit ∨ r.transactionType = .debit)
    (hpending : r.settlementStatus = .pending) (hunmatched : s.isMatched r.id = false) :
    (∀ severity exposure,
      Selected s now r.id severity exposure ↔ Classified r now severity exposure) ↔
      r.expectedSettlementAt ≠ none := by
  constructor
  · intro hagree hnone
    -- High severity, says the classifier; the statement needs an expected time.
    have hclassified : Classified r now .high r.amountNgn :=
      classified_iff.mpr (Or.inr ⟨hnone, rfl, rfl⟩)
    have hselected := (hagree .high r.amountNgn).mpr hclassified
    rcases (selected_iff hr htype hpending hunmatched).mp hselected with ⟨expected, hsome, _⟩
    rw [hnone] at hsome
    cases hsome
  · intro hsome severity exposure
    rw [selected_iff hr htype hpending hunmatched, classified_iff]
    exact ⟨Or.inl, fun h => h.resolve_right fun hnone => hsome hnone.1⟩

end Agreement

section Exhibit

/-- A pending credit of 50000, due at an instant or at none. -/
def pendingCredit (expected : Option ℤ) : SilverRow Nat where
  id := 1
  transactionType := .credit
  settlementStatus := .pending
  amountNgn := 50000
  fxRateApplied := none
  expectedSettlementAt := expected

def pendingTables (expected : Option ℤ) : Tables Nat :=
  initial { rows := [pendingCredit expected], unique := List.nodup_singleton _ }

/-- A microsecond after two days the settlement is critical to both. -/
theorem selected_iff_classified_iff_critical :
    Classified (pendingCredit (some 0)) (hours 48 + 1) .critical 50000 ∧
      Selected (pendingTables (some 0)) (hours 48 + 1) 1 .critical 50000 := by
  have hagree := (selected_iff_classified_iff (s := pendingTables (some 0))
    (r := pendingCredit (some 0)) (hours 48 + 1) List.mem_cons_self (Or.inl rfl) rfl rfl).mpr
    (Option.some_ne_none (0 : ℤ))
  have hclassified : Classified (pendingCredit (some 0)) (hours 48 + 1) .critical 50000 := by
    decide +kernel
  exact ⟨hclassified, (hagree .critical 50000).mpr hclassified⟩

/-- Without an expected time only the classifier says anything. -/
theorem no_expected_time_is_never_selected :
    Classified (pendingCredit none) 0 .high 50000 ∧
      ¬ Selected (pendingTables none) 0 1 .high 50000 := by
  refine ⟨⟨rfl, rfl, rfl⟩, ?_⟩
  rintro ⟨o, ho, _⟩
  exact List.not_mem_nil ho

end Exhibit

end GoldCalls

end MmrEngine
