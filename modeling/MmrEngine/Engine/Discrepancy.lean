import MmrEngine.Core.Clock
import Mathlib.Algebra.Order.AbsoluteValue.Basic

/-!
# Discrepancy Classification

What an amount delta between two matched transactions is called and how severe
it is, and the same for a settlement that never arrived.

Amounts and rates are exact, as `Decimal`s out of `NUMERIC` columns are; the
evidence keeps numbers where the source prints them.

## Main definitions

* `DiscrepancyType`, `DiscrepancySeverity`: The vocabulary.
* `DiscrepancyResult`: A classification with its evidence.
* `classifyAmountDelta`: What an amount delta is called.
* `classifyAmountDiscrepancy`: The delta of a pair, classified.
* `classifyMissingSettlement`: An overdue settlement, classified.

## Theorems

* `overdueSeverity_mono`: A settlement longer overdue is at least as severe.
-/

namespace MmrEngine

namespace Discrepancy

/-- `discrepancy_class_enum`, as far as the engine assigns it. -/
inductive DiscrepancyType where
  | missingSettlement
  | amountMismatch
  | fxVariance
  | duplicateCredit
  | lateSettlement
  deriving DecidableEq, Repr

inductive DiscrepancySeverity where
  | low
  | medium
  | high
  | critical
  deriving DecidableEq, Repr

/-- The order of the severities. -/
def DiscrepancySeverity.rank : DiscrepancySeverity → Nat
  | .low => 0
  | .medium => 1
  | .high => 2
  | .critical => 3

/-- The evidence dictionaries of the classifications. -/
inductive DiscrepancyEvidence where
  | withinThreshold (deltaPct : ℚ)
  | amounts (amountANgn amountBNgn deltaNgn deltaPct : ℚ) (fxVariance : Option ℚ)
      (classification : DiscrepancyType)
  | noExpectation (reason : String) (amountNgn : ℚ)
  | notDue (reason : String)
  | overdue (expectedSettlementAt : ℤ) (overdueHours amountNgn : ℚ)
  deriving DecidableEq

/-- Result of classifying a potential discrepancy. -/
structure DiscrepancyResult where
  discrepancyType : Option DiscrepancyType
  severity : Option DiscrepancySeverity
  estimatedExposureNgn : ℚ
  evidence : DiscrepancyEvidence
  requiresAction : Bool
  deriving DecidableEq

/-- Within 0.5% is rounding or fee noise, not a discrepancy. -/
def amountThresholdPct : ℚ := 0.005

/-- How closely the rate movement must account for the delta. -/
def fxExplanationTolerancePct : ℚ := 0.0025

/-- The delta between two amounts, relative to the first. -/
def deltaPct (amountANgn amountBNgn : ℚ) : ℚ :=
  if 0 < amountANgn then |amountANgn - amountBNgn| / amountANgn else 0

/-- What the delta is called, and whether it is within the threshold. -/
def classifyAmountDelta (amountANgn amountBNgn : ℚ) (fxVariancePct : Option ℚ) :
    Option DiscrepancyType × Bool :=
  -- Nothing has arrived on the other side.
  if amountBNgn = 0 then (some .missingSettlement, false)
  else if deltaPct amountANgn amountBNgn ≤ amountThresholdPct then (none, true)
  else
    match fxVariancePct with
    | some fx =>
      -- The rates have to have moved about as far as the amounts are apart.
      if 0 < fx ∧ |deltaPct amountANgn amountBNgn - fx| ≤ fxExplanationTolerancePct then
        (some .fxVariance, false)
      else (some .amountMismatch, false)
    | none => (some .amountMismatch, false)

/-- The relative rate movement between two legs, where both rates are known. -/
def fxVariance (fxRateA fxRateB : Option ℚ) : Option ℚ :=
  match fxRateA, fxRateB with
  | some ra, some rb => if ra ≠ 0 ∧ rb ≠ 0 ∧ 0 < ra then some (|ra - rb| / ra) else none
  | _, _ => none

/-- Classify an amount discrepancy between matched transactions. -/
def classifyAmountDiscrepancy (amountANgn amountBNgn : ℚ) (fxRateA fxRateB : Option ℚ) :
    DiscrepancyResult :=
  let delta := |amountANgn - amountBNgn|
  let pct := deltaPct amountANgn amountBNgn
  let fx := fxVariance fxRateA fxRateB
  match (classifyAmountDelta amountANgn amountBNgn fx).1 with
  | none =>
    { discrepancyType := none
      severity := none
      estimatedExposureNgn := 0
      evidence := .withinThreshold pct
      requiresAction := false }
  | some classification =>
    let severity : DiscrepancySeverity :=
      if classification = .fxVariance then .low else if 0.01 < pct then .high else .medium
    { discrepancyType := some classification
      severity := some severity
      estimatedExposureNgn := delta
      evidence := .amounts amountANgn amountBNgn delta pct (fx.filter (· ≠ 0)) classification
      requiresAction := classification ≠ .fxVariance }

/-- Severity grows with how overdue a settlement is. -/
def overdueSeverity (overdueHours : ℚ) : DiscrepancySeverity :=
  if 48 < overdueHours then .critical else if 24 < overdueHours then .high else .medium

/-- Classify a transaction whose settlement is missing. -/
def classifyMissingSettlement (amountNgn : ℚ) (expectedSettlementAt : Option ℤ)
    (currentTime : ℤ) : DiscrepancyResult :=
  match expectedSettlementAt with
  | none =>
    { discrepancyType := some .missingSettlement
      severity := some .high
      estimatedExposureNgn := amountNgn
      evidence := .noExpectation "No expected settlement time configured" amountNgn
      requiresAction := true }
  | some expected =>
    let overdueSeconds := totalSeconds (currentTime - expected)
    if overdueSeconds ≤ 0 then
      { discrepancyType := none
        severity := none
        estimatedExposureNgn := 0
        evidence := .notDue "Settlement not yet due"
        requiresAction := false }
    else
      let overdueHours := overdueSeconds / 3600
      { discrepancyType := some .missingSettlement
        severity := some (overdueSeverity overdueHours)
        estimatedExposureNgn := amountNgn
        evidence := .overdue expected overdueHours amountNgn
        requiresAction := true }

theorem overdueSeverity_mono {h h' : ℚ} (hle : h ≤ h') :
    (overdueSeverity h).rank ≤ (overdueSeverity h').rank := by
  unfold overdueSeverity
  by_cases h48 : 48 < h'
  · rw [if_pos h48]
    split_ifs <;> decide
  · have h48' : ¬ 48 < h := fun hc => h48 (lt_of_lt_of_le hc hle)
    rw [if_neg h48, if_neg h48']
    by_cases h24 : 24 < h'
    · rw [if_pos h24]
      split_ifs <;> decide
    · have h24' : ¬ 24 < h := fun hc => h24 (lt_of_lt_of_le hc hle)
      rw [if_neg h24, if_neg h24']

end Discrepancy

end MmrEngine
