import MmrEngine.Api.Reconciliation

/-!
# The Summary View

The query of the materialized view `gold_reconciliation_summary`, as a refresh
computes it.

The view joins each transaction with its match and with the counts of its
discrepancies, which are grouped by transaction first, and groups the result by
day and PSP.

## Main definitions

* `TxRow`, `DiscRow`: The rows of the two common table expressions.
* `SummaryRow`: A row of the view.
* `txRows`, `discRows`: The common table expressions.
* `goldReconciliationSummary`: The view.
-/

namespace MmrEngine

namespace Reconciliation

open Discrepancy Gold GoldCalls Query

/-- A row of `tx`. -/
structure TxRow (T P : Type) where
  id : T
  summaryDate : ℤ
  pspName : P
  amountNgn : ℚ
  settledAt : Option ℤ
  expectedSettlementAt : Option ℤ
  isMatched : Bool

/-- A row of `disc`. -/
structure DiscRow (T : Type) where
  transactionId : T
  openCount : Nat
  resolvedCount : Nat
  openExposure : ℚ

/-- A row of `gold_reconciliation_summary`. -/
structure SummaryRow (P : Type) where
  summaryDate : ℤ
  pspName : P
  totalTransactions : Nat
  totalVolumeNgn : ℚ
  totalMatched : Nat
  matchedVolumeNgn : ℚ
  matchRatePct : Option ℚ
  openDiscrepancyCount : Nat
  resolvedDiscrepancyCount : Nat
  openExposureNgn : ℚ
  slaBreachCount : Nat
  lastRefreshedAt : ℤ
  deriving DecidableEq

/-- `ROUND(matched * 100.0 / NULLIF(total, 0), 4)`. -/
def matchRatePct (matched total : Nat) : Option ℚ :=
  if total = 0 then none else some (⌊(matched : ℚ) * 100 / total * 10 ^ 4 + 1 / 2⌋ / 10 ^ 4)

/-- `expected_settlement_at IS NOT NULL AND COALESCE(settled_at, NOW()) > ...`. -/
def slaBreach (now : ℤ) (settledAt expectedSettlementAt : Option ℤ) : Bool :=
  match expectedSettlementAt with
  | none => false
  | some expected => decide (expected < settledAt.getD now)

section View

variable {T P : Type} [DecidableEq T] [DecidableEq P]

/-- `WITH tx AS (...)`. -/
def txRows (columns : Columns T P) (s : Tables T) : List (TxRow T P) :=
  ((silverWithMatches s).filter fun r => creditOrDebit r.1).map fun r =>
    { id := r.1.id
      summaryDate := lagosDate (columns.initiatedAt r.1.id)
      pspName := columns.pspName r.1.id
      amountNgn := r.1.amountNgn
      settledAt := columns.settledAt r.1.id
      expectedSettlementAt := r.1.expectedSettlementAt
      isMatched := r.2.isSome }

/-- A group of `disc`. -/
def discRow (g : T × List (Nat × DiscrepancyRecord T)) : DiscRow T where
  transactionId := g.1
  openCount := (g.2.filter fun d => unresolved d.2.row.status).length
  resolvedCount := (g.2.filter fun d => d.2.row.status.closed).length
  openExposure := totalOver (fun d => d.2.row.estimatedExposureNgn)
    (g.2.filter fun d => unresolved d.2.row.status)

/-- `disc AS (...)`. -/
def discRows (s : Tables T) : List (DiscRow T) :=
  (groupBy (fun d => d.2.transactionId) s.discrepancies.rows).map discRow

/-- A group of the view. -/
def summaryRow (now : ℤ) (g : (ℤ × P) × List (TxRow T P × Option (DiscRow T))) : SummaryRow P where
  summaryDate := g.1.1
  pspName := g.1.2
  totalTransactions := g.2.length
  totalVolumeNgn := totalOver (fun r => r.1.amountNgn) g.2
  totalMatched := (g.2.filter fun r => r.1.isMatched).length
  matchedVolumeNgn := totalOver (fun r => r.1.amountNgn) (g.2.filter fun r => r.1.isMatched)
  matchRatePct := matchRatePct (g.2.filter fun r => r.1.isMatched).length g.2.length
  openDiscrepancyCount := totalOver (fun r => (r.2.map DiscRow.openCount).getD 0) g.2
  resolvedDiscrepancyCount := totalOver (fun r => (r.2.map DiscRow.resolvedCount).getD 0) g.2
  openExposureNgn := totalOver (fun r => (r.2.map DiscRow.openExposure).getD 0) g.2
  slaBreachCount :=
    (g.2.filter fun r => slaBreach now r.1.settledAt r.1.expectedSettlementAt).length
  lastRefreshedAt := now

/-- The view after `refresh_reconciliation_summary()` at `now`. -/
def goldReconciliationSummary (columns : Columns T P) (now : ℤ) (s : Tables T) :
    List (SummaryRow P) :=
  let joined := leftJoin (fun tx disc => decide (disc.transactionId = tx.id)) (txRows columns s)
    (discRows s)
  -- Whatever a join repeated would be counted twice from here on.
  (groupBy (fun r => (r.1.summaryDate, r.1.pspName)) joined).map (summaryRow now)

end View

end Reconciliation

end MmrEngine
