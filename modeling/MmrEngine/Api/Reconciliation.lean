import MmrEngine.Core.Datetime
import MmrEngine.Core.Score
import MmrEngine.Flows.GoldCalls
import MmrEngine.Lib.Query
import MmrEngine.Lib.Ranking
import Mathlib.Data.Prod.Lex

/-!
# The Figures of the Reconciliation API

`/exposure`, `/summary` and `/trend`: what each computes from the tables. And
the audit trail of one discrepancy, as `/discrepancies/{id}/events` shows it.

The queries read columns of Silver and of the discrepancies which no flow of
the Gold layer needs. They are given beside the tables, as functions of the id
of a row (`Columns`). The sums of `Decimal` values are exact here, as they have
no more than 28 digits. A rate in per cent, which Python rounds as a float, is
left to the reader of the counts.

## Main definitions

* `Columns`: The columns only the API reads.
* `money`: An amount as it is shown.
* `getExposure`: The open exposure by PSP and class.
* `getReconciliationSummary`: The counts of one day.
* `getTrend`: The counts of the days up to today.
* `getDiscrepancyEvents`: The audit trail of a discrepancy.
-/

namespace MmrEngine

namespace Reconciliation

open Discrepancy Gold GoldCalls Query

/-- The columns the API reads beside those of the tables: of Silver rows by
    their id, and `raised_at` of discrepancies by theirs. -/
structure Columns (T P : Type) where
  pspName : T → P
  pspTransactionRef : T → String
  initiatedAt : T → ℤ
  settledAt : T → Option ℤ
  raisedAt : Nat → ℤ

/-- `Decimal(value).quantize(Decimal("0.01"))`. -/
def money (value : ℚ) : ℚ := roundHalfEven (value * 100) / 100

/-- `status IN ('open', 'under_review', 'escalated')`. -/
def unresolved : DiscrepancyStatus → Bool
  | .open_ => true
  | .underReview => true
  | .escalated => true
  | _ => false

/-- A discrepancy is unresolved until it is closed. -/
theorem unresolved_eq (status : DiscrepancyStatus) : unresolved status = !status.closed := by
  cases status with
  | _ => rfl

/-- The position of a class in `discrepancy_class_enum`. -/
def classOrdinal : DiscrepancyType → Nat
  | .missingSettlement => 0
  | .amountMismatch => 1
  | .fxVariance => 2
  | .duplicateCredit => 3
  | .lateSettlement => 5

/-- One row of `by_psp_and_type`. -/
structure ExposureRow (P : Type) where
  pspName : P
  discrepancyType : DiscrepancyType
  openCount : Nat
  totalExposureNgn : ℚ
  deriving DecidableEq

structure Exposure (P : Type) where
  totalOpenExposureNgn : ℚ
  byPspAndType : List (ExposureRow P)
  generatedAt : ℤ

/-- The discrepancies of one class in the answer of `/summary`. -/
structure ClassCount where
  discrepancyType : DiscrepancyType
  count : Nat
  totalExposure : ℚ

structure Summary where
  reportDate : ℤ
  totalTransactions : Nat
  matched : Nat
  unmatched : ℤ
  discrepancies : List ClassCount
  generatedAt : ℤ

/-- One day in the answer of `/trend`. -/
structure TrendDay where
  date : ℤ
  total : Nat
  matched : Nat
  volumeNgn : ℚ
  discrepanciesRaised : Nat

section Queries

variable {T P : Type} [DecidableEq T] [DecidableEq P]

/-- `s.transaction_type IN ('credit', 'debit')`. -/
def creditOrDebit (r : SilverRow T) : Bool :=
  r.transactionType = .credit || r.transactionType = .debit

/-- `LEFT JOIN gold_matched_transactions m ON m.transaction_id = s.id`. -/
def silverWithMatches (s : Tables T) : List (SilverRow T × Option (MatchedRow T)) :=
  leftJoin (fun r m => decide (m.transactionId = r.id)) s.silver.rows s.matched.rows

/-- `COUNT(m.transaction_id)`. -/
def countMatched (rows : List (SilverRow T × Option (MatchedRow T))) : Nat :=
  (rows.filter fun r => r.2.isSome).length

/-- The groups of `/exposure`, the largest first. -/
def exposureRows (columns : Columns T P) (s : Tables T) : List (ExposureRow P) :=
  let joined := innerJoin (fun d r => decide (d.2.transactionId = r.id)) s.discrepancies.rows
    s.silver.rows
  let openRows := joined.filter fun r => unresolved r.1.2.row.status
  let groups := groupBy (fun r => (columns.pspName r.2.id, r.1.2.classification)) openRows
  (groups.map fun g =>
    { pspName := g.1.1
      discrepancyType := g.1.2
      openCount := g.2.length
      totalExposureNgn := totalOver (fun r => r.1.2.row.estimatedExposureNgn) g.2 }).mergeSort
    fun a b => decide (b.totalExposureNgn ≤ a.totalExposureNgn)

def getExposure (columns : Columns T P) (now : ℤ) (s : Tables T) : Exposure P :=
  let rows := exposureRows columns s
  -- The groups are added up before they are rounded.
  { totalOpenExposureNgn := money (totalOver ExposureRow.totalExposureNgn rows)
    byPspAndType := rows.map fun r => { r with totalExposureNgn := money r.totalExposureNgn }
    generatedAt := now }

/-- The discrepancies raised on a day, by class. -/
def classCounts (columns : Columns T P) (date : ℤ) (s : Tables T) : List ClassCount :=
  let raised := s.discrepancies.rows.filter fun d => lagosDate (columns.raisedAt d.1) = date
  let groups := (groupBy (fun d => d.2.classification) raised).mergeSort
    fun g g' => decide (classOrdinal g.1 ≤ classOrdinal g'.1)
  groups.map fun g =>
    { discrepancyType := g.1
      count := g.2.length
      totalExposure := money (totalOver (fun d => d.2.row.estimatedExposureNgn) g.2) }

def getReconciliationSummary (columns : Columns T P) (reportDate : Option ℤ) (now : ℤ)
    (s : Tables T) : Summary :=
  -- Without a date it is today in Lagos.
  let targetDate := reportDate.getD (lagosDate now)
  let rows := (silverWithMatches s).filter fun r =>
    creditOrDebit r.1 && decide (lagosDate (columns.initiatedAt r.1.id) = targetDate)
  { reportDate := targetDate
    totalTransactions := rows.length
    matched := countMatched rows
    unmatched := rows.length - countMatched rows
    discrepancies := classCounts columns targetDate s
    generatedAt := now }

/-- `generate_series(start, end, INTERVAL '1 day')`. -/
def generateSeries (start stop : ℤ) : List ℤ :=
  (List.range (stop + 1 - start).toNat).map fun i : Nat => start + i

/-- `days` is between 1 and 180. -/
def getTrend (columns : Columns T P) (days : ℤ) (now : ℤ) (s : Tables T) : List TrendDay :=
  let stop := lagosDate now
  -- Rows from before the first day are dropped by the shift, and the rest dated by the zone.
  let start := stop - (days - 1)
  let tx := groupBy (fun r => lagosDate (columns.initiatedAt r.1.id))
    ((silverWithMatches s).filter fun r =>
      creditOrDebit r.1 && decide (utcMidnight start - hours 1 ≤ columns.initiatedAt r.1.id))
  let disc := groupBy (fun d => lagosDate (columns.raisedAt d.1))
    (s.discrepancies.rows.filter fun d =>
      decide (utcMidnight start - hours 1 ≤ columns.raisedAt d.1))
  let joined := leftJoin (fun r g => decide (g.1 = r.1))
    (leftJoin (fun day g => decide (g.1 = day)) (generateSeries start stop) tx) disc
  -- A day without a group of its own has zeros.
  joined.map fun r =>
    { date := r.1.1
      total := (r.1.2.map fun g => g.2.length).getD 0
      matched := (r.1.2.map fun g => countMatched g.2).getD 0
      volumeNgn := money ((r.1.2.map fun g => totalOver (fun r => r.1.amountNgn) g.2).getD 0)
      discrepanciesRaised := (r.2.map fun g => g.2.length).getD 0 }

end Queries

section Events

/-- An event as it is shown. -/
structure EventView where
  action : EventAction
  fromStatus : Option DiscrepancyStatus
  toStatus : DiscrepancyStatus
  actor : String
  note : Option String
  occurredAt : String

def eventView (e : DiscrepancyEvent) : EventView where
  action := e.action
  fromStatus := e.fromStatus
  toStatus := e.toStatus
  actor := e.actor
  note := e.note
  occurredAt := Datetime.isoformat e.occurredAt

/-- `ORDER BY occurred_at, id`. -/
def eventOrder (e : DiscrepancyEvent) : ℤ ×ₗ ℕ := toLex (e.occurredAt, e.id)

/-- The events of a discrepancy; an unknown id has none. -/
def getDiscrepancyEvents (row : Option DiscrepancyRow) : List EventView :=
  (Ranking.ascending eventOrder ((row.map DiscrepancyRow.events).getD [])).map eventView

end Events

end Reconciliation

end MmrEngine
