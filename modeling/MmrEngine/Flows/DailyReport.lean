import MmrEngine.Engine.CbnReport

/-!
# The Daily Return Flow

What `build_and_store_return` makes of the rows its two queries find, up to the
values of its `INSERT`.

The first query joins the transactions of the day, credits and debits only, with
their matches. Each becomes a dictionary with all its keys, the time it was
initiated as text. Credits and debits are summed up a second time, and stored
beside the summary, which goes along as the payload.

## Main definitions

* `DayTransaction`, `DayDiscrepancy`: A row of each query.
* `ReturnRow`: The values of the `INSERT`.
* `returnRow`: How it is made.
-/

namespace MmrEngine

namespace CbnReport

open Gold Query

/-- A transaction of the day. -/
structure DayTransaction where
  pspName : String
  transactionType : TransactionType
  amountNgn : ℚ
  originalCurrency : String
  beneficiaryAccountMasked : Option String
  initiatedAt : UtcDatetime
  matchStatus : MatchStatus
  -- `WHERE s.transaction_type IN ('credit', 'debit')`
  creditOrDebit : transactionType = .credit ∨ transactionType = .debit

/-- `{**dict(t), "timestamp": t["initiated_at"].isoformat()}`. -/
def DayTransaction.toTransaction (t : DayTransaction) : Transaction where
  amountNgn := some t.amountNgn
  pspName := some t.pspName
  matchStatus := some t.matchStatus
  originalCurrency := some t.originalCurrency
  beneficiaryAccountMasked := some t.beneficiaryAccountMasked
  timestamp := some t.initiatedAt.isoformat

/-- A discrepancy of the day, with its `estimated_exposure_ngn`. -/
structure DayDiscrepancy where
  status : DiscrepancyStatus
  amountNgn : ℚ

def DayDiscrepancy.toItem (d : DayDiscrepancy) : DiscrepancyItem where
  status := some d.status
  amountNgn := some d.amountNgn

/-- A row for `gold_cbn_daily_returns` as the `INSERT` has it, before `NUMERIC(25,
    2)` rounds the volumes and the exposure. -/
structure ReturnRow (F : Type) where
  returnDate : ℤ
  totalTransactionCount : Nat
  totalCreditCount : Nat
  totalDebitCount : Nat
  totalCreditVolumeNgn : ℚ
  totalDebitVolumeNgn : ℚ
  crossBorderCount : Nat
  crossBorderVolumeNgn : ℚ
  suspiciousTxCount : Nat
  unreconciledCount : Nat
  unreconciledExposureNgn : ℚ
  matchedCount : Nat
  matchRatePct : Option F
  openDiscrepancyCount : Nat
  reportPayload : CBNDailySummary F

/-- The values `build_and_store_return` passes to its `INSERT`. -/
def returnRow {F : Type} [Zero F] (matchRate : Nat → Nat → F) (reportDate : ℤ)
    (txns : List DayTransaction) (discs : List DayDiscrepancy) : ReturnRow F :=
  let summary := generateDailyReturn matchRate reportDate (txns.map DayTransaction.toTransaction)
    (discs.map DayDiscrepancy.toItem)
  let credits := txns.filter fun t => t.transactionType = .credit
  let debits := txns.filter fun t => t.transactionType = .debit
  { returnDate := reportDate
    totalTransactionCount := summary.totalTransactions
    totalCreditCount := credits.length
    totalDebitCount := debits.length
    totalCreditVolumeNgn := totalOver DayTransaction.amountNgn credits
    totalDebitVolumeNgn := totalOver DayTransaction.amountNgn debits
    crossBorderCount := summary.crossBorderCount
    crossBorderVolumeNgn := summary.crossBorderVolumeNgn
    suspiciousTxCount := summary.suspiciousTransactionCount
    unreconciledCount := summary.unmatchedTransactions
    unreconciledExposureNgn := summary.totalExposureNgn
    matchedCount := summary.matchedTransactions
    -- `summary.match_rate_pct if summary.total_transactions else None`
    matchRatePct := if summary.totalTransactions = 0 then none else some summary.matchRatePct
    openDiscrepancyCount := summary.openDiscrepancies
    reportPayload := summary }

end CbnReport

end MmrEngine
