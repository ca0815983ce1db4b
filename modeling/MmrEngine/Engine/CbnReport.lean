import MmrEngine.Core.Datetime
import MmrEngine.Core.UtcDatetime
import MmrEngine.Flows.Gold
import MmrEngine.Lib.Ranking
import MmrEngine.Lib.Tally
import Mathlib.Data.String.Basic

/-!
# The Daily Return

The summary of a day's transactions and discrepancies for the experimental
daily return: one loop over the transactions for the totals and the breakdown by
PSP, one over the discrepancies, and two heuristics.

The rows are dictionaries, so each value has the default it is looked up with.
The money is exact. The match rate is a float; how it is computed from the two
counts is a parameter.

## Main definitions

* `Transaction`, `DiscrepancyItem`: The rows, as far as they are read.
* `PspTotals`, `CBNDailySummary`: The figures.
* `addTransaction`, `addDiscrepancy`: One round of each loop.
* `detectSuspicious`, `detectVelocityAnomalies`: The heuristics.
* `generateDailyReturn`: The summary.
-/

namespace MmrEngine

/-- `isoformat()` of a date. -/
def dateIsoformat (date : ℤ) : String := (Datetime.ofInstant (utcMidnight date)).strftimeDate

namespace CbnReport

open Gold

inductive ReportStatus where
  | draft
  | generated
  | reviewed
  | submitted
  | failed
  deriving DecidableEq, Repr

/-- The two values of `match_status`. -/
inductive MatchStatus where
  | matched
  | unmatched
  deriving DecidableEq, Repr

/-- A transaction as a dictionary; a beneficiary can be there and be `None`. -/
structure Transaction where
  amountNgn : Option ℚ
  pspName : Option String
  matchStatus : Option MatchStatus
  originalCurrency : Option String
  beneficiaryAccountMasked : Option (Option String)
  timestamp : Option String

namespace Transaction

/-- `txn.get("amount_ngn", 0)`. -/
def amount (txn : Transaction) : ℚ := txn.amountNgn.getD 0

/-- `txn.get("psp_name", "unknown")`. -/
def psp (txn : Transaction) : String := txn.pspName.getD "unknown"

/-- `txn.get("match_status") == "matched"`. -/
def isMatched (txn : Transaction) : Bool := txn.matchStatus = some .matched

/-- `txn.get("original_currency", "NGN")`. -/
def currency (txn : Transaction) : String := txn.originalCurrency.getD "NGN"

/-- `currency != "NGN"`. -/
def crossBorder (txn : Transaction) : Bool := txn.currency ≠ "NGN"

/-- `txn.get("beneficiary_account_masked", "unknown")`. -/
def beneficiary (txn : Transaction) : Option String :=
  txn.beneficiaryAccountMasked.getD (some "unknown")

/-- `txn.get("timestamp", "")`. -/
def timestampText (txn : Transaction) : String := txn.timestamp.getD ""

end Transaction

/-- A discrepancy as a dictionary. -/
structure DiscrepancyItem where
  status : Option DiscrepancyStatus
  amountNgn : Option ℚ

/-- What `psp_breakdown` has for one PSP. -/
structure PspTotals where
  count : Nat
  volumeNgn : ℚ
  matched : Nat
  unmatched : Nat
  deriving DecidableEq

def PspTotals.zero : PspTotals where
  count := 0
  volumeNgn := 0
  matched := 0
  unmatched := 0

def PspTotals.add (totals : PspTotals) (txn : Transaction) : PspTotals where
  count := totals.count + 1
  volumeNgn := totals.volumeNgn + txn.amount
  matched := if txn.isMatched then totals.matched + 1 else totals.matched
  unmatched := if txn.isMatched then totals.unmatched else totals.unmatched + 1

/-- The summary, but for its random id and the time it was made. -/
structure CBNDailySummary (F : Type) where
  reportDate : String
  status : ReportStatus
  totalTransactions : Nat
  totalVolumeNgn : ℚ
  matchedTransactions : Nat
  unmatchedTransactions : Nat
  matchRatePct : F
  pspBreakdown : OrderedDict String PspTotals
  crossBorderCount : Nat
  crossBorderVolumeNgn : ℚ
  crossBorderCurrencies : List String
  openDiscrepancies : Nat
  resolvedDiscrepancies : Nat
  totalExposureNgn : ℚ
  suspiciousTransactionCount : Nat
  velocityAnomalyCount : Nat

/-! ### The heuristics -/

/-- `_detect_suspicious`. -/
def detectSuspicious (transactions : List Transaction) : Nat :=
  (transactions.filter fun txn => 4500000 ≤ txn.amount ∧ txn.amount < 5000000).length

/-- `by_beneficiary`. -/
def byBeneficiary (transactions : List Transaction) :
    OrderedDict (Option String) (List String) :=
  OrderedDict.tallyAll Transaction.beneficiary []
    (fun timestamps txn => timestamps ++ [txn.timestampText]) .empty transactions

/-- `(t2 - t1).total_seconds() < 600`, in microseconds: a float of seconds is not
    rounded as far as 600 from below. -/
def within10Minutes (t1 t2 : UtcDatetime) : Bool := (t2.instant : ℤ) - t1.instant < 600 * 1000000

/-- The comparison at one index. A text that is no timestamp is passed over. -/
def anomalyAt (sortedTs : List String) (i : Nat) : Bool :=
  match sortedTs[i]?.bind UtcDatetime.fromisoformat,
      sortedTs[i + 5]?.bind UtcDatetime.fromisoformat with
  | some t1, some t2 => within10Minutes t1 t2
  | _, _ => false

/-- Whether a group is counted; the loop ends with its first anomaly. -/
def anomalous (timestamps : List String) : Bool :=
  let sortedTs := Ranking.ascending id timestamps
  5 < timestamps.length && (List.range (sortedTs.length - 5)).any (anomalyAt sortedTs)

/-- `_detect_velocity_anomalies`. -/
def detectVelocityAnomalies (transactions : List Transaction) : Nat :=
  ((byBeneficiary transactions).entries.filter fun entry => anomalous entry.2).length

/-! ### The summary -/

section Summary

variable {F : Type} [Zero F]

/-- A summary as it is made. -/
def CBNDailySummary.new (reportDate : ℤ) : CBNDailySummary F where
  reportDate := dateIsoformat reportDate
  status := .draft
  totalTransactions := 0
  totalVolumeNgn := 0
  matchedTransactions := 0
  unmatchedTransactions := 0
  matchRatePct := 0
  pspBreakdown := .empty
  crossBorderCount := 0
  crossBorderVolumeNgn := 0
  crossBorderCurrencies := []
  openDiscrepancies := 0
  resolvedDiscrepancies := 0
  totalExposureNgn := 0
  suspiciousTransactionCount := 0
  velocityAnomalyCount := 0

omit [Zero F] in
/-- One round of the loop over the transactions. -/
def addTransaction (summary : CBNDailySummary F) (txn : Transaction) : CBNDailySummary F :=
  let summary := { summary with
    totalVolumeNgn := summary.totalVolumeNgn + txn.amount
    pspBreakdown :=
      OrderedDict.tally Transaction.psp PspTotals.zero PspTotals.add summary.pspBreakdown txn }
  let summary :=
    if txn.isMatched then
      { summary with matchedTransactions := summary.matchedTransactions + 1 }
    else { summary with unmatchedTransactions := summary.unmatchedTransactions + 1 }
  if txn.crossBorder then
    { summary with
      crossBorderCount := summary.crossBorderCount + 1
      crossBorderVolumeNgn := summary.crossBorderVolumeNgn + txn.amount
      crossBorderCurrencies :=
        if txn.currency ∈ summary.crossBorderCurrencies then summary.crossBorderCurrencies
        else summary.crossBorderCurrencies ++ [txn.currency] }
  else summary

omit [Zero F] in
/-- One round of the loop over the discrepancies. -/
def addDiscrepancy (summary : CBNDailySummary F) (disc : DiscrepancyItem) : CBNDailySummary F :=
  if disc.status = some .open_ then
    { summary with
      openDiscrepancies := summary.openDiscrepancies + 1
      totalExposureNgn := summary.totalExposureNgn + disc.amountNgn.getD 0 }
  else if disc.status = some .resolved then
    { summary with resolvedDiscrepancies := summary.resolvedDiscrepancies + 1 }
  else summary

/-- `round((matched / total) * 100, 2)` is `matchRate matched total`. -/
def generateDailyReturn (matchRate : Nat → Nat → F) (reportDate : ℤ)
    (transactions : List Transaction) (discrepancies : List DiscrepancyItem) :
    CBNDailySummary F :=
  let summary := { CBNDailySummary.new reportDate with totalTransactions := transactions.length }
  let summary := transactions.foldl addTransaction summary
  let summary :=
    if 0 < summary.totalTransactions then
      { summary with
        matchRatePct := matchRate summary.matchedTransactions summary.totalTransactions }
    else summary
  let summary := discrepancies.foldl addDiscrepancy summary
  { summary with
    suspiciousTransactionCount := detectSuspicious transactions
    velocityAnomalyCount := detectVelocityAnomalies transactions
    status := .generated }

end Summary

end CbnReport

end MmrEngine
