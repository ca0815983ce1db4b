import MmrEngine.Flows.DailyReport
import MmrEngine.Lib.UniqueTable

/-!
# The Stored Returns

What `build_and_store_return` leaves in `gold_cbn_daily_returns`, over any number
of calls.

There is one return for a date. It is generated as a draft and generated again
by every call for the date, until somebody approves or submits it; from then on
a call finds it locked, writes nothing and says so. Its status is changed by
hand, and so it may become a draft again.

A call finds the transactions and discrepancies of the day as they are then, so
they are given with it. Amounts are positive in Silver, so the checks on the
volumes do not fail, and the rounding to kobo of what is stored is left out.

## Main definitions

* `StoredReturn`, `ReturnTable`: The returns.
* `storeReturn`: The upsert.
* `buildAndStoreReturn`: A call, with its reply.
* `ReturnCall`, `afterCalls`: Calls and changes of status, in order.
-/

namespace MmrEngine

namespace CbnReport

/-- `cbn_submission_status_enum`. -/
inductive SubmissionStatus where
  | draft
  | approved
  | submitted
  | acknowledged
  deriving DecidableEq, Repr

/-- A row of `gold_cbn_daily_returns`. -/
structure StoredReturn (F : Type) where
  figures : ReturnRow F
  generatedAt : ℤ
  generatedByRunId : Nat
  submissionStatus : SubmissionStatus

def StoredReturn.returnDate {F : Type} (r : StoredReturn F) : ℤ := r.figures.returnDate

/-- `gold_cbn_daily_returns`, unique by date. -/
abbrev ReturnTable (F : Type) := UniqueTable (StoredReturn.returnDate (F := F))

/-- What a call returns. -/
structure StoreReply where
  reportDate : String
  stored : Bool
  totalTransactions : Nat
  deriving DecidableEq

section Store

variable {F : Type}

/-- `DO UPDATE SET`: the row with other figures, in its status. -/
def StoredReturn.regenerate (now : ℤ) (runId : Nat) (figures : ReturnRow F)
    (r : StoredReturn F) : StoredReturn F :=
  { r with figures := figures, generatedAt := now, generatedByRunId := runId }

/-- The update leaves every date as it is. -/
theorem returnDate_regenerated (now : ℤ) (runId : Nat) (figures : ReturnRow F)
    (r : StoredReturn F) :
    (if r.returnDate = figures.returnDate then r.regenerate now runId figures else r).returnDate
      = r.returnDate := by
  split
  · next h => exact h.symm
  · rfl

/-- `INSERT ... ON CONFLICT (return_date) DO UPDATE ... WHERE submission_status =
    'draft'`, and whether it wrote a row. -/
def storeReturn (now : ℤ) (runId : Nat) (figures : ReturnRow F) (t : ReturnTable F) :
    ReturnTable F × Bool :=
  match h : t.find? figures.returnDate with
  | none =>
    (t.insert
      { figures := figures
        generatedAt := now
        generatedByRunId := runId
        submissionStatus := .draft } h, true)
  | some r =>
    if r.submissionStatus = .draft then
      (t.modify
        (fun r => if r.returnDate = figures.returnDate then r.regenerate now runId figures else r)
        (returnDate_regenerated now runId figures), true)
    else (t, false)

variable [Zero F] (matchRate : Nat → Nat → F)

/-- `build_and_store_return`, for what its queries find. -/
def buildAndStoreReturn (now : ℤ) (runId : Nat) (reportDate : ℤ) (txns : List DayTransaction)
    (discs : List DayDiscrepancy) (t : ReturnTable F) : ReturnTable F × StoreReply :=
  let figures := returnRow matchRate reportDate txns discs
  let result := storeReturn now runId figures t
  (result.1,
    { reportDate := dateIsoformat reportDate
      stored := result.2
      totalTransactions := figures.totalTransactionCount })

/-- A call of the flow, or a change of a status by hand. -/
inductive ReturnCall where
  | store (now : ℤ) (runId : Nat) (reportDate : ℤ) (txns : List DayTransaction)
      (discs : List DayDiscrepancy)
  | setStatus (reportDate : ℤ) (status : SubmissionStatus)

omit [Zero F] in
theorem returnDate_setStatus (date : ℤ) (status : SubmissionStatus) (r : StoredReturn F) :
    (if r.returnDate = date then { r with submissionStatus := status } else r).returnDate
      = r.returnDate := by
  split
  · rfl
  · rfl

/-- What it makes of the table. -/
def ReturnCall.exec (t : ReturnTable F) : ReturnCall → ReturnTable F
  | .store now runId reportDate txns discs =>
    (buildAndStoreReturn matchRate now runId reportDate txns discs t).1
  | .setStatus date status =>
    t.modify (fun r => if r.returnDate = date then { r with submissionStatus := status } else r)
      (returnDate_setStatus date status)

/-- The table after some calls. -/
def afterCalls (calls : List ReturnCall) : ReturnTable F :=
  calls.foldl (ReturnCall.exec matchRate) (UniqueTable.empty _)

end Store

end CbnReport

end MmrEngine
