import MmrEngine.Engine.Discrepancy
import MmrEngine.Engine.Normaliser
import MmrEngine.Lib.OwnedTable
import MmrEngine.Lib.RowStore
import Mathlib.Data.Rat.Floor

/-!
# The Gold Tables

The rows of the Gold layer and what the statements of the matching flow and of
the resolution API do to one row.

A discrepancy is kept together with its audit trail. The events table is
append-only, and whoever appends an event for a discrepancy has inserted,
updated or locked its row in the same transaction, so the trail is written
under the row's lock and belongs to it. The ids of the events come from one
sequence for the whole table.

`(transaction_id, classification)` is unique, and rows are never deleted, so
that pair names a discrepancy as well as its id does.

The Silver rows are read here and never written.

## Main definitions

* `SilverRow`, `PairRow`, `DiscrepancyRow`, `DiscrepancyEvent`: The rows.
* `PairPlan`: One pair as `persist_pairs` is given it.
* `amountFinding`: The discrepancy a pair's amount delta raises, if any.
* `overdue`: The transactions the missing-settlement statement selects.
* `newDiscrepancy`: A discrepancy as it is raised.
* `upsertMissingSettlement`: What that statement does to one row.
* `closeDiscrepancy`: What resolving does to one row.
-/

namespace MmrEngine

namespace Gold

open Discrepancy

/-- `discrepancy_status_enum`. -/
inductive DiscrepancyStatus where
  | open_
  | underReview
  | resolved
  | falsePositive
  | escalated
  deriving DecidableEq, Repr

/-- `status in ("resolved", "false_positive")`. -/
def DiscrepancyStatus.closed : DiscrepancyStatus → Bool
  | .resolved => true
  | .falsePositive => true
  | _ => false

/-- The outcomes of `ResolveRequest`. -/
inductive Outcome where
  | resolved
  | falsePositive
  deriving DecidableEq, Repr

def Outcome.status : Outcome → DiscrepancyStatus
  | .resolved => .resolved
  | .falsePositive => .falsePositive

/-- The actions the code writes into the audit trail. -/
inductive EventAction where
  | raised
  | severityChanged
  | resolved
  | markedFalsePositive
  deriving DecidableEq, Repr

/-- Whether the action closes the discrepancy. -/
def EventAction.closing : EventAction → Bool
  | .resolved => true
  | .markedFalsePositive => true
  | _ => false

def Outcome.action : Outcome → EventAction
  | .resolved => .resolved
  | .falsePositive => .markedFalsePositive

/-- A row of `gold_discrepancy_events`. -/
structure DiscrepancyEvent where
  id : Nat
  action : EventAction
  fromStatus : Option DiscrepancyStatus
  toStatus : DiscrepancyStatus
  actor : String
  note : Option String
  occurredAt : ℤ
  deriving DecidableEq

/-- A row of `gold_discrepancies` with its events in insertion order. -/
structure DiscrepancyRow where
  reconciliationPairId : Option Nat
  severity : DiscrepancySeverity
  estimatedExposureNgn : ℚ
  evidence : DiscrepancyEvidence
  status : DiscrepancyStatus
  resolvedAt : Option ℤ
  resolvedBy : Option String
  resolutionNote : Option String
  events : List DiscrepancyEvent
  deriving DecidableEq

/-- The statuses of a pair the pipeline writes. -/
inductive PairStatus where
  | matched
  | discrepancy
  deriving DecidableEq, Repr

/-- A row of `gold_reconciliation_pairs`; `xmin` is the transaction that
    inserted it. -/
structure PairRow (T : Type) where
  a : T
  b : T
  amountANgn : ℚ
  amountBNgn : ℚ
  amountDeltaNgn : ℚ
  status : PairStatus
  xmin : Nat
  deriving DecidableEq

/-- A row of `silver_canonical_transactions` as the Gold flows read it. -/
structure SilverRow (T : Type) where
  id : T
  transactionType : TransactionType
  settlementStatus : SettlementStatus
  amountNgn : ℚ
  fxRateApplied : Option ℚ
  expectedSettlementAt : Option ℤ
  deriving DecidableEq

/-- One pair for `persist_pairs`: its two candidates and `amount_delta_ngn`. -/
structure PairPlan (T : Type) where
  a : T
  b : T
  amountANgn : ℚ
  amountBNgn : ℚ
  amountDeltaNgn : Option ℚ
  deriving DecidableEq

/-- The pair row as it is inserted. -/
def PairPlan.row {T : Type} (p : PairPlan T) (t : Nat) : PairRow T where
  a := p.a
  b := p.b
  amountANgn := p.amountANgn
  amountBNgn := p.amountBNgn
  amountDeltaNgn := p.amountDeltaNgn.getD 0
  status := .matched
  xmin := t

/-- `SELECT id, fx_rate_applied`, looked up for one transaction. -/
def fxRateOf {T : Type} [DecidableEq T] (silver : List (SilverRow T)) (id : T) : Option ℚ :=
  (silver.find? fun r => r.id = id).bind SilverRow.fxRateApplied

/-- A discrepancy about to be raised: its class and what the row will say. -/
structure Finding where
  classification : DiscrepancyType
  severity : DiscrepancySeverity
  exposure : ℚ
  evidence : DiscrepancyEvidence
  deriving DecidableEq

/-- The discrepancy the delta of a pair raises. -/
def amountFinding {T : Type} [DecidableEq T] (silver : List (SilverRow T)) (p : PairPlan T) :
    Option Finding :=
  -- Without a delta, and for amounts that are equal, nothing is classified.
  if 0 < p.amountDeltaNgn.getD 0 then
    let result := classifyAmountDiscrepancy p.amountANgn p.amountBNgn (fxRateOf silver p.a)
      (fxRateOf silver p.b)
    match result.discrepancyType, result.severity with
    | some classification, some severity =>
      some { classification := classification
             severity := severity
             exposure := result.estimatedExposureNgn
             evidence := result.evidence }
    | _, _ => none
  else none

/-- A row of the `overdue` query. -/
structure Overdue (T : Type) where
  transactionId : T
  amountNgn : ℚ
  expectedSettlementAt : ℤ
  overdueHours : ℚ
  deriving DecidableEq

/-- `ROUND(x, 2)` of a positive number. -/
def sqlRound2 (x : ℚ) : ℚ := ⌊x * 100 + 1 / 2⌋ / 100

def Overdue.finding {T : Type} (o : Overdue T) : Finding where
  classification := .missingSettlement
  severity := overdueSeverity o.overdueHours
  exposure := o.amountNgn
  evidence := .overdue o.expectedSettlementAt (sqlRound2 o.overdueHours) o.amountNgn

/-- A Silver row as the `overdue` query selects it, if it does. -/
def overdueRow {T : Type} (matched : T → Bool) (now : ℤ) (s : SilverRow T) : Option (Overdue T) :=
  match s.expectedSettlementAt with
  | none => none
  | some expected =>
    if (s.transactionType = .credit ∨ s.transactionType = .debit) ∧
        s.settlementStatus = .pending ∧ expected < now ∧ matched s.id = false then
      some { transactionId := s.id
             amountNgn := s.amountNgn
             expectedSettlementAt := expected
             overdueHours := totalSeconds (now - expected) / 3600 }
    else none

/-- `WITH overdue AS (...)`: pending, past due, and not matched. -/
def overdue {T : Type} (silver : List (SilverRow T)) (matched : T → Bool) (now : ℤ) :
    List (Overdue T) := silver.filterMap (overdueRow matched now)

/-- The actor of the events the matching flow writes. -/
def systemActor : String := "system:matching-flow"

/-- The event of a discrepancy being raised. -/
def raisedEvent (id : Nat) (now : ℤ) : DiscrepancyEvent where
  id := id
  action := .raised
  fromStatus := none
  toStatus := .open_
  actor := systemActor
  note := none
  occurredAt := now

/-- A discrepancy as it is raised, for a pair or for none. -/
def newDiscrepancy (pairId : Option Nat) (f : Finding) (eventId : Nat) (now : ℤ) :
    DiscrepancyRow where
  reconciliationPairId := pairId
  severity := f.severity
  estimatedExposureNgn := f.exposure
  evidence := f.evidence
  status := .open_
  resolvedAt := none
  resolvedBy := none
  resolutionNote := none
  events := [raisedEvent eventId now]

/-- The event of an open discrepancy changing its severity. -/
def severityChangedEvent (id : Nat) (now : ℤ) : DiscrepancyEvent where
  id := id
  action := .severityChanged
  fromStatus := some .open_
  toStatus := .open_
  actor := systemActor
  note := none
  occurredAt := now

/-- The row with another severity and the event saying so. -/
def changeSeverity (f : Finding) (eventId : Nat) (now : ℤ) (d : DiscrepancyRow) : DiscrepancyRow :=
  { d with
    severity := f.severity
    evidence := f.evidence
    events := d.events ++ [severityChangedEvent eventId now] }

/-- `ON CONFLICT DO UPDATE`: raise the discrepancy, or give an open one its
    new severity. A closed row, or one of the same severity, stays as it is. -/
def upsertMissingSettlement (f : Finding) (eventId : Nat) (now : ℤ) :
    Option DiscrepancyRow → Option DiscrepancyRow
  | none => some (newDiscrepancy none f eventId now)
  | some d =>
    if d.status = .open_ ∧ d.severity ≠ f.severity then some (changeSeverity f eventId now d)
    else some d

/-- What an analyst says when closing a discrepancy. -/
structure Closing where
  outcome : Outcome
  actor : String
  note : String
  deriving DecidableEq

/-- The event of a discrepancy being closed. -/
def closingEvent (req : Closing) (fromStatus : DiscrepancyStatus) (id : Nat) (now : ℤ) :
    DiscrepancyEvent where
  id := id
  action := req.outcome.action
  fromStatus := some fromStatus
  toStatus := req.outcome.status
  actor := req.actor
  note := some req.note
  occurredAt := now

/-- The row closed, and the event that closed it. -/
def closeDiscrepancy (req : Closing) (fromStatus : DiscrepancyStatus) (eventId : Nat) (now : ℤ)
    (d : DiscrepancyRow) : DiscrepancyRow :=
  { d with
    status := req.outcome.status
    resolvedAt := some now
    resolvedBy := some req.actor
    resolutionNote := some req.note
    events := d.events ++ [closingEvent req fromStatus eventId now] }

@[simp] theorem Outcome.status_closed (o : Outcome) : o.status.closed = true := by
  cases o <;> rfl

end Gold

end MmrEngine
