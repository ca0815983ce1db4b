import MmrEngine.Flows.Gold
import MmrEngine.Lib.UniqueTable
import Mathlib.Data.List.Sort
import Mathlib.Logic.Function.Basic

/-!
# Alerts

`dispatch_pending_alerts` beside other runs of itself, the matching flow and
the resolution API.

A run selects the discrepancies to alert in a transaction of its own. For each
it then posts a message, outside any transaction, and records the attempt in
another transaction: an event, and the mark on the discrepancy if Slack
accepted the message. Between any two of these, other runs may do theirs, and
discrepancies may be raised, regraded and resolved. Nothing holds a lock from
the selection to the mark.

What the message says is not here, and neither are the columns of an event that
are the same for all. A run that crashes is one that takes no further step.

## Main definitions

* `AlertRow`, `AlertEvent`: The rows.
* `PostOutcome`, `PostOutcome.failure`: What became of a post.
* `pendingAlerts`: What a run selects.
* `recordAttempt`: The transaction after a post.
* `System`, `Action`, `System.step`: The runs and what can happen next.
-/

namespace MmrEngine

namespace Alerts

open Discrepancy Gold

/-- A row of `gold_discrepancies` as alerting reads and writes it. -/
structure AlertRow (D : Type) where
  id : D
  classification : DiscrepancyType
  severity : DiscrepancySeverity
  estimatedExposureNgn : ℚ
  status : DiscrepancyStatus
  hasAlertSent : Bool
  alertSentAt : Option ℤ
  deriving DecidableEq

/-- What the code writes of `alert_status_enum`. -/
inductive AlertStatus where
  | sent
  | failed
  deriving DecidableEq, Repr

/-- A row of `system_alert_events`. -/
structure AlertEvent (D : Type) where
  discrepancyId : D
  alertType : DiscrepancyType
  status : AlertStatus
  sentAt : Option ℤ
  failureReason : Option String
  deriving DecidableEq

/-- What became of a post: a response, or an `httpx.HTTPError` of some type. -/
inductive PostOutcome where
  | responded (statusCode : Nat)
  | raised (errorType : String) (named : errorType ≠ "")
  deriving DecidableEq

/-- `failure`, after the post. -/
def PostOutcome.failure : PostOutcome → Option String
  | .responded statusCode =>
    if statusCode ≠ 200 then some ("slack responded " ++ toString statusCode) else none
  | .raised errorType _ => some errorType

def maxAlertsPerRun : Nat := 20

/-- The `WHERE` of the selection. -/
def qualifies {D : Type} (threshold : ℚ) (d : AlertRow D) : Bool :=
  d.status = .open_ && d.hasAlertSent = false &&
    (d.severity = .critical || threshold ≤ d.estimatedExposureNgn)

/-- The selection: the largest exposures first, and rows of equal ones as they
    come out of the table. -/
def pendingAlerts {D : Type} (threshold : ℚ) (scan : List (AlertRow D)) : List (AlertRow D) :=
  ((scan.filter (qualifies threshold)).insertionSort
    fun a b => b.estimatedExposureNgn ≤ a.estimatedExposureNgn).take maxAlertsPerRun

/-- The event of an attempt. -/
def attemptEvent {D : Type} (row : AlertRow D) (failure : Option String) (now : ℤ) :
    AlertEvent D where
  discrepancyId := row.id
  alertType := row.classification
  -- `"failed" if failure else "sent"`.
  status := if failure.getD "" = "" then .sent else .failed
  sentAt := if failure.isSome then none else some now
  failureReason := failure

/-- Where a run is: nowhere, before a post, or between one and its record. -/
inductive RunStage (D : Type) where
  | idle
  | posting (rows : List (AlertRow D))
  | recording (row : AlertRow D) (outcome : PostOutcome) (rest : List (AlertRow D))
  deriving DecidableEq

/-- The tables, and where each run is. -/
structure System (D : Type) where
  discrepancies : UniqueTable (AlertRow.id (D := D))
  events : List (AlertEvent D)
  runs : Nat → RunStage D

/-- No event and no run, and nothing marked. -/
def Init {D : Type} (s : System D) : Prop :=
  s.events = [] ∧ (∀ d ∈ s.discrepancies.rows, d.hasAlertSent = false) ∧ ∀ i, s.runs i = .idle

/-- What can happen next. Starting a run needs the rows in the order in which
    they come out of the table, and recording an attempt its `NOW()`. -/
inductive Action (D : Type) where
  | start (run : Nat) (configured : Bool) (threshold : ℚ) (scan : List (AlertRow D))
  | post (run : Nat) (outcome : PostOutcome)
  | record (run : Nat) (now : ℤ)
  | finish (run : Nat)
  | raise (id : D) (classification : DiscrepancyType) (severity : DiscrepancySeverity)
      (exposure : ℚ)
  | regrade (id : D) (severity : DiscrepancySeverity)
  | resolve (id : D) (outcome : Outcome)

section Steps

variable {D : Type} [DecidableEq D]

def System.setRun (s : System D) (run : Nat) (stage : RunStage D) : System D :=
  { s with runs := Function.update s.runs run stage }

omit [DecidableEq D] in
@[simp] theorem System.runs_setRun (s : System D) (run : Nat) (stage : RunStage D) :
    (s.setRun run stage).runs run = stage := Function.update_self _ _ _

omit [DecidableEq D] in
theorem System.runs_setRun_of_ne (s : System D) {run other : Nat} (h : other ≠ run)
    (stage : RunStage D) : (s.setRun run stage).runs other = s.runs other :=
  Function.update_of_ne h _ _

/-- `UPDATE ... SET has_alert_sent = TRUE, alert_sent_at = NOW() WHERE id = :id`. -/
def markAlerted (id : D) (now : ℤ) (d : AlertRow D) : AlertRow D :=
  if d.id = id then { d with hasAlertSent := true, alertSentAt := some now } else d

/-- A newly raised discrepancy. -/
def raisedRow (id : D) (classification : DiscrepancyType) (severity : DiscrepancySeverity)
    (exposure : ℚ) : AlertRow D where
  id := id
  classification := classification
  severity := severity
  estimatedExposureNgn := exposure
  status := .open_
  hasAlertSent := false
  alertSentAt := none

/-- The matching flow gives an open discrepancy another severity. -/
def regraded (id : D) (severity : DiscrepancySeverity) (d : AlertRow D) : AlertRow D :=
  if d.id = id ∧ d.status = .open_ then { d with severity := severity } else d

/-- The API closes a discrepancy that is not closed. -/
def resolved (id : D) (outcome : Outcome) (d : AlertRow D) : AlertRow D :=
  if d.id = id ∧ d.status.closed = false then { d with status := outcome.status } else d

theorem id_markAlerted (id : D) (now : ℤ) (d : AlertRow D) : (markAlerted id now d).id = d.id := by
  unfold markAlerted
  split
  · rfl
  · rfl

theorem regraded_keeps (id : D) (severity : DiscrepancySeverity) (d : AlertRow D) :
    (regraded id severity d).id = d.id ∧
      (regraded id severity d).hasAlertSent = d.hasAlertSent := by
  unfold regraded
  split
  · exact ⟨rfl, rfl⟩
  · exact ⟨rfl, rfl⟩

theorem resolved_keeps (id : D) (outcome : Outcome) (d : AlertRow D) :
    (resolved id outcome d).id = d.id ∧
      (resolved id outcome d).hasAlertSent = d.hasAlertSent := by
  unfold resolved
  split
  · exact ⟨rfl, rfl⟩
  · exact ⟨rfl, rfl⟩

/-- The transaction after a post: the event, and the mark if nothing failed. -/
def System.recordAttempt (s : System D) (row : AlertRow D) (outcome : PostOutcome) (now : ℤ) :
    System D :=
  { s with
    events := s.events ++ [attemptEvent row outcome.failure now]
    discrepancies :=
      if outcome.failure = none then
        s.discrepancies.modify (markAlerted row.id now) (id_markAlerted row.id now)
      else s.discrepancies }

/-- One step of the system, if the action is possible. -/
def System.step (s : System D) : Action D → Option (System D)
  | .start run configured threshold scan =>
    if s.runs run = .idle ∧ scan.Perm s.discrepancies.rows then
      -- Without a webhook URL the run is over at once.
      some (if configured then s.setRun run (.posting (pendingAlerts threshold scan)) else s)
    else none
  | .post run outcome =>
    match s.runs run with
    | .posting (row :: rest) => some (s.setRun run (.recording row outcome rest))
    | _ => none
  | .record run now =>
    match s.runs run with
    | .recording row outcome rest =>
      some ((s.recordAttempt row outcome now).setRun run (.posting rest))
    | _ => none
  | .finish run =>
    match s.runs run with
    | .posting [] => some (s.setRun run .idle)
    | _ => none
  | .raise id classification severity exposure =>
    (s.discrepancies.insert? (raisedRow id classification severity exposure)).map fun rows =>
      { s with discrepancies := rows }
  | .regrade id severity =>
    some { s with
      discrepancies := s.discrepancies.modify (regraded id severity)
        fun d => (regraded_keeps id severity d).1 }
  | .resolve id outcome =>
    some { s with
      discrepancies := s.discrepancies.modify (resolved id outcome)
        fun d => (resolved_keeps id outcome d).1 }

/-- A run of actions. -/
def System.runAll (s : System D) : List (Action D) → Option (System D)
  | [] => some s
  | a :: actions => (s.step a).bind fun s' => s'.runAll actions

end Steps

end Alerts

end MmrEngine
