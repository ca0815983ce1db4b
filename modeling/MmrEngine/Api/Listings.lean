import MmrEngine.Api.Reconciliation
import Mathlib.Logic.Embedding.Basic

/-!
# The Pair and the Discrepancy Listing

`list_reconciliation_pairs` and `list_discrepancies`: their joins, filters and
orders, and the page they return.

The tables count their rows; the ids the queries order by are UUIDs drawn for
them, and all that is known of these is that they differ. A timestamp
a row gets when it is inserted is given with its number.

How a pair was scored and matched is only copied and left out.

## Main definitions

* `ListColumns`: The columns the listings read beside those of the tables.
* `PairFilters`, `DiscrepancyFilters`: The filters.
* `pairRows`, `discrepancyRows`: What the queries select, before their order.
* `listReconciliationPairs`, `listDiscrepancies`: The endpoints.
-/

namespace MmrEngine

namespace Listings

open Discrepancy Gold GoldCalls Query Reconciliation

/-- The columns the listings read beside those of the tables: `created_at` of
    pairs, and the UUIDs behind the numbers of pairs and discrepancies. -/
structure ListColumns (T P : Type) extends Columns T P where
  createdAt : Nat → ℤ
  pairUuid : Nat ↪ Nat
  discrepancyUuid : Nat ↪ Nat

/-- `pair_status_enum`. -/
inductive PairStatusFilter where
  | matched
  | discrepancy
  | underReview
  | resolved
  | falsePositive
  deriving DecidableEq, Repr

/-- `g.status::text`, for the statuses the pipeline writes. -/
def statusText : PairStatus → PairStatusFilter
  | .matched => .matched
  | .discrepancy => .discrepancy

/-- The filters on pairs; a `none` does not filter. -/
structure PairFilters (P : Type) where
  status : Option PairStatusFilter := none
  pspName : Option P := none

/-- The filters on discrepancies; the status `all` is `none`. -/
structure DiscrepancyFilters (P : Type) where
  status : Option DiscrepancyStatus := some .open_
  severity : Option DiscrepancySeverity := none
  pspName : Option P := none

/-- A pair joined with its two transactions. -/
abbrev PairJoin (T : Type) := ((Nat × PairRow T) × SilverRow T) × SilverRow T

/-- A discrepancy joined with its transaction. -/
abbrev DiscrepancyJoin (T : Type) := (Nat × DiscrepancyRecord T) × SilverRow T

/-- A pair as the page shows it. -/
structure ListedPair (T P : Type) where
  id : Nat
  transactionAId : T
  transactionBId : T
  amountANgn : ℚ
  amountBNgn : ℚ
  amountDeltaNgn : ℚ
  status : PairStatus
  createdAt : ℤ
  pspA : P
  pspB : P

/-- A discrepancy as the page shows it. -/
structure ListedDiscrepancy (T P : Type) where
  id : Nat
  transactionId : T
  discrepancyType : DiscrepancyType
  severity : DiscrepancySeverity
  estimatedExposureNgn : ℚ
  amountNgn : ℚ
  evidence : DiscrepancyEvidence
  status : DiscrepancyStatus
  detectedAt : ℤ
  resolvedAt : Option ℤ
  resolvedBy : Option String
  resolutionNote : Option String
  pspName : P
  pspTransactionRef : String

structure PairPage (T P : Type) where
  pairs : List (ListedPair T P)
  limit : Nat
  offset : Nat
  count : Nat

structure DiscrepancyPage (T P : Type) where
  discrepancies : List (ListedDiscrepancy T P)
  limit : Nat
  offset : Nat
  count : Nat

/-- `ORDER BY time DESC, id`. -/
def newestFirst {ρ : Type} (time : ρ → ℤ) (uuid : ρ → Nat) (r r' : ρ) : Bool :=
  decide (time r' < time r) || (decide (time r' = time r) && decide (uuid r ≤ uuid r'))

/-- `CASE d.severity WHEN 'critical' THEN 1 ...`. -/
def severityOrder : DiscrepancySeverity → Nat
  | .critical => 1
  | .high => 2
  | .medium => 3
  | .low => 4

/-- `ORDER BY severity, raised_at DESC, id`. -/
def worstFirst {ρ : Type} (severity : ρ → DiscrepancySeverity) (time : ρ → ℤ) (uuid : ρ → Nat)
    (r r' : ρ) : Bool :=
  decide (severityOrder (severity r) < severityOrder (severity r')) ||
    (decide (severityOrder (severity r) = severityOrder (severity r')) &&
      newestFirst time uuid r r')

section Endpoints

variable {T P : Type} [DecidableEq T] [DecidableEq P]

/-- The `WHERE` clause. -/
def PairFilters.passes (f : PairFilters P) (columns : ListColumns T P) (r : PairJoin T) : Bool :=
  (f.status.all fun status => decide (statusText r.1.1.2.status = status)) &&
  (f.pspName.all fun psp =>
    decide (columns.pspName r.1.2.id = psp) || decide (columns.pspName r.2.id = psp))

/-- The `WHERE` clause. -/
def DiscrepancyFilters.passes (f : DiscrepancyFilters P) (columns : ListColumns T P)
    (r : DiscrepancyJoin T) : Bool :=
  (f.status.all fun status => decide (r.1.2.row.status = status)) &&
  (f.severity.all fun severity => decide (r.1.2.row.severity = severity)) &&
  (f.pspName.all fun psp => decide (columns.pspName r.2.id = psp))

def pairRows (columns : ListColumns T P) (f : PairFilters P) (s : Tables T) : List (PairJoin T) :=
  (innerJoin (fun g sb => decide (g.1.2.b = sb.id))
    (innerJoin (fun g sa => decide (g.2.a = sa.id)) s.pairs.rows s.silver.rows)
    s.silver.rows).filter (f.passes columns)

def discrepancyRows (columns : ListColumns T P) (f : DiscrepancyFilters P) (s : Tables T) :
    List (DiscrepancyJoin T) :=
  (innerJoin (fun d r => decide (d.2.transactionId = r.id)) s.discrepancies.rows
    s.silver.rows).filter (f.passes columns)

def pairOrder (columns : ListColumns T P) : PairJoin T → PairJoin T → Bool :=
  newestFirst (fun r => columns.createdAt r.1.1.1) fun r => columns.pairUuid r.1.1.1

def discrepancyOrder (columns : ListColumns T P) : DiscrepancyJoin T → DiscrepancyJoin T → Bool :=
  worstFirst (fun r => r.1.2.row.severity) (fun r => columns.raisedAt r.1.1) fun r =>
    columns.discrepancyUuid r.1.1

def listedPair (columns : ListColumns T P) (r : PairJoin T) : ListedPair T P where
  id := r.1.1.1
  transactionAId := r.1.1.2.a
  transactionBId := r.1.1.2.b
  amountANgn := money r.1.1.2.amountANgn
  amountBNgn := money r.1.1.2.amountBNgn
  amountDeltaNgn := money r.1.1.2.amountDeltaNgn
  status := r.1.1.2.status
  createdAt := columns.createdAt r.1.1.1
  pspA := columns.pspName r.1.2.id
  pspB := columns.pspName r.2.id

def listedDiscrepancy (columns : ListColumns T P) (r : DiscrepancyJoin T) :
    ListedDiscrepancy T P where
  id := r.1.1
  transactionId := r.1.2.transactionId
  discrepancyType := r.1.2.classification
  severity := r.1.2.row.severity
  estimatedExposureNgn := money r.1.2.row.estimatedExposureNgn
  amountNgn := money r.2.amountNgn
  evidence := r.1.2.row.evidence
  status := r.1.2.row.status
  detectedAt := columns.raisedAt r.1.1
  resolvedAt := r.1.2.row.resolvedAt
  resolvedBy := r.1.2.row.resolvedBy
  resolutionNote := r.1.2.row.resolutionNote
  pspName := columns.pspName r.2.id
  pspTransactionRef := columns.pspTransactionRef r.2.id

def listReconciliationPairs (columns : ListColumns T P) (f : PairFilters P) (limit offset : Nat)
    (s : Tables T) : PairPage T P :=
  let rows := (((pairRows columns f s).mergeSort (pairOrder columns)).drop offset).take limit
  { pairs := rows.map (listedPair columns)
    limit := limit
    offset := offset
    count := rows.length }

def listDiscrepancies (columns : ListColumns T P) (f : DiscrepancyFilters P) (limit offset : Nat)
    (s : Tables T) : DiscrepancyPage T P :=
  let rows :=
    (((discrepancyRows columns f s).mergeSort (discrepancyOrder columns)).drop offset).take limit
  { discrepancies := rows.map (listedDiscrepancy columns)
    limit := limit
    offset := offset
    count := rows.length }

end Endpoints

end Listings

end MmrEngine
