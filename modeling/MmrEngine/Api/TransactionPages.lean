import MmrEngine.Api.Transactions
import MmrEngine.Flows.GoldSteps
import MmrEngine.Lib.OwnedTable

/-!
# The Pages of a Transaction and of a Pair

`get_transaction` and `get_pair`, each statement by statement.

Either endpoint sends its statements one after the other in a session of READ
COMMITTED: a statement sees what was committed when it started, and between two
of them others commit. So each function takes a state of the database for each
statement. Rows of open transactions are seen by none.

A transaction of Silver has its Bronze row, as a foreign key says, so the join
with Bronze drops nothing; the lineage it is there for is left out, as are the
columns that are only copied.

## Main definitions

* `TransactionSummary`, `DiscrepancyBrief`: The two rows the pages are made of.
* `TransactionPage`, `getTransaction`: A transaction with its counterpart.
* `PairPage`, `getPair`: A pair with both its legs.
-/

namespace MmrEngine

namespace TransactionPages

open Discrepancy Gold Reconciliation Transactions

/-- The columns that no flow of the Gold layer needs. -/
structure PageColumns (T P : Type) where
  pspName : T → P
  pspTransactionRef : T → String
  initiatedAt : T → ℤ
  settledAt : T → Option ℤ
  raisedAt : Key T → ℤ

/-- `serialise_summary`. -/
structure TransactionSummary (T P : Type) where
  id : T
  pspName : P
  pspTransactionRef : String
  transactionType : TransactionType
  amountNgn : ℚ
  settlementStatus : SettlementStatus
  initiatedAt : ℤ
  settledAt : Option ℤ
  expectedSettlementAt : Option ℤ
  matchStatus : MatchStatus
  pairId : Option Nat
  openDiscrepancies : Nat

/-- `serialise_discrepancy_brief`. -/
structure DiscrepancyBrief (T : Type) where
  id : Key T
  discrepancyType : DiscrepancyType
  severity : DiscrepancySeverity
  status : DiscrepancyStatus
  estimatedExposureNgn : ℚ
  detectedAt : ℤ

/-- The other transaction of a pair. -/
structure Counterpart (T P : Type) where
  id : T
  pspName : P
  pspTransactionRef : String
  transactionType : TransactionType
  amountNgn : ℚ
  initiatedAt : ℤ

/-- `pair` of a transaction's page. -/
structure PagePair (T P : Type) where
  id : Nat
  status : PairStatus
  amountDeltaNgn : ℚ
  counterpart : Counterpart T P

structure TransactionPage (T P : Type) where
  transaction : TransactionSummary T P
  pair : Option (PagePair T P)
  discrepancies : List (DiscrepancyBrief T)

structure PairPage (T P : Type) where
  id : Nat
  status : PairStatus
  amountANgn : ℚ
  amountBNgn : ℚ
  amountDeltaNgn : ℚ
  a : Option (TransactionSummary T P)
  b : Option (TransactionSummary T P)
  discrepancies : List (DiscrepancyBrief T)

/-- `discrepancy_class_enum`, as far as it is raised. -/
def discrepancyClasses : List DiscrepancyType :=
  [.missingSettlement, .amountMismatch, .fxVariance, .duplicateCredit, .lateSettlement]

section Pages

variable {T P : Type} [DecidableEq T] (columns : PageColumns T P)

/-- `_SUMMARY_COLUMNS`, with the match of the row, as serialised. -/
def serialiseSummary (s : GoldDb T) (r : SilverRow T) : TransactionSummary T P where
  id := r.id
  pspName := columns.pspName r.id
  pspTransactionRef := columns.pspTransactionRef r.id
  transactionType := r.transactionType
  amountNgn := money r.amountNgn
  settlementStatus := r.settlementStatus
  initiatedAt := columns.initiatedAt r.id
  settledAt := columns.settledAt r.id
  expectedSettlementAt := r.expectedSettlementAt
  matchStatus := if (OwnedTable.committed s.matched r.id).isSome then .matched else .unmatched
  pairId := OwnedTable.committed s.matched r.id
  openDiscrepancies := (discrepancyClasses.filter fun c =>
    (s.discrepancies (r.id, c)).committed.any fun d => unresolved d.status).length

def serialiseDiscrepancyBrief (k : Key T) (d : DiscrepancyRow) : DiscrepancyBrief T where
  id := k
  discrepancyType := k.2
  severity := d.severity
  status := d.status
  estimatedExposureNgn := money d.estimatedExposureNgn
  detectedAt := columns.raisedAt k

/-- `_DISCREPANCY_BRIEF`: the discrepancies of some transactions, the latest
    first. -/
def discrepancyBriefs (ids : List T) (s : GoldDb T) : List (DiscrepancyBrief T) :=
  let keys := ids.dedup.flatMap fun id => discrepancyClasses.map fun c => (id, c)
  let rows := keys.filterMap fun k =>
    (s.discrepancies k).committed.map (serialiseDiscrepancyBrief columns k)
  rows.mergeSort fun d d' => decide (d'.detectedAt ≤ d.detectedAt)

def findTransaction (s : GoldDb T) (id : T) : Option (SilverRow T) :=
  s.silver.find? fun r => r.id = id

/-- `pair`, of a pair `g` joined with its leg `c`. -/
def serialisePair (pairId : Nat) (g : PairRow T) (c : SilverRow T) : PagePair T P where
  id := pairId
  status := g.status
  amountDeltaNgn := money g.amountDeltaNgn
  counterpart :=
    { id := c.id
      pspName := columns.pspName c.id
      pspTransactionRef := columns.pspTransactionRef c.id
      transactionType := c.transactionType
      amountNgn := money c.amountNgn
      initiatedAt := columns.initiatedAt c.id }

/-- The second statement of `get_transaction`: the pair, joined with whichever
    of its legs `tx` is not. -/
def pagePair (tx : T) (s : GoldDb T) (pairId : Nat) : Option (PagePair T P) :=
  (OwnedTable.committed s.pairs pairId).bind fun g =>
    (findTransaction s (if g.a = tx then g.b else g.a)).map (serialisePair columns pairId g)

/-- `get_transaction`, or `none` for its 404. -/
def getTransaction (id : T) (s₁ s₂ s₃ : GoldDb T) : Option (TransactionPage T P) :=
  (findTransaction s₁ id).map fun r =>
    { transaction := serialiseSummary columns s₁ r
      pair := (OwnedTable.committed s₁.matched r.id).bind (pagePair columns id s₂)
      discrepancies := discrepancyBriefs columns [id] s₃ }

/-- `get_pair`, or `none` for its 404. -/
def getPair (pairId : Nat) (s₁ s₂ s₃ : GoldDb T) : Option (PairPage T P) :=
  (OwnedTable.committed s₁.pairs pairId).map fun p =>
    let legs := (s₂.silver.filter fun r => r.id ∈ [p.a, p.b]).map (serialiseSummary columns s₂)
    -- `by_id`, where no id occurs twice.
    let byId := fun id => legs.find? fun leg => leg.id = id
    { id := pairId
      status := p.status
      amountANgn := money p.amountANgn
      amountBNgn := money p.amountBNgn
      amountDeltaNgn := money p.amountDeltaNgn
      a := byId p.a
      b := byId p.b
      discrepancies := discrepancyBriefs columns [p.a, p.b] s₃ }

end Pages

end TransactionPages

end MmrEngine
