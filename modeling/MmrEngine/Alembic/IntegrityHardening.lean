import MmrEngine.Core.Json
import MmrEngine.Lib.FirstRow
import MmrEngine.Lib.Ranking
import Mathlib.Data.Prod.Lex

/-!
# Integrity Hardening

Section 2 of the `upgrade` of migration 015: `gold_matched_transactions` is
filled from the pairs there are, and the pairs that conflict are flagged.

The rows to insert are ordered by `matched_at` and the id of their pair. SQL
leaves open which of the two rows of one pair comes first, so the order is any
that is sorted (`Ordered`).

## Main definitions

* `Pair`: A row of `gold_reconciliation_pairs`.
* `MatchedTransaction`: A row of `gold_matched_transactions`.
* `matchRows`, `Ordered`: The rows to insert, and an order of them.
* `orderBy`: There is one.
* `upgrade`: The insert and the update.
-/

namespace MmrEngine

namespace IntegrityHardening

/-- `pair_status_enum`. -/
inductive PairStatus where
  | matched
  | discrepancy
  | underReview
  | resolved
  | falsePositive
  deriving DecidableEq, Repr

/-- A pair, as far as the migration reads and writes it. -/
structure Pair (I T : Type) where
  id : I
  transactionAId : T
  transactionBId : Option T
  status : PairStatus
  matchedAt : ℤ
  matchEvidence : Option Json
  /-- `chk_pairs_different_transactions`. -/
  different_transactions : transactionBId ≠ some transactionAId

structure MatchedTransaction (I T : Type) where
  transactionId : T
  pairId : I
  matchedAt : ℤ
  deriving DecidableEq

/-- `left || right` of two jsonb values. -/
def jsonbConcat : Json → Json → Json
  -- Two objects are merged, and the right one wins.
  | .obj left, .obj right => .obj (left.filter (fun f => (right.lookup f.1).isNone) ++ right)
  | .arr left, .arr right => .arr (left ++ right)
  | .arr left, right => .arr (left ++ [right])
  | left, .arr right => .arr (left :: right)
  | left, right => .arr [left, right]

def reviewReason : Json :=
  .obj [("review_reason", .str "transaction matched in more than one pair")]

variable {I T : Type}

/-- The `SELECT ... UNION ALL SELECT ...` of the insert. -/
def matchRows (pairs : List (Pair I T)) : List (MatchedTransaction I T) :=
  pairs.map (fun p => ⟨p.transactionAId, p.id, p.matchedAt⟩) ++
    pairs.filterMap fun p => p.transactionBId.map fun b => ⟨b, p.id, p.matchedAt⟩

/-- `matched_at, pair_id`. -/
def insertOrder (m : MatchedTransaction I T) : ℤ ×ₗ I := toLex (m.matchedAt, m.pairId)

/-- The rows in an order that `ORDER BY matched_at, pair_id` allows. -/
structure Ordered [LinearOrder I] (pairs : List (Pair I T)) where
  rows : List (MatchedTransaction I T)
  perm : rows.Perm (matchRows pairs)
  sorted : rows.Pairwise fun m m' => insertOrder m ≤ insertOrder m'

/-- Such an order, with the two rows of a pair as the `UNION ALL` has them. -/
def orderBy [LinearOrder I] (pairs : List (Pair I T)) : Ordered pairs where
  rows := Ranking.ascending insertOrder (matchRows pairs)
  perm := List.perm_insertionSort _ _
  sorted := Ranking.ascending_pairwise _ _

/-- The two tables after the migration. -/
structure Upgraded (I T : Type) where
  pairs : UniqueTable (Pair.id (I := I) (T := T))
  matched : UniqueTable (MatchedTransaction.transactionId (I := I) (T := T))

/-- What the update sets. -/
def Pair.flag (p : Pair I T) : Pair I T :=
  { p with
    status := .underReview
    matchEvidence := some (jsonbConcat (p.matchEvidence.getD (.obj [])) reviewReason) }

variable [DecidableEq T] [LinearOrder I]

/-- `INSERT ... ON CONFLICT (transaction_id) DO NOTHING`. -/
def backfill {pairs : List (Pair I T)} (ordered : Ordered pairs) :
    UniqueTable (MatchedTransaction.transactionId (I := I) (T := T)) :=
  (UniqueTable.empty _).insertAll ordered.rows

/-- `EXISTS (...)` of the update: a transaction of the pair is another's. -/
def conflicts (matched : List (MatchedTransaction I T)) (p : Pair I T) : Bool :=
  matched.any fun m =>
    (decide (m.transactionId = p.transactionAId) ||
        decide (p.transactionBId = some m.transactionId)) &&
      decide (m.pairId ≠ p.id)

def upgrade (pairs : UniqueTable (Pair.id (I := I) (T := T))) (ordered : Ordered pairs.rows) :
    Upgraded I T :=
  let matched := backfill ordered
  { pairs := pairs.modify (fun p => if conflicts matched.rows p then p.flag else p)
      fun p => by
        split
        · rfl
        · rfl
    matched := matched }

end IntegrityHardening

end MmrEngine
