import MmrEngine.Api.Reconciliation
import MmrEngine.Core.Text

/-!
# The Transaction Explorer

`list_transactions`: its filters, and what it counts and lists.

A day is given to the query as a calendar date and compared as the hours it
spans in UTC, where Lagos is taken to be one hour ahead. The text `q` is an id
if it reads as one, and the start of a reference otherwise; how an id is read,
how ids are ordered and how `ILIKE` folds cases are given (`Reading`).

## Main definitions

* `Reading`: What Python and the database bring along.
* `Search`, `parseSearch`: What `q` asks for.
* `Filters`, `Filters.passes`: The filters of the query.
* `listTransactions`: The endpoint.
-/

namespace MmrEngine

namespace Transactions

open Gold GoldCalls Query Reconciliation

/-- What `q` asks for. -/
inductive Search (T : Type) where
  | byId (id : T)
  | byReference (start : String)

inductive MatchStatus where
  | matched
  | unmatched
  deriving DecidableEq, Repr

/-- How ids are read and ordered, and how `ILIKE` folds cases. -/
structure Reading (T : Type) where
  readUuid : String → Option T
  idLe : T → T → Bool
  foldCase : String → String

/-- The filters; a `none` does not filter. -/
structure Filters (T P : Type) where
  q : Option String := none
  pspName : Option P := none
  transactionType : Option TransactionType := none
  settlementStatus : Option SettlementStatus := none
  matchStatus : Option MatchStatus := none
  dateFrom : Option ℤ := none
  dateTo : Option ℤ := none

/-- `serialise_summary`, as far as the Gold tables decide it. -/
structure ListedTransaction (T : Type) where
  id : T
  matchStatus : MatchStatus
  pairId : Option Nat
  openDiscrepancies : Nat

structure Listing (T : Type) where
  transactions : List (ListedTransaction T)
  total : Nat
  limit : Nat
  offset : Nat

/-- `q` as an id or as the start of a reference; an empty one is none. -/
def parseSearch [PyText] {T : Type} (readUuid : String → Option T) (q : Option String) :
    Option (Search T) :=
  q.bind fun q =>
    if q = "" then none
    else some (((readUuid (strip q)).map Search.byId).getD (.byReference (strip q)))

/-- `ILIKE` with a literal start: its metacharacters are escaped. -/
def ilikeStart (foldCase : String → String) (start text : String) : Bool :=
  (foldCase start).toList.isPrefixOf (foldCase text).toList

section Listing

variable [PyText] {T P : Type} [DecidableEq T] [DecidableEq P]

/-- The `WHERE` clause. -/
def Filters.passes (f : Filters T P) (reading : Reading T) (columns : Columns T P)
    (r : SilverRow T × Option (MatchedRow T)) : Bool :=
  ((parseSearch reading.readUuid f.q).all fun
    | .byId id => decide (r.1.id = id)
    | .byReference start =>
      ilikeStart reading.foldCase start (columns.pspTransactionRef r.1.id)) &&
  (f.pspName.all fun psp => decide (columns.pspName r.1.id = psp)) &&
  (f.transactionType.all fun type => decide (r.1.transactionType = type)) &&
  (f.settlementStatus.all fun status => decide (r.1.settlementStatus = status)) &&
  (f.matchStatus.all fun status => decide (status = .matched) == r.2.isSome) &&
  -- A day is compared as the hours it spans in UTC, one hour early.
  (f.dateFrom.all fun date => decide (utcMidnight date - hours 1 ≤ columns.initiatedAt r.1.id)) &&
  (f.dateTo.all fun date => decide (columns.initiatedAt r.1.id < utcMidnight date + hours 23))

def listedTransaction (s : Tables T) (r : SilverRow T × Option (MatchedRow T)) :
    ListedTransaction T where
  id := r.1.id
  matchStatus := if r.2.isSome then .matched else .unmatched
  pairId := r.2.map MatchedRow.pairId
  openDiscrepancies := (s.discrepancies.rows.filter fun d =>
    decide (d.2.transactionId = r.1.id) && unresolved d.2.row.status).length

/-- `ORDER BY s.initiated_at DESC, s.id`. -/
def listedBefore (columns : Columns T P) (idLe : T → T → Bool)
    (r r' : SilverRow T × Option (MatchedRow T)) : Bool :=
  decide (columns.initiatedAt r'.1.id < columns.initiatedAt r.1.id) ||
    (decide (columns.initiatedAt r'.1.id = columns.initiatedAt r.1.id) && idLe r.1.id r'.1.id)

def listTransactions (reading : Reading T) (columns : Columns T P) (f : Filters T P)
    (limit offset : Nat) (s : Tables T) : Listing T :=
  let rows := (silverWithMatches s).filter (f.passes reading columns)
  { transactions := (((rows.mergeSort (listedBefore columns reading.idLe)).drop offset).take
      limit).map (listedTransaction s)
    total := rows.length
    limit := limit
    offset := offset }

end Listing

end Transactions

end MmrEngine
