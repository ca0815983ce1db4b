import MmrEngine.Flows.GoldSteps
import MmrEngine.Lib.SerialTable
import Mathlib.Data.List.Dedup

/-!
# The Gold Tables, One Call at a Time

What a whole call of the matching flow or of the resolution API makes of the
tables, when no other runs beside it.

The constraints are in the types: a transaction is in Silver once and matched
once, an ordered pair is there once, and so is a discrepancy of one class for
one transaction. A call is a function on the tables, with the reply it gives;
`Call.exec` runs it, and `after` a list of calls.

A pair that violates a constraint is passed over, as its savepoint is rolled
back; its columns that no statement reads again are not here. A call that is
rolled back as a whole leaves nothing but a gap in the sequence of the event
ids. `NOW()` is one instant for the whole call and is given with it.

## Main definitions

* `DiscrepancyRecord`, `MatchedRow`, `Tables`: The rows and the tables.
* `persistPairs`, `raiseMissingSettlements`: The two writes of a matching run.
* `resolveDiscrepancy`, `bulkResolveDiscrepancies`: The two ways of closing.
* `bulkResolveStatements`: The second one as its two array statements.
* `Call`, `Call.exec`, `after`: A call, and the tables after some.
-/

namespace MmrEngine

namespace GoldCalls

open Discrepancy Gold

/-- A row of `gold_discrepancies` with the columns of its unique key. -/
structure DiscrepancyRecord (T : Type) where
  transactionId : T
  classification : DiscrepancyType
  row : DiscrepancyRow

/-- `uq_discrepancies_tx_class`. -/
def DiscrepancyRecord.key {T : Type} (d : DiscrepancyRecord T) : Key T :=
  (d.transactionId, d.classification)

/-- The record with its row updated. -/
def DiscrepancyRecord.update {T : Type} (f : DiscrepancyRow → DiscrepancyRow)
    (d : DiscrepancyRecord T) : DiscrepancyRecord T := { d with row := f d.row }

@[simp] theorem DiscrepancyRecord.key_update {T : Type} (f : DiscrepancyRow → DiscrepancyRow)
    (d : DiscrepancyRecord T) : (d.update f).key = d.key := rfl

/-- A row of `gold_matched_transactions`. -/
structure MatchedRow (T : Type) where
  transactionId : T
  pairId : Nat

/-- `uq_pairs_transaction_a_b`. -/
def pairKey {T : Type} (p : PairRow T) : T × T := (p.a, p.b)

/-- Silver and Gold, and the sequence of the event ids. -/
structure Tables (T : Type) where
  silver : UniqueTable (SilverRow.id (T := T))
  pairs : SerialTable (pairKey (T := T))
  matched : UniqueTable (MatchedRow.transactionId (T := T))
  discrepancies : SerialTable (DiscrepancyRecord.key (T := T))
  nextEvent : Nat

/-- Empty Gold tables. -/
def initial {T : Type} (silver : UniqueTable (SilverRow.id (T := T))) : Tables T where
  silver := silver
  pairs := SerialTable.empty _
  matched := UniqueTable.empty _
  discrepancies := SerialTable.empty _
  nextEvent := 0

/-- Why a discrepancy is not resolved: a 404 or a 409. -/
inductive ResolveError where
  | notFound
  | alreadyClosed (status : DiscrepancyStatus)
  deriving DecidableEq, Repr

section Calls

variable {T : Type} [DecidableEq T]

/-- `EXISTS (SELECT 1 FROM gold_matched_transactions ...)`. -/
def Tables.isMatched (s : Tables T) (x : T) : Bool := (s.matched.find? x).isSome

/-- The pair and its two matched transactions, or the `IntegrityError` of the
    constraint that forbids one of them. -/
def insertPair (t : Nat) (p : PairPlan T) (s : Tables T) : Option (Tables T) :=
  if p.a ≠ p.b ∧ 0 ≤ p.amountANgn ∧ 0 ≤ p.amountBNgn ∧ (s.silver.find? p.a).isSome ∧
      (s.silver.find? p.b).isSome then
    (s.pairs.insert? (p.row t)).bind fun pairs =>
      (s.matched.insert? { transactionId := p.a, pairId := s.pairs.next }).bind fun matched =>
        (matched.insert? { transactionId := p.b, pairId := s.pairs.next }).map fun matched =>
          { s with pairs := pairs, matched := matched }
  else none

/-- `_raise_amount_discrepancy`, with how many it raised. -/
def raiseAmountDiscrepancy (now : ℤ) (pairId : Nat) (p : PairPlan T) (s : Tables T) :
    Tables T × Nat :=
  match amountFinding s.silver.rows p with
  | none => (s, 0)
  | some f =>
    match s.discrepancies.insert?
        { transactionId := p.a
          classification := f.classification
          row := newDiscrepancy (some pairId) f s.nextEvent now } with
    | none => (s, 0)
    | some discrepancies =>
      ({ s with
          discrepancies := discrepancies
          pairs := s.pairs.modifyAt pairId (fun r => { r with status := .discrepancy })
            fun _ => rfl
          nextEvent := s.nextEvent + 1 }, 1)

/-- `persist_pairs`, with the pairs written and the discrepancies raised. -/
def persistPairs (t : Nat) (now : ℤ) : List (PairPlan T) → Tables T → Tables T × Nat × Nat
  | [], s => (s, 0, 0)
  | p :: rest, s =>
    match insertPair t p s with
    | none => persistPairs t now rest s
    | some s' =>
      let one := raiseAmountDiscrepancy now s.pairs.next p s'
      let others := persistPairs t now rest one.1
      (others.1, others.2.1 + 1, one.2 + others.2.2)

/-- One row of the upsert, with what it returns if it writes. -/
def upsertOverdue (now : ℤ) (o : Overdue T) (s : Tables T) :
    Tables T × Option (Nat × EventAction) :=
  match h : s.discrepancies.find? (o.transactionId, .missingSettlement) with
  | none =>
    ({ s with
        discrepancies := s.discrepancies.insert
          { transactionId := o.transactionId
            classification := .missingSettlement
            row := newDiscrepancy none o.finding s.nextEvent now } h
        nextEvent := s.nextEvent + 1 }, some (s.discrepancies.next, .raised))
  | some (id, d) =>
    -- The `WHERE` of the `DO UPDATE`.
    if d.row.status = .open_ ∧ d.row.severity ≠ o.finding.severity then
      ({ s with
          discrepancies := s.discrepancies.modifyAt id
            (DiscrepancyRecord.update (changeSeverity o.finding s.nextEvent now))
            (DiscrepancyRecord.key_update _)
          nextEvent := s.nextEvent + 1 }, some (id, .severityChanged))
    else (s, none)

/-- The upsert of all selected rows, with what it returns. -/
def upsertAll (now : ℤ) : List (Overdue T) → Tables T → Tables T × List (Nat × EventAction)
  | [], s => (s, [])
  | o :: rest, s =>
    let one := upsertOverdue now o s
    let others := upsertAll now rest one.1
    (others.1, one.2.toList ++ others.2)

/-- `raise_missing_settlements`, with how many it raised. -/
def raiseMissingSettlements (now : ℤ) (s : Tables T) : Tables T × Nat :=
  let result := upsertAll now (overdue s.silver.rows s.isMatched now) s
  (result.1, (result.2.filter fun r => r.2 = .raised).length)

/-- Close the discrepancy of an id, and say so in its trail. -/
def closeAt (now : ℤ) (req : Closing) (id : Nat) (s : Tables T) : Tables T :=
  { s with
    discrepancies := s.discrepancies.modifyAt id
      (DiscrepancyRecord.update fun d => closeDiscrepancy req d.status s.nextEvent now d)
      (DiscrepancyRecord.key_update _)
    nextEvent := s.nextEvent + 1 }

/-- Close the discrepancies of some ids. -/
def closeAll (now : ℤ) (req : Closing) (ids : List Nat) (s : Tables T) : Tables T :=
  ids.foldl (fun s id => closeAt now req id s) s

def resolveDiscrepancy (now : ℤ) (id : Nat) (req : Closing) (s : Tables T) :
    Tables T × Except ResolveError (Nat × Outcome) :=
  match s.discrepancies.get? id with
  | none => (s, .error .notFound)
  | some d =>
    if d.row.status.closed then (s, .error (.alreadyClosed d.row.status))
    else (closeAt now req id s, .ok (id, req.outcome))

/-- The discrepancy is there and can still be closed. -/
def closable (s : Tables T) (id : Nat) : Bool :=
  match s.discrepancies.get? id with
  | none => false
  | some d => !d.row.status.closed

/-- `bulk_resolve_discrepancies`, with the ids resolved and those skipped. -/
def bulkResolveDiscrepancies (now : ℤ) (ids : List Nat) (req : Closing) (s : Tables T) :
    Tables T × List Nat × List (Nat × SkipReason) :=
  -- `sorted({str(i) for i in body.ids})`.
  let ids := ids.dedup.mergeSort
  let toClose := ids.filter fun id => closable s id
  (closeAll now req toClose s, toClose,
    (ids.filter fun id => id ∉ toClose).map fun id =>
      (id, if (s.discrepancies.get? id).isNone then .notFound else .alreadyClosed))

/-- `INSERT INTO gold_discrepancy_events ... SELECT ... WHERE d.id = ANY(:ids)`:
    an event for each row, from the status it has. `scan` is the order in which
    the rows come out, which numbers the events. -/
def insertClosingEvents (now : ℤ) (req : Closing) (ids scan : List Nat) (s : Tables T) :
    Tables T :=
  { s with
    discrepancies := s.discrepancies.modifyRows
      (fun id => DiscrepancyRecord.update fun d =>
        if id ∈ ids then
          { d with
            events := d.events ++ [closingEvent req d.status (s.nextEvent + scan.idxOf id) now] }
        else d)
      (fun _ => DiscrepancyRecord.key_update _)
    nextEvent := s.nextEvent + ids.length }

/-- `UPDATE gold_discrepancies SET ... WHERE id = ANY(:ids)`. -/
def closeRows (now : ℤ) (req : Closing) (ids : List Nat) (s : Tables T) : Tables T :=
  { s with
    discrepancies := s.discrepancies.modifyRows
      (fun id => DiscrepancyRecord.update fun d =>
        if id ∈ ids then
          { d with
            status := req.outcome.status
            resolvedAt := some now
            resolvedBy := some req.actor
            resolutionNote := some req.note }
        else d)
      (fun _ => DiscrepancyRecord.key_update _) }

/-- `bulk_resolve_discrepancies` statement by statement: the events first, as
    they read the statuses the update overwrites. -/
def bulkResolveStatements (now : ℤ) (ids : List Nat) (req : Closing) (scan : List Nat)
    (s : Tables T) : Tables T × List Nat × List (Nat × SkipReason) :=
  let ids := ids.dedup.mergeSort
  let found := fun id => (s.discrepancies.get? id).map fun d => d.row.status
  let toClose := ids.filter fun id => (found id).any fun status => !status.closed
  (if toClose = [] then s else closeRows now req toClose (insertClosingEvents now req toClose scan s),
    toClose,
    (ids.filter fun id => id ∉ toClose).map fun id =>
      (id, if (found id).isNone then .notFound else .alreadyClosed))

/-- A call, with its `NOW()`; `land` is a transaction written to Silver. -/
inductive Call (T : Type) where
  | land (row : SilverRow T)
  | persistPairs (t : Nat) (now : ℤ) (plans : List (PairPlan T))
  | raiseMissingSettlements (now : ℤ)
  | resolveDiscrepancy (now : ℤ) (id : Nat) (req : Closing)
  | bulkResolveDiscrepancies (now : ℤ) (ids : List Nat) (req : Closing)
  | rolledBack (events : Nat)

/-- What a call makes of the tables. -/
def Call.exec (s : Tables T) : Call T → Tables T
  | .land row => { s with silver := (s.silver.insertOrFind row).1 }
  | .persistPairs t now plans => (GoldCalls.persistPairs t now plans s).1
  | .raiseMissingSettlements now => (GoldCalls.raiseMissingSettlements now s).1
  | .resolveDiscrepancy now id req => (GoldCalls.resolveDiscrepancy now id req s).1
  | .bulkResolveDiscrepancies now ids req => (GoldCalls.bulkResolveDiscrepancies now ids req s).1
  | .rolledBack events => { s with nextEvent := s.nextEvent + events }

/-- The tables after some calls. -/
def after (s : Tables T) (calls : List (Call T)) : Tables T := calls.foldl Call.exec s

end Calls

end GoldCalls

end MmrEngine
