import MmrEngine.Flows.Gold
import MmrEngine.Lib.Transition

/-!
# Concurrent Writers of the Gold Tables

The transactions that write the Gold tables, statement by statement, in any
order.

Four programs run here, any number of each at once: `persist_pairs`,
`raise_missing_settlements`, `resolve_discrepancy` and
`bulk_resolve_discrepancies`. A session is one database transaction running
one of them. It is at one place of its program (`Work`), makes one step at a
time, and ends by committing or by rolling back, which it may do anywhere: an
error, a lost connection and a crash look the same from outside.

A statement that would have to wait for another transaction has no step until
that one has ended. One that violates a constraint raises `IntegrityError`;
inside a pair's savepoint that is `conflict`, which undoes what the savepoint
did, and elsewhere it is a rollback. Statements of one transaction between
which nobody else can tell the difference are one step: a discrepancy and its
`raised` event, a closed row and its closing event.

`NOW()` is the start of the transaction, so a session carries it.

## Main definitions

* `Position`, `PersistRun`: Where `persist_pairs` is, and what it did so far.
* `Work`, `Session`, `Reply`: What a transaction is doing, and its answer.
* `GoldDb`: The tables and the sessions.
* `Initial`: Empty Gold tables, nobody at work.
* `Step`: One step of one session, or of the world around them.
-/

namespace MmrEngine

namespace Gold

open Discrepancy

/-- What names a discrepancy. -/
abbrev Key (T : Type) := T × DiscrepancyType

/-- Where in the savepoint of the current pair a run is; `between` two pairs
    there is no savepoint. -/
inductive Position where
  | between
  | pairInserted (pairId : Nat)
  | firstRecorded (pairId : Nat)
  | bothRecorded (pairId : Nat)
  | discrepancyRaised (pairId : Nat) (classification : DiscrepancyType)
  deriving DecidableEq

/-- The pair the open savepoint is about. -/
def Position.pairId : Position → Option Nat
  | .between => none
  | .pairInserted id => some id
  | .firstRecorded id => some id
  | .bothRecorded id => some id
  | .discrepancyRaised id _ => some id

/-- The loop of `persist_pairs`: the pairs still to write, the two counters,
    and which pair ids were kept and which rolled back. -/
structure PersistRun (T : Type) where
  todo : List (PairPlan T)
  position : Position
  written : Nat
  raised : Nat
  kept : List Nat
  dropped : List Nat

/-- Why a bulk resolution skips an id. -/
inductive SkipReason where
  | notFound
  | alreadyClosed
  deriving DecidableEq, Repr

/-- What the four programs return. -/
inductive Reply (T : Type) where
  | persisted (run : PersistRun T)
  | swept (raised : Nat)
  | resolved (k : Key T) (outcome : Outcome)
  | bulkResolved (resolved : List (Key T)) (skipped : List (Key T × SkipReason))

/-- What an open transaction is doing. -/
inductive Work (T : Type) where
  | persisting (run : PersistRun T)
  | selecting
  | sweeping (todo : List (Overdue T)) (raised : Nat)
  | resolving (k : Key T) (req : Closing)
  | closing (k : Key T) (req : Closing) (status : DiscrepancyStatus)
  | bulkLocking (ids todo : List (Key T)) (found : List (Key T × DiscrepancyStatus))
      (req : Closing)
  | bulkClosing (todo : List (Key T)) (req : Closing) (resolved : List (Key T))
      (skipped : List (Key T × SkipReason))
  | done (reply : Reply T)

/-- One database transaction. -/
inductive Session (T : Type) where
  | idle
  | active (now : ℤ) (work : Work T)
  | committed (reply : Reply T)
  | rolledBack

/-- The tables, the sequences behind their ids, the sessions and the clock. -/
structure GoldDb (T : Type) where
  silver : List (SilverRow T)
  pairs : OwnedTable.Table Nat Nat (PairRow T)
  matched : OwnedTable.Table T Nat Nat
  discrepancies : RowStore.Store (Key T) Nat (Option DiscrepancyRow)
  sessions : Nat → Session T
  nextPair : Nat
  nextEvent : Nat
  clock : ℤ

section Machine

variable {T : Type} [DecidableEq T]

/-- `persist_pairs` before its first pair. -/
def PersistRun.start (plans : List (PairPlan T)) : PersistRun T where
  todo := plans
  position := .between
  written := 0
  raised := 0
  kept := []
  dropped := []

/-- The run once the current pair's savepoint is released. -/
def PersistRun.keep (run : PersistRun T) (rest : List (PairPlan T)) (pairId raised : Nat) :
    PersistRun T where
  todo := rest
  position := .between
  written := run.written + 1
  raised := run.raised + raised
  kept := run.kept ++ [pairId]
  dropped := run.dropped

/-- The run once the current pair's savepoint is rolled back. -/
def PersistRun.drop (run : PersistRun T) (rest : List (PairPlan T)) (pairId : Nat) :
    PersistRun T where
  todo := rest
  position := .between
  written := run.written
  raised := run.raised
  kept := run.kept
  dropped := run.dropped ++ [pairId]

/-- Session `t` goes on to `session`. -/
def GoldDb.goto (s : GoldDb T) (t : Nat) (session : Session T) : GoldDb T :=
  { s with sessions := Function.update s.sessions t session }

/-- Session `t` goes on with `work`. -/
def GoldDb.work (s : GoldDb T) (t : Nat) (now : ℤ) (work : Work T) : GoldDb T :=
  s.goto t (.active now work)

/-- `EXISTS (SELECT 1 FROM gold_matched_transactions ...)`: only committed rows
    are seen. -/
def GoldDb.isMatched (s : GoldDb T) (x : T) : Bool :=
  match s.matched x with
  | some r => r.owner.isNone
  | none => false

/-- `ROLLBACK TO SAVEPOINT`: the writes of the current pair are undone. -/
def GoldDb.undoSavepoint (s : GoldDb T) (t : Nat) (p : PairPlan T) : Position → GoldDb T
  | .between => s
  | .pairInserted id => { s with pairs := OwnedTable.erase id s.pairs }
  | .firstRecorded id =>
    { s with
      pairs := OwnedTable.erase id s.pairs
      matched := OwnedTable.erase p.a s.matched }
  | .bothRecorded id =>
    { s with
      pairs := OwnedTable.erase id s.pairs
      matched := OwnedTable.erase p.b (OwnedTable.erase p.a s.matched) }
  | .discrepancyRaised id c =>
    { s with
      pairs := OwnedTable.erase id s.pairs
      matched := OwnedTable.erase p.b (OwnedTable.erase p.a s.matched)
      discrepancies := RowStore.undo t (p.a, c) s.discrepancies }

/-- `closable`: the ids found with a status that is not closed. -/
def closable (ids : List (Key T)) (found : List (Key T × DiscrepancyStatus)) : List (Key T) :=
  ids.filter fun k =>
    match found.lookup k with
    | none => false
    | some status => !status.closed

/-- `skipped`: the other ids, with the reason. -/
def skipped (ids : List (Key T)) (found : List (Key T × DiscrepancyStatus)) :
    List (Key T × SkipReason) :=
  (ids.filter fun k => k ∉ closable ids found).map fun k =>
    (k, if (found.lookup k).isNone then .notFound else .alreadyClosed)

/-- Everything transaction `t` wrote becomes visible. -/
def GoldDb.commitTx (s : GoldDb T) (t : Nat) : GoldDb T :=
  { s with
    pairs := OwnedTable.commit t s.pairs
    matched := OwnedTable.commit t s.matched
    discrepancies := RowStore.commit t s.discrepancies }

/-- Everything transaction `t` wrote disappears. -/
def GoldDb.rollbackTx (s : GoldDb T) (t : Nat) : GoldDb T :=
  { s with
    pairs := OwnedTable.rollback t s.pairs
    matched := OwnedTable.rollback t s.matched
    discrepancies := RowStore.rollback t s.discrepancies }

/-- Empty Gold tables, any Silver rows, and no transaction begun. -/
def Initial (s : GoldDb T) : Prop :=
  s.pairs = OwnedTable.empty ∧ s.matched = OwnedTable.empty ∧
    s.discrepancies = RowStore.blank none ∧ ∀ t, s.sessions t = .idle

/-- One step of one session, or of the world around them. -/
inductive Step : GoldDb T → GoldDb T → Prop
  /- A transaction lands in Silver, and time passes. -/
  | arrive (s : GoldDb T) (row : SilverRow T) (hnew : ∀ r ∈ s.silver, r.id ≠ row.id) :
      Step s { s with silver := s.silver ++ [row] }
  | tick (s : GoldDb T) (now : ℤ) (hlater : s.clock ≤ now) : Step s { s with clock := now }
  /- `persist_pairs`. -/
  | beginPersist (s : GoldDb T) (t : Nat) (plans : List (PairPlan T))
      (hidle : s.sessions t = .idle) :
      Step s (s.work t s.clock (.persisting (PersistRun.start plans)))
  | insertPair (s : GoldDb T) (t : Nat) (now : ℤ) (run : PersistRun T) (p : PairPlan T)
      (rest : List (PairPlan T)) (hs : s.sessions t = .active now (.persisting run))
      (htodo : run.todo = p :: rest) (hpos : run.position = .between) (hdiff : p.a ≠ p.b)
      (hunique : ∀ id r, s.pairs id = some r → ¬ (r.value.a = p.a ∧ r.value.b = p.b)) :
      Step s { s.work t now (.persisting { run with position := .pairInserted s.nextPair }) with
        pairs := OwnedTable.insert t s.nextPair (p.row t) s.pairs
        nextPair := s.nextPair + 1 }
  | refusePair (s : GoldDb T) (t : Nat) (now : ℤ) (run : PersistRun T) (p : PairPlan T)
      (rest : List (PairPlan T)) (hs : s.sessions t = .active now (.persisting run))
      (htodo : run.todo = p :: rest) (hpos : run.position = .between) :
      Step s (s.work t now (.persisting { run with todo := rest }))
  | recordFirst (s : GoldDb T) (t : Nat) (now : ℤ) (run : PersistRun T) (p : PairPlan T)
      (rest : List (PairPlan T)) (id : Nat) (hs : s.sessions t = .active now (.persisting run))
      (htodo : run.todo = p :: rest) (hpos : run.position = .pairInserted id)
      (hfree : s.matched p.a = none) :
      Step s { s.work t now (.persisting { run with position := .firstRecorded id }) with
        matched := OwnedTable.insert t p.a id s.matched }
  | recordSecond (s : GoldDb T) (t : Nat) (now : ℤ) (run : PersistRun T) (p : PairPlan T)
      (rest : List (PairPlan T)) (id : Nat) (hs : s.sessions t = .active now (.persisting run))
      (htodo : run.todo = p :: rest) (hpos : run.position = .firstRecorded id)
      (hfree : s.matched p.b = none) :
      Step s { s.work t now (.persisting { run with position := .bothRecorded id }) with
        matched := OwnedTable.insert t p.b id s.matched }
  | raiseDiscrepancy (s : GoldDb T) (t : Nat) (now : ℤ) (run : PersistRun T) (p : PairPlan T)
      (rest : List (PairPlan T)) (id : Nat) (f : Finding)
      (hs : s.sessions t = .active now (.persisting run)) (htodo : run.todo = p :: rest)
      (hpos : run.position = .bothRecorded id) (hf : amountFinding s.silver p = some f)
      (hnone : s.discrepancies (p.a, f.classification) = { committed := none, writer := none }) :
      Step s { s.work t now (.persisting
          { run with position := .discrepancyRaised id f.classification }) with
        pairs := OwnedTable.amend id (fun r => { r with status := .discrepancy }) s.pairs
        discrepancies := RowStore.write t (p.a, f.classification)
          (fun _ => some (newDiscrepancy (some id) f s.nextEvent now)) s.discrepancies
        nextEvent := s.nextEvent + 1 }
  | releasePair (s : GoldDb T) (t : Nat) (now : ℤ) (run : PersistRun T) (p : PairPlan T)
      (rest : List (PairPlan T)) (id : Nat) (hs : s.sessions t = .active now (.persisting run))
      (htodo : run.todo = p :: rest) (hpos : run.position = .bothRecorded id)
      -- Nothing to raise, or `ON CONFLICT DO NOTHING` met a row it can see.
      (hquiet : ∀ f, amountFinding s.silver p = some f →
        RowStore.visible t (s.discrepancies (p.a, f.classification)) ≠ none) :
      Step s (s.work t now (.persisting (run.keep rest id 0)))
  | releaseRaised (s : GoldDb T) (t : Nat) (now : ℤ) (run : PersistRun T) (p : PairPlan T)
      (rest : List (PairPlan T)) (id : Nat) (c : DiscrepancyType)
      (hs : s.sessions t = .active now (.persisting run)) (htodo : run.todo = p :: rest)
      (hpos : run.position = .discrepancyRaised id c) :
      Step s (s.work t now (.persisting (run.keep rest id 1)))
  | conflict (s : GoldDb T) (t : Nat) (now : ℤ) (run : PersistRun T) (p : PairPlan T)
      (rest : List (PairPlan T)) (id : Nat) (hs : s.sessions t = .active now (.persisting run))
      (htodo : run.todo = p :: rest) (hpos : run.position.pairId = some id) :
      Step s ((s.undoSavepoint t p run.position).work t now (.persisting (run.drop rest id)))
  | persistDone (s : GoldDb T) (t : Nat) (now : ℤ) (run : PersistRun T)
      (hs : s.sessions t = .active now (.persisting run)) (htodo : run.todo = [])
      (hpos : run.position = .between) : Step s (s.work t now (.done (.persisted run)))
  /- `raise_missing_settlements`. -/
  | beginSweep (s : GoldDb T) (t : Nat) (hidle : s.sessions t = .idle) :
      Step s (s.work t s.clock .selecting)
  | selectOverdue (s : GoldDb T) (t : Nat) (now : ℤ) (hs : s.sessions t = .active now .selecting) :
      Step s (s.work t now (.sweeping (overdue s.silver s.isMatched now) 0))
  | sweepRow (s : GoldDb T) (t : Nat) (now : ℤ) (o : Overdue T) (rest : List (Overdue T))
      (raised : Nat) (hs : s.sessions t = .active now (.sweeping (o :: rest) raised))
      (hfree : RowStore.Free t (s.discrepancies (o.transactionId, .missingSettlement))) :
      Step s { s.work t now (.sweeping rest (raised +
          if (RowStore.visible t (s.discrepancies
            (o.transactionId, .missingSettlement))).isNone then 1 else 0)) with
        discrepancies := RowStore.write t (o.transactionId, .missingSettlement)
          (upsertMissingSettlement o.finding s.nextEvent now) s.discrepancies
        nextEvent := s.nextEvent + 1 }
  | sweepDone (s : GoldDb T) (t : Nat) (now : ℤ) (raised : Nat)
      (hs : s.sessions t = .active now (.sweeping [] raised)) :
      Step s (s.work t now (.done (.swept raised)))
  /- `resolve_discrepancy`. -/
  | beginResolve (s : GoldDb T) (t : Nat) (k : Key T) (req : Closing)
      (hidle : s.sessions t = .idle) : Step s (s.work t s.clock (.resolving k req))
  | resolveUnknown (s : GoldDb T) (t : Nat) (now : ℤ) (k : Key T) (req : Closing)
      (hs : s.sessions t = .active now (.resolving k req))
      (hnone : (s.discrepancies k).committed = none) : Step s (s.goto t .rolledBack)
  | resolveClosed (s : GoldDb T) (t : Nat) (now : ℤ) (k : Key T) (req : Closing)
      (d : DiscrepancyRow) (hs : s.sessions t = .active now (.resolving k req))
      (hd : s.discrepancies k = { committed := some d, writer := none })
      (hclosed : d.status.closed = true) : Step s (s.goto t .rolledBack)
  | resolveLock (s : GoldDb T) (t : Nat) (now : ℤ) (k : Key T) (req : Closing)
      (d : DiscrepancyRow) (hs : s.sessions t = .active now (.resolving k req))
      (hd : s.discrepancies k = { committed := some d, writer := none })
      (hopen : d.status.closed = false) :
      Step s { s.work t now (.closing k req d.status) with
        discrepancies := RowStore.write t k id s.discrepancies }
  | resolveClose (s : GoldDb T) (t : Nat) (now : ℤ) (k : Key T) (req : Closing)
      (status : DiscrepancyStatus) (hs : s.sessions t = .active now (.closing k req status)) :
      Step s { s.work t now (.done (.resolved k req.outcome)) with
        discrepancies := RowStore.write t k
          (Option.map (closeDiscrepancy req status s.nextEvent now)) s.discrepancies
        nextEvent := s.nextEvent + 1 }
  /- `bulk_resolve_discrepancies`. -/
  | beginBulk (s : GoldDb T) (t : Nat) (ids : List (Key T)) (req : Closing) (hids : ids.Nodup)
      (hidle : s.sessions t = .idle) : Step s (s.work t s.clock (.bulkLocking ids ids [] req))
  | bulkUnknown (s : GoldDb T) (t : Nat) (now : ℤ) (ids : List (Key T)) (k : Key T)
      (rest : List (Key T)) (found : List (Key T × DiscrepancyStatus)) (req : Closing)
      (hs : s.sessions t = .active now (.bulkLocking ids (k :: rest) found req))
      (hnone : (s.discrepancies k).committed = none) :
      Step s (s.work t now (.bulkLocking ids rest found req))
  | bulkLock (s : GoldDb T) (t : Nat) (now : ℤ) (ids : List (Key T)) (k : Key T)
      (rest : List (Key T)) (found : List (Key T × DiscrepancyStatus)) (req : Closing)
      (d : DiscrepancyRow)
      (hs : s.sessions t = .active now (.bulkLocking ids (k :: rest) found req))
      (hd : s.discrepancies k = { committed := some d, writer := none }) :
      Step s { s.work t now (.bulkLocking ids rest (found ++ [(k, d.status)]) req) with
        discrepancies := RowStore.write t k id s.discrepancies }
  | bulkSelect (s : GoldDb T) (t : Nat) (now : ℤ) (ids : List (Key T))
      (found : List (Key T × DiscrepancyStatus)) (req : Closing)
      (hs : s.sessions t = .active now (.bulkLocking ids [] found req)) :
      Step s (s.work t now (.bulkClosing (closable ids found) req (closable ids found)
        (skipped ids found)))
  | bulkClose (s : GoldDb T) (t : Nat) (now : ℤ) (k : Key T) (rest : List (Key T))
      (req : Closing) (resolved : List (Key T)) (skipped : List (Key T × SkipReason))
      (hs : s.sessions t = .active now (.bulkClosing (k :: rest) req resolved skipped)) :
      Step s { s.work t now (.bulkClosing rest req resolved skipped) with
        discrepancies := RowStore.write t k
          (Option.map fun d => closeDiscrepancy req d.status s.nextEvent now d) s.discrepancies
        nextEvent := s.nextEvent + 1 }
  | bulkDone (s : GoldDb T) (t : Nat) (now : ℤ) (req : Closing) (resolved : List (Key T))
      (skipped : List (Key T × SkipReason))
      (hs : s.sessions t = .active now (.bulkClosing [] req resolved skipped)) :
      Step s (s.work t now (.done (.bulkResolved resolved skipped)))
  /- The end of a transaction. -/
  | commit (s : GoldDb T) (t : Nat) (now : ℤ) (reply : Reply T)
      (hs : s.sessions t = .active now (.done reply)) :
      Step s ((s.commitTx t).goto t (.committed reply))
  | abort (s : GoldDb T) (t : Nat) (now : ℤ) (work : Work T)
      (hs : s.sessions t = .active now work) : Step s ((s.rollbackTx t).goto t .rolledBack)

end Machine

end Gold

end MmrEngine
