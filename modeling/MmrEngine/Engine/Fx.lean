import MmrEngine.Core.Clock
import MmrEngine.Lib.Transition
import Mathlib.Data.Rat.Floor
import Mathlib.Logic.Function.Basic

/-!
# FX Rate Snapshots

The table of FX rates: how `capture_fx_rates` writes it, any number of captures
at once, and what the two lookups read.

A capture is one transaction. It takes the clock once, and for each pair whose
rate it can fetch it ends the current snapshot and inserts a new one, in two
statements. The step relation runs these statements as PostgreSQL does under
READ COMMITTED. The `UPDATE` finds the rows that are current when it begins and
then comes to each of them: a row another transaction is ending makes it wait,
and one that has been ended meanwhile is passed over. The `INSERT` waits for
whoever has an entry of the partial unique index under way, and fails where an
entry is left in the end.

A statement that has to wait has no step until the other transaction has ended.
One that violates a constraint leaves only the rollback, which a transaction can
take anywhere: an error, a deadlock and a crash look the same from outside. The
caller's other statements do not touch this table. Without a key for the
provider a capture does nothing and is not here.

## Main definitions

* `Snapshot`, `StoredRow`: A row, and what transactions under way did to it.
* `Phase`, `Capture`: Where a capture is.
* `FxDb`, `Step`: The table with its transactions, and one step of one of them.
* `FxDb.committed`, `FxDb.snapshotsOf`: What others can read.
* `getFxRateAt`, `getCurrentRate`: The lookups.
-/

namespace MmrEngine

namespace Fx

/-- `SUPPORTED_PAIRS`. -/
def supportedPairs : List String := ["NGN/USD", "NGN/GBP", "NGN/EUR"]

/-- A row of `silver_fx_rate_snapshots`. -/
structure Snapshot where
  id : Nat
  currencyPair : String
  rate : ℚ
  sourceProvider : String
  capturedAt : ℤ
  validFrom : ℤ
  validUntil : Option ℤ
  deriving DecidableEq

/-- A rate as `NUMERIC(20, 8)` stores it. -/
def storedRate (rate : ℚ) : ℚ := ⌊rate * 10 ^ 8 + 1 / 2⌋ / 10 ^ 8

/-- What the provider gives becomes the pair's current row. -/
def newSnapshot (id : Nat) (pair : String) (rate : ℚ) (now : ℤ) : Snapshot where
  id := id
  currencyPair := pair
  rate := storedRate rate
  sourceProvider := "exchangerate-api"
  capturedAt := now
  validFrom := now
  validUntil := none

/-- A row and the transactions under way that have inserted it or have set its
    `valid_until`. -/
structure StoredRow (τ : Type) where
  row : Snapshot
  insertedBy : Option τ
  expiry : Option (τ × ℤ)

/-- Which statement a capture is at; an `UPDATE` has the ids of the rows it has
    found and not come to yet. -/
inductive Phase where
  | fetching
  | expiring (pair : String) (rate : ℚ) (found : List Nat)
  | inserting (pair : String) (rate : ℚ)

/-- The pair whose two statements are being executed. -/
def Phase.pair : Phase → Option String
  | .fetching => none
  | .expiring pair _ _ => some pair
  | .inserting pair _ => some pair

/-- A call of `capture_fx_rates`: its clock, the pairs still to come, and where
    it is. -/
structure Capture where
  now : ℤ
  pairs : List String
  phase : Phase

/-- The table and the transactions under way. -/
structure FxDb (τ : Type) where
  rows : List (StoredRow τ)
  nextId : Nat
  captures : τ → Option Capture

/-- `result.one_or_none()` of a query with several rows. -/
inductive QueryError where
  | multipleResultsFound
  deriving DecidableEq, Repr

/-- `result.one_or_none()`. -/
def oneOrNone {α : Type} : List α → Except QueryError (Option α)
  | [] => .ok none
  | [a] => .ok (some a)
  | _ => .error .multipleResultsFound

/-- `ORDER BY captured_at DESC LIMIT 1`. -/
def latest (rows : List Snapshot) : List Snapshot :=
  (rows.mergeSort fun a b => decide (b.capturedAt ≤ a.capturedAt)).take 1

/-- `ORDER BY captured_at ASC LIMIT 1`. -/
def earliest (rows : List Snapshot) : List Snapshot :=
  (rows.mergeSort fun a b => decide (a.capturedAt ≤ b.capturedAt)).take 1

/-- `FORWARD_RATE_TOLERANCE`. -/
def forwardRateTolerance : ℤ := hours 2

/-- The snapshot in force at a time, or the first one shortly after it. -/
def getFxRateAt (rows : List Snapshot) (currencyPair : String) (atTime : ℤ) :
    Option (Nat × ℚ) :=
  let before := latest (rows.filter fun r =>
    decide (r.currencyPair = currencyPair ∧ r.capturedAt ≤ atTime))
  let later := earliest (rows.filter fun r => decide (r.currencyPair = currencyPair ∧
    atTime < r.capturedAt ∧ r.capturedAt ≤ atTime + forwardRateTolerance))
  let candidates := before.map (fun r => (0, r)) ++ later.map fun r => (1, r)
  -- `ORDER BY preference LIMIT 1`.
  (candidates.mergeSort fun a b => decide (a.1 ≤ b.1)).head?.map fun r => (r.2.id, r.2.rate)

def getCurrentRate (rows : List Snapshot) (currencyPair : String) :
    Except QueryError (Option (Nat × ℚ)) :=
  (oneOrNone (rows.filter fun r =>
    decide (r.currencyPair = currencyPair ∧ r.validUntil = none))).map
      fun r => r.map fun r => (r.id, r.rate)

section Steps

variable {τ : Type} [DecidableEq τ]

/-- What `t` has set `valid_until` to. -/
def StoredRow.endedBy (t : τ) (r : StoredRow τ) : Option ℤ :=
  r.expiry.bind fun e => if e.1 = t then some e.2 else none

/-- The row with what `t` has done to it. -/
def StoredRow.value (t : τ) (r : StoredRow τ) : Snapshot :=
  { r.row with validUntil := (r.endedBy t).or r.row.validUntil }

/-- The row as the statements of `t` see it, if they do. -/
def StoredRow.seenBy (t : τ) (r : StoredRow τ) : Option Snapshot :=
  if r.insertedBy = none ∨ r.insertedBy = some t then some (r.value t) else none

/-- The row as everybody sees it, if it is committed. -/
def StoredRow.committed (r : StoredRow τ) : Option Snapshot :=
  match r.insertedBy with
  | none => some r.row
  | some _ => none

/-- The row once `t` has committed. -/
def StoredRow.commit (t : τ) (r : StoredRow τ) : StoredRow τ where
  row := r.value t
  insertedBy := if r.insertedBy = some t then none else r.insertedBy
  expiry := if (r.endedBy t).isSome then none else r.expiry

/-- The row once `t` has been rolled back, if it was there before. -/
def StoredRow.rollback (t : τ) (r : StoredRow τ) : StoredRow τ where
  row := r.row
  insertedBy := r.insertedBy
  expiry := if (r.endedBy t).isSome then none else r.expiry

/-- What everybody reads. -/
def FxDb.committed (s : FxDb τ) : List Snapshot := s.rows.filterMap StoredRow.committed

/-- The committed snapshots of a pair. -/
def FxDb.snapshotsOf (s : FxDb τ) (pair : String) : List Snapshot :=
  s.committed.filter fun r => r.currencyPair = pair

/-- The ids an `UPDATE` of `t` finds: the current rows of the pair. -/
def FxDb.currentIds (s : FxDb τ) (t : τ) (pair : String) : List Nat :=
  ((s.rows.filterMap (StoredRow.seenBy t)).filter fun r =>
    decide (r.currencyPair = pair ∧ r.validUntil = none)).map Snapshot.id

/-- The capture of `t` goes on, or is over. -/
def FxDb.goto (s : FxDb τ) (t : τ) (c : Option Capture) : FxDb τ :=
  { s with captures := Function.update s.captures t c }

/-- An empty table and nobody at work. -/
def Initial (s : FxDb τ) : Prop := s.rows = [] ∧ ∀ t, s.captures t = none

/-- One step of one capture. -/
inductive Step : FxDb τ → FxDb τ → Prop
  /-- The transaction begins, and the clock is read, whatever it says. -/
  | begin (s t now) (h : s.captures t = none) :
      Step s (s.goto t (some { now := now, pairs := supportedPairs, phase := .fetching }))
  /-- The rate of a pair cannot be fetched, or is not positive. -/
  | fetchFailed (s t c pair rest) (h : s.captures t = some c) (hphase : c.phase = .fetching)
      (hpairs : c.pairs = pair :: rest) : Step s (s.goto t (some { c with pairs := rest }))
  /-- A rate arrives, and the `UPDATE` finds the rows that are current now. -/
  | fetched (s t c pair rest rate) (h : s.captures t = some c) (hphase : c.phase = .fetching)
      (hpairs : c.pairs = pair :: rest) (hrate : 0 < rate) :
      Step s (s.goto t (some
        { c with pairs := rest, phase := .expiring pair rate (s.currentIds t pair) }))
  /-- It comes to a row that is still current and that no other transaction has
      under way, and ends it; `chk_fx_valid_range` holds. -/
  | expire (s t c pair rate id found pre r post) (h : s.captures t = some c)
      (hphase : c.phase = .expiring pair rate (id :: found)) (hrows : s.rows = pre ++ r :: post)
      (hid : r.row.id = id) (hcommitted : r.insertedBy = none) (hfree : r.expiry = none)
      (hpair : r.row.currencyPair = pair) (hcurrent : r.row.validUntil = none)
      (hcheck : r.row.validFrom < c.now) :
      Step s { s.goto t (some { c with phase := .expiring pair rate found }) with
        rows := pre ++ { r with expiry := some (t, c.now) } :: post }
  /-- It comes to a row that another transaction has ended meanwhile. -/
  | passOver (s t c pair rate id found r) (h : s.captures t = some c)
      (hphase : c.phase = .expiring pair rate (id :: found)) (hr : r ∈ s.rows)
      (hid : r.row.id = id) (hcommitted : r.insertedBy = none) (hfree : r.expiry = none)
      (hended : r.row.validUntil ≠ none) :
      Step s (s.goto t (some { c with phase := .expiring pair rate found }))
  /-- The `UPDATE` is through. -/
  | expired (s t c pair rate) (h : s.captures t = some c)
      (hphase : c.phase = .expiring pair rate []) :
      Step s (s.goto t (some { c with phase := .inserting pair rate }))
  /-- The `INSERT`. Every row of the pair in `idx_fx_current_rate` is one the
      transaction has ended itself; it waits while another transaction has one
      under way, and fails where one is left. -/
  | insert (s t c pair rate) (h : s.captures t = some c) (hphase : c.phase = .inserting pair rate)
      (hunique : ∀ r ∈ s.rows, r.row.currencyPair = pair → r.row.validUntil = none →
        ∃ until_, r.expiry = some (t, until_))
      (hpositive : 0 < storedRate rate) (hrange : storedRate rate < 10 ^ 12) :
      Step s { s.goto t (some { c with phase := .fetching }) with
        rows := s.rows ++ [{ row := newSnapshot s.nextId pair rate c.now
                             insertedBy := some t
                             expiry := none }]
        nextId := s.nextId + 1 }
  /-- All pairs are through, and the caller commits. -/
  | commit (s t c) (h : s.captures t = some c) (hphase : c.phase = .fetching)
      (hpairs : c.pairs = []) :
      Step s { s.goto t none with rows := s.rows.map (StoredRow.commit t) }
  /-- The transaction ends without a trace. -/
  | rollback (s t c) (h : s.captures t = some c) :
      Step s { s.goto t none with
        rows := (s.rows.filter fun r => decide (r.insertedBy ≠ some t)).map
          (StoredRow.rollback t) }

end Steps

end Fx

end MmrEngine
