import MmrEngine.Flows.GoldCalls
import MmrEngine.Flows.MatchingFlow

/-!
# A Run of the Matching Flow

`silver_to_gold_matching_flow` over the tables: what it loads, what it makes of
that, and what it writes.

The flow reads and writes in three transactions, each with its own `NOW()`. The
columns of Silver that only the engine reads are given by the id of the row; no
row of Silver changes. Its amounts are of `NUMERIC(20,6)` and not negative, as
the column says. The alerts and the refresh of the summary view, which come last,
and the record of the run are other tables.

## Main definitions

* `EngineColumns`: The columns the engine reads.
* `LegalAmounts`: The constraint of the amount.
* `fetchMatchCandidates`: The transactions a run considers.
* `passOf`: The results of its pass.
* `silverToGoldMatching`: The run, with its report.
-/

namespace MmrEngine

namespace GoldCalls

open Gold Matching

/-- The columns of Silver the engine reads, and how ids are ordered. -/
structure EngineColumns (T : Type) where
  pspName : T → String
  initiatedAt : T → ℤ
  counterpartyNameTokens : T → Option (List String)
  beneficiaryBankCode : T → Option String
  senderBankCode : T → Option String
  idLe : T → T → Bool

section Run

variable {T : Type} [DecidableEq T]

/-- `amount_ngn NUMERIC(20, 6) NOT NULL CHECK (amount_ngn >= 0)`. -/
def LegalAmounts (s : Tables T) : Prop :=
  ∀ r ∈ s.silver.rows, IsNumeric r.amountNgn ∧ 0 ≤ r.amountNgn

def toCandidate (columns : EngineColumns T) (r : SilverRow T) : TransactionCandidate T where
  id := r.id
  pspName := columns.pspName r.id
  transactionType := r.transactionType
  amountNgn := r.amountNgn
  initiatedAt := columns.initiatedAt r.id
  -- `list(r["counterparty_name_tokens"] or [])`.
  counterpartyNameTokens := some ((columns.counterpartyNameTokens r.id).getD [])
  beneficiaryBankCode := columns.beneficiaryBankCode r.id
  senderBankCode := columns.senderBankCode r.id

/-- The `WHERE` clause of `fetch_match_candidates`. -/
def considered (columns : EngineColumns T) (lookback now : ℤ) (s : Tables T) (r : SilverRow T) :
    Bool :=
  decide (r.transactionType = .credit ∨ r.transactionType = .debit) &&
    decide (r.settlementStatus ≠ .failed) &&
    decide (now - lookback ≤ columns.initiatedAt r.id) && !s.isMatched r.id

/-- `ORDER BY s.initiated_at, s.id`. -/
def initiatedBefore (columns : EngineColumns T) (r r' : SilverRow T) : Bool :=
  decide (columns.initiatedAt r.id < columns.initiatedAt r'.id) ||
    (decide (columns.initiatedAt r.id = columns.initiatedAt r'.id) && columns.idLe r.id r'.id)

def fetchMatchCandidates (columns : EngineColumns T) (lookback now : ℤ) (s : Tables T) :
    List (TransactionCandidate T) :=
  ((s.silver.rows.filter (considered columns lookback now s)).mergeSort
    (initiatedBefore columns)).map (toCandidate columns)

/-- A candidate is a row of the table. -/
theorem mem_fetch {columns : EngineColumns T} {lookback now : ℤ} {s : Tables T}
    {c : TransactionCandidate T} : c ∈ fetchMatchCandidates columns lookback now s ↔
      ∃ r ∈ s.silver.rows, considered columns lookback now s r = true ∧
        c = toCandidate columns r := by
  unfold fetchMatchCandidates
  rw [List.mem_map]
  constructor
  · rintro ⟨r, hr, rfl⟩
    rcases List.mem_filter.mp (List.mem_mergeSort.mp hr) with ⟨hrow, hconsidered⟩
    exact ⟨r, hrow, hconsidered, rfl⟩
  · rintro ⟨r, hrow, hconsidered, rfl⟩
    exact ⟨r, List.mem_mergeSort.mpr (List.mem_filter.mpr ⟨hrow, hconsidered⟩), rfl⟩

/-- What the query returns, with what the columns say about it. -/
def candidateList (columns : EngineColumns T) (lookback now : ℤ) (s : Tables T)
    (h : LegalAmounts s) : CandidateList T where
  rows := fetchMatchCandidates columns lookback now s
  unique := by
    have hids : (fetchMatchCandidates columns lookback now s).map TransactionCandidate.id
        = ((s.silver.rows.filter (considered columns lookback now s)).mergeSort
          (initiatedBefore columns)).map SilverRow.id := by
      rw [fetchMatchCandidates, List.map_map]
      rfl
    rw [hids]
    exact ((List.mergeSort_perm _ _).map SilverRow.id).nodup_iff.mpr
      ((List.filter_sublist.map SilverRow.id).nodup s.silver.unique)
  numeric := by
    intro c hc
    rcases mem_fetch.mp hc with ⟨r, hr, -, rfl⟩
    exact (h r hr).1

/-- What a run returns. -/
structure RunReport where
  candidates : Nat
  pairsWritten : Nat
  transactionsMatched : Nat
  amountDiscrepanciesRaised : Nat
  missingSettlementsRaised : Nat
  exactPrimary : Nat
  probabilisticSecondary : Nat
  deriving DecidableEq

variable {F : Type} [LinearOrder F] [Add F] [Sub F] [Mul F] [Div F] [ScoreArith F]

/-- `config.probabilistic_time_window * 2`. -/
def lookbackOf (settings : Settings F) : ℤ :=
  (MatchingConfig.fromSettings settings).probabilisticTimeWindow * 2

/-- The `NOW()` of the three transactions of a run. -/
structure RunClock where
  fetched : ℤ
  persisted : ℤ
  swept : ℤ

/-- The results of the pass of a run. -/
def passOf (columns : EngineColumns T) (settings : Settings F) (clock : RunClock)
    (s : Tables T) : List (MatchResult T F) :=
  matchAll (fetchMatchCandidates columns (lookbackOf settings) clock.fetched s)
    (MatchingConfig.fromSettings settings)

/-- `silver_to_gold_matching_flow`, as transaction `t`. -/
def silverToGoldMatching (columns : EngineColumns T) (settings : Settings F) (t : Nat)
    (clock : RunClock) (s : Tables T) (h : LegalAmounts s) : Tables T × RunReport :=
  let candidates := candidateList columns (lookbackOf settings) clock.fetched s h
  let pairs := passOf columns settings clock s
  -- `by_id` has both transactions of every pair.
  let plans := (flowPlans candidates settings).getD []
  let persisted := persistPairs t clock.persisted plans s
  let swept := raiseMissingSettlements clock.swept persisted.1
  (swept.1,
    { candidates := candidates.rows.length
      pairsWritten := persisted.2.1
      transactionsMatched := persisted.2.1 * 2
      amountDiscrepanciesRaised := persisted.2.2
      missingSettlementsRaised := swept.2
      exactPrimary := (pairs.filter fun p => p.strategy = .exactPrimary).length
      probabilisticSecondary :=
        (pairs.filter fun p => p.strategy = .probabilisticSecondary).length })

end Run

end GoldCalls

end MmrEngine
