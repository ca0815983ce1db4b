import MmrEngine.Api.Transactions
import MmrEngine.Flows.SummaryView

/-!
# The Figures of a Day

The summary view, `/summary`, `/trend` and the transaction explorer compute the
figures of a day by four queries, and agree.

A transaction is matched once and its discrepancies are grouped before they are
joined, so neither join of the view repeats a transaction. A row of the view is
therefore the plain sum over the credits and debits of its day and PSP
(`goldReconciliationSummary_eq`), and the rows of a day make up the counts the
other queries compute.

The view, `/summary` and `/trend` take days by the time zone of Lagos. The trend
also drops what is before its first day by the shift of one hour, which drops
nothing of that day. The explorer takes days by the shift alone. That is the
same day from September 1919 on (`lagosDate_eq_iff_shift`) and can be another
one before.

All of this holds of any tables within the constraints of the schema, so of all
the pipeline leaves.

## Main definitions

* `counted`, `dayRows`, `cellRows`: The credits and debits, of a day, of a cell.
* `discrepanciesOf`, `openOf`: The discrepancies of a transaction.
* `plainSums`: The row a cell should have.

## Theorems

* `goldReconciliationSummary_eq`: The rows of the view are plain sums.
* `summary_of_day`, `trend_of_day`, `listing_of_day`: What the other queries count.
* `day_figures_agree`: All of it.
-/

namespace MmrEngine

namespace Reconciliation

open Discrepancy Gold GoldCalls Query Transactions

section Figures

variable {T P : Type} [DecidableEq T]
variable (columns : Columns T P) (now : ℤ) (s : Tables T)

/-! ### Plain sums -/

omit [DecidableEq T] in
/-- The credits and debits. -/
def counted : List (SilverRow T) := s.silver.rows.filter creditOrDebit

/-- The day and PSP of a transaction. -/
def cellOf (r : SilverRow T) : ℤ × P :=
  (lagosDate (columns.initiatedAt r.id), columns.pspName r.id)

/-- The credits and debits of a day. -/
def dayRows (date : ℤ) : List (SilverRow T) :=
  (counted s).filter fun r => lagosDate (columns.initiatedAt r.id) = date

/-- The discrepancies of a transaction. -/
def discrepanciesOf (x : T) : List (Nat × DiscrepancyRecord T) :=
  s.discrepancies.rows.filter fun d => d.2.transactionId = x

/-- Those of them that are not closed. -/
def openOf (x : T) : List (Nat × DiscrepancyRecord T) :=
  (discrepanciesOf s x).filter fun d => unresolved d.2.row.status

def closedOf (x : T) : List (Nat × DiscrepancyRecord T) :=
  (discrepanciesOf s x).filter fun d => d.2.row.status.closed

/-- The row of a cell as the sums over its transactions and their
    discrepancies. -/
def plainSums (k : ℤ × P) (rows : List (SilverRow T)) : SummaryRow P where
  summaryDate := k.1
  pspName := k.2
  totalTransactions := rows.length
  totalVolumeNgn := totalOver SilverRow.amountNgn rows
  totalMatched := (rows.filter fun r => s.isMatched r.id).length
  matchedVolumeNgn := totalOver SilverRow.amountNgn (rows.filter fun r => s.isMatched r.id)
  matchRatePct := matchRatePct (rows.filter fun r => s.isMatched r.id).length rows.length
  openDiscrepancyCount := totalOver (fun r => (openOf s r.id).length) rows
  resolvedDiscrepancyCount := totalOver (fun r => (closedOf s r.id).length) rows
  openExposureNgn := totalOver
    (fun r => totalOver (fun d => d.2.row.estimatedExposureNgn) (openOf s r.id)) rows
  slaBreachCount := (rows.filter fun r =>
    slaBreach now (columns.settledAt r.id) r.expectedSettlementAt).length
  lastRefreshedAt := now

/-! ### The joins -/

/-- A transaction is joined with its one match. -/
theorem silverWithMatches_eq :
    silverWithMatches s = s.silver.rows.map fun r => (r, s.matched.find? r.id) :=
  leftJoin_by_key SilverRow.id MatchedRow.transactionId s.silver.rows s.matched

/-- What the queries read of the matches, where they filter transactions. -/
theorem filter_silverWithMatches (p : SilverRow T → Bool) :
    (silverWithMatches s).filter (fun r => p r.1)
      = (s.silver.rows.filter p).map fun r => (r, s.matched.find? r.id) := by
  rw [silverWithMatches_eq, List.filter_map]
  rfl

theorem countMatched_map (rows : List (SilverRow T)) :
    countMatched (rows.map fun r => (r, s.matched.find? r.id))
      = (rows.filter fun r => s.isMatched r.id).length := by
  rw [countMatched, List.filter_map, List.length_map]
  rfl

/-- The groups of the discrepancies, by transaction. -/
def discTable : UniqueTable (DiscRow.transactionId (T := T)) where
  rows := discRows s
  unique := by
    have hkeys : (discRows s).map DiscRow.transactionId
        = (groupBy (fun d => d.2.transactionId) s.discrepancies.rows).map Prod.fst := by
      unfold discRows
      rw [List.map_map]
      rfl
    rw [hkeys]
    exact groupBy_keys_nodup _ _

theorem discTable_find? (x : T) : (discTable s).find? x
    = ((groups (fun d => d.2.transactionId) s.discrepancies.rows).find? x).map discRow :=
  List.find?_map

/-- What a transaction gets from the group of its discrepancies, or from none. -/
theorem discTable_getD {γ : Type} (agg : List (Nat × DiscrepancyRecord T) → γ) {f : DiscRow T → γ}
    (hf : ∀ g, f (discRow g) = agg g.2) (x : T) :
    (((discTable s).find? x).map f).getD (agg []) = agg (discrepanciesOf s x) := by
  have hgroups := aggregate_groupBy agg (fun d : Nat × DiscrepancyRecord T => d.2.transactionId)
    s.discrepancies.rows x
  have hcomp : f ∘ discRow = fun g => agg g.2 := funext hf
  rw [discrepanciesOf, ← hgroups, discTable_find?, Option.map_map, hcomp]

/-- A transaction as `tx` has it. -/
def txRow (r : SilverRow T) : TxRow T P where
  id := r.id
  summaryDate := lagosDate (columns.initiatedAt r.id)
  pspName := columns.pspName r.id
  amountNgn := r.amountNgn
  settledAt := columns.settledAt r.id
  expectedSettlementAt := r.expectedSettlementAt
  isMatched := s.isMatched r.id

theorem txRows_eq : txRows columns s = (counted s).map (txRow columns s) := by
  rw [txRows, filter_silverWithMatches, List.map_map]
  rfl

/-- The rows the view groups: neither join repeats a transaction. -/
theorem joined_eq :
    leftJoin (fun tx disc => decide (disc.transactionId = tx.id)) (txRows columns s) (discRows s)
      = (counted s).map fun r => (txRow columns s r, (discTable s).find? r.id) := by
  refine (leftJoin_by_key TxRow.id DiscRow.transactionId (txRows columns s) (discTable s)).trans ?_
  rw [txRows_eq, List.map_map]
  rfl

/-- A group of the view has the plain sums over its transactions. -/
theorem summaryRow_eq (k : ℤ × P) (rows : List (SilverRow T)) :
    summaryRow now (k, rows.map fun r => (txRow columns s r, (discTable s).find? r.id))
      = plainSums columns now s k rows := by
  have hopen : ∀ x, (((discTable s).find? x).map DiscRow.openCount).getD 0
      = (openOf s x).length :=
    discTable_getD s (fun ds => (ds.filter fun d => unresolved d.2.row.status).length)
      fun _ => rfl
  have hclosed : ∀ x, (((discTable s).find? x).map DiscRow.resolvedCount).getD 0
      = (closedOf s x).length :=
    discTable_getD s (fun ds => (ds.filter fun d => d.2.row.status.closed).length) fun _ => rfl
  have hexposure : ∀ x, (((discTable s).find? x).map DiscRow.openExposure).getD 0
      = totalOver (fun d => d.2.row.estimatedExposureNgn) (openOf s x) :=
    discTable_getD s (fun ds => totalOver (fun d => d.2.row.estimatedExposureNgn)
      (ds.filter fun d => unresolved d.2.row.status)) fun _ => rfl
  simp only [summaryRow, plainSums, List.length_map, totalOver_map, List.filter_map, hopen,
    hclosed, hexposure]
  rfl

/-! ### One day in the other queries -/

omit [DecidableEq T] in
/-- The transactions of a day, as the queries filter them. -/
theorem filter_day (date : ℤ) : (s.silver.rows.filter fun r =>
    creditOrDebit r && decide (lagosDate (columns.initiatedAt r.id) = date))
      = dayRows columns s date := by
  unfold dayRows counted
  rw [List.filter_filter]
  exact List.filter_congr fun r _ => Bool.and_comm _ _

/-- What `/summary` counts. -/
theorem summary_of_day (date : ℤ) :
    (getReconciliationSummary columns (some date) now s).totalTransactions
        = (dayRows columns s date).length ∧
      (getReconciliationSummary columns (some date) now s).matched
        = ((dayRows columns s date).filter fun r => s.isMatched r.id).length := by
  have hrows : ((silverWithMatches s).filter fun r => creditOrDebit r.1 &&
      decide (lagosDate (columns.initiatedAt r.1.id) = date))
        = (dayRows columns s date).map fun r => (r, s.matched.find? r.id) := by
    rw [← filter_day]
    exact filter_silverWithMatches s fun r =>
      creditOrDebit r && decide (lagosDate (columns.initiatedAt r.id) = date)
  simp only [getReconciliationSummary, Option.getD_some, hrows, List.length_map, countMatched_map,
    and_self]

/-- What the trend counts of a day: nothing is dropped by the first hour. -/
theorem trend_rows_of_day {start date : ℤ} (h : start ≤ date) :
    (((silverWithMatches s).filter fun r => creditOrDebit r.1 &&
        decide (utcMidnight start - hours 1 ≤ columns.initiatedAt r.1.id)).filter fun r =>
          lagosDate (columns.initiatedAt r.1.id) = date)
      = (dayRows columns s date).map fun r => (r, s.matched.find? r.id) := by
  rw [← filter_day, ← filter_silverWithMatches, List.filter_filter]
  refine List.filter_congr fun r _ => ?_
  by_cases hdate : lagosDate (columns.initiatedAt r.1.id) = date
  · have hstart := utcMidnight_le_of_lagosDate (h.trans hdate.ge)
    simp [hdate, hstart]
  · simp [hdate]

theorem mem_generateSeries {start stop date : ℤ} :
    date ∈ generateSeries start stop ↔ start ≤ date ∧ date ≤ stop := by
  unfold generateSeries
  rw [List.mem_map]
  constructor
  · rintro ⟨i, hi, rfl⟩
    rw [List.mem_range] at hi
    omega
  · rintro ⟨hstart, hstop⟩
    refine ⟨(date - start).toNat, ?_, by omega⟩
    rw [List.mem_range]
    omega

/-- The days of the trend, each joined with its groups. -/
theorem joined_days {α β : Type} (keyA : α → ℤ) (keyB : β → ℤ) (dates : List ℤ) (xs : List α)
    (ys : List β) :
    leftJoin (fun r g => decide (g.1 = r.1))
        (leftJoin (fun day g => decide (g.1 = day)) dates (groupBy keyA xs)) (groupBy keyB ys)
      = dates.map fun date =>
        ((date, (groups keyA xs).find? date), (groups keyB ys).find? date) := by
  have hfirst := leftJoin_by_key (fun day : ℤ => day) Prod.fst dates (groups keyA xs)
  have hsecond := leftJoin_by_key Prod.fst Prod.fst
    (leftJoin (fun day g => decide (g.1 = day)) dates (groupBy keyA xs)) (groups keyB ys)
  refine hsecond.trans ?_
  rw [show leftJoin (fun day g => decide (g.1 = day)) dates (groupBy keyA xs)
      = dates.map fun day => (day, (groups keyA xs).find? day) from hfirst, List.map_map]
  rfl

/-- The trend has one row for each day of its range, with the counts of the day. -/
theorem getTrend_eq (days clock : ℤ) :
    (getTrend columns days clock s).map (fun row => (row.date, row.total, row.matched))
      = (generateSeries (lagosDate clock - (days - 1)) (lagosDate clock)).map fun date =>
          (date, (dayRows columns s date).length,
            ((dayRows columns s date).filter fun r => s.isMatched r.id).length) := by
  unfold getTrend
  simp only [joined_days, List.map_map]
  refine List.map_congr_left fun date hdate => ?_
  have hrows := trend_rows_of_day columns s (mem_generateSeries.mp hdate).1
  have htotal := aggregate_groupBy List.length
    (fun r : SilverRow T × Option (MatchedRow T) => lagosDate (columns.initiatedAt r.1.id))
    ((silverWithMatches s).filter fun r => creditOrDebit r.1 && decide
      (utcMidnight (lagosDate clock - (days - 1)) - hours 1 ≤ columns.initiatedAt r.1.id)) date
  have hmatched := aggregate_groupBy countMatched
    (fun r : SilverRow T × Option (MatchedRow T) => lagosDate (columns.initiatedAt r.1.id))
    ((silverWithMatches s).filter fun r => creditOrDebit r.1 && decide
      (utcMidnight (lagosDate clock - (days - 1)) - hours 1 ≤ columns.initiatedAt r.1.id)) date
  rw [hrows, List.length_map] at htotal
  rw [hrows, countMatched_map] at hmatched
  simp only [Function.comp_apply, ← htotal, ← hmatched]
  rfl

end Figures

section Cells

variable {T P : Type} [DecidableEq T] [DecidableEq P]
variable (columns : Columns T P) (now : ℤ) (s : Tables T)

/-! ### Days and PSPs -/

/-- The credits and debits of a day and a PSP. -/
def cellRows (k : ℤ × P) : List (SilverRow T) := (counted s).filter fun r => cellOf columns r = k

/-- The rows of the view are plain sums, one for each day and PSP. -/
theorem goldReconciliationSummary_eq : goldReconciliationSummary columns now s
    = (groupBy (cellOf columns) (counted s)).map fun g => plainSums columns now s g.1 g.2 := by
  have hgroups : goldReconciliationSummary columns now s
      = (groupBy (fun r => (r.1.summaryDate, r.1.pspName))
          ((counted s).map fun r => (txRow columns s r, (discTable s).find? r.id))).map
          (summaryRow now) := by
    rw [← joined_eq]
    rfl
  rw [hgroups, groupBy_map, List.map_map]
  exact List.map_congr_left fun g _ => summaryRow_eq columns now s g.1 g.2

/-- A cell of the view has a row, with the plain sums over the cell. -/
theorem mem_goldReconciliationSummary {row : SummaryRow P} :
    row ∈ goldReconciliationSummary columns now s ↔
      ∃ k, cellRows columns s k ≠ [] ∧ row = plainSums columns now s k (cellRows columns s k) := by
  rw [goldReconciliationSummary_eq]
  constructor
  · intro h
    rcases List.mem_map.mp h with ⟨⟨k, rows⟩, hg, rfl⟩
    rcases mem_groupBy.mp hg with ⟨⟨r, hr, hk⟩, rfl⟩
    exact ⟨k, List.ne_nil_of_mem (List.mem_filter.mpr ⟨hr, decide_eq_true hk⟩), rfl⟩
  · rintro ⟨k, hne, rfl⟩
    rcases List.exists_mem_of_ne_nil _ hne with ⟨r, hr⟩
    rcases List.mem_filter.mp hr with ⟨hmem, hk⟩
    exact List.mem_map.mpr ⟨(k, cellRows columns s k),
      mem_groupBy.mpr ⟨⟨r, hmem, of_decide_eq_true hk⟩, rfl⟩, rfl⟩

theorem goldReconciliationSummary_keys :
    ((goldReconciliationSummary columns now s).map fun row =>
      (row.summaryDate, row.pspName)).Nodup := by
  rw [goldReconciliationSummary_eq, List.map_map]
  exact groupBy_keys_nodup (cellOf columns) (counted s)

/-- The rows of one day in the view make up the counts of the day. -/
theorem view_of_day (date : ℤ) :
    let rows := (goldReconciliationSummary columns now s).filter fun row => row.summaryDate = date
    totalOver SummaryRow.totalTransactions rows = (dayRows columns s date).length ∧
      totalOver SummaryRow.totalMatched rows
        = ((dayRows columns s date).filter fun r => s.isMatched r.id).length := by
  have hsum : ∀ f : SilverRow T → ℕ, totalOver (fun g => totalOver f g.2)
      ((groupBy (cellOf columns) (counted s)).filter fun g => decide (g.1.1 = date))
        = totalOver f (dayRows columns s date) := fun f =>
    sum_groupBy_filter (fun k : ℤ × P => decide (k.1 = date)) (cellOf columns) f (counted s)
  simp only [goldReconciliationSummary_eq, List.filter_map, totalOver_map, plainSums]
  refine ⟨?_, ?_⟩
  · rw [← totalOver_one, ← hsum]
    simp only [totalOver_one]
    rfl
  · rw [length_filter_eq_totalOver, ← hsum]
    simp only [← length_filter_eq_totalOver]
    rfl

/-! ### One day in the explorer -/

/-- The filters for one type of transactions and one day. -/
def typeOnDay (type : TransactionType) (date : ℤ) : Filters T P where
  transactionType := some type
  dateFrom := some date
  dateTo := some date

/-- What the explorer counts of one type on one day, given in hours. -/
theorem listing_of_type [PyText] (reading : Reading T) (type : TransactionType) (date : ℤ)
    (limit offset : ℕ) :
    (listTransactions reading columns (typeOnDay type date) limit offset s).total
      = (s.silver.rows.filter fun r => decide (r.transactionType = type) &&
          decide (utcMidnight date - hours 1 ≤ columns.initiatedAt r.id ∧
            columns.initiatedAt r.id < utcMidnight date + hours 23)).length := by
  have hpasses : Filters.passes (typeOnDay type date) reading columns
        = fun r : SilverRow T × Option (MatchedRow T) => decide (r.1.transactionType = type) &&
          decide (utcMidnight date - hours 1 ≤ columns.initiatedAt r.1.id ∧
            columns.initiatedAt r.1.id < utcMidnight date + hours 23) := by
    funext r
    simp [Filters.passes, typeOnDay, parseSearch, Bool.and_assoc]
  have hrows := filter_silverWithMatches s fun r => decide (r.transactionType = type) &&
    decide (utcMidnight date - hours 1 ≤ columns.initiatedAt r.id ∧
      columns.initiatedAt r.id < utcMidnight date + hours 23)
  simp only [listTransactions, hpasses, hrows, List.length_map]

/-- Credits and debits together, where the hours are those of the day. -/
theorem listing_of_day [PyText] {date : ℤ}
    (h : lagosChangeDate < date ∨
      ∀ r ∈ counted s, lagosStandardTime ≤ columns.initiatedAt r.id)
    (reading : Reading T) (limit offset : ℕ) :
    (listTransactions reading columns (typeOnDay .credit date) limit offset s).total
      + (listTransactions reading columns (typeOnDay .debit date) limit offset s).total
      = (dayRows columns s date).length := by
  rw [listing_of_type, listing_of_type, ← filter_day]
  have hday : ∀ r ∈ s.silver.rows, creditOrDebit r = true →
      (lagosDate (columns.initiatedAt r.id) = date ↔
        utcMidnight date - hours 1 ≤ columns.initiatedAt r.id ∧
          columns.initiatedAt r.id < utcMidnight date + hours 23) := by
    intro r hr hcounted
    refine lagosDate_eq_iff_shift (h.imp_right fun hall => ?_)
    exact hall r (List.mem_filter.mpr ⟨hr, hcounted⟩)
  rw [length_filter_eq_totalOver, length_filter_eq_totalOver, length_filter_eq_totalOver,
    totalOver_add]
  refine totalOver_congr fun r hr => ?_
  -- A transaction is of one of the two types, or of neither.
  cases htype : r.transactionType with
  | credit =>
      have hcounted : creditOrDebit r = true := by simp [creditOrDebit, htype]
      simp [hcounted, hday r hr hcounted]
  | debit =>
      have hcounted : creditOrDebit r = true := by simp [creditOrDebit, htype]
      simp [hcounted, hday r hr hcounted]
  | reversal =>
      have hcounted : creditOrDebit r = false := by simp [creditOrDebit, htype]
      simp [hcounted]

/-- For any tables within the constraints and the view just refreshed: the view
    has one row for each day and PSP with credits or debits, which has the plain
    sums over them and their discrepancies; for every date, what its rows add up
    to is what `/summary` counts and what the trend has for the day, if it has
    the day; and where the fixed shift of one hour gives the same days, it is
    the number of credits and debits the explorer counts. -/
theorem day_figures_agree [PyText] :
    ((goldReconciliationSummary columns now s).map fun row =>
      (row.summaryDate, row.pspName)).Nodup ∧
    (∀ r ∈ s.silver.rows, creditOrDebit r = true →
      ∃ row ∈ goldReconciliationSummary columns now s,
        r ∈ cellRows columns s (row.summaryDate, row.pspName)) ∧
    (∀ row ∈ goldReconciliationSummary columns now s,
      ∃ rows, rows = cellRows columns s (row.summaryDate, row.pspName) ∧ rows ≠ [] ∧
        row.totalTransactions = rows.length ∧
        row.totalVolumeNgn = totalOver SilverRow.amountNgn rows ∧
        row.totalMatched = (rows.filter fun r => s.isMatched r.id).length ∧
        row.matchedVolumeNgn
          = totalOver SilverRow.amountNgn (rows.filter fun r => s.isMatched r.id) ∧
        row.openDiscrepancyCount = totalOver (fun r => (openOf s r.id).length) rows ∧
        row.resolvedDiscrepancyCount = totalOver (fun r => (closedOf s r.id).length) rows ∧
        row.openExposureNgn = totalOver
          (fun r => totalOver (fun d => d.2.row.estimatedExposureNgn) (openOf s r.id)) rows) ∧
    ∀ date, ∃ total matched,
      total = totalOver SummaryRow.totalTransactions
        ((goldReconciliationSummary columns now s).filter fun row => row.summaryDate = date) ∧
      matched = totalOver SummaryRow.totalMatched
        ((goldReconciliationSummary columns now s).filter fun row => row.summaryDate = date) ∧
      (∀ clock, (getReconciliationSummary columns (some date) clock s).totalTransactions = total ∧
        (getReconciliationSummary columns (some date) clock s).matched = matched) ∧
      (∀ days clock, lagosDate clock - (days - 1) ≤ date → date ≤ lagosDate clock →
        ∃ row ∈ getTrend columns days clock s, row.date = date) ∧
      (∀ days clock, ∀ row ∈ getTrend columns days clock s, row.date = date →
        row.total = total ∧ row.matched = matched) ∧
      ((lagosChangeDate < date ∨ ∀ r ∈ counted s, lagosStandardTime ≤ columns.initiatedAt r.id) →
        ∀ reading limit offset,
          (listTransactions reading columns (typeOnDay .credit date) limit offset s).total
            + (listTransactions reading columns (typeOnDay .debit date) limit offset s).total
            = total) := by
  refine ⟨goldReconciliationSummary_keys columns now s, ?_, ?_, fun date => ?_⟩
  · -- The cell of a transaction is not empty, so it has a row.
    intro r hr hcounted
    have hmem : r ∈ cellRows columns s (cellOf columns r) :=
      List.mem_filter.mpr ⟨List.mem_filter.mpr ⟨hr, hcounted⟩, decide_eq_true rfl⟩
    refine ⟨plainSums columns now s (cellOf columns r) (cellRows columns s (cellOf columns r)),
      (mem_goldReconciliationSummary columns now s).mpr
        ⟨_, List.ne_nil_of_mem hmem, rfl⟩, hmem⟩
  · -- A row of the view is that of some cell, and its figures are plain sums.
    intro row hrow
    rcases (mem_goldReconciliationSummary columns now s).mp hrow with ⟨k, hne, rfl⟩
    exact ⟨_, rfl, hne, rfl, rfl, rfl, rfl, rfl, rfl, rfl⟩
  · -- The counts of the day are what all four come down to.
    rcases view_of_day columns now s date with ⟨htotal, hmatched⟩
    refine ⟨(dayRows columns s date).length,
      ((dayRows columns s date).filter fun r => s.isMatched r.id).length, htotal.symm,
      hmatched.symm, fun clock => summary_of_day columns clock s date, ?_, ?_, ?_⟩
    · intro days clock hstart hstop
      have hmem := List.mem_map_of_mem (f := fun date => (date, (dayRows columns s date).length,
        ((dayRows columns s date).filter fun r => s.isMatched r.id).length))
        (mem_generateSeries.mpr ⟨hstart, hstop⟩)
      rw [← getTrend_eq] at hmem
      rcases List.mem_map.mp hmem with ⟨row, hrow, heq⟩
      exact ⟨row, hrow, congrArg Prod.fst heq⟩
    · intro days clock row hrow hdate
      have hmem := List.mem_map_of_mem (f := fun row : TrendDay => (row.date, row.total,
        row.matched)) hrow
      rw [getTrend_eq] at hmem
      rcases List.mem_map.mp hmem with ⟨date', _, heq⟩
      rcases Prod.mk.inj heq with ⟨hday, hcounts⟩
      rw [← hdate, ← hday]
      exact ⟨(congrArg Prod.fst hcounts).symm, (congrArg Prod.snd hcounts).symm⟩
    · intro h reading limit offset
      exact listing_of_day columns s h reading limit offset

end Cells

section Exhibit

/-- A settled sale. -/
def sale : SilverRow Nat where
  id := 1
  transactionType := .credit
  settlementStatus := .settled
  amountNgn := 1000
  fxRateApplied := none
  expectedSettlementAt := none

/-- It was initiated and settled at `t`. -/
def saleColumns (t : ℤ) : Columns Nat String where
  pspName _ := "paystack"
  pspTransactionRef _ := "ref"
  initiatedAt _ := t
  settledAt _ := some t
  raisedAt _ := 0

def saleTables : Tables Nat := after (initial (UniqueTable.empty _)) [.land sale]

/-- Ids in decimal. -/
def decimalIds : Reading Nat where
  readUuid := String.toNat?
  idLe i j := decide (i ≤ j)
  foldCase s := String.ofList (s.toList.map Char.toLower)

/-- What the explorer counts on a date of the sale at `t`. -/
def listed (t date : ℤ) : Nat :=
  letI := asciiText
  (listTransactions decimalIds (saleColumns t) (typeOnDay .credit date) 50 0 saleTables).total
    + (listTransactions decimalIds (saleColumns t) (typeOnDay .debit date) 50 0 saleTables).total

/-- Half past eleven in the evening of 1910-01-01, UTC: in Lagos it was still that
    day, and the view and `/summary` count the sale there, but the explorer has it
    on the next. -/
theorem early_sale_is_not_listed :
    (totalOver SummaryRow.totalTransactions ((goldReconciliationSummary
      (saleColumns (seconds (-1893371400))) 0 saleTables).filter fun row =>
        row.summaryDate = -21915) = 1) ∧
    (getReconciliationSummary (saleColumns (seconds (-1893371400))) (some (-21915)) 0
      saleTables).totalTransactions = 1 ∧
    listed (seconds (-1893371400)) (-21915) = 0 ∧
    listed (seconds (-1893371400)) (-21914) = 1 := by
  decide

/-- The same time of day on 2024-02-29 is the first of March everywhere. -/
theorem day_figures_agree_leapDay : listed (seconds 1709249400) 19783 = 1 := by
  let text := asciiText
  rcases (day_figures_agree (saleColumns (seconds 1709249400)) 0 saleTables).2.2.2 19783 with
    ⟨total, _, htotal, _, _, _, _, hlisted⟩
  have hone : totalOver SummaryRow.totalTransactions ((goldReconciliationSummary
      (saleColumns (seconds 1709249400)) 0 saleTables).filter fun row =>
        row.summaryDate = 19783) = 1 := by decide
  have hcount := hlisted (Or.inl (by decide)) decimalIds 50 0
  rw [htotal, hone] at hcount
  exact hcount

end Exhibit

end Reconciliation

end MmrEngine
