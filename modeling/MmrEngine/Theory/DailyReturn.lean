import MmrEngine.Flows.DailyReport
import MmrEngine.Theory.VelocityAnomalies

/-!
# The Figures of the Daily Return

What the daily return adds up to, and that it does not depend on the order of
the rows.

Each round of the loop brings its transaction to a dozen figures. After the loop
every one of them is a figure of the list (`foldl_addTransaction`), so what adds
up for one transaction adds up for all, and nothing is left of the order but that
of the PSPs and of the currencies.

## Main definitions

* `addCurrency`: What a round does to the list of currencies.
* `Conserves`: The figures of a return that add up.
* `SameFigures`: Two returns that differ in the order of the breakdown and of the
  currencies at most.

## Theorems

* `foldl_addTransaction`, `foldl_addDiscrepancy`: What the loops leave.
* `get?_breakdown`, `mem_breakdown`: A PSP's figures.
* `mem_currencies`, `nodup_currencies`: The currencies.
* `daily_return`: What adds up, whatever the order.
-/

namespace MmrEngine

namespace CbnReport

open Gold Query

/-! ### The loops -/

section Loops

variable {F : Type}

/-- A currency is appended when it is another one and was not there. -/
def addCurrency (currencies : List String) (txn : Transaction) : List String :=
  if txn.crossBorder ∧ txn.currency ∉ currencies then currencies ++ [txn.currency]
  else currencies

theorem addTransaction_eq (summary : CBNDailySummary F) (txn : Transaction) :
    addTransaction summary txn = { summary with
      totalVolumeNgn := summary.totalVolumeNgn + txn.amount
      matchedTransactions := summary.matchedTransactions + if txn.isMatched then 1 else 0
      unmatchedTransactions := summary.unmatchedTransactions + if txn.isMatched then 0 else 1
      pspBreakdown :=
        OrderedDict.tally Transaction.psp PspTotals.zero PspTotals.add summary.pspBreakdown txn
      crossBorderCount := summary.crossBorderCount + if txn.crossBorder then 1 else 0
      crossBorderVolumeNgn :=
        summary.crossBorderVolumeNgn + if txn.crossBorder then txn.amount else 0
      crossBorderCurrencies := addCurrency summary.crossBorderCurrencies txn } := by
  cases hmatched : txn.isMatched with
  | false =>
      cases hcross : txn.crossBorder with
      | false => simp [addTransaction, addCurrency, hmatched, hcross]
      | true => simp [addTransaction, addCurrency, hmatched, hcross]
  | true =>
      cases hcross : txn.crossBorder with
      | false => simp [addTransaction, addCurrency, hmatched, hcross]
      | true => simp [addTransaction, addCurrency, hmatched, hcross]

/-- All figures after the loop at once. -/
theorem foldl_addTransaction (txns : List Transaction) (summary : CBNDailySummary F) :
    txns.foldl addTransaction summary = { summary with
      totalVolumeNgn := summary.totalVolumeNgn + totalOver Transaction.amount txns
      matchedTransactions :=
        summary.matchedTransactions + (txns.filter Transaction.isMatched).length
      unmatchedTransactions :=
        summary.unmatchedTransactions + (txns.filter fun txn => !txn.isMatched).length
      pspBreakdown :=
        OrderedDict.tallyAll Transaction.psp PspTotals.zero PspTotals.add summary.pspBreakdown txns
      crossBorderCount := summary.crossBorderCount + (txns.filter Transaction.crossBorder).length
      crossBorderVolumeNgn := summary.crossBorderVolumeNgn
        + totalOver Transaction.amount (txns.filter Transaction.crossBorder)
      crossBorderCurrencies := txns.foldl addCurrency summary.crossBorderCurrencies } := by
  induction txns generalizing summary with
  | nil => simp [OrderedDict.tallyAll]
  | cons txn txns ih =>
      rw [List.foldl_cons, ih, addTransaction_eq]
      simp only [length_filter_eq_totalOver, totalOver_filter, totalOver_cons, add_assoc,
        OrderedDict.tallyAll_cons, List.foldl_cons]
      cases txn.isMatched with
      | false => rfl
      | true => rfl

theorem foldl_addDiscrepancy (discs : List DiscrepancyItem) (summary : CBNDailySummary F) :
    discs.foldl addDiscrepancy summary = { summary with
      openDiscrepancies := summary.openDiscrepancies
        + (discs.filter fun disc => disc.status = some .open_).length
      totalExposureNgn := summary.totalExposureNgn
        + totalOver (fun disc => disc.amountNgn.getD 0)
            (discs.filter fun disc => disc.status = some .open_)
      resolvedDiscrepancies := summary.resolvedDiscrepancies
        + (discs.filter fun disc => disc.status = some .resolved).length } := by
  induction discs generalizing summary with
  | nil => simp
  | cons disc discs ih =>
      rw [List.foldl_cons, ih]
      simp only [length_filter_eq_totalOver, totalOver_filter, totalOver_cons, addDiscrepancy]
      -- Open, resolved, or in a status that is not counted.
      by_cases hopen : disc.status = some .open_
      · simp [hopen, add_assoc]
      · by_cases hresolved : disc.status = some .resolved
        · simp [hresolved, add_assoc]
        · simp [hopen, hresolved]

end Loops

/-! ### The currencies -/

theorem nodup_foldl_addCurrency (txns : List Transaction) {currencies : List String}
    (h : currencies.Nodup) : (txns.foldl addCurrency currencies).Nodup := by
  induction txns generalizing currencies with
  | nil => exact h
  | cons txn txns ih =>
      rw [List.foldl_cons]
      refine ih ?_
      unfold addCurrency
      by_cases hnew : txn.crossBorder ∧ txn.currency ∉ currencies
      · rw [if_pos hnew]
        exact List.nodup_append.mpr ⟨h, List.nodup_singleton _, fun c hc c' hc' heq =>
          hnew.2 (by rw [← List.mem_singleton.mp hc', ← heq]; exact hc)⟩
      · rw [if_neg hnew]
        exact h

theorem mem_addCurrency {currencies : List String} {txn : Transaction} {c : String} :
    c ∈ addCurrency currencies txn ↔ c ∈ currencies ∨ (txn.crossBorder ∧ txn.currency = c) := by
  unfold addCurrency
  by_cases hcross : txn.crossBorder = true
  · by_cases hmem : txn.currency ∈ currencies
    · rw [if_neg fun h => h.2 hmem]
      constructor
      · exact Or.inl
      · rintro (hc | ⟨-, rfl⟩)
        · exact hc
        · exact hmem
    · rw [if_pos ⟨hcross, hmem⟩, List.mem_append, List.mem_singleton]
      simp only [hcross, true_and, eq_comm]
  · simp [hcross]

theorem mem_foldl_addCurrency (txns : List Transaction) (currencies : List String) (c : String) :
    c ∈ txns.foldl addCurrency currencies ↔
      c ∈ currencies ∨ ∃ txn ∈ txns, txn.crossBorder ∧ txn.currency = c := by
  induction txns generalizing currencies with
  | nil => simp
  | cons txn txns ih =>
      rw [List.foldl_cons, ih, mem_addCurrency, or_assoc, List.exists_mem_cons_iff]

/-! ### The breakdown -/

theorem add_comm_pspTotals (totals : PspTotals) (x y : Transaction) :
    (totals.add x).add y = (totals.add y).add x := by
  cases hx : x.isMatched with
  | false =>
      cases hy : y.isMatched with
      | false => simp [PspTotals.add, hx, hy, add_right_comm]
      | true => simp [PspTotals.add, hx, hy, add_right_comm]
  | true =>
      cases hy : y.isMatched with
      | false => simp [PspTotals.add, hx, hy, add_right_comm]
      | true => simp [PspTotals.add, hx, hy, add_right_comm]

/-- Each transaction of a PSP is matched or not. -/
theorem matched_add_unmatched (txns : List Transaction) (totals : PspTotals)
    (h : totals.matched + totals.unmatched = totals.count) :
    (txns.foldl PspTotals.add totals).matched + (txns.foldl PspTotals.add totals).unmatched
      = (txns.foldl PspTotals.add totals).count := by
  induction txns generalizing totals with
  | nil => exact h
  | cons txn txns ih =>
      rw [List.foldl_cons]
      refine ih _ ?_
      unfold PspTotals.add
      cases txn.isMatched with
      | false =>
          simp only [Bool.false_eq_true, if_false]
          omega
      | true =>
          simp only [if_true]
          omega

/-- A figure of the breakdown that each transaction adds to. -/
theorem total_breakdown {M : Type} [AddCommMonoid M] (f : PspTotals → M) (g : Transaction → M)
    (hzero : f PspTotals.zero = 0) (hadd : ∀ totals txn, f (totals.add txn) = f totals + g txn)
    (txns : List Transaction) :
    totalOver (fun entry => f entry.2)
      (OrderedDict.tallyAll Transaction.psp PspTotals.zero PspTotals.add .empty txns).entries
      = totalOver g txns :=
  OrderedDict.total_tallyAll _ _ _ f g hzero hadd txns

/-! ### The return -/

section Return

variable {F : Type} [Zero F] (matchRate : Nat → Nat → F) (reportDate : ℤ)

/-- The summary as figures of the two lists. -/
theorem generateDailyReturn_eq (txns : List Transaction) (discs : List DiscrepancyItem) :
    generateDailyReturn matchRate reportDate txns discs =
      { reportDate := dateIsoformat reportDate
        status := .generated
        totalTransactions := txns.length
        totalVolumeNgn := totalOver Transaction.amount txns
        matchedTransactions := (txns.filter Transaction.isMatched).length
        unmatchedTransactions := (txns.filter fun txn => !txn.isMatched).length
        matchRatePct :=
          if 0 < txns.length then matchRate (txns.filter Transaction.isMatched).length txns.length
          else 0
        pspBreakdown :=
          OrderedDict.tallyAll Transaction.psp PspTotals.zero PspTotals.add .empty txns
        crossBorderCount := (txns.filter Transaction.crossBorder).length
        crossBorderVolumeNgn := totalOver Transaction.amount (txns.filter Transaction.crossBorder)
        crossBorderCurrencies := txns.foldl addCurrency []
        openDiscrepancies := (discs.filter fun disc => disc.status = some .open_).length
        resolvedDiscrepancies := (discs.filter fun disc => disc.status = some .resolved).length
        totalExposureNgn := totalOver (fun disc => disc.amountNgn.getD 0)
          (discs.filter fun disc => disc.status = some .open_)
        suspiciousTransactionCount := detectSuspicious txns
        velocityAnomalyCount := detectVelocityAnomalies txns } := by
  simp only [generateDailyReturn, foldl_addTransaction, foldl_addDiscrepancy, CBNDailySummary.new,
    zero_add]
  by_cases hempty : 0 < txns.length
  · simp [hempty]
  · simp [hempty]

/-- The figures of a return add up. -/
structure Conserves (txns : List DayTransaction) (r : ReturnRow F) : Prop where
  psp_counts : totalOver (fun entry => entry.2.count) r.reportPayload.pspBreakdown.entries
    = r.reportPayload.totalTransactions
  psp_volumes : totalOver (fun entry => entry.2.volumeNgn) r.reportPayload.pspBreakdown.entries
    = r.reportPayload.totalVolumeNgn
  psp_matched : totalOver (fun entry => entry.2.matched) r.reportPayload.pspBreakdown.entries
    = r.reportPayload.matchedTransactions
  psp_unmatched : totalOver (fun entry => entry.2.unmatched) r.reportPayload.pspBreakdown.entries
    = r.reportPayload.unmatchedTransactions
  matched_or_not : r.reportPayload.matchedTransactions + r.reportPayload.unmatchedTransactions
    = r.reportPayload.totalTransactions
  psp_matched_or_not : ∀ entry ∈ r.reportPayload.pspBreakdown.entries,
    entry.2.matched + entry.2.unmatched = entry.2.count
  credit_or_debit : r.reportPayload.totalVolumeNgn
    = r.totalCreditVolumeNgn + r.totalDebitVolumeNgn
  cross_border_count : r.reportPayload.crossBorderCount
    = (txns.filter fun t => t.originalCurrency ≠ "NGN").length
  cross_border_volume : r.reportPayload.crossBorderVolumeNgn
    = totalOver DayTransaction.amountNgn (txns.filter fun t => t.originalCurrency ≠ "NGN")
  currencies_once : r.reportPayload.crossBorderCurrencies.Nodup
  mem_currencies : ∀ c, c ∈ r.reportPayload.crossBorderCurrencies ↔
    c ≠ "NGN" ∧ ∃ t ∈ txns, t.originalCurrency = c

/-- The return without the breakdown and the currencies. -/
def ReturnRow.numbers (r : ReturnRow F) : ReturnRow F :=
  { r with
    reportPayload := { r.reportPayload with pspBreakdown := .empty, crossBorderCurrencies := [] } }

/-- The same numbers, the same breakdown as a map and the same currencies as a
    set. -/
structure SameFigures (r r' : ReturnRow F) : Prop where
  numbers : r.numbers = r'.numbers
  breakdown : ∀ psp, r.reportPayload.pspBreakdown.get? psp = r'.reportPayload.pspBreakdown.get? psp
  currencies : ∀ c, c ∈ r.reportPayload.crossBorderCurrencies ↔
    c ∈ r'.reportPayload.crossBorderCurrencies

/-- Every transaction is matched or not. -/
theorem length_matched_add_unmatched (txns : List Transaction) :
    (txns.filter Transaction.isMatched).length + (txns.filter fun txn => !txn.isMatched).length
      = txns.length := by
  induction txns with
  | nil => rfl
  | cons txn txns ih =>
      cases hmatched : txn.isMatched with
      | false =>
          rw [List.filter_cons_of_neg (by simp [hmatched]),
            List.filter_cons_of_pos (by simp [hmatched]), List.length_cons, List.length_cons]
          omega
      | true =>
          rw [List.filter_cons_of_pos hmatched, List.filter_cons_of_neg (by simp [hmatched]),
            List.length_cons, List.length_cons]
          omega

/-- Every transaction of the day is a credit or a debit, and not both. -/
theorem credits_add_debits (txns : List DayTransaction) :
    totalOver DayTransaction.amountNgn txns
      = totalOver DayTransaction.amountNgn (txns.filter fun t => t.transactionType = .credit)
        + totalOver DayTransaction.amountNgn (txns.filter fun t => t.transactionType = .debit) := by
  rw [totalOver_filter, totalOver_filter, totalOver_add]
  refine totalOver_congr fun t _ => ?_
  rcases t.creditOrDebit with hcredit | hdebit
  · simp [hcredit]
  · simp [hdebit]

theorem mem_breakdown {txns : List Transaction} {entry : String × PspTotals}
    (h : entry ∈ (OrderedDict.tallyAll Transaction.psp PspTotals.zero PspTotals.add .empty
      txns).entries) :
    entry.2 = (txns.filter fun txn => txn.psp = entry.1).foldl PspTotals.add PspTotals.zero := by
  have hget := OrderedDict.get?_of_mem h
  rw [OrderedDict.get?_tallyAll] at hget
  by_cases hpsp : ∃ txn ∈ txns, txn.psp = entry.1
  · rw [if_pos hpsp] at hget
    exact (Option.some.inj hget).symm
  · rw [if_neg hpsp] at hget
    cases hget

theorem conserves (txns : List DayTransaction) (discs : List DayDiscrepancy) :
    Conserves txns (returnRow matchRate reportDate txns discs) := by
  -- The payload is the summary, and that is known as a whole.
  have hpayload : (returnRow matchRate reportDate txns discs).reportPayload = _ :=
    generateDailyReturn_eq matchRate reportDate (txns.map DayTransaction.toTransaction)
      (discs.map DayDiscrepancy.toItem)
  constructor
  · rw [hpayload]
    -- The breakdown, figure by figure.
    exact (total_breakdown PspTotals.count (fun _ => 1) rfl (fun _ _ => rfl) _).trans
      (totalOver_one _)
  · rw [hpayload]
    exact total_breakdown PspTotals.volumeNgn Transaction.amount rfl (fun _ _ => rfl) _
  · rw [hpayload]
    refine (total_breakdown PspTotals.matched (fun txn => if txn.isMatched then 1 else 0) rfl
      (fun totals txn => ?_) _).trans (length_filter_eq_totalOver _ _).symm
    cases hmatched : txn.isMatched with
    | false => simp [PspTotals.add, hmatched]
    | true => simp [PspTotals.add, hmatched]
  · rw [hpayload]
    refine (total_breakdown PspTotals.unmatched (fun txn => if !txn.isMatched then 1 else 0) rfl
      (fun totals txn => ?_) _).trans (length_filter_eq_totalOver _ _).symm
    cases hmatched : txn.isMatched with
    | false => simp [PspTotals.add, hmatched]
    | true => simp [PspTotals.add, hmatched]
  · rw [hpayload]
    -- Matched or not, overall and by PSP.
    exact length_matched_add_unmatched _
  · rw [hpayload]
    intro entry hentry
    rw [mem_breakdown hentry]
    exact matched_add_unmatched _ _ rfl
  · rw [hpayload]
    -- Credits and debits were summed up from the rows themselves.
    exact (totalOver_map _ _ _).trans (credits_add_debits txns)
  · rw [hpayload]
    exact (congrArg List.length List.filter_map).trans (List.length_map _)
  · rw [hpayload]
    refine (congrArg (totalOver Transaction.amount) List.filter_map).trans ?_
    exact totalOver_map _ _ _
  · rw [hpayload]
    exact nodup_foldl_addCurrency _ List.nodup_nil
  · intro c
    -- A currency is in the list if some row brought it.
    rw [hpayload, mem_foldl_addCurrency]
    constructor
    · rintro (hnil | ⟨txn, htxn, hcross, rfl⟩)
      · cases hnil
      · rcases List.mem_map.mp htxn with ⟨t, ht, rfl⟩
        exact ⟨of_decide_eq_true hcross, t, ht, rfl⟩
    · rintro ⟨hforeign, t, ht, rfl⟩
      exact Or.inr ⟨_, List.mem_map_of_mem ht, decide_eq_true hforeign, rfl⟩

/-- No figure depends on the order of the rows. -/
theorem sameFigures {txns txns' : List DayTransaction} {discs discs' : List DayDiscrepancy}
    (h : txns.Perm txns') (h' : discs.Perm discs') :
    SameFigures (returnRow matchRate reportDate txns discs)
      (returnRow matchRate reportDate txns' discs') := by
  have htxns := h.map DayTransaction.toTransaction
  have hdiscs := h'.map DayDiscrepancy.toItem
  constructor
  · -- Every number is a count or a sum over the rows that pass a filter.
    have hmatched := (htxns.filter Transaction.isMatched).length_eq
    have hunmatched := (htxns.filter fun txn => !txn.isMatched).length_eq
    have hcross := (htxns.filter Transaction.crossBorder).length_eq
    have hopen := (hdiscs.filter fun disc => disc.status = some .open_).length_eq
    have hresolved := (hdiscs.filter fun disc => disc.status = some .resolved).length_eq
    have hsuspicious : detectSuspicious (txns.map DayTransaction.toTransaction)
        = detectSuspicious (txns'.map DayTransaction.toTransaction) :=
      (htxns.filter _).length_eq
    have hcredits := h.filter fun t => decide (t.transactionType = .credit)
    have hdebits := h.filter fun t => decide (t.transactionType = .debit)
    simp only [ReturnRow.numbers, returnRow, generateDailyReturn_eq, htxns.length_eq, hmatched,
      hunmatched, hcross, hopen, hresolved, hsuspicious, detectVelocityAnomalies_perm htxns,
      totalOver_perm htxns, totalOver_perm (htxns.filter Transaction.crossBorder),
      totalOver_perm (hdiscs.filter fun disc => disc.status = some .open_), hcredits.length_eq,
      hdebits.length_eq, totalOver_perm hcredits, totalOver_perm hdebits]
  · intro psp
    simp only [returnRow, generateDailyReturn_eq]
    exact OrderedDict.get?_tallyAll_perm _ _ _ add_comm_pspTotals htxns psp
  · intro c
    simp only [returnRow, generateDailyReturn_eq, mem_foldl_addCurrency, htxns.mem_iff]

/-- The return adds up, and is the same for every order of the transactions and
    of the discrepancies. -/
theorem daily_return (txns : List DayTransaction) (discs : List DayDiscrepancy) :
    Conserves txns (returnRow matchRate reportDate txns discs) ∧
    ∀ txns' discs', txns.Perm txns' → discs.Perm discs' →
      SameFigures (returnRow matchRate reportDate txns discs)
        (returnRow matchRate reportDate txns' discs') :=
  ⟨conserves matchRate reportDate txns discs, fun _ _ h h' =>
    sameFigures matchRate reportDate h h'⟩

end Return

/-- A naira credit and a dollar debit. -/
def localCredit : DayTransaction where
  pspName := "paystack"
  transactionType := .credit
  amountNgn := 4600000
  originalCurrency := "NGN"
  beneficiaryAccountMasked := none
  initiatedAt := newYear ⟨0, by decide⟩
  matchStatus := .matched
  creditOrDebit := Or.inl rfl

def foreignDebit : DayTransaction where
  pspName := "flutterwave"
  transactionType := .debit
  amountNgn := 100
  originalCurrency := "USD"
  beneficiaryAccountMasked := some "******6789"
  initiatedAt := newYear ⟨30, by decide⟩
  matchStatus := .unmatched
  creditOrDebit := Or.inr rfl

/-- The match rate, not rounded. -/
def exactRate (matched total : Nat) : ℚ := matched / total * 100

def openDiscrepancy : DayDiscrepancy where
  status := .open_
  amountNgn := 1500

def resolvedDiscrepancy : DayDiscrepancy where
  status := .resolved
  amountNgn := 200

theorem daily_return_two :
    SameFigures
      (returnRow exactRate 0 [localCredit, foreignDebit] [openDiscrepancy, resolvedDiscrepancy])
      (returnRow exactRate 0 [foreignDebit, localCredit]
        [resolvedDiscrepancy, openDiscrepancy]) :=
  (daily_return exactRate 0 [localCredit, foreignDebit]
    [openDiscrepancy, resolvedDiscrepancy]).2 _ _
    (List.Perm.swap foreignDebit localCredit [])
    (List.Perm.swap resolvedDiscrepancy openDiscrepancy [])

end CbnReport

end MmrEngine
