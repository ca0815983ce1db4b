import MmrEngine.Api.ExposureAging

/-!
# Displayed Totals

Whether the figures of `/exposure` and `/exposure/aging` add up as they are
shown.

The sums behind them are exact and add up, and so do the counts. Each figure is
rounded on its own, so what is cut off of the parts is missing from their sum,
and the whole shows it as soon as it comes to half a kobo
(`money_sum_iff`). The difference is never more than half a kobo for each of the
figures (`abs_money_sum_sub_le`).

## Main definitions

* `residue`: What rounding cuts off.
* `Cancel`: What is cut off does not show.
* `openDiscrepancies`, `exactExposure`: What is added up.
* `AddsUp`: Figures that add up as far as their rounding goes.

## Theorems

* `money_sum_iff`, `abs_money_sum_sub_le`: A whole and its parts.
* `foldl_add`, `overall_eq_total`: What the loop leaves in the buckets.
* `overall_eq`, `perPsp_eq`: In terms of the open discrepancies.
* `displayed_totals`: Both endpoints.
-/

namespace MmrEngine

namespace Reconciliation

open Discrepancy Gold GoldCalls Query

/-! ### Rounded parts -/

/-- What rounding to kobo cuts off of an amount. -/
def residue (x : ℚ) : ℚ := x - money x

/-- What is cut off of some amounts comes to less than half a kobo, or to half a
    kobo and they come to an even number of kobo. -/
def Cancel (parts : List ℚ) : Prop :=
  |(parts.map residue).sum| < 1 / 200 ∨
    (|(parts.map residue).sum| = 1 / 200 ∧ ∃ k : ℤ, (parts.map money).sum = k / 50)

theorem sum_money_eq (parts : List ℚ) : ∃ k : ℤ, (parts.map money).sum = k / 100 := by
  induction parts with
  | nil => exact ⟨0, by simp⟩
  | cons x parts ih =>
      rcases ih with ⟨k, hk⟩
      refine ⟨roundHalfEven (x * 100) + k, ?_⟩
      rw [List.map_cons, List.sum_cons, hk, money]
      push_cast
      ring

theorem sum_residue (parts : List ℚ) :
    (parts.map residue).sum = parts.sum - (parts.map money).sum := by
  induction parts with
  | nil => simp
  | cons x parts ih =>
      simp only [List.map_cons, List.sum_cons, ih, residue]
      ring

/-- Amounts add up as they are shown if and only if what is cut off does not
    show. -/
theorem money_sum_iff (parts : List ℚ) :
    money parts.sum = (parts.map money).sum ↔ Cancel parts := by
  rcases sum_money_eq parts with ⟨k, hk⟩
  have hshown : money parts.sum = (parts.map money).sum ↔ roundHalfEven (parts.sum * 100) = k := by
    rw [hk, money, div_left_inj' (by norm_num), Int.cast_inj]
  have hscale : parts.sum * 100 - k = 100 * (parts.map residue).sum := by
    rw [sum_residue, hk]
    ring
  have habs : |parts.sum * 100 - k| = 100 * |(parts.map residue).sum| := by
    rw [hscale, abs_mul, abs_of_pos (by norm_num)]
  rw [hshown, roundHalfEven_eq_iff, habs, Cancel, hk]
  refine or_congr ⟨fun h => by linarith, fun h => by linarith⟩
    (and_congr ⟨fun h => by linarith, fun h => by linarith⟩ ?_)
  constructor
  · rintro ⟨j, rfl⟩
    refine ⟨j, ?_⟩
    push_cast
    ring
  · rintro ⟨j, hj⟩
    refine ⟨j, ?_⟩
    have hcast : (k : ℚ) = ((j + j : ℤ) : ℚ) := by
      push_cast
      linarith
    exact_mod_cast hcast

theorem abs_residue_le (x : ℚ) : |residue x| ≤ 1 / 200 := by
  have h := abs_roundHalfEven_sub_le (x * 100)
  rw [abs_le] at h ⊢
  unfold residue money
  constructor <;> linarith

theorem abs_sum_residue_le (parts : List ℚ) :
    |(parts.map residue).sum| ≤ (parts.length : ℚ) / 200 := by
  induction parts with
  | nil => simp
  | cons x parts ih =>
      rw [List.map_cons, List.sum_cons, List.length_cons]
      have hsum := abs_add_le (residue x) (parts.map residue).sum
      have hx := abs_residue_le x
      push_cast
      linarith

/-- They are never further off than half a kobo for each figure. -/
theorem abs_money_sum_sub_le (parts : List ℚ) :
    |money parts.sum - (parts.map money).sum| ≤ ((parts.length : ℚ) + 1) / 200 := by
  have hwhole := abs_residue_le parts.sum
  have hparts := abs_sum_residue_le parts
  have hsub : money parts.sum - (parts.map money).sum
      = (parts.map residue).sum - residue parts.sum := by
    rw [sum_residue, residue]
    ring
  rw [hsub]
  have htri := abs_sub (parts.map residue).sum (residue parts.sum)
  linarith

/-! ### The buckets -/

section Buckets

variable {P : Type}

/-- What the loop leaves in a bucket: what was there and the rows of its name. -/
theorem foldl_add (rows : List (AgingRow P)) (target : Buckets) (b : AgeBucket) :
    rows.foldl Buckets.add target b =
      { count := (target b).count + totalOver AgingRow.n (rows.filter fun r => r.bucket = b)
        exposure := (target b).exposure
          + totalOver AgingRow.exposure (rows.filter fun r => r.bucket = b) } := by
  induction rows generalizing target with
  | nil => simp
  | cons r rows ih =>
      rw [List.foldl_cons, ih]
      by_cases hb : r.bucket = b
      · rw [List.filter_cons_of_pos (by simpa using hb), totalOver_cons, totalOver_cons, ← hb,
          Buckets.add, Function.update_self, Nat.add_assoc, add_assoc]
      · rw [List.filter_cons_of_neg (by simpa using hb), Buckets.add,
          Function.update_of_ne (Ne.symm hb)]

variable [DecidableEq P]

/-- The loop, as one loop for each of its targets. -/
theorem accumulate_eq (rows : List (AgingRow P)) : accumulate rows =
    { overall := rows.foldl Buckets.add emptyBuckets
      perPsp := OrderedDict.tallyAll AgingRow.pspName emptyBuckets Buckets.add OrderedDict.empty
        rows } := by
  have hrun : ∀ acc : Accumulated P, rows.foldl (fun acc r =>
      { overall := acc.overall.add r
        perPsp := OrderedDict.tally AgingRow.pspName emptyBuckets Buckets.add acc.perPsp r }) acc
      = { overall := rows.foldl Buckets.add acc.overall
          perPsp := OrderedDict.tallyAll AgingRow.pspName emptyBuckets Buckets.add acc.perPsp
            rows } := by
    induction rows with
    | nil => exact fun _ => rfl
    | cons r rows ih =>
        intro acc
        rw [List.foldl_cons, ih]
        rfl
  exact hrun _

theorem overall_accumulate (rows : List (AgingRow P)) :
    (accumulate rows).overall = rows.foldl Buckets.add emptyBuckets := by
  rw [accumulate_eq]

theorem perPsp_accumulate (rows : List (AgingRow P)) : (accumulate rows).perPsp =
    OrderedDict.tallyAll AgingRow.pspName emptyBuckets Buckets.add OrderedDict.empty rows := by
  rw [accumulate_eq]

/-- The overall bucket has what the buckets of the PSPs have together. -/
theorem overall_eq_total (rows : List (AgingRow P)) (b : AgeBucket) :
    ((accumulate rows).overall b).count
        = totalOver (fun e => (e.2 b).count) (accumulate rows).perPsp.entries ∧
      ((accumulate rows).overall b).exposure
        = totalOver (fun e => (e.2 b).exposure) (accumulate rows).perPsp.entries := by
  rw [overall_accumulate, perPsp_accumulate, foldl_add]
  simp only [emptyBuckets, zero_add, totalOver_filter]
  constructor
  · refine (OrderedDict.total_tallyAll AgingRow.pspName emptyBuckets Buckets.add
      (fun bs => (bs b).count) _ rfl (fun bs r => ?_) rows).symm
    by_cases hb : r.bucket = b
    · simp [Buckets.add, hb]
    · simp [Buckets.add, hb, Function.update_of_ne (Ne.symm hb)]
  · refine (OrderedDict.total_tallyAll AgingRow.pspName emptyBuckets Buckets.add
      (fun bs => (bs b).exposure) _ rfl (fun bs r => ?_) rows).symm
    by_cases hb : r.bucket = b
    · simp [Buckets.add, hb]
    · simp [Buckets.add, hb, Function.update_of_ne (Ne.symm hb)]

end Buckets

/-! ### The endpoints -/

section Endpoints

variable {T P : Type} [DecidableEq T]

/-- The open discrepancies, each with its transaction. -/
def openDiscrepancies (s : Tables T) : List ((Nat × DiscrepancyRecord T) × SilverRow T) :=
  (innerJoin (fun d r => decide (d.2.transactionId = r.id)) s.discrepancies.rows
    s.silver.rows).filter fun r => unresolved r.1.2.row.status

/-- Their exposure. -/
def exactExposure (rows : List ((Nat × DiscrepancyRecord T) × SilverRow T)) : ℚ :=
  totalOver (fun r => r.1.2.row.estimatedExposureNgn) rows

/-- The open discrepancies of an age. -/
def agedDiscrepancies (columns : Columns T P) (now : ℤ) (s : Tables T) (b : AgeBucket) :
    List ((Nat × DiscrepancyRecord T) × SilverRow T) :=
  (openDiscrepancies s).filter fun r => ageBucket (now - columns.raisedAt r.1.1) = b

section

variable [DecidableEq P] (columns : Columns T P) (now : ℤ) (s : Tables T)

/-- Of the groups of the query, those some of its keys select. -/
theorem totals_agingRows (p : P × AgeBucket → Bool) :
    totalOver AgingRow.n ((agingRows columns now s).filter fun r => p (r.pspName, r.bucket))
        = ((openDiscrepancies s).filter fun r =>
            p (columns.pspName r.2.id, ageBucket (now - columns.raisedAt r.1.1))).length ∧
      totalOver AgingRow.exposure
          ((agingRows columns now s).filter fun r => p (r.pspName, r.bucket))
        = exactExposure ((openDiscrepancies s).filter fun r =>
            p (columns.pspName r.2.id, ageBucket (now - columns.raisedAt r.1.1))) := by
  simp only [agingRows, List.filter_map, totalOver_map]
  constructor
  · rw [← totalOver_one]
    refine Eq.trans ?_ (sum_groupBy_filter p _ (fun _ => 1) (openDiscrepancies s))
    exact totalOver_congr fun g _ => (totalOver_one g.2).symm
  · exact sum_groupBy_filter p _ _ _

/-- The overall bucket of an age has its open discrepancies. -/
theorem overall_eq (b : AgeBucket) :
    (accumulate (agingRows columns now s)).overall b =
      { count := (agedDiscrepancies columns now s b).length
        exposure := exactExposure (agedDiscrepancies columns now s b) } := by
  rcases totals_agingRows columns now s (fun k => k.2 = b) with ⟨hcount, hexposure⟩
  rw [overall_accumulate, foldl_add]
  simp only [emptyBuckets, zero_add]
  exact congrArg₂ Bucket.mk hcount hexposure

/-- The bucket of a PSP has those of them that are the PSP's. -/
theorem perPsp_eq {e : P × Buckets}
    (h : e ∈ (accumulate (agingRows columns now s)).perPsp.entries) (b : AgeBucket) :
    e.2 b =
      { count := ((agedDiscrepancies columns now s b).filter fun r =>
          columns.pspName r.2.id = e.1).length
        exposure := exactExposure ((agedDiscrepancies columns now s b).filter fun r =>
          columns.pspName r.2.id = e.1) } := by
  have hget := OrderedDict.getD_tallyAll AgingRow.pspName emptyBuckets Buckets.add
    (agingRows columns now s) OrderedDict.empty e.1
  rw [perPsp_accumulate] at h
  rw [OrderedDict.get?_of_mem h, Option.getD_some] at hget
  rcases totals_agingRows columns now s (fun k => k.2 = b && k.1 = e.1) with ⟨hcount, hexposure⟩
  have hempty : (OrderedDict.empty : OrderedDict P Buckets).get? e.1 = none := rfl
  rw [hget, foldl_add, hempty, Option.getD_none, agedDiscrepancies, List.filter_filter,
    List.filter_comm, List.filter_filter]
  simp only [emptyBuckets, zero_add]
  exact congrArg₂ Bucket.mk hcount hexposure

/-- The rows of `/exposure` add up to the open exposure, before they are rounded. -/
theorem sum_exposureRows : ((exposureRows columns s).map ExposureRow.totalExposureNgn).sum
    = exactExposure (openDiscrepancies s) := by
  have hperm : totalOver ExposureRow.totalExposureNgn (exposureRows columns s) = _ :=
    totalOver_perm (List.mergeSort_perm _ _)
  rw [totalOver_map, sum_groupBy] at hperm
  exact hperm

/-- A row is the sum over the open discrepancies of its PSP and class. -/
theorem exposureRow_eq {row : ExposureRow P} (h : row ∈ exposureRows columns s) :
    row.totalExposureNgn = exactExposure ((openDiscrepancies s).filter fun r =>
      (columns.pspName r.2.id, r.1.2.classification) = (row.pspName, row.discrepancyType)) := by
  have hmem := (List.mergeSort_perm _ _).mem_iff.mp h
  rcases List.mem_map.mp hmem with ⟨g, hg, rfl⟩
  exact congrArg exactExposure (mem_groupBy.mp hg).2

end

/-- Figures that add up as far as the rounding of each of them goes. -/
structure AddsUp (whole : ℚ) (parts exact : List ℚ) : Prop where
  parts_rounded : parts = exact.map money
  whole_rounded : whole = money exact.sum
  sum_iff : whole = parts.sum ↔ Cancel exact
  sum_near : |whole - parts.sum| ≤ ((exact.length : ℚ) + 1) / 200

theorem addsUp (exact : List ℚ) : AddsUp (money exact.sum) (exact.map money) exact where
  parts_rounded := rfl
  whole_rounded := rfl
  sum_iff := money_sum_iff exact
  sum_near := abs_money_sum_sub_le exact

/-- A bucket of the answer, by its name. -/
def bucketOf (shown : List RenderedBucket) (b : AgeBucket) : Option RenderedBucket :=
  shown.find? fun r => r.bucket = b.name

theorem bucketOf_render (buckets : Buckets) (b : AgeBucket) : bucketOf (render buckets) b =
    some { bucket := b.name, count := (buckets b).count
           exposureNgn := money (buckets b).exposure } := by
  cases b with
  | upToOneDay => simp [bucketOf, render, AGING_BUCKETS, AgeBucket.name]
  | oneToThreeDays => simp [bucketOf, render, AGING_BUCKETS, AgeBucket.name]
  | threeToSevenDays => simp [bucketOf, render, AGING_BUCKETS, AgeBucket.name]
  | sevenDaysOn => simp [bucketOf, render, AGING_BUCKETS, AgeBucket.name]

/-- The figures of `/exposure` and `/exposure/aging` are those of the open
    discrepancies, rounded one by one. The exact ones add up and the counts do; the
    ones shown add up if and only if what is cut off of the parts does not show. -/
theorem displayed_totals [LinearOrder P] (columns : Columns T P) (now : ℤ) (s : Tables T) :
    (∃ exact, AddsUp (getExposure columns now s).totalOpenExposureNgn
        ((getExposure columns now s).byPspAndType.map ExposureRow.totalExposureNgn) exact ∧
      exact.sum = exactExposure (openDiscrepancies s) ∧
      exact = (getExposure columns now s).byPspAndType.map fun row =>
        exactExposure ((openDiscrepancies s).filter fun r =>
          (columns.pspName r.2.id, r.1.2.classification) = (row.pspName, row.discrepancyType))) ∧
    ∀ b, ∃ (whole : RenderedBucket) (parts : List RenderedBucket) (exact : List ℚ),
      bucketOf (getExposureAging columns now s).buckets b = some whole ∧
      (getExposureAging columns now s).byPsp.map (fun e => bucketOf e.2 b) = parts.map some ∧
      whole.count = (parts.map RenderedBucket.count).sum ∧
      AddsUp whole.exposureNgn (parts.map RenderedBucket.exposureNgn) exact ∧
      exact.sum = exactExposure (agedDiscrepancies columns now s b) ∧
      exact = (getExposureAging columns now s).byPsp.map fun e =>
        exactExposure ((agedDiscrepancies columns now s b).filter fun r =>
          columns.pspName r.2.id = e.1) := by
  refine ⟨⟨(exposureRows columns s).map ExposureRow.totalExposureNgn, ?_, ?_, ?_⟩, fun b => ?_⟩
  · have h := addsUp ((exposureRows columns s).map ExposureRow.totalExposureNgn)
    rw [List.map_map] at h
    simp only [getExposure, List.map_map]
    exact h
  · exact sum_exposureRows columns s
  · simp only [getExposure, List.map_map]
    exact List.map_congr_left fun row hrow => exposureRow_eq columns s hrow
  · -- The PSPs are shown in another order than the loop met them.
    let rows := agingRows columns now s
    have hperm : (Ranking.ascending Prod.fst (accumulate rows).perPsp.entries).Perm
        (accumulate rows).perPsp.entries := List.perm_insertionSort _ _
    rcases overall_eq_total rows b with ⟨hcount, hexposure⟩
    rw [← totalOver_perm hperm] at hcount hexposure
    have hexact : ∀ e ∈ Ranking.ascending Prod.fst (accumulate rows).perPsp.entries,
        (e.2 b).exposure = exactExposure ((agedDiscrepancies columns now s b).filter fun r =>
          columns.pspName r.2.id = e.1) := fun e he =>
      congrArg Bucket.exposure (perPsp_eq columns now s (hperm.mem_iff.mp he) b)
    refine ⟨_, (Ranking.ascending Prod.fst (accumulate rows).perPsp.entries).map fun e =>
        { bucket := b.name, count := (e.2 b).count, exposureNgn := money (e.2 b).exposure },
      (Ranking.ascending Prod.fst (accumulate rows).perPsp.entries).map fun e => (e.2 b).exposure,
      bucketOf_render _ b, ?_, ?_, ?_, ?_, ?_⟩
    · simp only [getExposureAging, List.map_map]
      exact List.map_congr_left fun e _ => bucketOf_render e.2 b
    · rw [List.map_map]
      exact hcount
    · have h := addsUp ((Ranking.ascending Prod.fst (accumulate rows).perPsp.entries).map fun e =>
        (e.2 b).exposure)
      rw [List.map_map] at h ⊢
      have hsum : ((Ranking.ascending Prod.fst (accumulate rows).perPsp.entries).map fun e =>
          (e.2 b).exposure).sum = ((accumulate rows).overall b).exposure := hexposure.symm
      rw [hsum] at h
      exact h
    · refine Eq.trans hexposure.symm ?_
      rw [overall_eq]
    · simp only [getExposureAging, List.map_map]
      exact List.map_congr_left hexact

end Endpoints

/-! ### Half a kobo, twice -/

/-- A sale in another currency, worth 1000.005 naira. -/
def convertedSale (id : Nat) : SilverRow Nat where
  id := id
  transactionType := .credit
  settlementStatus := .pending
  amountNgn := 1000005 / 1000
  fxRateApplied := none
  expectedSettlementAt := some 0

/-- It is overdue. -/
def overdueSale (id : Nat) : DiscrepancyRecord Nat where
  transactionId := id
  classification := .missingSettlement
  row :=
    { reconciliationPairId := none
      severity := .low
      estimatedExposureNgn := 1000005 / 1000
      evidence := .overdue 0 1 (1000005 / 1000)
      status := .open_
      resolvedAt := none
      resolvedBy := none
      resolutionNote := none
      events := [] }

/-- One such sale with each of two PSPs. -/
def twoSales : Tables Nat where
  silver := { rows := [convertedSale 1, convertedSale 2], unique := by decide }
  pairs := SerialTable.empty _
  matched := UniqueTable.empty _
  discrepancies :=
    { rows := [(0, overdueSale 1), (1, overdueSale 2)]
      unique := by decide
      next := 2
      below := by decide
      serial := by decide }
  nextEvent := 0

def twoPsps : Columns Nat String where
  pspName id := if id = 1 then "paystack" else "flutterwave"
  pspTransactionRef _ := "ref"
  initiatedAt _ := 0
  settledAt _ := none
  raisedAt _ := 0

/-- Each is shown as 1000.00, and both together as 2000.01. -/
theorem two_sales_off : ¬ (getExposure twoPsps 0 twoSales).totalOpenExposureNgn =
    ((getExposure twoPsps 0 twoSales).byPspAndType.map ExposureRow.totalExposureNgn).sum := by
  have hexact : exactExposure (openDiscrepancies twoSales) = 2000010 / 1000 := by decide +kernel
  have htotal : (getExposure twoPsps 0 twoSales).totalOpenExposureNgn = 200001 / 100 := by
    have hsum : (getExposure twoPsps 0 twoSales).totalOpenExposureNgn
        = money (exactExposure (openDiscrepancies twoSales)) :=
      congrArg money (sum_exposureRows twoPsps twoSales)
    rw [hsum, hexact]
    decide +kernel
  -- The rows, in whatever order.
  have hrows : ((getExposure twoPsps 0 twoSales).byPspAndType.map
      ExposureRow.totalExposureNgn).sum = 2000 := by
    have hperm : totalOver (fun row : ExposureRow String => money row.totalExposureNgn)
        (exposureRows twoPsps twoSales) = _ := totalOver_perm (List.mergeSort_perm _ _)
    simp only [getExposure, List.map_map]
    refine hperm.trans ?_
    decide +kernel
  rw [htotal, hrows]
  norm_num

end Reconciliation

end MmrEngine
