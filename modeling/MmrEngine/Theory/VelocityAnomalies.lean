import MmrEngine.Engine.CbnReport
import MmrEngine.Lib.Clusters
import MmrEngine.Theory.TimestampOrder
import Mathlib.Data.Finset.Max

/-!
# Velocity Anomalies

What `_detect_velocity_anomalies` counts.

A group is sorted as texts, and six in a row are compared by their first and
last. Sorted as texts is sorted by time (`Theory.TimestampOrder`), and of a
sorted list the six in a row are enough (`Lib.Clusters`): a group is counted if
and only if some six of its transactions lie within less than ten minutes.

## Main definitions

* `timestampsOf`: The texts of a group.
* `Burst`: Some six transactions within less than ten minutes.

## Theorems

* `detectVelocityAnomalies_eq`: The groups, without the dictionary.
* `detectVelocityAnomalies_perm`: The order of the transactions does not matter.
* `anomalous_iff`: What the loop over a group finds.
* `velocity_anomalies`: What is counted.
-/

namespace MmrEngine

namespace CbnReport

open UtcDatetime

/-- The texts of a beneficiary's group. -/
def timestampsOf (transactions : List Transaction) (b : Option String) : List String :=
  (transactions.filter fun txn => txn.beneficiary = b).map Transaction.timestampText

theorem foldl_timestamps (txns : List Transaction) :
    txns.foldl (fun timestamps txn => timestamps ++ [txn.timestampText]) []
      = txns.map Transaction.timestampText := by
  induction txns using List.reverseRecOn with
  | nil => rfl
  | append_singleton txns txn ih =>
      rw [List.foldl_append, ih, List.map_append]
      rfl

/-- One group for each beneficiary that comes up. -/
theorem detectVelocityAnomalies_eq (transactions : List Transaction) :
    detectVelocityAnomalies transactions
      = ((transactions.map Transaction.beneficiary).dedup.filter fun b =>
          anomalous (timestampsOf transactions b)).length := by
  have hentries := OrderedDict.entries_tallyAll_perm Transaction.beneficiary []
    (fun timestamps txn => timestamps ++ [txn.timestampText]) transactions
  have hlength := (hentries.filter fun entry => anomalous entry.2).length_eq
  rw [detectVelocityAnomalies, byBeneficiary, hlength, List.filter_map, List.length_map]
  congr 1
  refine List.filter_congr fun b _ => ?_
  rw [Function.comp, foldl_timestamps]
  rfl

/-- A group is sorted before it is looked at. -/
theorem anomalous_perm {timestamps timestamps' : List String} (h : timestamps.Perm timestamps') :
    anomalous timestamps = anomalous timestamps' := by
  have hsorted : Ranking.ascending id timestamps = Ranking.ascending id timestamps' :=
    Ranking.ascending_eq_of_perm (h.trans (List.perm_insertionSort _ _).symm)
      (Ranking.ascending_pairwise id timestamps') fun _ _ _ _ heq => heq
  simp only [anomalous, hsorted, h.length_eq]

theorem detectVelocityAnomalies_perm {transactions transactions' : List Transaction}
    (h : transactions.Perm transactions') :
    detectVelocityAnomalies transactions = detectVelocityAnomalies transactions' := by
  have hgroup : ∀ b, anomalous (timestampsOf transactions b)
      = anomalous (timestampsOf transactions' b) := fun b =>
    anomalous_perm ((h.filter _).map _)
  rw [detectVelocityAnomalies_eq, detectVelocityAnomalies_eq]
  simp only [hgroup]
  exact ((h.map _).dedup.filter _).length_eq

/-! ### One group -/

/-- Sorting texts of timestamps is sorting the timestamps. -/
theorem ascending_isoformat (times : List UtcDatetime) :
    Ranking.ascending id (times.map isoformat)
      = (times.insertionSort (· ≤ ·)).map isoformat :=
  (List.map_insertionSort (· ≤ ·) (· ≤ ·) isoformat times fun _ _ _ _ => isoformat_le_iff.symm).symm

/-- Both texts are there and are timestamps. -/
theorem anomalyAt_isoformat (times : List UtcDatetime) {i : Nat} (h : i + 5 < times.length) :
    anomalyAt (times.map isoformat) i = within10Minutes times[i] times[i + 5] := by
  have hi : i < times.length := by omega
  simp only [anomalyAt, List.getElem?_map, List.getElem?_eq_getElem h, List.getElem?_eq_getElem hi,
    Option.map_some, Option.bind_some, fromisoformat_isoformat]

/-- Two within ten minutes have two between them within ten minutes. -/
theorem within10Minutes_between {a b c d : UtcDatetime} (hab : a ≤ b) (_hbc : b ≤ c) (hcd : c ≤ d)
    (h : within10Minutes a d = true) : within10Minutes b c = true := by
  have hstart := instant_le_iff.mpr hab
  have hend := instant_le_iff.mpr hcd
  simp only [within10Minutes, decide_eq_true_eq] at h ⊢
  omega

theorem anomalous_iff_window (times : List UtcDatetime) :
    anomalous (times.map isoformat) = true ↔
      Clusters.Window (fun a b => within10Minutes a b = true) 5
        (times.insertionSort (· ≤ ·)) := by
  have hlength : (times.insertionSort (· ≤ ·)).length = times.length :=
    (List.perm_insertionSort _ _).length_eq
  simp only [anomalous, ascending_isoformat, List.length_map, Bool.and_eq_true, decide_eq_true_eq,
    List.any_eq_true, List.mem_range, hlength]
  constructor
  · rintro ⟨-, i, hi, hanomaly⟩
    have hlt : i + 5 < (times.insertionSort (· ≤ ·)).length := by omega
    rw [anomalyAt_isoformat _ hlt] at hanomaly
    exact ⟨i, hlt, hanomaly⟩
  · rintro ⟨i, hlt, hnear⟩
    refine ⟨by omega, i, by omega, ?_⟩
    rw [anomalyAt_isoformat _ hlt]
    exact hnear

/-- Six in a row of the sorted group, or any six of the group. -/
theorem anomalous_iff (times : List UtcDatetime) :
    anomalous (times.map isoformat) = true ↔
      Clusters.Cluster (fun a b => within10Minutes a b = true) 5 times := by
  have hsorted : (times.insertionSort (· ≤ ·)).Pairwise (· ≤ ·) :=
    List.pairwise_insertionSort _ times
  rw [anomalous_iff_window, Clusters.window_iff_cluster within10Minutes_between hsorted]
  exact Clusters.cluster_perm _ _ (List.perm_insertionSort _ _)

/-! ### All groups -/

/-- Six transactions, the earliest and the latest less than 600 seconds apart. -/
def Burst (time : Transaction → UtcDatetime) (group : List Transaction) : Prop :=
  ∃ six : List Transaction, six.Sublist group ∧ six.length = 6 ∧
    ∃ earliest ∈ six, ∃ latest ∈ six,
      (∀ txn ∈ six, (time earliest).instant ≤ (time txn).instant ∧
        (time txn).instant ≤ (time latest).instant) ∧
      ((time latest).instant : ℤ) - (time earliest).instant < 600 * 1000000

/-- Some transactions have an earliest and a latest. -/
theorem exists_extremes (time : Transaction → UtcDatetime) {six : List Transaction}
    (h : six ≠ []) : ∃ earliest ∈ six, ∃ latest ∈ six, ∀ txn ∈ six,
      (time earliest).instant ≤ (time txn).instant ∧
        (time txn).instant ≤ (time latest).instant := by
  classical
  have hne : six.toFinset.Nonempty := by
    rcases List.exists_mem_of_ne_nil six h with ⟨txn, htxn⟩
    exact ⟨txn, List.mem_toFinset.mpr htxn⟩
  rcases six.toFinset.exists_min_image (fun txn => (time txn).instant) hne
    with ⟨early, hearly, hmin⟩
  rcases six.toFinset.exists_max_image (fun txn => (time txn).instant) hne
    with ⟨late, hlate, hmax⟩
  exact ⟨early, List.mem_toFinset.mp hearly, late, List.mem_toFinset.mp hlate, fun txn htxn =>
    ⟨hmin txn (List.mem_toFinset.mpr htxn), hmax txn (List.mem_toFinset.mpr htxn)⟩⟩

theorem burst_iff_cluster (time : Transaction → UtcDatetime) (group : List Transaction) :
    Burst time group ↔
      Clusters.Cluster (fun a b => within10Minutes a b = true) 5 (group.map time) := by
  constructor
  · rintro ⟨six, hsub, hlength, earliest, -, latest, -, hbetween, hnear⟩
    refine ⟨six.map time, hsub.map time, by rw [List.length_map, hlength], ?_⟩
    intro a ha b hb _
    rcases List.mem_map.mp ha with ⟨txn, htxn, rfl⟩
    rcases List.mem_map.mp hb with ⟨txn', htxn', rfl⟩
    have hlow := (hbetween txn htxn).1
    have hhigh := (hbetween txn' htxn').2
    simp only [within10Minutes, decide_eq_true_eq]
    omega
  · rintro ⟨part, hsub, hlength, hnear⟩
    rcases List.sublist_map_iff.mp hsub with ⟨six, hsix, rfl⟩
    rw [List.length_map] at hlength
    have hne : six ≠ [] := List.ne_nil_of_length_pos (by omega)
    -- The first and the last of the six are near each other.
    rcases exists_extremes time hne with ⟨earliest, hearly, latest, hlate, hbetween⟩
    have hends := hnear _ (List.mem_map_of_mem hearly) _ (List.mem_map_of_mem hlate)
      (instant_le_iff.mp (hbetween latest hlate).1)
    simp only [within10Minutes, decide_eq_true_eq] at hends
    exact ⟨six, hsix, hlength, earliest, hearly, latest, hlate, hbetween, hends⟩

open Classical in
/-- The anomalies are the beneficiaries with six transactions that lie less than
    600 seconds apart, first to last. -/
theorem velocity_anomalies (time : Transaction → UtcDatetime) (transactions : List Transaction)
    (h : ∀ txn ∈ transactions, txn.timestamp = some (time txn).isoformat) :
    detectVelocityAnomalies transactions
      = ((transactions.map Transaction.beneficiary).toFinset.filter fun b =>
          Burst time (transactions.filter fun txn => txn.beneficiary = b)).card := by
  have hgroup : ∀ b, anomalous (timestampsOf transactions b) = true ↔
      Burst time (transactions.filter fun txn => txn.beneficiary = b) := by
    intro b
    -- A group's texts are those its datetimes are written as.
    have htexts : timestampsOf transactions b
        = ((transactions.filter fun txn => txn.beneficiary = b).map time).map isoformat := by
      rw [timestampsOf, List.map_map]
      refine List.map_congr_left fun txn htxn => ?_
      rw [Transaction.timestampText, h txn (List.mem_filter.mp htxn).1]
      rfl
    rw [htexts, anomalous_iff, burst_iff_cluster]
  rw [detectVelocityAnomalies_eq, ← List.toFinset_card_of_nodup ((List.nodup_dedup _).filter _)]
  congr 1
  ext b
  simp only [List.mem_toFinset, List.mem_filter, List.mem_dedup, Finset.mem_filter, hgroup]

/-- A time on the first day of 2026. -/
def newYear (second : Fin 60) : UtcDatetime where
  year := 2026
  month := 1
  day := 1
  hour := 0
  minute := 0
  second := second
  microsecond := 0
  valid := ⟨by decide, by decide, by decide, by decide, by decide, second.isLt, by decide⟩

def transferAt (second : Fin 60) : Transaction where
  amountNgn := some 100
  pspName := some "paystack"
  matchStatus := some .matched
  originalCurrency := some "NGN"
  beneficiaryAccountMasked := some (some "******6789")
  timestamp := some (newYear second).isoformat

/-- Six transfers in fifty seconds, the last one first. -/
def sixTransfers : List Transaction := [50, 0, 10, 20, 30, 40].map transferAt

def timeOf (txn : Transaction) : UtcDatetime :=
  (fromisoformat txn.timestampText).getD (newYear 0)

open Classical in
theorem velocity_anomalies_six : detectVelocityAnomalies sixTransfers
    = ((sixTransfers.map Transaction.beneficiary).toFinset.filter fun b =>
        Burst timeOf (sixTransfers.filter fun txn => txn.beneficiary = b)).card := by
  refine velocity_anomalies timeOf sixTransfers fun txn htxn => ?_
  rcases List.mem_map.mp htxn with ⟨second, -, rfl⟩
  rw [timeOf, Transaction.timestampText, transferAt, Option.getD_some, fromisoformat_isoformat,
    Option.getD_some]

end CbnReport

end MmrEngine
