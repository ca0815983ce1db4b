import MmrEngine.Api.Reconciliation
import MmrEngine.Theory.AmountDiscrepancies
import MmrEngine.Theory.MissingSettlement

/-!
# Open Exposure after a Late Match

What becomes of a missing-settlement record when its transaction is matched
after all.

In a history of the pipeline the pairs of `persist_pairs` come out of the
matching engine. Such a pair raises nothing but amount discrepancies, so every
missing-settlement record has been raised by a run of
`raise_missing_settlements`, at a time when its transaction was unmatched
(`raised_by_run`). Runs pass over matched transactions, and nothing else writes
these records but an analyst's resolution. So a record whose transaction is
matched later is neither raised again nor retired: it stays as it is, and stays
in the open exposure, until an analyst closes it (`matched_exec`).

## Main definitions

* `FlowCall`: A call of the pipeline or of the API.
* `RaisedAt`, `MatchedAt`: When a record was raised and a transaction matched.
* `openRecords`: The discrepancies that count as open exposure.

## Theorems

* `raised_by_run`: A run has raised every record.
* `matchedAt_of_unmatched`: A transaction is matched by some `persist_pairs`.
* `matched_exec`, `matched_after`: What is left of a matched transaction's record.
* `exposure_eq`: The total is the sum over the open records.
* `open_exposure`: All of it.
-/

namespace MmrEngine

namespace GoldCalls

open Discrepancy Gold Reconciliation Query

section Exposure

variable {T : Type} [DecidableEq T] {s s' : Tables T} {x : T} {i : Nat}

/-! ### Pairs of the matching engine -/

theorem insertPair_nonneg {t : Nat} {p : PairPlan T} (h : insertPair t p s = some s') :
    0 ≤ p.amountANgn := by
  unfold insertPair at h
  split at h
  · next hcond => exact hcond.2.1
  · cases h

theorem raiseAmountDiscrepancy_missing_of_class (now : ℤ) (pairId : Nat) {p : PairPlan T}
    (hclass : ∀ f, amountFinding s.silver.rows p = some f → AmountClass f.classification) (x : T) :
    (raiseAmountDiscrepancy now pairId p s).1.missing x = s.missing x := by
  unfold raiseAmountDiscrepancy
  split
  · rfl
  · next f hf =>
      split
      · rfl
      · next discrepancies hinsert =>
          rcases SerialTable.insert?_eq_some hinsert with ⟨hfree, rfl⟩
          simp only [Tables.missing, SerialTable.find?_insert]
          exact if_neg fun hkey => amountClass_ne (hclass f hf) (Prod.mk.inj hkey).2.symm

/-- The pairs of the engine raise amount discrepancies only. -/
theorem persistPairs_missing_of_sound (now : ℤ) (t : Nat) {plans : List (PairPlan T)}
    (hsound : ∀ p ∈ plans, SoundPlan p) (s : Tables T) (x : T) :
    (persistPairs t now plans s).1.missing x = s.missing x := by
  induction plans generalizing s with
  | nil => rfl
  | cons p plans ih =>
      have hrest := ih fun p' hp' => hsound p' (List.mem_cons_of_mem _ hp')
      unfold persistPairs
      cases hinsert : insertPair t p s with
      | none => exact hrest s
      | some s' =>
          have hclass : ∀ f, amountFinding s'.silver.rows p = some f →
              AmountClass f.classification := by
            intro f hf
            rcases amountFinding_cases s'.silver.rows (hsound p List.mem_cons_self)
              (insertPair_nonneg hinsert) with ⟨hnone, _⟩ | ⟨f', hf', _, hclass, _⟩
            · rw [hf] at hnone
              cases hnone
            · rw [hf] at hf'
              rw [Option.some.inj hf']
              exact hclass
          have hsame : s'.missing x = s.missing x := by
            rw [Tables.missing, (insertPair_eq_some hinsert).2.1]
            rfl
          have hone := raiseAmountDiscrepancy_missing_of_class now s.pairs.next hclass x
          exact ((hrest _).trans hone).trans hsame

/-! ### What a call can do to a record -/

variable (F : Type) [LinearOrder F] [Add F] [Sub F] [Mul F] [Div F] [ScoreArith F]

/-- A call of the pipeline or of the API: the pairs of `persist_pairs` are those
    the matching engine has made of some candidates. -/
def FlowCall (c : Call T) : Prop :=
  ∀ t now plans, c = .persistPairs t now plans →
    ∃ (candidates : Matching.CandidateList T) (settings : Matching.Settings F),
      Matching.flowPlans candidates settings = some plans

variable {F} {c : Call T}

theorem closeAll_missing_id (now : ℤ) (req : Closing) (ids : List Nat) (s : Tables T) (x : T) :
    ((closeAll now req ids s).missing x).map Prod.fst = (s.missing x).map Prod.fst := by
  induction ids generalizing s with
  | nil => rfl
  | cons id ids ih =>
      refine (ih (closeAt now req id s)).trans ?_
      exact SerialTable.id_find?_modifyAt s.discrepancies id _ (DiscrepancyRecord.key_update _) _

/-- No call but a run of `raise_missing_settlements` makes a record. -/
theorem missing_id_of_not_sweep (hflow : FlowCall F c) (hc : c.sweepTime = none) (x : T) :
    ((c.exec s).missing x).map Prod.fst = (s.missing x).map Prod.fst := by
  cases c with
  | land row => rfl
  | persistPairs t now plans =>
      rcases hflow t now plans rfl with ⟨candidates, settings, hplans⟩
      have hsame := persistPairs_missing_of_sound now t (soundPlan_of_flow hplans) s x
      exact congrArg (Option.map Prod.fst) hsame
  | raiseMissingSettlements now => cases hc
  | resolveDiscrepancy now id req =>
      have hexec := resolveDiscrepancy_closeAll now id req s
      simp only [Call.exec, hexec]
      exact closeAll_missing_id now req _ s x
  | bulkResolveDiscrepancies now ids req => exact closeAll_missing_id now req _ s x
  | rolledBack events => rfl

/-- A run makes records of unmatched transactions, and keeps the ids of those
    that are there. -/
theorem sweep_missing_id {now : ℤ} {d : DiscrepancyRecord T}
    (hd : ((Call.raiseMissingSettlements now).exec s).missing x = some (i, d)) :
    (∃ d', s.missing x = some (i, d')) ∨ (s.missing x = none ∧ s.isMatched x = false) := by
  cases hold : s.missing x with
  | some r =>
      rcases r with ⟨j, d'⟩
      left
      cases sweep_moved (s := s) now x with
      | kept h =>
          rw [h, hold] at hd
          rw [← (Prod.mk.inj (Option.some.inj hd)).1]
          exact ⟨d', rfl⟩
      | raised j' pair f e now' hnone h hsource =>
          rw [hold] at hnone
          cases hnone
      | regraded j' d'' o e now' hc ho hx hd' hopen hne h =>
          rw [hold] at hd'
          rw [hd] at h
          rw [(Prod.mk.inj (Option.some.inj h)).1, ← (Prod.mk.inj (Option.some.inj hd')).1]
          exact ⟨d', rfl⟩
      | closed j' d'' req e now' hd' hopen h =>
          rw [hold] at hd'
          rw [hd] at h
          rw [(Prod.mk.inj (Option.some.inj h)).1, ← (Prod.mk.inj (Option.some.inj hd')).1]
          exact ⟨d', rfl⟩
  | none =>
      refine Or.inr ⟨rfl, ?_⟩
      -- The record is new, so the run has selected its transaction.
      by_cases hover : ∃ o ∈ overdue s.silver.rows s.isMatched now, o.transactionId = x
      · rcases hover with ⟨o, ho, rfl⟩
        rcases overdue_source ho with ⟨_, _, _, hunmatched, _⟩
        exact hunmatched
      · have hsame : ((Call.raiseMissingSettlements now).exec s).missing x = s.missing x :=
          upsertAll_missing_of_notMem (fun o ho hx => hover ⟨o, ho, hx⟩) s
        have hnone := hsame.trans hold
        rw [hd] at hnone
        cases hnone

/-- Only `persist_pairs` matches transactions. -/
theorem exec_isMatched_iff (hc : ∀ t now plans, c ≠ .persistPairs t now plans) (x : T) :
    (c.exec s).isMatched x = s.isMatched x := by
  have hmatched : (c.exec s).matched = s.matched := by
    cases c with
    | land row => rfl
    | persistPairs t now plans => exact absurd rfl (hc t now plans)
    | raiseMissingSettlements now => exact (upsertAll_frame now _ s).2
    | resolveDiscrepancy now id req =>
        have hexec := resolveDiscrepancy_closeAll now id req s
        simp only [Call.exec, hexec]
        exact (closeAll_frame req _ s).2
    | bulkResolveDiscrepancies now ids req => exact (closeAll_frame req _ s).2
    | rolledBack events => rfl
  rw [Tables.isMatched, Tables.isMatched, hmatched]

/-! ### How a record came about -/

/-- The record with the id `i` was raised by a run, right after `before`, and its
    transaction was not matched then. -/
def RaisedAt (s : Tables T) (x : T) (i : Nat) (before : List (Call T)) (now : ℤ) : Prop :=
  (after s before).isMatched x = false ∧ (after s before).missing x = none ∧
    ∃ d, (after s (before ++ [.raiseMissingSettlements now])).missing x = some (i, d)

/-- `persist_pairs` has matched the transaction, right after `before`. -/
def MatchedAt (s : Tables T) (x : T) (before : List (Call T)) (t : Nat) (now : ℤ)
    (plans : List (PairPlan T)) : Prop :=
  (after s before).isMatched x = false ∧
    (after s (before ++ [.persistPairs t now plans])).isMatched x = true

/-- A run has raised every record. -/
theorem raised_by_run (hnone : s.missing x = none) {calls : List (Call T)}
    (hflow : ∀ c ∈ calls, FlowCall F c) {d : DiscrepancyRecord T}
    (hd : (after s calls).missing x = some (i, d)) :
    ∃ before now between, calls = before ++ .raiseMissingSettlements now :: between ∧
      RaisedAt s x i before now := by
  induction calls using List.reverseRecOn generalizing d with
  | nil =>
      rw [after, List.foldl_nil, hnone] at hd
      cases hd
  | append_singleton calls c ih =>
      have hearlier := fun (d' : DiscrepancyRecord T) =>
        ih (fun c' hc' => hflow c' (List.mem_append_left _ hc')) (d := d')
      -- A record that was there before the last call came about before it.
      have hlater : (∃ d', (after s calls).missing x = some (i, d')) →
          ∃ before now between, calls ++ [c]
              = before ++ .raiseMissingSettlements now :: between ∧ RaisedAt s x i before now := by
        rintro ⟨d', hd'⟩
        rcases hearlier d' hd' with ⟨before, now, between, rfl, hraised⟩
        exact ⟨before, now, between ++ [c], by simp, hraised⟩
      have hexec := hd
      rw [after_append] at hexec
      cases hsweep : c.sweepTime with
      | none =>
          have hid := missing_id_of_not_sweep (s := after s calls)
            (hflow c (List.mem_append_right _ List.mem_cons_self)) hsweep x
          refine hlater ?_
          rw [show (c.exec (after s calls)).missing x = some (i, d) from hexec] at hid
          rcases Option.map_eq_some_iff.mp hid.symm with ⟨⟨j, d'⟩, hd', rfl⟩
          exact ⟨d', hd'⟩
      | some now =>
          have hc : c = .raiseMissingSettlements now := by
            cases c with
            | raiseMissingSettlements now' =>
                rw [show now' = now from Option.some.inj hsweep]
            | _ => cases hsweep
          rw [hc] at hexec hd hlater ⊢
          rcases sweep_missing_id hexec with hold | ⟨hnew, hunmatched⟩
          · exact hlater hold
          · -- The last call itself has raised it.
            exact ⟨calls, now, [], rfl, hunmatched, hnew, d, hd⟩

/-- What is matched at last was matched by some `persist_pairs`. -/
theorem matchedAt_of_unmatched {calls : List (Call T)} (h : s.isMatched x = false)
    (hlast : (after s calls).isMatched x = true) :
    ∃ before t now plans rest, calls = before ++ .persistPairs t now plans :: rest ∧
      MatchedAt s x before t now plans := by
  induction calls generalizing s with
  | nil =>
      rw [after, List.foldl_nil, h] at hlast
      cases hlast
  | cons c calls ih =>
      cases hc : (c.exec s).isMatched x with
      | false =>
          rcases ih hc hlast with ⟨before, t, now, plans, rest, rfl, hmatched⟩
          exact ⟨c :: before, t, now, plans, rest, rfl, hmatched⟩
      | true =>
          by_cases hpersist : ∃ t now plans, c = .persistPairs t now plans
          · rcases hpersist with ⟨t, now, plans, rfl⟩
            exact ⟨[], t, now, plans, calls, rfl, h, hc⟩
          · have hsame := exec_isMatched_iff (s := s) (c := c)
              (fun t now plans heq => hpersist ⟨t, now, plans, heq⟩) x
            rw [hc, h] at hsame
            cases hsame

/-! ### What becomes of it -/

/-- The record of a matched transaction stays as it is, or is closed. -/
theorem matched_exec {d : DiscrepancyRecord T} (hmatched : s.isMatched x = true)
    (hd : s.missing x = some (i, d)) (c : Call T) :
    (c.exec s).missing x = some (i, d) ∨
      ∃ d', (c.exec s).missing x = some (i, d') ∧ d'.row.status.closed = true := by
  cases exec_moved (s := s) c x with
  | kept h => exact Or.inl (h.trans hd)
  | raised j pair f e now hnone h hsource =>
      rw [hd] at hnone
      cases hnone
  | regraded j d' o e now hc ho hx hd' hopen hne h =>
      -- A run passes over it.
      rcases overdue_source ho with ⟨_, _, _, hunmatched, _⟩
      rw [hx, hmatched] at hunmatched
      cases hunmatched
  | closed j d' req e now hd' hopen h =>
      rw [hd] at hd'
      rcases Prod.mk.inj (Option.some.inj hd') with ⟨rfl, rfl⟩
      exact Or.inr ⟨_, h, Outcome.status_closed req.outcome⟩

theorem closed_exec {d : DiscrepancyRecord T} (hd : s.missing x = some (i, d))
    (hclosed : d.row.status.closed = true) (c : Call T) : (c.exec s).missing x = some (i, d) := by
  cases exec_moved (s := s) c x with
  | kept h => exact h.trans hd
  | raised j pair f e now hnone h hsource =>
      rw [hd] at hnone
      cases hnone
  | regraded j d' o e now hc ho hx hd' hopen hne h =>
      rw [hd] at hd'
      rw [← (Prod.mk.inj (Option.some.inj hd')).2] at hopen
      rw [hopen] at hclosed
      cases hclosed
  | closed j d' req e now hd' hopen h =>
      rw [hd] at hd'
      rw [← (Prod.mk.inj (Option.some.inj hd')).2, hclosed] at hopen
      cases hopen

/-- Whatever comes later. -/
theorem matched_after {d : DiscrepancyRecord T} (hmatched : s.isMatched x = true)
    (hd : s.missing x = some (i, d)) (calls : List (Call T)) :
    (after s calls).missing x = some (i, d) ∨
      ∃ d', (after s calls).missing x = some (i, d') ∧ d'.row.status.closed = true := by
  have hfinal : ∀ (calls : List (Call T)) (s : Tables T) (d' : DiscrepancyRecord T),
      s.missing x = some (i, d') → d'.row.status.closed = true →
        (after s calls).missing x = some (i, d') := by
    intro calls
    induction calls with
    | nil => exact fun s d' hd' _ => hd'
    | cons c calls ih => exact fun s d' hd' hclosed => ih _ d' (closed_exec hd' hclosed c) hclosed
  induction calls generalizing s with
  | nil => exact Or.inl hd
  | cons c calls ih =>
      rcases matched_exec hmatched hd c with hkept | ⟨d', hd', hclosed⟩
      · exact ih (exec_isMatched c hmatched) hkept
      · exact Or.inr ⟨d', hfinal calls (c.exec s) d' hd' hclosed, hclosed⟩

/-! ### The open exposure -/

/-- The foreign key of `gold_discrepancies`: a discrepancy is of a transaction in
    Silver. -/
def Referenced (s : Tables T) : Prop :=
  ∀ r ∈ s.discrepancies.rows, ∃ row ∈ s.silver.rows, row.id = r.2.transactionId

theorem referenced_raiseAmountDiscrepancy {now : ℤ} {pairId : Nat} {p : PairPlan T}
    (h : Referenced s) (hp : ∃ row ∈ s.silver.rows, row.id = p.a) :
    Referenced (raiseAmountDiscrepancy now pairId p s).1 := by
  unfold raiseAmountDiscrepancy
  split
  · exact h
  · next f _ =>
      split
      · exact h
      · next discrepancies hinsert =>
          rcases SerialTable.insert?_eq_some hinsert with ⟨hfree, rfl⟩
          intro r hr
          rcases List.mem_append.mp hr with hold | hnew
          · exact h r hold
          · rw [List.mem_singleton.mp hnew]
            exact hp

theorem referenced_persistPairs (now : ℤ) (t : Nat) (plans : List (PairPlan T))
    (h : Referenced s) : Referenced (persistPairs t now plans s).1 := by
  induction plans generalizing s with
  | nil => exact h
  | cons p plans ih =>
      unfold persistPairs
      cases hinsert : insertPair t p s with
      | none => exact ih h
      | some s' =>
          have hframe := insertPair_eq_some hinsert
          have hfound : (s.silver.find? p.a).isSome := by
            unfold insertPair at hinsert
            split at hinsert
            · next hcond => exact hcond.2.2.2.1
            · cases hinsert
          rcases Option.isSome_iff_exists.mp hfound with ⟨row, hrow⟩
          refine ih (referenced_raiseAmountDiscrepancy ?_
            ⟨row, ?_, (UniqueTable.find?_some hrow).2⟩)
          · intro r hr
            rw [hframe.2.1] at hr
            rw [hframe.1]
            exact h r hr
          · rw [hframe.1]
            exact (UniqueTable.find?_some hrow).1

theorem referenced_upsertAll (now : ℤ) {os : List (Overdue T)}
    (hos : ∀ o ∈ os, ∃ row ∈ s.silver.rows, row.id = o.transactionId) (h : Referenced s) :
    Referenced (upsertAll now os s).1 := by
  induction os generalizing s with
  | nil => exact h
  | cons o os ih =>
      have hsilver := (upsertOverdue_frame now o s).1
      refine ih (fun o' ho' => ?_) ?_
      · rw [hsilver]
        exact hos o' (List.mem_cons_of_mem _ ho')
      · intro r hr
        rw [hsilver]
        unfold upsertOverdue at hr
        split at hr
        · rcases List.mem_append.mp hr with hold | hnew
          · exact h r hold
          · rw [List.mem_singleton.mp hnew]
            exact hos o List.mem_cons_self
        · split at hr
          · rcases List.mem_map.mp hr with ⟨r₀, hr₀, rfl⟩
            have hsource := h r₀ hr₀
            split
            · exact hsource
            · exact hsource
          · exact h r hr

omit [DecidableEq T] in
theorem referenced_closeAll (now : ℤ) (req : Closing) (ids : List Nat) (h : Referenced s) :
    Referenced (closeAll now req ids s) := by
  induction ids generalizing s with
  | nil => exact h
  | cons id ids ih =>
      refine ih fun r hr => ?_
      rcases List.mem_map.mp hr with ⟨r₀, hr₀, rfl⟩
      have hsource := h r₀ hr₀
      split
      · exact hsource
      · exact hsource

theorem referenced_exec (h : Referenced s) (c : Call T) : Referenced (c.exec s) := by
  cases c with
  | land row =>
      intro r hr
      rcases h r hr with ⟨source, hsource, hid⟩
      exact ⟨source, UniqueTable.insertOrFind_subset s.silver row hsource, hid⟩
  | persistPairs t now plans => exact referenced_persistPairs now t plans h
  | raiseMissingSettlements now =>
      refine referenced_upsertAll now (fun o ho => ?_) h
      rcases overdue_source ho with ⟨r, hr, hid, _⟩
      exact ⟨r, hr, hid⟩
  | resolveDiscrepancy now id req =>
      have hexec := resolveDiscrepancy_closeAll now id req s
      simp only [Call.exec, hexec]
      exact referenced_closeAll now req _ h
  | bulkResolveDiscrepancies now ids req => exact referenced_closeAll now req _ h
  | rolledBack events => exact h

theorem referenced_after (h : Referenced s) (calls : List (Call T)) :
    Referenced (after s calls) := by
  induction calls generalizing s with
  | nil => exact h
  | cons c calls ih => exact ih (referenced_exec h c)

/-- The discrepancies that count as open exposure. -/
def openRecords (s : Tables T) : List (Nat × DiscrepancyRecord T) :=
  s.discrepancies.rows.filter fun r => unresolved r.2.row.status

/-- An open missing settlement is among them. -/
theorem mem_openRecords {d : DiscrepancyRecord T} (hd : s.missing x = some (i, d))
    (hopen : d.row.status.closed = false) : (i, d) ∈ openRecords s := by
  refine List.mem_filter.mpr ⟨(UniqueTable.find?_some hd).1, ?_⟩
  rw [unresolved_eq, hopen]
  rfl

/-- The total of `/exposure` is the sum over the open records: the join loses
    none of them and repeats none. -/
theorem exposure_eq {P : Type} [DecidableEq P] (columns : Columns T P) (now : ℤ)
    (h : Referenced s) : (getExposure columns now s).totalOpenExposureNgn
      = money (totalOver (fun r => r.2.row.estimatedExposureNgn) (openRecords s)) := by
  have hunique : ∀ d : Nat × DiscrepancyRecord T,
      (s.silver.rows.filter fun r => decide (d.2.transactionId = r.id)).length ≤ 1 := by
    intro d
    have hle := s.silver.count_le_one d.2.transactionId
    simpa only [eq_comm] using hle
  have hjoined : (innerJoin (fun (d : Nat × DiscrepancyRecord T) (r : SilverRow T) =>
      decide (d.2.transactionId = r.id)) s.discrepancies.rows s.silver.rows).map Prod.fst
      = s.discrepancies.rows := by
    refine map_fst_innerJoin hunique fun d hd => ?_
    rcases h d hd with ⟨row, hrow, hid⟩
    exact List.find?_isSome.mpr ⟨row, hrow, decide_eq_true hid.symm⟩
  unfold getExposure exposureRows
  simp only []
  -- The total does not depend on the order of the groups, nor on the grouping.
  rw [totalOver_perm (List.mergeSort_perm _ _), totalOver_map, sum_groupBy, openRecords,
    ← totalOver_map (fun d : Nat × DiscrepancyRecord T => d.2.row.estimatedExposureNgn) Prod.fst]
  congr 2
  conv_rhs => rw [← hjoined, List.filter_map]
  rfl

variable (F) in
/-- In a history of the pipeline, every open missing settlement belongs to a
    transaction that is not matched, or to one that was not when a run raised it
    and was matched by a later `persist_pairs`. The record of a matched
    transaction is left as it is until an analyst closes it, and as long as it is
    open it is among the records the open exposure is the sum over. -/
theorem open_exposure {P : Type} [DecidableEq P] (columns : Columns T P) (now : ℤ)
    (silver : UniqueTable (SilverRow.id (T := T))) (calls : List (Call T))
    (hflow : ∀ c ∈ calls, FlowCall F c) :
    (∀ (x : T) i d, (after (initial silver) calls).missing x = some (i, d) →
      d.row.status = .open_ →
        (after (initial silver) calls).isMatched x = false ∨
          ∃ before now₁ between t now₂ plans rest,
            calls = before ++ .raiseMissingSettlements now₁ ::
              (between ++ .persistPairs t now₂ plans :: rest) ∧
            RaisedAt (initial silver) x i before now₁ ∧
            MatchedAt (initial silver) x (before ++ .raiseMissingSettlements now₁ :: between) t
              now₂ plans) ∧
    (∀ earlier later, calls = earlier ++ later → ∀ (x : T) i d,
      (after (initial silver) earlier).isMatched x = true →
      (after (initial silver) earlier).missing x = some (i, d) →
        (after (initial silver) calls).missing x = some (i, d) ∨
          ∃ d', (after (initial silver) calls).missing x = some (i, d') ∧
            d'.row.status.closed = true) ∧
    (getExposure columns now (after (initial silver) calls)).totalOpenExposureNgn
      = money (totalOver (fun r => r.2.row.estimatedExposureNgn)
          (openRecords (after (initial silver) calls))) ∧
    ∀ (x : T) i d, (after (initial silver) calls).missing x = some (i, d) →
      d.row.status = .open_ → (i, d) ∈ openRecords (after (initial silver) calls) := by
  refine ⟨fun x i d hd _ => ?_, ?_, ?_,
    fun x i d hd hopen => mem_openRecords hd (by rw [hopen]; rfl)⟩
  · -- A run has raised the record, and what is matched now was matched after it.
    cases hmatched : (after (initial silver) calls).isMatched x with
    | false => exact Or.inl rfl
    | true =>
        rcases raised_by_run (s := initial silver) rfl hflow hd with
          ⟨before, now₁, between, rfl, hraised⟩
        -- It was not matched right after the run either.
        have hsame := exec_isMatched_iff (s := after (initial silver) before)
          (c := .raiseMissingSettlements now₁) (fun _ _ _ => by simp) x
        rw [hraised.1] at hsame
        rw [after_append, after_cons] at hmatched
        rcases matchedAt_of_unmatched hsame hmatched with
          ⟨mid, t, now₂, plans, rest, rfl, hbefore, hafter⟩
        refine Or.inr ⟨before, now₁, mid, t, now₂, plans, rest, rfl, hraised, ?_, ?_⟩
        · rw [after_append, after_cons]
          exact hbefore
        · rw [List.append_assoc, List.cons_append, after_append, after_cons]
          exact hafter
  · rintro earlier later rfl x i d hmatched hd
    rw [after_append]
    exact matched_after hmatched hd later
  · -- Every discrepancy has its transaction in Silver from the start.
    refine exposure_eq columns now (referenced_after (fun r hr => ?_) calls)
    cases hr

end Exposure

section Exhibit

/-- A credit of 1000 due at the epoch, and a debit of 990 to the same name. -/
def lateCredit : SilverRow Nat where
  id := 1
  transactionType := .credit
  settlementStatus := .pending
  amountNgn := 1000
  fxRateApplied := none
  expectedSettlementAt := some 0

def lateDebit : SilverRow Nat where
  id := 2
  transactionType := .debit
  settlementStatus := .settled
  amountNgn := 990
  fxRateApplied := none
  expectedSettlementAt := none

/-- The credit is raised, its counterpart arrives, and the next run matches the
    two. -/
def lateMatch : List (Call Nat) :=
  [.land lateCredit, .persistPairs 0 (hours 1) [], .raiseMissingSettlements (hours 1),
    .land lateDebit, .persistPairs 1 (hours 2) [unequalPair], .raiseMissingSettlements (hours 2)]

/-- What the first run has to match. -/
def creditOnly : Matching.CandidateList Nat where
  rows := unequalCandidates.rows.take 1
  unique := by decide
  numeric c hc := unequalCandidates.numeric c (List.mem_of_mem_take hc)

theorem flowPlans_creditOnly : Matching.flowPlans creditOnly usualSettings = some [] := by
  decide

theorem lateMatch_flow : ∀ c ∈ lateMatch, FlowCall ℚ c := by
  intro c hc t now plans heq
  subst heq
  simp only [lateMatch, List.mem_cons, List.not_mem_nil, or_false, reduceCtorEq, false_or,
    Call.persistPairs.injEq] at hc
  rcases hc with ⟨_, _, rfl⟩ | ⟨_, _, rfl⟩
  · exact ⟨creditOnly, usualSettings, flowPlans_creditOnly⟩
  · exact ⟨unequalCandidates, usualSettings, flowPlans_unequal⟩

/-- The tables after both runs. -/
def lateTables : Tables Nat := after (initial (UniqueTable.empty _)) lateMatch

def lateColumns : Columns Nat String where
  pspName x := if x = 1 then "paystack" else "flutterwave"
  pspTransactionRef _ := ""
  initiatedAt _ := 0
  settledAt _ := none
  raisedAt _ := hours 1

/-- The two are a pair, and the exposure is still that of the missing settlement
    and of their amounts. -/
theorem late_match_stays_open : (∀ c ∈ lateMatch, FlowCall ℚ c) ∧
    (∃ earlier t now plans now', lateMatch
      = earlier ++ [.persistPairs t now plans, .raiseMissingSettlements now']) ∧
    (∃ i d, lateTables.missing 1 = some (i, d) ∧ d.row.status = .open_) ∧
    lateTables.isMatched 1 = true ∧
    (getExposure lateColumns (hours 2) lateTables).totalOpenExposureNgn = 1000 + 10 := by
  refine ⟨lateMatch_flow, ⟨lateMatch.take 4, 1, hours 2, [unequalPair], hours 2, rfl⟩, ?_,
    by decide +kernel, ?_⟩
  · have hstatus : (lateTables.missing 1).map (fun r => r.2.row.status) = some .open_ := by
      decide +kernel
    rcases Option.map_eq_some_iff.mp hstatus with ⟨⟨i, d⟩, hd, hopen⟩
    exact ⟨i, d, hd, hopen⟩
  · have hreferenced : Referenced lateTables :=
      referenced_after (s := initial (UniqueTable.empty _)) (fun r hr => by cases hr) lateMatch
    rw [exposure_eq lateColumns (hours 2) hreferenced]
    decide +kernel

/-- It was raised by the first run and matched by the second. -/
theorem open_exposure_lateMatch : ∃ i before now₁ between t now₂ plans rest,
    lateMatch = before ++ .raiseMissingSettlements now₁ ::
      (between ++ .persistPairs t now₂ plans :: rest) ∧
    RaisedAt (initial (UniqueTable.empty _)) 1 i before now₁ ∧
    MatchedAt (initial (UniqueTable.empty _)) 1
      (before ++ .raiseMissingSettlements now₁ :: between) t now₂ plans := by
  have hstatus : (lateTables.missing 1).map (fun r => r.2.row.status) = some .open_ := by
    decide +kernel
  have hmatched : lateTables.isMatched 1 = true := by decide +kernel
  rcases Option.map_eq_some_iff.mp hstatus with ⟨⟨i, d⟩, hd, hopen⟩
  have hall := open_exposure ℚ lateColumns (hours 2) (UniqueTable.empty _) lateMatch lateMatch_flow
  rcases hall.1 1 i d hd hopen with hunmatched | hraised
  · rw [lateTables, hunmatched] at hmatched
    cases hmatched
  · exact ⟨i, hraised⟩

end Exhibit

end GoldCalls

end MmrEngine
