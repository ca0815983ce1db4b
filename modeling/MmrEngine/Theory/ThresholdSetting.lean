import MmrEngine.Theory.AmountDiscrepancies
import MmrEngine.Theory.GoldHistory

/-!
# The Variance Setting and What Is Raised

`fx_variance_threshold_pct` is described as the gap below which no discrepancy
is raised. The setting reaches `match_all`, which flags a pair with it, and no
further: `persist_pairs` asks the classifier, and that has a constant of its
own. So a pair whose gap lies between the two thresholds is flagged as one
thing and treated as the other, and every other pair is not.

A run writes its pairs one after another. No two of them share a transaction,
so what a run does to the rows of one pair is done at that pair's turn
(`RowsKept`), and there it depends on the gap alone.

## Main definitions

* `ConflictFree`: No row is in the way of a pair.
* `RaisedFor`: The pair has an amount discrepancy.
* `RowsKept`: The rows a pair reads or writes are as they were.

## Theorems

* `rowsKept_persistPairs`: Other pairs leave the rows of a pair alone.
* `raisedFor_iff_exceeds`: What a run raises for a pair depends on the gap.
* `threshold_governs_iff`: When the flag and the discrepancy agree.
-/

namespace MmrEngine

namespace GoldCalls

open Discrepancy Gold

section Rows

variable {T : Type} [DecidableEq T]

/-- No row is in the way of a pair: its transactions are in Silver, neither is
    matched, and nothing has been raised for the first. -/
structure ConflictFree (s : Tables T) (p : PairPlan T) : Prop where
  stored : (s.silver.find? p.a).isSome ∧ (s.silver.find? p.b).isSome
  unmatched : s.isMatched p.a = false ∧ s.isMatched p.b = false
  unpaired : s.pairs.find? (p.a, p.b) = none
  unraised : ∀ c, AmountClass c → s.discrepancies.find? (p.a, c) = none

/-- The id of the pair row of two transactions. -/
def pairIdOf (s : Tables T) (p : PairPlan T) : Option Nat :=
  (s.pairs.find? (p.a, p.b)).map Prod.fst

/-- The pair is there and has an amount discrepancy. -/
def RaisedFor (s : Tables T) (p : PairPlan T) : Prop :=
  ∃ pid c k d, pairIdOf s p = some pid ∧ AmountClass c ∧
    s.discrepancies.find? (p.a, c) = some (k, d) ∧ d.row.reconciliationPairId = some pid

/-- The transactions of a pair. -/
def planIds (p : PairPlan T) : List T := [p.a, p.b]

/-- The rows that writing a pair reads or writes are as they were. -/
structure RowsKept (p : PairPlan T) (s s' : Tables T) : Prop where
  silver : s'.silver = s.silver
  matched : ∀ x ∈ planIds p, s'.matched.find? x = s.matched.find? x
  pairId : pairIdOf s' p = pairIdOf s p
  discrepancies : ∀ c, s'.discrepancies.find? (p.a, c) = s.discrepancies.find? (p.a, c)

variable {s s' s'' : Tables T} {p q : PairPlan T}

theorem rowsKept_refl (p : PairPlan T) (s : Tables T) : RowsKept p s s :=
  ⟨rfl, fun _ _ => rfl, rfl, fun _ => rfl⟩

theorem rowsKept_trans (h : RowsKept p s s') (h' : RowsKept p s' s'') : RowsKept p s s'' where
  silver := h'.silver.trans h.silver
  matched x hx := (h'.matched x hx).trans (h.matched x hx)
  pairId := h'.pairId.trans h.pairId
  discrepancies c := (h'.discrepancies c).trans (h.discrepancies c)

theorem raisedFor_of_rowsKept (h : RowsKept p s s') : RaisedFor s' p ↔ RaisedFor s p := by
  simp only [RaisedFor, h.pairId, h.discrepancies]

theorem conflictFree_of_rowsKept (h : RowsKept p s s') (hfree : ConflictFree s p) :
    ConflictFree s' p where
  stored := by
    rw [h.silver]
    exact hfree.stored
  unmatched := by
    simp only [Tables.isMatched, h.matched p.a (by simp [planIds]),
      h.matched p.b (by simp [planIds])]
    exact hfree.unmatched
  unpaired := by
    have hid := h.pairId
    rw [pairIdOf, pairIdOf, hfree.unpaired] at hid
    exact Option.map_eq_none_iff.mp hid
  unraised c hc := by
    rw [h.discrepancies]
    exact hfree.unraised c hc

/-! ### Other pairs -/

/-- Inserting a pair of other transactions. -/
theorem rowsKept_insertPair {t : Nat} (hother : List.Disjoint (planIds q) (planIds p))
    (h : insertPair t q s = some s') : RowsKept p s s' := by
  have hne : ∀ x ∈ planIds p, x ≠ q.a ∧ x ≠ q.b := by
    intro x hx
    refine ⟨fun hc => hother (a := q.a) (by simp [planIds]) (hc ▸ hx), fun hc => ?_⟩
    exact hother (a := q.b) (by simp [planIds]) (hc ▸ hx)
  unfold insertPair at h
  split at h
  · rcases Option.bind_eq_some_iff.mp h with ⟨pairs, hpairs, h⟩
    rcases Option.bind_eq_some_iff.mp h with ⟨matched₁, h₁, h⟩
    rcases Option.map_eq_some_iff.mp h with ⟨matched₂, h₂, rfl⟩
    refine ⟨rfl, fun x hx => ?_, ?_, fun _ => rfl⟩
    · show matched₂.find? x = s.matched.find? x
      rw [UniqueTable.find?_of_insert? h₂, UniqueTable.find?_of_insert? h₁, if_neg (hne x hx).2,
        if_neg (hne x hx).1]
    · rcases SerialTable.insert?_eq_some hpairs with ⟨hfree, rfl⟩
      -- The new pair row has another key.
      have hkey : (p.a, p.b) ≠ pairKey (q.row t) := fun hc =>
        (hne p.a (by simp [planIds])).1 (Prod.mk.inj hc).1
      show ((s.pairs.insert (q.row t) hfree).find? (p.a, p.b)).map Prod.fst = pairIdOf s p
      rw [SerialTable.find?_insert, if_neg hkey]
      rfl
  · cases h

/-- Raising the discrepancy of a pair leaves the ids of the pair rows alone. -/
theorem pairIdOf_raiseAmountDiscrepancy (now : ℤ) (pid : Nat) (q p : PairPlan T) (s : Tables T) :
    pairIdOf (raiseAmountDiscrepancy now pid q s).1 p = pairIdOf s p := by
  unfold raiseAmountDiscrepancy
  split
  · rfl
  · split
    · rfl
    · exact SerialTable.id_find?_modifyAt s.pairs pid
        (fun r => { r with status := .discrepancy }) (fun _ => rfl) _

/-- Raising the discrepancy of another transaction. -/
theorem rowsKept_raise (now : ℤ) (pid : Nat) (hother : List.Disjoint (planIds q) (planIds p))
    (s : Tables T) : RowsKept p s (raiseAmountDiscrepancy now pid q s).1 where
  silver := (raiseAmountDiscrepancy_frame now pid q s).1
  matched x _ := by rw [(raiseAmountDiscrepancy_frame now pid q s).2]
  pairId := pairIdOf_raiseAmountDiscrepancy now pid q p s
  discrepancies c := by
    have hne : p.a ≠ q.a := fun hc =>
      hother (a := q.a) (by simp [planIds]) (by simp [planIds, hc])
    unfold raiseAmountDiscrepancy
    split
    · rfl
    · next f _ =>
        split
        · rfl
        · next discrepancies hinsert =>
            rcases SerialTable.insert?_eq_some hinsert with ⟨hfree, rfl⟩
            show (s.discrepancies.insert _ hfree).find? (p.a, c) = _
            rw [SerialTable.find?_insert]
            exact if_neg fun hc => hne (Prod.mk.inj hc).1

/-- Other pairs leave the rows of a pair alone. -/
theorem rowsKept_persistPairs (t : Nat) (now : ℤ) {plans : List (PairPlan T)}
    (hothers : ∀ q ∈ plans, List.Disjoint (planIds q) (planIds p)) (s : Tables T) :
    RowsKept p s (persistPairs t now plans s).1 := by
  induction plans generalizing s with
  | nil => exact rowsKept_refl p s
  | cons q plans ih =>
      have hq := hothers q List.mem_cons_self
      have hrest := ih fun q' hq' => hothers q' (List.mem_cons_of_mem _ hq')
      unfold persistPairs
      cases hinsert : insertPair t q s with
      | none => exact hrest s
      | some s' =>
          have hone := rowsKept_insertPair hq hinsert
          have htwo := rowsKept_raise now s.pairs.next hq s'
          exact rowsKept_trans (rowsKept_trans hone htwo) (hrest _)

/-! ### The pair's own turn -/

/-- With nothing in the way the pair is written. -/
theorem insertPair_of_conflictFree (t : Nat) (hne : p.a ≠ p.b) (ha : 0 ≤ p.amountANgn)
    (hb : 0 ≤ p.amountBNgn) (h : ConflictFree s p) :
    ∃ s', insertPair t p s = some s' ∧ pairIdOf s' p = some s.pairs.next ∧
      s'.discrepancies = s.discrepancies := by
  have hfreeA : s.matched.find? p.a = none := by simpa [Tables.isMatched] using h.unmatched.1
  have hfreeB : s.matched.find? p.b = none := by simpa [Tables.isMatched] using h.unmatched.2
  let first : MatchedRow T := { transactionId := p.a, pairId := s.pairs.next }
  let second : MatchedRow T := { transactionId := p.b, pairId := s.pairs.next }
  have hfreeB' : (s.matched.insert first hfreeA).find? p.b = none := by
    rw [UniqueTable.find?_insert]
    exact (if_neg (Ne.symm hne)).trans hfreeB
  refine ⟨{ s with
      pairs := s.pairs.insert (p.row t) h.unpaired
      matched := (s.matched.insert first hfreeA).insert second hfreeB' }, ?_, ?_, rfl⟩
  · unfold insertPair
    rw [if_pos ⟨hne, ha, hb, h.stored⟩, SerialTable.insert?_of_free h.unpaired, Option.bind_some,
      UniqueTable.insert?_of_free hfreeA, Option.bind_some, UniqueTable.insert?_of_free hfreeB']
    rfl
  · have hfind := (SerialTable.find?_insert s.pairs (p.row t) h.unpaired (p.a, p.b)).trans
      (if_pos rfl)
    exact congrArg (Option.map Prod.fst) hfind

/-- The pair that has just been written has its discrepancy raised exactly if
    its amounts differ by more than the constant. -/
theorem raisedFor_raise (now : ℤ) {pid : Nat} (hp : SoundPlan p) (ha : 0 ≤ p.amountANgn)
    (hpid : pairIdOf s p = some pid)
    (hfree : ∀ c, AmountClass c → s.discrepancies.find? (p.a, c) = none) :
    RaisedFor (raiseAmountDiscrepancy now pid p s).1 p ↔ Exceeds p.amountANgn p.amountBNgn := by
  have hkept := pairIdOf_raiseAmountDiscrepancy now pid p p s
  rcases amountFinding_cases s.silver.rows hp ha with ⟨hnone, hnot⟩ | ⟨f, hf, hexceeds, hclass, _⟩
  · refine ⟨fun hraised => ?_, fun hc => absurd hc hnot⟩
    have hsame : (raiseAmountDiscrepancy now pid p s).1 = s := by
      simp only [raiseAmountDiscrepancy, hnone]
    rw [hsame] at hraised
    rcases hraised with ⟨_, c, k, d, _, hc, hfind, _⟩
    rw [hfree c hc] at hfind
    cases hfind
  · refine ⟨fun _ => hexceeds, fun _ => ?_⟩
    -- The key of the new row is free, so the row goes in, for this pair.
    have hfree' := hfree f.classification hclass
    let row : DiscrepancyRecord T := {
      transactionId := p.a
      classification := f.classification
      row := newDiscrepancy (some pid) f s.nextEvent now }
    have hdiscrepancies : (raiseAmountDiscrepancy now pid p s).1.discrepancies
        = s.discrepancies.insert row hfree' := by
      unfold raiseAmountDiscrepancy
      rw [hf]
      simp only []
      rw [SerialTable.insert?_of_free hfree']
    refine ⟨pid, f.classification, s.discrepancies.next, row, hkept.trans hpid, hclass, ?_, rfl⟩
    rw [hdiscrepancies]
    exact (SerialTable.find?_insert s.discrepancies row hfree' _).trans (if_pos rfl)

/-- What a run raises for a pair depends on the gap between its amounts. -/
theorem raisedFor_iff_exceeds (t : Nat) (now : ℤ) {plans : List (PairPlan T)} (hmem : p ∈ plans)
    (hids : (plans.flatMap planIds).Nodup) (hp : SoundPlan p) (ha : 0 ≤ p.amountANgn)
    (hb : 0 ≤ p.amountBNgn) (hfree : ConflictFree s p) :
    RaisedFor (persistPairs t now plans s).1 p ↔ Exceeds p.amountANgn p.amountBNgn := by
  induction plans generalizing s with
  | nil => cases hmem
  | cons q plans ih =>
      rw [List.flatMap_cons] at hids
      rcases List.nodup_append.mp hids with ⟨hown, hrest, hacross⟩
      unfold persistPairs
      by_cases hq : p = q
      · -- The pair's own turn; nobody comes back to its rows afterwards.
        subst hq
        have hne : p.a ≠ p.b := by simpa [planIds] using hown
        have hothers : ∀ q ∈ plans, List.Disjoint (planIds q) (planIds p) := by
          intro q hq x hx hxp
          exact hacross x hxp x (List.mem_flatMap.mpr ⟨q, hq, hx⟩) rfl
        rcases insertPair_of_conflictFree t hne ha hb hfree with ⟨s', hinsert, hpid, hsame⟩
        rw [hinsert]
        refine (raisedFor_of_rowsKept (rowsKept_persistPairs t now hothers _)).trans ?_
        refine raisedFor_raise now hp ha hpid fun c hc => ?_
        rw [hsame]
        exact hfree.unraised c hc
      · -- Another pair's turn.
        have htail : p ∈ plans := (List.mem_cons.mp hmem).resolve_left hq
        have hother : List.Disjoint (planIds q) (planIds p) := by
          intro x hx hxp
          exact hacross x hx x (List.mem_flatMap.mpr ⟨p, htail, hxp⟩) rfl
        cases hinsert : insertPair t q s with
        | none => exact ih htail hrest hfree
        | some s' =>
            have hone := rowsKept_insertPair hother hinsert
            have htwo := rowsKept_raise now s.pairs.next hother s'
            exact ih htail hrest (conflictFree_of_rowsKept (rowsKept_trans hone htwo) hfree)

end Rows

section Flow

open Matching (CandidateList MatchingConfig MatchResult Settings flowPlans matchAll planOf pairIds)

variable {T : Type} [DecidableEq T]
variable {F : Type} [LinearOrder F] [Add F] [Sub F] [Mul F] [Div F] [ScoreArith F]

omit [LinearOrder F] [Add F] [Sub F] [Mul F] [Div F] [ScoreArith F] in
/-- A pair is of the transactions of its result. -/
theorem planIds_of_planOf {candidates : CandidateList T} {r : MatchResult T F} {p : PairPlan T}
    (h : planOf candidates r = some p) : planIds p = pairIds r := by
  have hid : ∀ {x : T} {c}, candidates.byId x = some c → c.id = x := by
    intro x c hc
    simpa using List.find?_some hc
  unfold planOf at h
  rcases Option.bind_eq_some_iff.mp h with ⟨a, ha, h⟩
  rcases Option.bind_eq_some_iff.mp h with ⟨b, hb, h⟩
  rcases Option.bind_eq_some_iff.mp hb with ⟨m, hm, hb⟩
  rw [← Option.some.inj h, planIds, pairIds, hm, hid ha, hid hb]
  rfl

/-- No transaction occurs in two pairs of a run. -/
theorem nodup_flowPlans {candidates : CandidateList T} {settings : Settings F}
    {plans : List (PairPlan T)} (h : flowPlans candidates settings = some plans) :
    (plans.flatMap planIds).Nodup := by
  have hmap := Matching.map_flowPlans h
  have hids : plans.map planIds
      = (matchAll candidates.rows (MatchingConfig.fromSettings settings)).map pairIds := by
    have hread : plans.map planIds = (plans.map some).map fun o => o.elim [] planIds := by
      rw [List.map_map]
      rfl
    rw [hread, ← hmap, List.map_map]
    refine List.map_congr_left fun r hr => ?_
    have hmem : planOf candidates r ∈ plans.map some := hmap ▸ List.mem_map_of_mem hr
    rcases List.mem_map.mp hmem with ⟨p, _, hp⟩
    rw [Function.comp_apply, ← hp]
    exact planIds_of_planOf hp.symm
  rw [List.flatMap_def, hids, ← List.flatMap_def]
  exact Matching.nodup_matchAll candidates.rows _

/-- The flag of a fuzzy pair compares its gap with the setting. -/
theorem flag_of_planOf {candidates : CandidateList T} {config : MatchingConfig F}
    {r : MatchResult T F} (hr : r ∈ matchAll candidates.rows config)
    (hstrategy : r.strategy = .probabilisticSecondary) {p : PairPlan T}
    (hp : planOf candidates r = some p) :
    r.isWithinFxThreshold
      = decide (deltaPct p.amountANgn p.amountBNgn ≤ config.fxVarianceThresholdPct) := by
  rcases (Matching.mem_matchAll candidates.rows config r).mp hr with ⟨pre, s, post, hacc⟩
  have hs : s ∈ candidates.rows := by
    rw [hacc.split]
    exact List.mem_append_right _ List.mem_cons_self
  rcases Matching.acceptedAt_cases hacc with ⟨m, n, _, hresult⟩ | ⟨m, _, hm, hresult⟩
  · rw [hresult] at hstrategy
    cases hstrategy
  · have hmem := ((Matching.mem_availableAfter _ _ _ _).mp hm.1).1
    have hplan := Matching.planOf_eq candidates hs hmem (r := r) (by rw [hresult]; rfl)
      (by rw [hresult]; rfl)
    rw [hp] at hplan
    rw [Option.some.inj hplan, hresult]
    rfl

omit [DecidableEq T] in
/-- A fuzzy pair with a gap has two positive amounts. -/
theorem positive_of_delta {p : PairPlan T} (hp : SoundPlan p)
    (hdelta : 0 < p.amountDeltaNgn.getD 0) :
    0 < p.amountANgn ∧ 0 < p.amountBNgn := by
  rcases hp with ⟨_, _, ⟨_, hzero⟩ | ⟨hposA, hposB, _⟩⟩
  · rw [hzero] at hdelta
    exact absurd hdelta (lt_irrefl 0)
  · exact ⟨hposA, hposB⟩

/-- The flag of a fuzzy pair that is not exact, and what a run raises for it,
    agree exactly if its gap does not lie between the setting and the constant;
    with the quotient as Python rounds it, it is the same. -/
theorem threshold_governs_iff {candidates : CandidateList T} {settings : Settings F}
    {plans : List (PairPlan T)} (hplans : flowPlans candidates settings = some plans)
    {r : MatchResult T F} (hr : r ∈ matchAll candidates.rows (MatchingConfig.fromSettings settings))
    (hstrategy : r.strategy = .probabilisticSecondary) (hdelta : 0 < r.amountDeltaNgn.getD 0)
    {p : PairPlan T} (hp : planOf candidates r = some p) (t : Nat) (now : ℤ) {s : Tables T}
    (hfree : ConflictFree s p) :
    ((RaisedFor (persistPairs t now plans s).1 p ↔ r.isWithinFxThreshold = false) ↔
      ¬ (min settings.fxVarianceThresholdPct amountThresholdPct
          < |p.amountANgn - p.amountBNgn| / p.amountANgn ∧
        |p.amountANgn - p.amountBNgn| / p.amountANgn
          ≤ max settings.fxVarianceThresholdPct amountThresholdPct)) ∧
    ∃ q, Decimal.divide |p.amountANgn - p.amountBNgn| p.amountANgn = .ok q ∧
      ((RaisedFor (persistPairs t now plans s).1 p ↔ ¬ q ≤ settings.fxVarianceThresholdPct) ↔
        ¬ (min settings.fxVarianceThresholdPct amountThresholdPct < q ∧
          q ≤ max settings.fxVarianceThresholdPct amountThresholdPct)) := by
  have hmem : p ∈ plans := (Matching.mem_flowPlans_iff hplans p).mpr ⟨r, hr, hp⟩
  have hsound := soundPlan_of_flow hplans p hmem
  have hdelta' : 0 < p.amountDeltaNgn.getD 0 := by
    rcases Matching.planOf_of_mem candidates hr with ⟨a, _, b, _, hplan, _⟩
    rw [hp] at hplan
    rw [Option.some.inj hplan]
    exact hdelta
  rcases positive_of_delta hsound hdelta' with ⟨hposA, hposB⟩
  have hraised := raisedFor_iff_exceeds t now hmem (nodup_flowPlans hplans) hsound hposA.le
    hposB.le hfree
  have hflag := flag_of_planOf hr hstrategy hp
  -- One threshold is passed and the other is not.
  have hbetween : ∀ gap : ℚ, ((amountThresholdPct < gap ↔ ¬ gap ≤ settings.fxVarianceThresholdPct) ↔
      ¬ (min settings.fxVarianceThresholdPct amountThresholdPct < gap ∧
        gap ≤ max settings.fxVarianceThresholdPct amountThresholdPct)) := by
    intro gap
    rw [min_lt_iff, le_max_iff, not_le]
    grind
  refine ⟨?_, ?_⟩
  · have hgap : Exceeds p.amountANgn p.amountBNgn
        ↔ amountThresholdPct < |p.amountANgn - p.amountBNgn| / p.amountANgn := by
      rw [lt_div_iff₀ hposA, Exceeds]
    rw [hraised, hflag, decide_eq_false_iff_not, deltaPct, if_pos hposA, hgap]
    exact hbetween _
  · rcases exceeds_iff_rounded hsound.1 hsound.2.1 hposA with ⟨q, hq, hexceeds⟩
    refine ⟨q, hq, ?_⟩
    rw [hraised, ← hexceeds]
    exact hbetween q

end Flow

section Exhibit

open Matching (MatchingConfig Settings flowPlans matchAll planOf)

/-- A gap of up to ten percent is within the threshold. -/
def wideSettings : Settings ℚ :=
  { usualSettings with
    fxVarianceThresholdPct := 0.1
    variance_ge := by decide +kernel
    variance_le := by decide +kernel }

/-- The two transactions of the pair, in Silver. -/
def unequalTables : Tables Nat := initial {
  rows := [
    { id := 1, transactionType := .credit, settlementStatus := .settled, amountNgn := 1000
      fxRateApplied := none, expectedSettlementAt := none },
    { id := 2, transactionType := .debit, settlementStatus := .settled, amountNgn := 990
      fxRateApplied := none, expectedSettlementAt := none }]
  unique := by decide }

theorem conflictFree_unequal : ConflictFree unequalTables unequalPair where
  stored := ⟨rfl, rfl⟩
  unmatched := ⟨rfl, rfl⟩
  unpaired := rfl
  unraised _ _ := rfl

/-- What the pass makes of them, under either setting. -/
theorem matchAll_unequal {settings : Settings ℚ}
    (h : settings = usualSettings ∨ settings = wideSettings) :
    flowPlans unequalCandidates settings = some [unequalPair] ∧
      ∃ r ∈ matchAll unequalCandidates.rows (MatchingConfig.fromSettings settings),
        r.strategy = .probabilisticSecondary ∧ 0 < r.amountDeltaNgn.getD 0 ∧
        planOf unequalCandidates r = some unequalPair := by
  have hplans : flowPlans unequalCandidates settings = some [unequalPair] := by
    rcases h with rfl | rfl
    · exact flowPlans_unequal
    · decide +kernel
  have hall : ∀ r ∈ matchAll unequalCandidates.rows (MatchingConfig.fromSettings settings),
      r.strategy = .probabilisticSecondary ∧ 0 < r.amountDeltaNgn.getD 0 := by
    rcases h with rfl | rfl
    · decide +kernel
    · decide +kernel
  rcases (Matching.mem_flowPlans_iff hplans unequalPair).mp List.mem_cons_self with ⟨r, hr, hplan⟩
  exact ⟨hplans, r, hr, (hall r hr).1, (hall r hr).2, hplan⟩

/-- With the default setting the pair is flagged and raised. -/
theorem threshold_governs_iff_default :
    ∃ r ∈ matchAll unequalCandidates.rows (MatchingConfig.fromSettings usualSettings),
      (RaisedFor (persistPairs 0 0 [unequalPair] unequalTables).1 unequalPair ↔
        r.isWithinFxThreshold = false) := by
  rcases matchAll_unequal (Or.inl rfl) with ⟨hplans, r, hr, hstrategy, hdelta, hp⟩
  refine ⟨r, hr, ?_⟩
  refine (threshold_governs_iff hplans hr hstrategy hdelta hp 0 0 conflictFree_unequal).1.mpr ?_
  decide +kernel

/-- With a setting of ten percent a pair one percent apart is within the
    threshold, and its discrepancy is raised all the same. -/
theorem within_threshold_still_raised :
    ∃ r ∈ matchAll unequalCandidates.rows (MatchingConfig.fromSettings wideSettings),
      r.strategy = .probabilisticSecondary ∧ 0 < r.amountDeltaNgn.getD 0 ∧
        planOf unequalCandidates r = some unequalPair ∧
        flowPlans unequalCandidates wideSettings = some [unequalPair] ∧
        ConflictFree unequalTables unequalPair ∧
        ¬ (RaisedFor (persistPairs 0 0 [unequalPair] unequalTables).1 unequalPair ↔
          r.isWithinFxThreshold = false) := by
  rcases matchAll_unequal (Or.inr rfl) with ⟨hplans, r, hr, hstrategy, hdelta, hp⟩
  have hmem : unequalPair ∈ [unequalPair] := List.mem_cons_self
  have hraised := (raisedFor_iff_exceeds 0 0 hmem (by decide) (soundPlan_of_flow hplans _ hmem)
    (by decide) (by decide) conflictFree_unequal).mpr (by
      norm_num [Exceeds, amountThresholdPct, unequalPair])
  have hflag := flag_of_planOf hr hstrategy hp
  refine ⟨r, hr, hstrategy, hdelta, hp, hplans, conflictFree_unequal, fun hclaim => ?_⟩
  have hfalse := hclaim.mp hraised
  rw [hflag] at hfalse
  revert hfalse
  decide +kernel

end Exhibit

end GoldCalls

end MmrEngine
