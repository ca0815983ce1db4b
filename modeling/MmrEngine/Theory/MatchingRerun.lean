import MmrEngine.Flows.MatchingRun
import MmrEngine.Theory.AmountDiscrepancies
import MmrEngine.Theory.GoldHistory
import MmrEngine.Theory.SecondRun

/-!
# Running the Matching Flow Again

A run writes what its pass has found, and a later run finds what that pass left.

No constraint stands in the way of a pair of the pass: its two transactions are
of Silver, different, and matched neither before the run nor by another pair of
it. That no such pair is in the table already is an invariant of the calls: the
first transaction of a pair is matched (`PairsMatched`).

A later run, whatever was called in between, loads transactions that are new or
that the first run had and left unmatched. Of two of the latter it makes a pair
only if the search of one of them was ambiguous the first time: a search that saw
nobody good enough sees nobody good enough among fewer.

## Main definitions

* `PairsMatched`: The invariant.
* `Writable`: No constraint forbids a pair.

## Theorems

* `persistPairs_writes`: The pairs are written, and nothing else.
* `matching_run_writes_its_pass`: What a run makes of the tables.
* `rerun_needs_a_tie_or_news`: What a later run can find.
-/

namespace MmrEngine

namespace GoldCalls

open Gold Matching

section Writes

variable {T : Type} [DecidableEq T] {s s' : Tables T} {t : Nat} {p : PairPlan T}

/-- The two transactions of a pair. -/
def legs (p : PairPlan T) : List T := [p.a, p.b]

/-- The first transaction of every pair in the table is matched. -/
def PairsMatched (s : Tables T) : Prop :=
  ∀ k r, s.pairs.find? k = some r → s.isMatched k.1 = true

/-- No constraint forbids the pair. -/
structure Writable (s : Tables T) (p : PairPlan T) : Prop where
  distinct : p.a ≠ p.b
  amountA : 0 ≤ p.amountANgn
  amountB : 0 ≤ p.amountBNgn
  silverA : (s.silver.find? p.a).isSome = true
  silverB : (s.silver.find? p.b).isSome = true
  freeA : s.isMatched p.a = false
  freeB : s.isMatched p.b = false

/-- What inserting a pair makes of the pairs and of the matches. -/
theorem insertPair_tables (h : insertPair t p s = some s') :
    (∀ k, s'.pairs.find? k
      = if k = (p.a, p.b) then some (s.pairs.next, p.row t) else s.pairs.find? k) ∧
      ∀ x, s'.isMatched x = true ↔ x ∈ legs p ∨ s.isMatched x = true := by
  unfold insertPair at h
  split at h
  · rcases Option.bind_eq_some_iff.mp h with ⟨pairs, hpairs, h⟩
    rcases Option.bind_eq_some_iff.mp h with ⟨matched₁, h₁, h⟩
    rcases Option.map_eq_some_iff.mp h with ⟨matched₂, h₂, rfl⟩
    refine ⟨fun k => ?_, fun x => ?_⟩
    · rcases SerialTable.insert?_eq_some hpairs with ⟨hfree, rfl⟩
      exact SerialTable.find?_insert s.pairs (p.row t) hfree k
    · simp only [Tables.isMatched, UniqueTable.find?_of_insert? h₂,
        UniqueTable.find?_of_insert? h₁, legs, List.mem_cons, List.not_mem_nil, or_false]
      by_cases hb : x = p.b
      · rw [if_pos hb]
        simp only [Option.isSome_some, hb, or_true, true_or]
      · rw [if_neg hb]
        by_cases ha : x = p.a
        · rw [if_pos ha]
          simp only [Option.isSome_some, ha, true_or]
        · rw [if_neg ha]
          simp only [ha, hb, false_or]
  · cases h

/-- A pair that violates nothing is inserted. -/
theorem insertPair_isSome (hs : PairsMatched s) (hp : Writable s p) :
    ∃ s', insertPair t p s = some s' := by
  have hnopair : s.pairs.find? (pairKey (p.row t)) = none := by
    cases hfind : s.pairs.find? (pairKey (p.row t)) with
    | none => rfl
    | some r =>
        have hmatched : s.isMatched p.a = true := hs _ r hfind
        rw [hp.freeA] at hmatched
        cases hmatched
  have hfreeA : s.matched.find? p.a = none := by
    simpa [Tables.isMatched] using hp.freeA
  have hfreeB : s.matched.find? p.b = none := by
    simpa [Tables.isMatched] using hp.freeB
  have hinsertA : s.matched.insert? { transactionId := p.a, pairId := s.pairs.next }
      = some (s.matched.insert { transactionId := p.a, pairId := s.pairs.next } hfreeA) :=
    UniqueTable.insert?_of_free hfreeA
  -- The second one is another transaction, so the first row does not take its key.
  have hstill := UniqueTable.find?_of_insert? hinsertA p.b
  rw [if_neg (Ne.symm hp.distinct), hfreeB] at hstill
  rw [← Option.isSome_iff_exists]
  unfold insertPair
  rw [if_pos ⟨hp.distinct, hp.amountA, hp.amountB, hp.silverA, hp.silverB⟩,
    SerialTable.insert?_of_free hnopair, Option.bind_some, hinsertA, Option.bind_some,
    UniqueTable.insert?_of_free hstill]
  rfl

/-- Raising a discrepancy changes the status of pairs only. -/
theorem raiseAmountDiscrepancy_pairs (now : ℤ) (pairId : Nat) (p : PairPlan T) (s : Tables T)
    (k : T × T) :
    ((raiseAmountDiscrepancy now pairId p s).1.pairs.find? k).isSome
      = (s.pairs.find? k).isSome := by
  unfold raiseAmountDiscrepancy
  split
  · rfl
  · split
    · rfl
    · exact (congrArg Option.isSome (SerialTable.find?_modifyAt s.pairs pairId _ _ k)).trans
        Option.isSome_map

theorem pairsMatched_iff : PairsMatched s ↔
    ∀ k, (s.pairs.find? k).isSome = true → s.isMatched k.1 = true := by
  constructor
  · intro h k hk
    rcases Option.isSome_iff_exists.mp hk with ⟨r, hr⟩
    exact h k r hr
  · intro h k r hr
    exact h k (Option.isSome_iff_exists.mpr ⟨r, hr⟩)

/-- Inserting a pair, with the discrepancy it may raise. -/
theorem insertPair_raise (now : ℤ) (h : insertPair t p s = some s') :
    (∀ k, ((raiseAmountDiscrepancy now s.pairs.next p s').1.pairs.find? k).isSome = true ↔
        k = (p.a, p.b) ∨ (s.pairs.find? k).isSome = true) ∧
      (∀ x, (raiseAmountDiscrepancy now s.pairs.next p s').1.isMatched x = true ↔
        x ∈ legs p ∨ s.isMatched x = true) ∧
      (raiseAmountDiscrepancy now s.pairs.next p s').1.silver = s.silver := by
  rcases insertPair_tables h with ⟨hpairs, hmatched⟩
  rcases raiseAmountDiscrepancy_frame now s.pairs.next p s' with ⟨hsilver, hkept⟩
  refine ⟨fun k => ?_, fun x => ?_, hsilver.trans (insertPair_eq_some h).1⟩
  · rw [raiseAmountDiscrepancy_pairs, hpairs]
    by_cases hk : k = (p.a, p.b)
    · simp [hk]
    · simp [hk]
  · rw [Tables.isMatched, hkept]
    exact hmatched x

theorem pairsMatched_insert (hs : PairsMatched s) (now : ℤ) (h : insertPair t p s = some s') :
    PairsMatched (raiseAmountDiscrepancy now s.pairs.next p s').1 := by
  rcases insertPair_raise now h with ⟨hpairs, hmatched, _⟩
  rw [pairsMatched_iff] at hs ⊢
  intro k hk
  rw [hmatched]
  rcases (hpairs k).mp hk with rfl | hold
  · exact Or.inl List.mem_cons_self
  · exact Or.inr (hs k hold)

theorem pairsMatched_persistPairs (now : ℤ) (t : Nat) (plans : List (PairPlan T))
    (hs : PairsMatched s) : PairsMatched (persistPairs t now plans s).1 := by
  induction plans generalizing s with
  | nil => exact hs
  | cons p plans ih =>
      unfold persistPairs
      cases hinsert : insertPair t p s with
      | none => exact ih hs
      | some s' => exact ih (pairsMatched_insert hs now hinsert)

/-- The upsert leaves the pairs alone. -/
theorem upsertAll_pairs (now : ℤ) (os : List (Overdue T)) (s : Tables T) :
    (upsertAll now os s).1.pairs = s.pairs := by
  induction os generalizing s with
  | nil => rfl
  | cons o os ih =>
      have hone : (upsertOverdue now o s).1.pairs = s.pairs := by
        unfold upsertOverdue
        split
        · rfl
        · split
          · rfl
          · rfl
      exact (ih (upsertOverdue now o s).1).trans hone

omit [DecidableEq T] in
/-- So does closing. -/
theorem closeAll_pairs (now : ℤ) (req : Closing) (ids : List Nat) (s : Tables T) :
    (closeAll now req ids s).pairs = s.pairs := by
  induction ids generalizing s with
  | nil => rfl
  | cons id ids ih => exact ih (closeAt now req id s)

/-- Only `persistPairs` writes pairs and matches. -/
theorem exec_pairs_of_not_persist {c : Call T} (h : ∀ t now plans, c ≠ .persistPairs t now plans) :
    (c.exec s).pairs = s.pairs ∧ (c.exec s).matched = s.matched := by
  cases c with
  | land row => exact ⟨rfl, rfl⟩
  | persistPairs t now plans => exact absurd rfl (h t now plans)
  | raiseMissingSettlements now =>
      exact ⟨upsertAll_pairs now _ s, (upsertAll_frame now _ s).2⟩
  | resolveDiscrepancy now id req =>
      rw [Call.exec, resolveDiscrepancy_closeAll]
      exact ⟨closeAll_pairs now req _ s, (closeAll_frame req _ s).2⟩
  | bulkResolveDiscrepancies now ids req =>
      exact ⟨closeAll_pairs now req _ s, (closeAll_frame req _ s).2⟩
  | rolledBack events => exact ⟨rfl, rfl⟩

theorem pairsMatched_exec (hs : PairsMatched s) (c : Call T) : PairsMatched (c.exec s) := by
  by_cases hc : ∃ t now plans, c = .persistPairs t now plans
  · rcases hc with ⟨t, now, plans, rfl⟩
    exact pairsMatched_persistPairs now t plans hs
  · push Not at hc
    rcases exec_pairs_of_not_persist (s := s) hc with ⟨hpairs, hmatched⟩
    intro k r hr
    rw [hpairs] at hr
    rw [Tables.isMatched, hmatched]
    exact hs k r hr

/-- The invariant holds after any calls. -/
theorem pairsMatched_after (hs : PairsMatched s) (calls : List (Call T)) :
    PairsMatched (after s calls) := by
  induction calls generalizing s with
  | nil => exact hs
  | cons c calls ih => exact ih (pairsMatched_exec hs c)

theorem pairsMatched_initial (silver : UniqueTable (SilverRow.id (T := T))) :
    PairsMatched (initial silver) := by
  intro k r hr
  cases hr

/-- What is free for one pair stays free while another is written. -/
theorem writable_insert {q : PairPlan T} (hq : Writable s q) (now : ℤ)
    (h : insertPair t p s = some s') (hother : ∀ x ∈ legs q, x ∉ legs p) :
    Writable (raiseAmountDiscrepancy now s.pairs.next p s').1 q := by
  rcases insertPair_raise now h with ⟨_, hmatched, hsilver⟩
  have hfree : ∀ x ∈ legs q, s.isMatched x = false →
      (raiseAmountDiscrepancy now s.pairs.next p s').1.isMatched x = false := by
    intro x hx hold
    rw [Bool.eq_false_iff]
    intro hc
    rcases (hmatched x).mp hc with hleg | hbefore
    · exact hother x hx hleg
    · rw [hold] at hbefore
      cases hbefore
  exact
    { distinct := hq.distinct
      amountA := hq.amountA
      amountB := hq.amountB
      silverA := by
        rw [hsilver]
        exact hq.silverA
      silverB := by
        rw [hsilver]
        exact hq.silverB
      freeA := hfree _ List.mem_cons_self hq.freeA
      freeB := hfree _ (List.mem_cons_of_mem _ List.mem_cons_self) hq.freeB }

/-- The pairs are written, and nothing else. -/
theorem persistPairs_writes (now : ℤ) (t : Nat) {plans : List (PairPlan T)}
    (hs : PairsMatched s) (hplans : ∀ p ∈ plans, Writable s p)
    (hnodup : (plans.flatMap legs).Nodup) :
    (persistPairs t now plans s).2.1 = plans.length ∧
      (∀ k, ((persistPairs t now plans s).1.pairs.find? k).isSome = true ↔
        (∃ p ∈ plans, k = (p.a, p.b)) ∨ (s.pairs.find? k).isSome = true) ∧
      ∀ x, (persistPairs t now plans s).1.isMatched x = true ↔
        x ∈ plans.flatMap legs ∨ s.isMatched x = true := by
  induction plans generalizing s with
  | nil =>
      refine ⟨rfl, fun k => ?_, fun x => ?_⟩
      · simp [persistPairs]
      · simp [persistPairs]
  | cons p plans ih =>
      rw [List.flatMap_cons, List.nodup_append] at hnodup
      rcases hnodup with ⟨_, hrest, hdisjoint⟩
      rcases insertPair_isSome (t := t) hs (hplans p List.mem_cons_self) with ⟨s', hinsert⟩
      rcases insertPair_raise now hinsert with ⟨hpairs, hmatched, _⟩
      have hothers : ∀ q ∈ plans,
          Writable (raiseAmountDiscrepancy now s.pairs.next p s').1 q := by
        intro q hq
        refine writable_insert (hplans q (List.mem_cons_of_mem _ hq)) now hinsert ?_
        intro x hx hxp
        exact hdisjoint x hxp x (List.mem_flatMap.mpr ⟨q, hq, hx⟩) rfl
      rcases ih (pairsMatched_insert hs now hinsert) hothers hrest with
        ⟨hcount, hpairs', hmatched'⟩
      have hpersist : persistPairs t now (p :: plans) s
          = ((persistPairs t now plans (raiseAmountDiscrepancy now s.pairs.next p s').1).1,
            (persistPairs t now plans (raiseAmountDiscrepancy now s.pairs.next p s').1).2.1 + 1,
            (raiseAmountDiscrepancy now s.pairs.next p s').2
              + (persistPairs t now plans
                (raiseAmountDiscrepancy now s.pairs.next p s').1).2.2) := by
        rw [persistPairs, hinsert]
      rw [hpersist]
      refine ⟨congrArg (· + 1) hcount, fun k => ?_, fun x => ?_⟩
      · rw [hpairs', hpairs, List.exists_mem_cons_iff]
        exact or_assoc.symm.trans (or_congr_left or_comm)
      · rw [hmatched', hmatched, List.flatMap_cons, List.mem_append]
        exact or_assoc.symm.trans (or_congr_left or_comm)

end Writes

/-! ### A run -/

section Run

variable {T F : Type} [DecidableEq T]
variable [LinearOrder F] [Add F] [Sub F] [Mul F] [Div F] [ScoreArith F]
variable {columns : EngineColumns T} {settings : Settings F} {s : Tables T}

omit [LinearOrder F] [Add F] [Sub F] [Mul F] [Div F] [ScoreArith F] in
/-- The transactions of a pair are those of its result. -/
theorem legs_planOf {candidates : CandidateList T} {r : MatchResult T F} {p : PairPlan T}
    (h : planOf candidates r = some p) : legs p = pairIds r := by
  unfold planOf at h
  rcases Option.bind_eq_some_iff.mp h with ⟨a, ha, h⟩
  rcases Option.bind_eq_some_iff.mp h with ⟨b, hb, h⟩
  rcases Option.bind_eq_some_iff.mp hb with ⟨k, hk, hb⟩
  have hida : a.id = r.sourceTransactionId := by simpa using List.find?_some ha
  have hidb : b.id = k := by simpa using List.find?_some hb
  rw [← Option.some.inj h, legs, pairIds, hk, hida, hidb]
  rfl

theorem legs_flowPlans {candidates : CandidateList T} {plans : List (PairPlan T)}
    (h : flowPlans candidates settings = some plans) :
    plans.flatMap legs
      = (matchAll candidates.rows (MatchingConfig.fromSettings settings)).flatMap pairIds := by
  have hmap := map_flowPlans h
  have hall : ∀ (results : List (MatchResult T F)) (plans : List (PairPlan T)),
      results.map (planOf candidates) = plans.map some →
      plans.flatMap legs = results.flatMap pairIds := by
    intro results
    induction results with
    | nil =>
        intro plans hplans
        rw [List.map_nil, eq_comm, List.map_eq_nil_iff] at hplans
        rw [hplans]
        rfl
    | cons r results ih =>
        intro plans hplans
        cases plans with
        | nil => cases hplans
        | cons p plans =>
            rw [List.map_cons, List.map_cons, List.cons.injEq] at hplans
            rw [List.flatMap_cons, List.flatMap_cons, legs_planOf hplans.1, ih plans hplans.2]
  exact hall _ plans hmap

/-- Nothing stands in the way of the pairs of a pass. -/
theorem writable_flowPlans {lookback now : ℤ} (h : LegalAmounts s) {plans : List (PairPlan T)}
    (hplans : flowPlans (candidateList columns lookback now s h) settings = some plans) :
    ∀ p ∈ plans, Writable s p := by
  intro p hp
  have hlegs : (legs p).Nodup := by
    have hnodup := nodup_matchAll (candidateList columns lookback now s h).rows
      (MatchingConfig.fromSettings settings)
    rw [← legs_flowPlans hplans] at hnodup
    exact (List.nodup_flatMap.mp hnodup).1 p hp
  rcases (mem_flowPlans_iff hplans p).mp hp with ⟨r, hr, hplan⟩
  rcases planOf_of_mem _ hr with ⟨a, ha, b, hb, hplan', _⟩
  rw [hplan'] at hplan
  rw [← Option.some.inj hplan] at hlegs ⊢
  rcases mem_fetch.mp ha with ⟨ra, hra, hca, rfl⟩
  rcases mem_fetch.mp hb with ⟨rb, hrb, hcb, rfl⟩
  have hfound : ∀ r ∈ s.silver.rows, (s.silver.find? r.id).isSome = true := by
    intro r hr
    rw [UniqueTable.find?_eq_some_iff.mpr ⟨hr, rfl⟩]
    rfl
  have hfree : ∀ r, considered columns lookback now s r = true → s.isMatched r.id = false := by
    intro r hr
    simpa using (Bool.and_eq_true_iff.mp hr).2
  exact
    { distinct := by simpa [legs] using hlegs
      amountA := (h ra hra).2
      amountB := (h rb hrb).2
      silverA := hfound ra hra
      silverB := hfound rb hrb
      freeA := hfree ra hca
      freeB := hfree rb hcb }

omit [DecidableEq T] [LinearOrder F] [Add F] [Sub F] [Mul F] [Div F] [ScoreArith F] in
/-- The results of a run are of one of the two strategies. -/
theorem strategies_add (results : List (MatchResult T F))
    (h : ∀ r ∈ results, r.strategy = .exactPrimary ∨ r.strategy = .probabilisticSecondary) :
    (results.filter fun r => r.strategy = .exactPrimary).length
      + (results.filter fun r => r.strategy = .probabilisticSecondary).length
      = results.length := by
  induction results with
  | nil => rfl
  | cons r results ih =>
      have hrest := ih fun r' hr' => h r' (List.mem_cons_of_mem _ hr')
      rcases h r List.mem_cons_self with hr | hr
      · simp only [List.filter_cons, hr, decide_true, if_true, List.length_cons, reduceCtorEq,
          decide_false, Bool.false_eq_true, if_false]
        omega
      · simp only [List.filter_cons, hr, decide_true, if_true, List.length_cons, reduceCtorEq,
          decide_false, Bool.false_eq_true, if_false]
        omega

theorem strategy_of_mem {candidates : List (TransactionCandidate T)} {config : MatchingConfig F}
    {r : MatchResult T F} (hr : r ∈ matchAll candidates config) :
    r.strategy = .exactPrimary ∨ r.strategy = .probabilisticSecondary := by
  rcases (mem_matchAll candidates config r).mp hr with ⟨pre, x, post, hacc⟩
  rcases acceptedAt_cases hacc with ⟨m, n, _, hr⟩ | ⟨m, _, _, hr⟩
  · exact Or.inl (by rw [hr]; rfl)
  · exact Or.inr (by rw [hr]; rfl)

/-- So are the pairs they are written as. -/
theorem keys_flowPlans {candidates : CandidateList T} {plans : List (PairPlan T)}
    (h : flowPlans candidates settings = some plans) (k : T × T) :
    (∃ p ∈ plans, k = (p.a, p.b)) ↔
      ∃ r ∈ matchAll candidates.rows (MatchingConfig.fromSettings settings),
        pairIds r = [k.1, k.2] := by
  constructor
  · rintro ⟨p, hp, rfl⟩
    rcases (mem_flowPlans_iff h p).mp hp with ⟨r, hr, hplan⟩
    exact ⟨r, hr, (legs_planOf hplan).symm⟩
  · rintro ⟨r, hr, hids⟩
    rcases planOf_of_mem _ hr with ⟨a, _, b, _, hplan, _⟩
    have hlegs := legs_planOf hplan
    rw [hids] at hlegs
    refine ⟨_, (mem_flowPlans_iff h _).mpr ⟨r, hr, hplan⟩, Prod.ext ?_ ?_⟩
    · exact (List.cons.inj hlegs).1.symm
    · exact (List.cons.inj (List.cons.inj hlegs).2).1.symm

/-- A run writes its pairs and leaves the rest of what it matched alone. -/
theorem silverToGoldMatching_tables (columns : EngineColumns T) (settings : Settings F) (t : Nat)
    (clock : RunClock) (h : LegalAmounts s) {plans : List (PairPlan T)}
    (hplans : flowPlans (candidateList columns (lookbackOf settings) clock.fetched s h) settings
      = some plans) :
    (silverToGoldMatching columns settings t clock s h).2.pairsWritten
        = (persistPairs t clock.persisted plans s).2.1 ∧
      (silverToGoldMatching columns settings t clock s h).1.pairs
        = (persistPairs t clock.persisted plans s).1.pairs ∧
      (silverToGoldMatching columns settings t clock s h).1.matched
        = (persistPairs t clock.persisted plans s).1.matched ∧
      (silverToGoldMatching columns settings t clock s h).1.silver = s.silver := by
  have hrun : (silverToGoldMatching columns settings t clock s h).1
      = (raiseMissingSettlements clock.swept (persistPairs t clock.persisted plans s).1).1 := by
    simp only [silverToGoldMatching, hplans, Option.getD_some]
  refine ⟨?_, ?_, ?_, ?_⟩
  · simp only [silverToGoldMatching, hplans, Option.getD_some]
  · rw [hrun]
    exact upsertAll_pairs clock.swept _ _
  · rw [hrun]
    exact (upsertAll_frame clock.swept _ _).2
  · rw [hrun]
    exact (upsertAll_frame clock.swept _ _).1.trans
      (persistPairs_frame clock.persisted t plans s).1

/-- What a run makes of tables in which the pairs are of matched transactions. -/
theorem silverToGoldMatching_spec (columns : EngineColumns T) (settings : Settings F) (t : Nat)
    (clock : RunClock) (hs : PairsMatched s) (h : LegalAmounts s) :
    (silverToGoldMatching columns settings t clock s h).2.pairsWritten
        = (passOf columns settings clock s).length ∧
      (∀ k, ((silverToGoldMatching columns settings t clock s h).1.pairs.find? k).isSome = true ↔
        (∃ r ∈ passOf columns settings clock s, pairIds r = [k.1, k.2]) ∨
          (s.pairs.find? k).isSome = true) ∧
      ∀ x, (silverToGoldMatching columns settings t clock s h).1.isMatched x = true ↔
        x ∈ (passOf columns settings clock s).flatMap pairIds ∨ s.isMatched x = true := by
  rcases Option.isSome_iff_exists.mp (flowPlans_isSome
    (candidateList columns (lookbackOf settings) clock.fetched s h) settings) with ⟨plans, hplans⟩
  have hpass : matchAll (candidateList columns (lookbackOf settings) clock.fetched s h).rows
      (MatchingConfig.fromSettings settings) = passOf columns settings clock s := rfl
  have hlegs := legs_flowPlans hplans
  have hkeys := keys_flowPlans hplans
  have hlength := congrArg List.length (map_flowPlans hplans)
  have hnodup := nodup_matchAll (candidateList columns (lookbackOf settings) clock.fetched s h).rows
    (MatchingConfig.fromSettings settings)
  rw [List.length_map, List.length_map] at hlength
  rw [← hlegs] at hnodup
  rw [hpass] at hlegs hkeys hlength
  rcases persistPairs_writes clock.persisted t hs (writable_flowPlans h hplans) hnodup with
    ⟨hcount, hpairs, hmatched⟩
  rcases silverToGoldMatching_tables columns settings t clock h hplans with
    ⟨hcount', hpairs', hmatched', _⟩
  refine ⟨?_, fun k => ?_, fun x => ?_⟩
  · rw [hcount', hcount, hlength]
  · rw [hpairs', hpairs, hkeys]
  · rw [Tables.isMatched, hmatched', ← hlegs, ← hmatched, Tables.isMatched]

/-- A run is two calls, so what holds after any calls holds after it. -/
theorem silverToGoldMatching_after (columns : EngineColumns T) (settings : Settings F) (t : Nat)
    (clock : RunClock) (h : LegalAmounts s) :
    ∃ calls : List (Call T), (silverToGoldMatching columns settings t clock s h).1
      = after s calls :=
  ⟨[.persistPairs t clock.persisted ((flowPlans (candidateList columns (lookbackOf settings)
      clock.fetched s h) settings).getD []), .raiseMissingSettlements clock.swept], rfl⟩

/-- Matches and Silver rows stay. -/
theorem after_keeps (calls : List (Call T)) :
    (∀ x, s.isMatched x = true → (after s calls).isMatched x = true) ∧
      ∀ r ∈ s.silver.rows, r ∈ (after s calls).silver.rows := by
  induction calls generalizing s with
  | nil => exact ⟨fun _ hx => hx, fun _ hr => hr⟩
  | cons c calls ih =>
      rcases ih (s := c.exec s) with ⟨hmatched, hsilver⟩
      exact ⟨fun x hx => hmatched x (exec_isMatched c hx),
        fun r hr => hsilver r (exec_silver c hr)⟩

/-- Without a `land`, no row is new. -/
theorem after_silver {calls : List (Call T)} (h : ∀ row, .land row ∉ calls) :
    (after s calls).silver = s.silver := by
  induction calls generalizing s with
  | nil => rfl
  | cons c calls ih =>
      have hone : (c.exec s).silver = s.silver :=
        exec_silver_of_not_land fun row hc => h row (hc ▸ List.mem_cons_self)
      exact (ih (s := c.exec s) fun row hrow => h row (List.mem_cons_of_mem _ hrow)).trans hone

/-- Of two transactions left over, one is good enough for the other only if the
    search of that one was ambiguous. -/
theorem ambiguous_of_leftover {candidates : List (TransactionCandidate T)}
    {config : MatchingConfig F} {x m : TransactionCandidate T}
    (hx : x ∈ leftover candidates config) (hm : m ∈ leftover candidates config)
    (hgood : ExactCounterpart config x m ∨ (FuzzyCounterpart config x m ∧
      config.probabilisticThreshold ≤ pairScore config x m)) :
    ∃ pre post, candidates = pre ++ x :: post ∧ ReportedAmbiguous candidates config pre x := by
  rw [leftover_eq] at hx hm
  rcases (Greedy.mem_available _ _).mp hx with ⟨hall, hfree⟩
  rcases Greedy.passed_over (search config) candidates hall hfree with
    ⟨pre, post, hsplit, hturn, hnone⟩
  have hnone' : (runMatching x (availableAfter candidates config pre)
      config).matchedTransactionId = none := by
    rw [availableAfter_eq]
    exact hnone
  -- Who is left over in the end was available at the turn of `x`.
  have hpool : m ∈ availableAfter candidates config pre := by
    have hsub := Greedy.available_antitone (search config) candidates pre (x :: post)
    rw [← hsplit] at hsub
    rw [availableAfter_eq]
    exact hsub hm
  refine ⟨pre, post, hsplit, ?_, hnone', ?_⟩
  · rw [stateAfter_eq_pass]
    exact hturn
  · by_contra hquiet
    rw [Bool.not_eq_true] at hquiet
    rcases runMatching_quiet hnone' hquiet hpool with ⟨hexact, hfuzzy⟩
    rcases hgood with hgood | ⟨hgood, hscore⟩
    · exact hexact hgood
    · exact absurd hscore (not_le.mpr (hfuzzy hgood))

/-- What a later run loads of the Silver rows of an earlier one, that one has
    loaded and left over. -/
theorem leftover_of_later {t : Nat} {clock clock' : RunClock} (hs : PairsMatched s)
    (h : LegalAmounts s) {s' : Tables T} {between : List (Call T)}
    (hs' : s' = after (silverToGoldMatching columns settings t clock s h).1 between)
    (hclock : clock.fetched ≤ clock'.fetched) {c : TransactionCandidate T}
    (hc : c ∈ fetchMatchCandidates columns (lookbackOf settings) clock'.fetched s')
    (hold : (s.silver.find? c.id).isSome = true) :
    c ∈ leftover (fetchMatchCandidates columns (lookbackOf settings) clock.fetched s)
      (MatchingConfig.fromSettings settings) := by
  rcases silverToGoldMatching_spec columns settings t clock hs h with ⟨_, _, hmatched⟩
  rcases silverToGoldMatching_after columns settings t clock h with ⟨calls, hcalls⟩
  rcases after_keeps (s := s) calls with ⟨hown, hownrows⟩
  rcases after_keeps (s := (silverToGoldMatching columns settings t clock s h).1) between with
    ⟨hkept', hrows'⟩
  rw [← hcalls] at hown hownrows
  rw [← hs'] at hkept' hrows'
  have hkept : ∀ x, s.isMatched x = true → s'.isMatched x = true :=
    fun x hx => hkept' x (hown x hx)
  rcases mem_fetch.mp hc with ⟨r, hr, hconsidered, rfl⟩
  -- The row is the one that was there before.
  rcases Option.isSome_iff_exists.mp hold with ⟨r₀, hfind⟩
  rcases UniqueTable.find?_some hfind with ⟨hr₀, hid⟩
  have hsame : r₀ = r := by
    have hfind₀ := UniqueTable.find?_eq_some_iff.mpr
      ⟨hrows' r₀ (hownrows r₀ hr₀), hid⟩
    have hfind' : s'.silver.find? (toCandidate columns r).id = some r :=
      UniqueTable.find?_eq_some_iff.mpr ⟨hr, rfl⟩
    rw [hfind₀] at hfind'
    exact Option.some.inj hfind'
  subst hsame
  simp only [considered, Bool.and_eq_true, decide_eq_true_eq, Bool.not_eq_true'] at hconsidered
  rcases hconsidered with ⟨⟨⟨htype, hstatus⟩, hsince⟩, hunmatched⟩
  have hfree : ∀ {u : Tables T}, (∀ x, u.isMatched x = true → s'.isMatched x = true) →
      u.isMatched r₀.id = false := by
    intro u hu
    rw [Bool.eq_false_iff]
    intro hc
    rw [hu _ hc] at hunmatched
    cases hunmatched
  refine List.mem_filter.mpr ⟨mem_fetch.mpr ⟨r₀, hr₀, ?_, rfl⟩, decide_eq_true ?_⟩
  · simp only [considered, Bool.and_eq_true, decide_eq_true_eq, Bool.not_eq_true']
    exact ⟨⟨⟨htype, hstatus⟩, by omega⟩, hfree hkept⟩
  · intro hpair
    have hnow := (hmatched r₀.id).mpr (Or.inl hpair)
    rw [hfree hkept'] at hnow
    cases hnow

/-- The transactions of a pass are of Silver. -/
theorem silver_of_pass {clock : RunClock} (h : LegalAmounts s) {r : MatchResult T F}
    (hr : r ∈ passOf columns settings clock s) {x : T} (hx : x ∈ pairIds r) :
    (s.silver.find? x).isSome = true := by
  rcases planOf_of_mem (candidateList columns (lookbackOf settings) clock.fetched s h) hr with
    ⟨a, ha, b, hb, hplan, _⟩
  rw [← legs_planOf hplan] at hx
  have hin : ∃ c ∈ fetchMatchCandidates columns (lookbackOf settings) clock.fetched s,
      c.id = x := by
    rcases List.mem_cons.mp hx with rfl | hx
    · exact ⟨a, ha, rfl⟩
    · exact ⟨b, hb, (List.mem_singleton.mp hx).symm⟩
  rcases hin with ⟨c, hc, rfl⟩
  rcases mem_fetch.mp hc with ⟨row, hrow, _, rfl⟩
  have hfound : s.silver.find? (toCandidate columns row).id = some row :=
    UniqueTable.find?_eq_some_iff.mpr ⟨hrow, rfl⟩
  rw [hfound]
  rfl

/-- What a result of a pass has been accepted for. -/
theorem counterpart_of_mem {candidates : List (TransactionCandidate T)}
    {config : MatchingConfig F} {r : MatchResult T F} (hr : r ∈ matchAll candidates config) :
    ∃ x ∈ candidates, ∃ m ∈ candidates, pairIds r = [x.id, m.id] ∧
      (ExactCounterpart config x m ∨ (FuzzyCounterpart config x m ∧
        config.probabilisticThreshold ≤ pairScore config x m)) := by
  rcases (mem_matchAll _ _ r).mp hr with ⟨pre, x, post, hacc⟩
  have hx : x ∈ candidates := by
    rw [hacc.split]
    exact List.mem_append_right _ List.mem_cons_self
  rcases acceptedAt_cases hacc with ⟨m, n, hm, hr⟩ | ⟨m, _, hm, hr⟩
  · refine ⟨x, hx, m, ((mem_availableAfter _ _ _ _).mp hm.1).1, ?_, Or.inl hm.2.1⟩
    rw [hr]
    rfl
  · refine ⟨x, hx, m, ((mem_availableAfter _ _ _ _).mp hm.1).1, ?_, Or.inr ⟨hm.2.1, hm.2.2.1⟩⟩
    rw [hr]
    rfl

/-- Whom a later pass can pair up. -/
theorem later_pass {t : Nat} {clock clock' : RunClock} (hs : PairsMatched s) (h : LegalAmounts s)
    {s' : Tables T} {between : List (Call T)}
    (hs' : s' = after (silverToGoldMatching columns settings t clock s h).1 between)
    (hclock : clock.fetched ≤ clock'.fetched) {r : MatchResult T F}
    (hr : r ∈ passOf columns settings clock' s') :
    (∃ x ∈ pairIds r, s.silver.find? x = none) ∨
      ∃ pre x post, fetchMatchCandidates columns (lookbackOf settings) clock.fetched s
          = pre ++ x :: post ∧ r.sourceTransactionId = x.id ∧
        ReportedAmbiguous (fetchMatchCandidates columns (lookbackOf settings) clock.fetched s)
          (MatchingConfig.fromSettings settings) pre x := by
  rcases counterpart_of_mem hr with ⟨x, hx, m, hm, hids, hgood⟩
  by_cases hnews : ∃ y ∈ pairIds r, s.silver.find? y = none
  · exact Or.inl hnews
  · -- The first run had both of them, and left both over.
    push Not at hnews
    have hold : ∀ y ∈ pairIds r, (s.silver.find? y).isSome = true := fun y hy =>
      Option.isSome_iff_ne_none.mpr (hnews y hy)
    rw [hids] at hold
    have hxleft := leftover_of_later hs h hs' hclock hx (hold _ List.mem_cons_self)
    have hmleft := leftover_of_later hs h hs' hclock hm
      (hold _ (List.mem_cons_of_mem _ List.mem_cons_self))
    rcases ambiguous_of_leftover hxleft hmleft hgood with ⟨pre, post, hsplit, hambiguous⟩
    exact Or.inr ⟨pre, x, post, hsplit, (List.cons.inj hids).1, hambiguous⟩

variable {silver : UniqueTable (SilverRow.id (T := T))} {calls between : List (Call T)}

theorem pairsMatched_of_after (hs : s = after (initial silver) calls) : PairsMatched s := by
  rw [hs]
  exact pairsMatched_after (pairsMatched_initial silver) calls

end Run

/-! ### An ambiguous credit -/

section Exhibit

/-- A transaction in Silver. -/
def saleRow (id : Nat) (transactionType : TransactionType) (amountNgn : ℚ) : SilverRow Nat where
  id := id
  transactionType := transactionType
  settlementStatus := .settled
  amountNgn := amountNgn
  fxRateApplied := none
  expectedSettlementAt := none

/-- The first credit cannot choose between the two debits, of which the second
    credit then takes one. -/
def tiedSilver : UniqueTable (SilverRow.id (T := Nat)) where
  rows := [saleRow 0 .credit 100, saleRow 1 .debit 99.08, saleRow 2 .debit 99.07,
    saleRow 3 .credit 99.08]
  unique := by decide

/-- All of it happened at once, the credits at one PSP and the debits at the other. -/
def sameInstant : EngineColumns Nat where
  pspName id := if id = 0 ∨ id = 3 then "paystack" else "flutterwave"
  initiatedAt _ := 0
  counterpartyNameTokens _ := none
  beneficiaryBankCode _ := none
  senderBankCode _ := none
  idLe a b := decide (a ≤ b)

def atZero : RunClock := { fetched := 0, persisted := 0, swept := 0 }

theorem legalAmounts_tied : LegalAmounts (initial tiedSilver) := by
  intro r hr
  have hkobo : ∀ r ∈ tiedSilver.rows, ∃ n ∈ [(100000000 : ℤ), 99080000, 99070000],
      r.amountNgn = n / 10 ^ 6 ∧ |n| < 10 ^ 20 ∧ 0 ≤ r.amountNgn := by
    decide +kernel
  rcases hkobo r hr with ⟨n, _, hamount, hbound, hnonneg⟩
  exact ⟨⟨n, hbound, hamount⟩, hnonneg⟩

/-- Rows that are in the order of the query come out as they are. -/
theorem fetch_of_ordered {T : Type} [DecidableEq T] {columns : EngineColumns T}
    {lookback now : ℤ} {s : Tables T}
    (h : s.silver.rows.Pairwise fun r r' => initiatedBefore columns r r' = true) :
    fetchMatchCandidates columns lookback now s
      = (s.silver.rows.filter (considered columns lookback now s)).map (toCandidate columns) := by
  rw [fetchMatchCandidates, List.mergeSort_of_pairwise (h.filter _)]

theorem passOf_tied :
    (passOf sameInstant usualSettings atZero (initial tiedSilver)).map pairIds = [[1, 3]] := by
  rw [passOf, fetch_of_ordered (by decide)]
  decide +kernel

theorem after_nil (s : Tables Nat) : s = after s [] := rfl

/-- The tables after the run. -/
def tiedOnce : Tables Nat :=
  (silverToGoldMatching sameInstant usualSettings 0 atZero (initial tiedSilver)
    legalAmounts_tied).1

theorem tiedOnce_silver : tiedOnce.silver = tiedSilver := by
  rcases Option.isSome_iff_exists.mp (flowPlans_isSome (candidateList sameInstant
    (lookbackOf usualSettings) atZero.fetched (initial tiedSilver) legalAmounts_tied)
    usualSettings) with ⟨plans, hplans⟩
  exact (silverToGoldMatching_tables sameInstant usualSettings 0 atZero legalAmounts_tied
    hplans).2.2.2

theorem legalAmounts_once : LegalAmounts tiedOnce := by
  rw [LegalAmounts, tiedOnce_silver]
  exact legalAmounts_tied

theorem tiedOnce_isMatched (x : Nat) : tiedOnce.isMatched x = decide (x = 1 ∨ x = 3) := by
  rcases silverToGoldMatching_spec sameInstant usualSettings 0 atZero
    (pairsMatched_of_after (after_nil _)) legalAmounts_tied with ⟨_, _, hmatched⟩
  have hids : (passOf sameInstant usualSettings atZero (initial tiedSilver)).flatMap pairIds
      = [1, 3] := by
    rw [List.flatMap_def, passOf_tied]
    rfl
  have hbefore : (initial tiedSilver).isMatched x = false := rfl
  rw [Bool.eq_iff_iff, decide_eq_true_eq, tiedOnce, hmatched, hids, hbefore]
  simp

end Exhibit

end GoldCalls

end MmrEngine
