import MmrEngine.Engine.MatchingErrors
import MmrEngine.Flows.MatchAll

/-!
# Matching What Was Left Over

Another pass over the transactions a pass has left unmatched.

A pass is not always a fixpoint. A transaction that could not choose between two
counterparts is passed over, and one of the two may be matched later in the same
pass; the next pass finds it with only one counterpart left. Nothing else can
happen: a search that ended without a tie has seen no counterpart that would
have been good enough, and there are only fewer of them later.

## Main definitions

* `leftover`: The candidates in no pair.

## Theorems

* `runMatching_quiet`: What a search without a result or a tie has seen.
* `quiet_of_subset`: Nor does it find anybody in a part of its pool.
* `second_run_needs_a_tie`: What the next pass can find.
-/

namespace MmrEngine

namespace Matching

section Quiet

variable {α F : Type} [DecidableEq α] [LinearOrder F] [Add F] [Sub F] [Mul F] [Div F] [ScoreArith F]
variable {config : MatchingConfig F} {source : TransactionCandidate α}
  {pool : List (TransactionCandidate α)}

/-- Tier 2 without a result or a tie has seen nobody who reaches the threshold. -/
theorem findProbabilisticMatch_quiet
    (hnone : (findProbabilisticMatch source pool config).matchedTransactionId = none)
    (hquiet : (findProbabilisticMatch source pool config).confidenceEvidence.ambiguous = false)
    {c : TransactionCandidate α} (hc : c ∈ pool) (hfuzzy : FuzzyCounterpart config source c) :
    pairScore config source c < config.probabilisticThreshold := by
  have hin := (mem_scoredCandidates config source pool _).mpr ⟨c, hc, hfuzzy, rfl⟩
  have hsorted : (scoredCandidates source pool config).Pairwise (fun a b => b.score ≤ a.score) :=
    Ranking.descending_pairwise Scored.score _
  rw [findProbabilisticMatch] at hnone hquiet
  cases hl : scoredCandidates source pool config with
  | nil =>
      rw [hl] at hin
      exact absurd hin List.not_mem_nil
  | cons best rest =>
      rw [hl] at hin hsorted hnone hquiet
      unfold decideScored at hnone hquiet
      by_cases hthr : best.score < config.probabilisticThreshold
      · -- Nobody has a better score than the first place.
        rcases List.mem_cons.mp hin with heq | hrest
        · rw [← heq] at hthr
          exact hthr
        · exact lt_of_le_of_lt ((List.pairwise_cons.mp hsorted).1 _ hrest) hthr
      · simp only [if_neg hthr] at hnone hquiet
        cases rest with
        | nil => cases hnone
        | cons runnerUp others =>
            simp only [] at hnone hquiet
            split at hnone
            · next hnear =>
                rw [if_pos hnear] at hquiet
                cases hquiet
            · cases hnone

/-- A search without a result or a tie has seen no exact counterpart, and no
    fuzzy one that reaches the threshold. -/
theorem runMatching_quiet (hnone : (runMatching source pool config).matchedTransactionId = none)
    (hquiet : (runMatching source pool config).confidenceEvidence.ambiguous = false)
    {c : TransactionCandidate α} (hc : c ∈ pool) :
    ¬ ExactCounterpart config source c ∧ (FuzzyCounterpart config source c →
      pairScore config source c < config.probabilisticThreshold) := by
  rcases runMatching_cases config source pool with
    ⟨m, n, _, hr⟩ | ⟨m, _, _, hr⟩ | ⟨evidence, hev, hr⟩ | ⟨hno, _⟩
  · rw [hr] at hnone
    cases hnone
  · rw [hr] at hnone
    cases hnone
  · rw [hr] at hquiet
    exact absurd hquiet (by rw [show (unmatchedResult source .unmatched evidence
      : MatchResult α F).confidenceEvidence = evidence from rfl, hev]; exact Bool.noConfusion)
  · refine ⟨hno c hc, ?_⟩
    -- Tier 1 has passed the search on, so this is what tier 2 found.
    have hreached := runMatching_of_nobody (findPrimaryMatch_of_none pool hno)
    rw [hreached] at hnone hquiet
    split at hnone
    · next hsome =>
        rw [hnone] at hsome
        cases hsome
    · next hnobody =>
        rw [if_neg hnobody] at hquiet
        rw [Bool.not_eq_true, Option.isSome_eq_false_iff, Option.isNone_iff_eq_none] at hnobody
        exact findProbabilisticMatch_quiet hnobody hquiet hc

/-- Nor does such a search find anybody in a part of its pool. -/
theorem quiet_of_subset (hnone : (runMatching source pool config).matchedTransactionId = none)
    (hquiet : (runMatching source pool config).confidenceEvidence.ambiguous = false)
    {pool' : List (TransactionCandidate α)} (hsub : pool' ⊆ pool) :
    (runMatching source pool' config).matchedTransactionId = none := by
  rcases runMatching_cases config source pool' with
    ⟨m, n, hm, _⟩ | ⟨m, _, hm, _⟩ | ⟨evidence, _, hr⟩ | ⟨_, hr⟩
  · exact absurd hm.2.1 (runMatching_quiet hnone hquiet (hsub hm.1)).1
  · have hlow := (runMatching_quiet hnone hquiet (hsub hm.1)).2 hm.2.1
    exact absurd hm.2.2.1 (not_le.mpr hlow)
  · rw [hr]
    rfl
  · rw [hr]
    rfl

end Quiet

section Rerun

variable {α F : Type} [DecidableEq α] [LinearOrder F] [Add F] [Sub F] [Mul F] [Div F] [ScoreArith F]
variable (candidates : List (TransactionCandidate α)) (config : MatchingConfig F)

/-- The candidates that are in no pair of a pass. -/
def leftover : List (TransactionCandidate α) :=
  candidates.filter fun c => c.id ∉ (matchAll candidates config).flatMap pairIds

/-- What is left over is what is available in the end. -/
theorem leftover_eq : leftover candidates config
    = Greedy.available (search config) candidates
        (Greedy.pass (search config) candidates candidates).used := by
  have hused := Greedy.used_eq (search config) candidates (search_honest config) candidates
  have hpairs : (matchAll candidates config).flatMap pairIds
      = (Greedy.pass (search config) candidates candidates).used := by
    rw [hused, matchAll, stateAfter_eq_pass]
    rfl
  rw [leftover, hpairs]
  rfl

/-- A pass over what a pass has left over finds a pair only for a transaction
    whose search was ambiguous the first time, and nothing at all where no search
    was. -/
theorem second_run_needs_a_tie :
    (∀ r ∈ matchAll (leftover candidates config) config, ∃ pre x post,
        candidates = pre ++ x :: post ∧ r.sourceTransactionId = x.id ∧
        ReportedAmbiguous candidates config pre x) ∧
      ((∀ pre x post, candidates = pre ++ x :: post →
          ¬ ReportedAmbiguous candidates config pre x) →
        matchAll (leftover candidates config) config = []) := by
  have hall : ∀ r ∈ matchAll (leftover candidates config) config, ∃ pre x post,
      candidates = pre ++ x :: post ∧ r.sourceTransactionId = x.id ∧
      ReportedAmbiguous candidates config pre x := by
    intro r hr
    rw [matchAll, stateAfter_eq_pass, leftover_eq] at hr
    rcases Greedy.second_pass_pick (search config) candidates hr with
      ⟨pre, x, post, hsplit, hfree, hnone, pool, hsub, hsearch, k, hk⟩
    have hnone' : (runMatching x (availableAfter candidates config pre)
        config).matchedTransactionId = none := by
      rw [availableAfter_eq]
      exact hnone
    rw [← availableAfter_eq] at hsub
    refine ⟨pre, x, post, hsplit, ?_, ?_, hnone', ?_⟩
    · rw [hsearch]
      exact runMatching_source config x pool
    · rw [stateAfter_eq_pass]
      exact hfree
    · -- Without a tie nobody would be found in the smaller pool either.
      by_contra hquiet
      rw [Bool.not_eq_true] at hquiet
      have hstill := quiet_of_subset hnone' hquiet hsub
      have hfound : (runMatching x pool config).matchedTransactionId = some k := by
        rw [hsearch] at hk
        exact hk
      rw [hstill] at hfound
      cases hfound
  refine ⟨hall, fun hquiet => ?_⟩
  rw [List.eq_nil_iff_forall_not_mem]
  intro r hr
  rcases hall r hr with ⟨pre, x, post, hsplit, _, hambiguous⟩
  exact hquiet pre x post hsplit hambiguous

end Rerun

/-- A transaction of an amount at instant zero. -/
def amountOf (id : Nat) (pspName : String) (transactionType : TransactionType) (amountNgn : ℚ) :
    TransactionCandidate Nat where
  id := id
  pspName := pspName
  transactionType := transactionType
  amountNgn := amountNgn
  initiatedAt := 0

/-- The first credit cannot choose between the two debits; the first debit is
    taken by its exact counterpart; for the second one the credit is just too far
    away, as the delta is relative to its own, smaller amount. -/
def tiedCredit : List (TransactionCandidate Nat) :=
  [amountOf 0 "paystack" .credit 100, amountOf 1 "flutterwave" .debit 99.08,
    amountOf 2 "flutterwave" .debit 99.07, amountOf 3 "paystack" .credit 99.08]

theorem second_run_finds_a_pair :
    (tiedCredit.map TransactionCandidate.id).Nodup ∧
      (tiedCredit.map TransactionCandidate.initiatedAt).Pairwise (· ≤ ·) ∧
      (matchAll (leftover tiedCredit (defaultConfig ℚ)) (defaultConfig ℚ)).map
        (fun r => (r.sourceTransactionId, r.matchedTransactionId)) = [(0, some 2)] := by
  decide +kernel

end Matching

end MmrEngine
