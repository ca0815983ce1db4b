import MmrEngine.Engine.MatchingErrors
import Mathlib.Tactic.NormNum

/-!
# The Two-Tier Rule

What the search decides, in terms of the candidates alone.

Tier 1 matches the exact counterpart that is strictly closest in time, and if
there are exact counterparts but no such one the search ends. Tier 2 matches
the fuzzy counterpart that reaches the threshold and beats every other by the
margin. `runMatching_rule` is this with both directions: a tier that does not
match has no candidate that would win by the rule. For that direction the
candidates have to be different and the margin positive, which is where
`runMatching_cases` leaves off.

A rule about the candidates does not know their order, and neither does the
result, but for one thing: an ambiguous result lists the first few candidates
it could not choose between, and equal ones are listed in the order they came.
`withoutIds` forgets that list.

## Main definitions

* `MatchResult.withoutIds`: A result up to the candidates listed in its
  evidence.

## Theorems

* `findPrimaryMatch_rule`, `findProbabilisticMatch_rule`: What a tier decides.
* `runMatching_rule`: What the search decides.
* `runMatching_perm`: The order of the candidates does not matter.
* `run_matching_decides`: All of it, with the division by zero.
-/

namespace MmrEngine

namespace Matching

section Order

variable {α F : Type}

/-- The evidence without the candidates it lists. -/
def MatchEvidence.withoutIds : MatchEvidence α F → MatchEvidence α F
  | .tied reason _ => .tied reason []
  | .nearTie reason bestScore runnerUpScore _ => .nearTie reason bestScore runnerUpScore []
  | evidence => evidence

def MatchResult.withoutIds (r : MatchResult α F) : MatchResult α F :=
  { r with confidenceEvidence := r.confidenceEvidence.withoutIds }

@[simp] theorem withoutIds_ambiguous (evidence : MatchEvidence α F) :
    evidence.withoutIds.ambiguous = evidence.ambiguous := by
  cases evidence <;> rfl

end Order

section Rule

variable {α : Type} [DecidableEq α]
variable (config : MatchingConfig ℚ) (source : TransactionCandidate α)
  (pool : List (TransactionCandidate α))

omit [DecidableEq α] in
/-- A score of zero is the only amount score that is not positive. -/
theorem amountScore_nonneg (c : TransactionCandidate α) : 0 ≤ amountScore source c config := by
  unfold amountScore
  simp only [ofRat_rat]
  split_ifs with h1 h2 h3
  · norm_num
  · have hle : amountDeltaPct source c / config.amountTolerancePct ≤ 1 :=
      (div_le_one h3.1).mpr h3.2
    linarith
  · norm_num
  · norm_num

theorem fuzzyCounterpart_iff (c : TransactionCandidate α) :
    FuzzyCounterpart config source c ↔
      eligible source c = true ∧
        timeDeltaSeconds source c ≤ totalSeconds config.probabilisticTimeWindow ∧
        0 < amountScore source c config := by
  unfold FuzzyCounterpart
  rw [ofRat_rat, lt_iff_le_and_ne, ne_comm]
  simp [amountScore_nonneg config source c]

variable {config source pool}

theorem closestExact_unique {m m' : TransactionCandidate α}
    (h : ClosestExact config source pool m) (h' : ClosestExact config source pool m') : m = m' := by
  by_contra hne
  have hlt := h.2.2 m' h'.1 h'.2.1 (Ne.symm hne)
  have hlt' := h'.2.2 m h.1 h.2.1 hne
  exact lt_asymm hlt hlt'

theorem bestFuzzy_unique (hmargin : 0 < config.ambiguityMargin) {m m' : TransactionCandidate α}
    (h : BestFuzzy config source pool m) (h' : BestFuzzy config source pool m') : m = m' := by
  by_contra hne
  have hgap := h.2.2.2 m' h'.1 h'.2.1 (Ne.symm hne)
  have hgap' := h'.2.2.2 m h.1 h.2.1 hne
  linarith

variable (config source) in
/-- The candidates of tier 1 are different if the pool's are. -/
theorem nodup_exactCandidates (hpool : pool.Nodup) :
    (exactCandidates source pool config).Nodup := by
  unfold exactCandidates
  refine List.Nodup.filter _ ?_
  refine (List.perm_insertionSort _ _).nodup_iff.mpr ?_
  refine List.Nodup.map ?_ (hpool.filter _)
  intro a b hab
  exact (Prod.mk.inj hab).2

variable (config source) in
theorem nodup_scoredCandidates (hpool : pool.Nodup) :
    ((scoredCandidates source pool config).map Scored.candidate).Nodup := by
  have hsub : (((pool.filter fun c => eligible source c &&
      timeDeltaSeconds source c ≤ totalSeconds config.probabilisticTimeWindow).map
      fun c => scoredCandidate source c config).map Scored.candidate).Nodup := by
    rw [List.map_map]
    refine List.Nodup.map ?_ (hpool.filter _)
    exact fun a b hab => hab
  unfold scoredCandidates Ranking.descending
  refine ((List.perm_insertionSort _ _).map Scored.candidate).nodup_iff.mpr ?_
  exact hsub.sublist (List.filter_sublist.map _)

/-- Where the first two exact counterparts are equally close nobody is strictly
    closest. -/
theorem not_closestExact_of_tie (hpool : pool.Nodup) {first second : ℚ × TransactionCandidate α}
    {others : List (ℚ × TransactionCandidate α)}
    (hl : exactCandidates source pool config = first :: second :: others)
    (htie : second.1 = first.1) (m : TransactionCandidate α) :
    ¬ ClosestExact config source pool m := by
  intro hm
  have hmem := mem_exactCandidates config source pool
  have hsorted : (exactCandidates source pool config).Pairwise (fun a b => a.1 ≤ b.1) :=
    (Ranking.ascending_pairwise Prod.fst _).filter _
  have hnodup := nodup_exactCandidates config source hpool
  rw [hl] at hmem hsorted hnodup
  have hfirst := (hmem first).mp List.mem_cons_self
  have hsecond := (hmem second).mp (List.mem_cons_of_mem _ List.mem_cons_self)
  have hclosest : first.1 ≤ timeDeltaSeconds source m := by
    have hin := (hmem (timeDeltaSeconds source m, m)).mpr ⟨hm.1, hm.2.1, rfl⟩
    rcases List.mem_cons.mp hin with heq | hrest
    · exact le_of_eq (congrArg Prod.fst heq).symm
    · have hbehind := (List.pairwise_cons.mp hsorted).1 _ hrest
      exact hbehind
  by_cases hbest : first.2 = m
  · -- The closest is the first place, and the second is as close.
    have hne : second.2 ≠ m := by
      intro heq
      have hpair : second = first := Prod.ext htie (by rw [heq, hbest])
      rw [← hpair] at hnodup
      exact (List.nodup_cons.mp hnodup).1 List.mem_cons_self
    have hlt := hm.2.2 second.2 hsecond.1 hsecond.2.1 hne
    rw [← hsecond.2.2, htie] at hlt
    exact not_lt.mpr hclosest hlt
  · -- The first place is as close as anybody.
    have hlt := hm.2.2 first.2 hfirst.1 hfirst.2.1 hbest
    rw [← hfirst.2.2] at hlt
    exact not_lt.mpr hclosest hlt

variable (config source) in
/-- Tier 1: nobody, the strictly closest, or a tie that nobody wins. -/
theorem findPrimaryMatch_rule (hpool : pool.Nodup) :
    ((∀ c ∈ pool, ¬ ExactCounterpart config source c) ∧
        findPrimaryMatch source pool config = unmatchedResult source .exactPrimary .empty) ∨
      (∃ m n, ClosestExact config source pool m ∧
        findPrimaryMatch source pool config
          = exactResult source m (timeDeltaSeconds source m) n) ∨
      ((∃ c ∈ pool, ExactCounterpart config source c) ∧
        (¬ ∃ m, ClosestExact config source pool m) ∧
        ∃ evidence : MatchEvidence α ℚ, evidence.ambiguous = true ∧
          findPrimaryMatch source pool config
            = unmatchedResult source .exactPrimary evidence) := by
  rcases findPrimaryMatch_cases config source pool with hnone | hclosest | ⟨evidence, hev, hr⟩
  · exact Or.inl hnone
  · exact Or.inr (Or.inl hclosest)
  have hmem := mem_exactCandidates config source pool
  refine Or.inr (Or.inr ?_)
  cases hl : exactCandidates source pool config with
  | nil =>
      -- Without candidates there is nothing to be ambiguous about.
      rw [findPrimaryMatch, hl] at hr
      have hempty : (MatchEvidence.empty : MatchEvidence α ℚ) = evidence :=
        congrArg MatchResult.confidenceEvidence hr
      rw [← hempty] at hev
      cases hev
  | cons first rest =>
      rw [hl] at hmem
      have hfirst := (hmem first).mp List.mem_cons_self
      by_cases htie : rest.head?.map Prod.fst = some first.1
      · refine ⟨⟨first.2, hfirst.1, hfirst.2.1⟩, ?_, evidence, hev, hr⟩
        rintro ⟨m, hm⟩
        cases rest with
        | nil => cases htie
        | cons second others =>
            exact not_closestExact_of_tie hpool hl (Option.some.inj htie) m hm
      · simp only [findPrimaryMatch, hl, if_neg htie] at hr
        have hsome : some first.2.id = none := congrArg MatchResult.matchedTransactionId hr
        cases hsome

/-- The candidate that wins by the rule has the best score. -/
theorem score_le_of_bestFuzzy {best : Scored α ℚ} {rest : List (Scored α ℚ)}
    (hl : scoredCandidates source pool config = best :: rest) {m : TransactionCandidate α}
    (hm : BestFuzzy config source pool m) : pairScore config source m ≤ best.score := by
  have hin := (mem_scoredCandidates config source pool _).mpr ⟨m, hm.1, hm.2.1, rfl⟩
  have hsorted : (scoredCandidates source pool config).Pairwise (fun a b => b.score ≤ a.score) :=
    Ranking.descending_pairwise Scored.score _
  rw [hl] at hin hsorted
  rcases List.mem_cons.mp hin with heq | hrest
  · exact le_of_eq (congrArg Scored.score heq)
  · exact (List.pairwise_cons.mp hsorted).1 _ hrest

/-- Where the runner-up is within the margin nobody wins. -/
theorem not_bestFuzzy_of_nearTie (hmargin : 0 < config.ambiguityMargin) (hpool : pool.Nodup)
    {best runnerUp : Scored α ℚ} {others : List (Scored α ℚ)}
    (hl : scoredCandidates source pool config = best :: runnerUp :: others)
    (hnear : best.score - runnerUp.score < config.ambiguityMargin) (m : TransactionCandidate α) :
    ¬ BestFuzzy config source pool m := by
  intro hm
  have hbest := score_le_of_bestFuzzy hl hm
  have hmem := mem_scoredCandidates config source pool
  have hnodup := nodup_scoredCandidates config source hpool
  rw [hl] at hmem hnodup
  rcases (hmem best).mp List.mem_cons_self with ⟨b, hb, hbf, hbeq⟩
  rcases (hmem runnerUp).mp (List.mem_cons_of_mem _ List.mem_cons_self) with ⟨c, hc, hcf, hceq⟩
  have hbscore : best.score = pairScore config source b := congrArg Scored.score hbeq
  have hcscore : runnerUp.score = pairScore config source c := congrArg Scored.score hceq
  by_cases hbm : b = m
  · -- The winner is the first place: the runner-up is too near.
    have hcm : c ≠ m := by
      intro heq
      have hsame : best.candidate = runnerUp.candidate := by
        rw [hbeq, hceq, hbm, heq]
      rw [List.map_cons, List.nodup_cons, List.map_cons] at hnodup
      exact hnodup.1 (by rw [hsame]; exact List.mem_cons_self)
    have hgap := hm.2.2.2 c hc hcf hcm
    rw [hbscore, hbm, hcscore] at hnear
    exact absurd hgap (not_le.mpr hnear)
  · -- The winner is another: the first place is ahead of it.
    have hgap := hm.2.2.2 b hb hbf hbm
    rw [hbscore] at hbest
    linarith

/-- A tier 2 that matches nobody has nobody who wins. -/
theorem not_bestFuzzy_of_unmatched (hmargin : 0 < config.ambiguityMargin) (hpool : pool.Nodup)
    (hr : (findProbabilisticMatch source pool config).matchedTransactionId = none)
    (m : TransactionCandidate α) : ¬ BestFuzzy config source pool m := by
  intro hm
  rw [findProbabilisticMatch] at hr
  cases hl : scoredCandidates source pool config with
  | nil =>
      have hin := (mem_scoredCandidates config source pool _).mpr ⟨m, hm.1, hm.2.1, rfl⟩
      rw [hl] at hin
      exact List.not_mem_nil hin
  | cons best rest =>
      have hbest := score_le_of_bestFuzzy hl hm
      rw [hl] at hr
      unfold decideScored at hr
      by_cases hthr : best.score < config.probabilisticThreshold
      · exact absurd (hm.2.2.1.trans hbest) (not_le.mpr hthr)
      simp only [if_neg hthr] at hr
      cases rest with
      | nil => cases hr
      | cons runnerUp others =>
          by_cases hnear : best.score - runnerUp.score < config.ambiguityMargin
          · -- Only a near tie leaves the first place unmatched.
            exact not_bestFuzzy_of_nearTie hmargin hpool hl hnear m hm
          · simp only [if_neg hnear] at hr
            cases hr

variable (config source) in
/-- Tier 2: the candidate that wins by the rule, or nobody does. -/
theorem findProbabilisticMatch_rule (hmargin : 0 < config.ambiguityMargin) (hpool : pool.Nodup) :
    (∃ m, BestFuzzy config source pool m ∧
        findProbabilisticMatch source pool config
          = probabilisticResult source (scoredCandidate source m config) config) ∨
      ((¬ ∃ m, BestFuzzy config source pool m) ∧
        ∃ evidence, findProbabilisticMatch source pool config
          = unmatchedResult source .probabilisticSecondary evidence) := by
  rcases findProbabilisticMatch_cases config source pool with hr | ⟨m, hm, hr⟩ | ⟨evidence, hev, hr⟩
  · refine Or.inr ⟨?_, .empty, hr⟩
    rintro ⟨m, hm⟩
    exact not_bestFuzzy_of_unmatched hmargin hpool (by rw [hr]; rfl) m hm
  · exact Or.inl ⟨m, hm, hr⟩
  · refine Or.inr ⟨?_, evidence, hr⟩
    rintro ⟨m, hm⟩
    exact not_bestFuzzy_of_unmatched hmargin hpool (by rw [hr]; rfl) m hm

variable (config source) in
/-- The search, in the four ways it can end. -/
theorem runMatching_rule (hmargin : 0 < config.ambiguityMargin) (hpool : pool.Nodup) :
    (∃ m n, ClosestExact config source pool m ∧
        runMatching source pool config = exactResult source m (timeDeltaSeconds source m) n) ∨
      ((∃ c ∈ pool, ExactCounterpart config source c) ∧
        (¬ ∃ m, ClosestExact config source pool m) ∧
        ∃ evidence : MatchEvidence α ℚ, evidence.ambiguous = true ∧
          runMatching source pool config = unmatchedResult source .unmatched evidence) ∨
      ((∀ c ∈ pool, ¬ ExactCounterpart config source c) ∧
        ∃ m, BestFuzzy config source pool m ∧
          runMatching source pool config
            = probabilisticResult source (scoredCandidate source m config) config) ∨
      ((∀ c ∈ pool, ¬ ExactCounterpart config source c) ∧
        (¬ ∃ m, BestFuzzy config source pool m) ∧
        ∃ evidence, runMatching source pool config
          = unmatchedResult source .unmatched evidence) := by
  rcases findPrimaryMatch_rule config source hpool with
    ⟨hnone, hr⟩ | ⟨m, n, hm, hr⟩ | ⟨hsome, hnobody, evidence, hev, hr⟩
  · -- Tier 1 has nobody, so tier 2 decides.
    have hreached := runMatching_of_nobody hr
    rcases findProbabilisticMatch_rule config source hmargin hpool with
      ⟨m, hm, hp⟩ | ⟨hnobody, evidence, hp⟩
    · refine Or.inr (Or.inr (Or.inl ⟨hnone, m, hm, ?_⟩))
      rw [hreached, hp]
      rfl
    · refine Or.inr (Or.inr (Or.inr ⟨hnone, hnobody, evidence, ?_⟩))
      rw [hreached, hp]
      rfl
  · exact Or.inl ⟨m, n, hm, runMatching_of_closest hr⟩
  · exact Or.inr (Or.inl ⟨hsome, hnobody, evidence, hev, runMatching_of_tie hev hr⟩)

variable (config source) in
/-- Tier 1 decides the same, whatever the order of the candidates. -/
theorem findPrimaryMatch_perm {pool' : List (TransactionCandidate α)} (h : pool.Perm pool') :
    (findPrimaryMatch source pool config).withoutIds
      = (findPrimaryMatch source pool' config).withoutIds := by
  have hperm : (exactCandidates source pool config).Perm (exactCandidates source pool' config) := by
    unfold exactCandidates
    exact (Ranking.ascending_perm ((h.filter _).map _)).filter _
  have hsorted : ∀ p : List (TransactionCandidate α),
      (exactCandidates source p config).Pairwise (fun a b => a.1 ≤ b.1) :=
    fun p => (Ranking.ascending_pairwise Prod.fst _).filter _
  have hkeys := Ranking.keys_eq_of_perm hperm (hsorted pool) (hsorted pool')
  have hs := hsorted pool
  unfold findPrimaryMatch
  cases hl : exactCandidates source pool config with
  | nil =>
      rw [hl, List.nil_perm] at hperm
      rw [hperm]
  | cons first rest =>
      cases hl' : exactCandidates source pool' config with
      | nil => rw [hl, hl'] at hperm; exact absurd hperm.length_eq (by simp)
      | cons first' rest' =>
          rw [hl, hl'] at hperm hkeys
          rw [hl] at hs
          rw [List.map_cons, List.map_cons, List.cons.injEq] at hkeys
          have hhead : rest'.head?.map Prod.fst = rest.head?.map Prod.fst := by
            rw [← List.head?_map, ← List.head?_map, hkeys.2]
          have hlength : rest'.length = rest.length := by
            have hlen := hperm.length_eq
            simp only [List.length_cons] at hlen
            omega
          simp only [hhead, hlength, ← hkeys.1]
          by_cases htie : rest.head?.map Prod.fst = some first.1
          · -- A tie names nobody, and the ids of the tied are left out.
            simp only [if_pos htie]
            rfl
          · -- The first place is strictly ahead, so it is the same candidate.
            have hfirst := Ranking.first_eq_of_perm hperm hkeys.1
              fun x hx => ne_of_lt (Ranking.first_lt_of_no_tie hs htie hx)
            simp only [if_neg htie]
            rw [hfirst]

variable (config source) in
/-- Tier 2 decides the same, whatever the order of the candidates. -/
theorem findProbabilisticMatch_perm (hmargin : 0 < config.ambiguityMargin)
    {pool' : List (TransactionCandidate α)} (h : pool.Perm pool') :
    (findProbabilisticMatch source pool config).withoutIds
      = (findProbabilisticMatch source pool' config).withoutIds := by
  have hperm : (scoredCandidates source pool config).Perm
      (scoredCandidates source pool' config) := by
    unfold scoredCandidates
    exact Ranking.descending_perm (((h.filter _).map _).filter _)
  have hsorted : ∀ p : List (TransactionCandidate α),
      (scoredCandidates source p config).Pairwise (fun a b => b.score ≤ a.score) :=
    fun p => Ranking.descending_pairwise Scored.score _
  have hkeys := Ranking.keys_eq_of_perm (r := (· ≥ ·)) hperm (hsorted pool) (hsorted pool')
  have hs := hsorted pool
  rw [findProbabilisticMatch, findProbabilisticMatch]
  cases hl : scoredCandidates source pool config with
  | nil =>
      rw [hl, List.nil_perm] at hperm
      rw [hperm]
  | cons best rest =>
      cases hl' : scoredCandidates source pool' config with
      | nil => rw [hl, hl'] at hperm; exact absurd hperm.length_eq (by simp)
      | cons best' rest' =>
          rw [hl, hl'] at hperm hkeys
          rw [hl] at hs
          rw [List.map_cons, List.map_cons, List.cons.injEq] at hkeys
          unfold decideScored
          by_cases hthr : best.score < config.probabilisticThreshold
          · simp only [← hkeys.1, if_pos hthr]
          simp only [← hkeys.1, if_neg hthr]
          cases rest with
          | nil =>
              have hrest' : rest' = [] := by simpa using hkeys.2.symm
              subst hrest'
              have hbest : best = best' := by simpa using hperm
              rw [hbest]
          | cons runnerUp others =>
              cases rest' with
              | nil => exact absurd hkeys.2 (by simp)
              | cons runnerUp' others' =>
                  rw [List.map_cons, List.map_cons, List.cons.injEq] at hkeys
                  by_cases hnear : best.score - runnerUp.score < config.ambiguityMargin
                  · simp only [← hkeys.2.1, if_pos hnear]
                    rfl
                  · -- The best score is ahead by a positive margin.
                    have halone : ∀ x ∈ runnerUp :: others, best.score ≠ x.score := by
                      intro x hx heq
                      have hle := Ranking.le_runner_up hs hx
                      linarith
                    have hbest := Ranking.first_eq_of_perm hperm hkeys.1 halone
                    simp only [← hkeys.2.1, if_neg hnear]
                    rw [hbest]

/-- The search decides the same, whatever the order of the candidates. -/
theorem runMatching_perm (hmargin : 0 < config.ambiguityMargin)
    {pool' : List (TransactionCandidate α)} (h : pool.Perm pool') :
    (runMatching source pool config).withoutIds = (runMatching source pool' config).withoutIds := by
  have hprimary := findPrimaryMatch_perm config source h
  have hprob := findProbabilisticMatch_perm config source hmargin h
  have hmatched := congrArg MatchResult.matchedTransactionId hprimary
  have hambiguous := congrArg (fun r => r.confidenceEvidence.ambiguous) hprimary
  have hmatched' := congrArg MatchResult.matchedTransactionId hprob
  simp only [MatchResult.withoutIds, withoutIds_ambiguous] at hmatched hambiguous hmatched'
  have hevidence := congrArg MatchResult.confidenceEvidence hprimary
  have hevidence' := congrArg MatchResult.confidenceEvidence hprob
  unfold runMatching
  simp only [hmatched, hambiguous, hmatched']
  by_cases hfound : (findPrimaryMatch source pool' config).matchedTransactionId.isSome
  · simpa only [if_pos hfound] using hprimary
  simp only [if_neg hfound]
  by_cases hloud : (findPrimaryMatch source pool' config).confidenceEvidence.ambiguous
  · simp only [if_pos hloud, unmatchedResult, MatchResult.withoutIds]
    rw [show (findPrimaryMatch source pool config).confidenceEvidence.withoutIds
      = (findPrimaryMatch source pool' config).confidenceEvidence.withoutIds from hevidence]
  simp only [if_neg hloud]
  by_cases hfound' : (findProbabilisticMatch source pool' config).matchedTransactionId.isSome
  · simpa only [if_pos hfound'] using hprob
  · simp only [if_neg hfound', unmatchedResult, MatchResult.withoutIds]
    rw [show (findProbabilisticMatch source pool config).confidenceEvidence.withoutIds
      = (findProbabilisticMatch source pool' config).confidenceEvidence.withoutIds from hevidence']

theorem dividesByZero_perm {pool' : List (TransactionCandidate α)} (h : pool.Perm pool') :
    DividesByZero config source pool ↔ DividesByZero config source pool' := by
  unfold DividesByZero
  simp only [h.mem_iff]

end Rule

section Outcome

variable {α : Type} [DecidableEq α] {config : MatchingConfig ℚ} {source : TransactionCandidate α}
  {pool : List (TransactionCandidate α)}

/-- With exact counterparts, tier 1 has the last word. -/
theorem exact_tier (hmargin : 0 < config.ambiguityMargin) (hpool : pool.Nodup)
    (hsame : ∀ m ∈ pool, ∀ m' ∈ pool, m.id = m'.id → m = m')
    (hsome : ∃ c ∈ pool, ExactCounterpart config source c) :
    (∀ m ∈ pool, (runMatching source pool config).strategy = .exactPrimary ∧
        (runMatching source pool config).matchedTransactionId = some m.id ↔
        ClosestExact config source pool m) ∧
      (runMatching source pool config).strategy ≠ .probabilisticSecondary ∧
      ((¬ ∃ m, ClosestExact config source pool m) →
        (runMatching source pool config).strategy = .unmatched ∧
        (runMatching source pool config).matchedTransactionId = none ∧
        (runMatching source pool config).confidenceEvidence.ambiguous = true) := by
  rcases runMatching_rule config source hmargin hpool with
    ⟨w, n, hw, hr⟩ | ⟨-, hnobody, evidence, hev, hr⟩ | ⟨hnone, -⟩ | ⟨hnone, -⟩
  · -- Tier 1 has found its candidate.
    rw [hr]
    refine ⟨fun m hm => ⟨?_, ?_⟩, by simp [exactResult], fun h => absurd ⟨w, hw⟩ h⟩
    · rintro ⟨-, hid⟩
      rw [hsame m hm w hw.1 (Option.some.inj hid).symm]
      exact hw
    · intro hwins
      rw [closestExact_unique hwins hw]
      exact ⟨rfl, rfl⟩
  · -- It has found several as close as the closest.
    rw [hr]
    refine ⟨fun m hm => ⟨?_, fun hwins => absurd ⟨m, hwins⟩ hnobody⟩, by simp [unmatchedResult],
      fun _ => ⟨rfl, rfl, hev⟩⟩
    rintro ⟨-, hid⟩
    cases hid
  · -- Tier 2 is reached only where there is no exact counterpart.
    rcases hsome with ⟨c, hc, hex⟩
    exact absurd hex (hnone c hc)
  · rcases hsome with ⟨c, hc, hex⟩
    exact absurd hex (hnone c hc)

/-- Without exact counterparts tier 2 decides. -/
theorem fuzzy_tier (hmargin : 0 < config.ambiguityMargin) (hpool : pool.Nodup)
    (hsame : ∀ m ∈ pool, ∀ m' ∈ pool, m.id = m'.id → m = m')
    (hnone : ∀ c ∈ pool, ¬ ExactCounterpart config source c) :
    (∀ m ∈ pool, (runMatching source pool config).strategy = .probabilisticSecondary ∧
        (runMatching source pool config).matchedTransactionId = some m.id ↔
        BestFuzzy config source pool m) ∧
      ((¬ ∃ m, BestFuzzy config source pool m) →
        (runMatching source pool config).strategy = .unmatched ∧
        (runMatching source pool config).matchedTransactionId = none) := by
  rcases runMatching_rule config source hmargin hpool with
    ⟨w, -, hw, -⟩ | ⟨⟨c, hc, hex⟩, -⟩ | ⟨-, w, hw, hr⟩ | ⟨-, hnobody, evidence, hr⟩
  · exact absurd hw.2.1 (hnone w hw.1)
  · exact absurd hex (hnone c hc)
  · -- Tier 2 has found its candidate.
    rw [hr]
    refine ⟨fun m hm => ⟨?_, ?_⟩, fun h => absurd ⟨w, hw⟩ h⟩
    · rintro ⟨-, hid⟩
      rw [hsame m hm w hw.1 (Option.some.inj hid).symm]
      exact hw
    · intro hwins
      rw [bestFuzzy_unique hmargin hwins hw]
      exact ⟨rfl, rfl⟩
  · -- Nobody reaches the threshold, or two are too near each other.
    rw [hr]
    refine ⟨fun m hm => ⟨?_, fun hwins => absurd ⟨m, hwins⟩ hnobody⟩, fun _ => ⟨rfl, rfl⟩⟩
    rintro ⟨-, hid⟩
    cases hid

end Outcome

section TwoTiers

variable {α : Type} [DecidableEq α]

/-- For every source, all candidates with distinct ids and every configuration
    with a positive ambiguity margin, in exact arithmetic.

    The search raises exactly when it divides by zero. Otherwise, with exact
    counterparts, it matches by `exactPrimary` precisely the one strictly
    closest in time, and is unmatched and ambiguous without one, never trying
    tier 2. Without exact counterparts it matches by `probabilisticSecondary`
    precisely the fuzzy counterpart that reaches the threshold and beats every
    other by the margin, and is unmatched without one. The order of the
    candidates changes nothing but the list of candidates in ambiguous
    evidence. -/
theorem run_matching_decides (config : MatchingConfig ℚ) (hmargin : 0 < config.ambiguityMargin)
    (source : TransactionCandidate α) (pool : List (TransactionCandidate α))
    (hids : (pool.map TransactionCandidate.id).Nodup) :
    (runMatchingChecked source pool config = .error .zeroDivision ↔
        config.probabilisticTimeWindow = 0 ∧ (∀ c ∈ pool, ¬ ExactCounterpart config source c) ∧
          ∃ c ∈ pool, eligible source c = true ∧ c.initiatedAt = source.initiatedAt) ∧
      (∀ r, runMatchingChecked source pool config = .ok r →
        ((∃ c ∈ pool, ExactCounterpart config source c) →
          (∀ m ∈ pool, r.strategy = .exactPrimary ∧ r.matchedTransactionId = some m.id ↔
            ClosestExact config source pool m) ∧
          r.strategy ≠ .probabilisticSecondary ∧
          ((¬ ∃ m, ClosestExact config source pool m) →
            r.strategy = .unmatched ∧ r.matchedTransactionId = none ∧
              r.confidenceEvidence.ambiguous = true)) ∧
        ((∀ c ∈ pool, ¬ ExactCounterpart config source c) →
          (∀ m ∈ pool, r.strategy = .probabilisticSecondary ∧ r.matchedTransactionId = some m.id ↔
            BestFuzzy config source pool m) ∧
          ((¬ ∃ m, BestFuzzy config source pool m) →
            r.strategy = .unmatched ∧ r.matchedTransactionId = none))) ∧
      (∀ c, FuzzyCounterpart config source c ↔ eligible source c = true ∧
        timeDeltaSeconds source c ≤ totalSeconds config.probabilisticTimeWindow ∧
        0 < amountScore source c config) ∧
      ∀ pool', pool.Perm pool' →
        (runMatchingChecked source pool config).map MatchResult.withoutIds
          = (runMatchingChecked source pool' config).map MatchResult.withoutIds := by
  have hpool : pool.Nodup := hids.of_map _
  have hsame : ∀ m ∈ pool, ∀ m' ∈ pool, m.id = m'.id → m = m' :=
    fun m hm m' hm' heq => List.inj_on_of_nodup_map hids hm hm' heq
  refine ⟨?_, fun r hr => ?_, fuzzyCounterpart_iff config source, fun pool' hperm => ?_⟩
  · rcases runMatchingChecked_eq config source pool with
      ⟨hzero, herr⟩ | ⟨hsafe, hok⟩
    · exact ⟨fun _ => hzero, fun _ => herr⟩
    · rw [hok]
      exact ⟨fun h => absurd h (by simp), fun h => absurd h hsafe⟩
  · have hr' : runMatching source pool config = r := by
      rcases runMatchingChecked_eq config source pool with
        ⟨-, herr⟩ | ⟨-, hok⟩
      · rw [herr] at hr
        cases hr
      · rw [hok] at hr
        exact Except.ok.inj hr
    rw [← hr']
    exact ⟨exact_tier hmargin hpool hsame, fuzzy_tier hmargin hpool hsame⟩
  · -- Whether the search divides by zero does not depend on the order either.
    rcases runMatchingChecked_eq config source pool with
      ⟨hzero, herr⟩ | ⟨hsafe, hok⟩
    · rcases runMatchingChecked_eq config source pool' with
        ⟨-, herr'⟩ | ⟨hsafe', -⟩
      · rw [herr, herr']
      · exact absurd ((dividesByZero_perm hperm).mp hzero) hsafe'
    · rcases runMatchingChecked_eq config source pool' with
        ⟨hzero', -⟩ | ⟨-, hok'⟩
      · exact absurd ((dividesByZero_perm hperm).mpr hzero') hsafe
      · rw [hok, hok']
        exact congrArg Except.ok (runMatching_perm hmargin hperm)

/-- A debit and two credits of the same amount and instant on another PSP. -/
def twins : List (TransactionCandidate Nat) :=
  [{ id := 1, pspName := "flutterwave", transactionType := .credit, amountNgn := 1000,
      initiatedAt := 0 },
    { id := 2, pspName := "flutterwave", transactionType := .credit, amountNgn := 1000,
      initiatedAt := 0 }]

/-- A debit of the given amount at instant zero. -/
def debitOf (amountNgn : ℚ) : TransactionCandidate Nat where
  id := 0
  pspName := "paystack"
  transactionType := .debit
  amountNgn := amountNgn
  initiatedAt := 0

/-- With a probabilistic window of zero and a candidate at the instant of the
    source the search raises, and the evidence of a tie lists the tied
    candidates in the order they came. -/
theorem run_matching_order_shows :
    (0 < ({ probabilisticTimeWindow := 0 } : MatchingConfig ℚ).ambiguityMargin ∧
        runMatchingChecked (debitOf 1001) twins
            ({ probabilisticTimeWindow := 0 } : MatchingConfig ℚ) = .error .zeroDivision) ∧
      twins.Perm twins.reverse ∧
      (runMatching (debitOf 1000) twins (defaultConfig ℚ)).confidenceEvidence
        ≠ (runMatching (debitOf 1000) twins.reverse (defaultConfig ℚ)).confidenceEvidence := by
  refine ⟨by decide +kernel, ?_, by decide +kernel⟩
  exact (List.reverse_perm twins).symm

theorem run_matching_decides_twins :
    (runMatchingChecked (debitOf 1000) twins (defaultConfig ℚ)).map MatchResult.withoutIds
      = (runMatchingChecked (debitOf 1000) twins.reverse (defaultConfig ℚ)).map
          MatchResult.withoutIds :=
  (run_matching_decides (defaultConfig ℚ) (by decide +kernel) (debitOf 1000) twins
    (by decide)).2.2.2 twins.reverse (List.reverse_perm twins).symm

end TwoTiers

end Matching

end MmrEngine
