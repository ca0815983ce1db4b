import MmrEngine.Engine.Divisions
import MmrEngine.Flows.MatchingFlow
import MmrEngine.Theory.TwoTierRule
import Mathlib.Data.List.Perm.Subperm

/-!
# Bounds of the Scores

Every partial score is between 0 and 1, so under weights that sum to 1 the score
is too, and a configuration out of the settings divides by nothing that is zero.

The other result needs the case in which the bound is attained. Without common
name tokens a quarter of the weight is lost, and what is left is the threshold
exactly. So a pair of strangers can only be accepted if everything else agrees
completely: the same amount at the same instant. But then tier 1 has an exact
counterpart, and tier 2 is never asked.

## Main definitions

* `DefaultWeights`: The weights that no setting changes.
* `LegalScore`: The score of a result can be stored.

## Theorems

* `amountScore_le_one`, `timeScore_mem`, `nameScore_mem`, `bankScore_mem`: The
  partial scores.
* `confidenceScore_mem`: Their weighted sum.
* `findPrimaryMatch_legal`, `findProbabilisticMatch_legal`, `runMatching_legal`:
  The results.
* `settings_scores_legal`: The configurations out of the settings.
* `strangers_never_fuzzy`: No fuzzy match without a common name token.
-/

namespace MmrEngine

namespace Matching

section Partial

variable {α : Type} (config : MatchingConfig ℚ) (source c : TransactionCandidate α)

theorem amountScore_le_one : amountScore source c config ≤ 1 := by
  unfold amountScore
  simp only [ofRat_rat]
  split_ifs with hpos hzero htol
  · norm_num
  · have hdelta : 0 ≤ amountDeltaPct source c := div_nonneg (abs_nonneg _) hpos.le
    have hshare := div_nonneg hdelta htol.1.le
    linarith
  · norm_num
  · norm_num

/-- Only the same amount has the full score. -/
theorem amountScore_eq_one (h : amountScore source c config = 1) :
    c.amountNgn = source.amountNgn := by
  unfold amountScore at h
  simp only [ofRat_rat] at h
  split_ifs at h with hpos hzero htol
  · -- Relative to a positive amount no delta is no difference.
    unfold amountDeltaPct at hzero
    have hdelta := (div_eq_zero_iff.mp hzero).resolve_right hpos.ne'
    linarith [abs_eq_zero.mp hdelta]
  · have hshare : amountDeltaPct source c / config.amountTolerancePct = 0 := by linarith
    exact absurd ((div_eq_zero_iff.mp hshare).resolve_right htol.1.ne') hzero
  · norm_num at h
  · norm_num at h

variable {config}

theorem timeScore_mem (hwindow : 0 < config.probabilisticTimeWindow) :
    0 ≤ timeScore source c config ∧ timeScore source c config ≤ 1 ∧
      (timeScore source c config = 1 → timeDeltaSeconds source c = 0) := by
  have hwin : 0 < totalSeconds config.probabilisticTimeWindow := by
    unfold totalSeconds
    exact div_pos (by exact_mod_cast hwindow) (by norm_num)
  have hnonneg : 0 ≤ timeDeltaSeconds source c / totalSeconds config.probabilisticTimeWindow :=
    div_nonneg (timeDeltaSeconds_nonneg source c) hwin.le
  unfold timeScore
  simp only [ofRat_rat]
  split_ifs with hle
  · refine ⟨le_max_left _ _, max_le (by norm_num) (by linarith), fun h => ?_⟩
    rcases max_choice (0 : ℚ)
        (1 - timeDeltaSeconds source c / totalSeconds config.probabilisticTimeWindow) with hm | hm
    · rw [hm] at h
      norm_num at h
    · rw [hm] at h
      have hshare : timeDeltaSeconds source c
          / totalSeconds config.probabilisticTimeWindow = 0 := by linarith
      exact (div_eq_zero_iff.mp hshare).resolve_right hwin.ne'
  · norm_num

variable {source c}

/-- The tokens of one side that the other has too are no more than either side
    has. -/
theorem overlap_le (a b : List String) :
    (a.dedup.filter (· ∈ b.dedup)).length ≤ min a.dedup.length b.dedup.length := by
  refine le_min (List.length_filter_le _ _) ?_
  have hsub : a.dedup.filter (· ∈ b.dedup) ⊆ b.dedup := by
    intro x hx
    simpa using (List.mem_filter.mp hx).2
  exact (List.subperm_of_subset (a.nodup_dedup.filter _) hsub).length_le

theorem nameTokenSimilarity_mem {a b : Option (List String)} {similarity : ℚ}
    (h : Pii.nameTokenSimilarity a b = some similarity) : 0 ≤ similarity ∧ similarity ≤ 1 := by
  have hoverlap := overlap_le (a.getD []) (b.getD [])
  unfold Pii.nameTokenSimilarity at h
  split at h
  · cases h
  · simp only [] at h
    split at h
    · rw [← Option.some.inj h]
      norm_num
    · rw [← Option.some.inj h]
      have hleft := hoverlap.trans (min_le_left _ _)
      have hright := hoverlap.trans (min_le_right _ _)
      generalize ((a.getD []).dedup.filter (· ∈ (b.getD []).dedup)).length = overlap
        at hleft hright ⊢
      have hleftq : (overlap : ℚ) ≤ (a.getD []).dedup.length := by exact_mod_cast hleft
      have hrightq : (overlap : ℚ) ≤ (b.getD []).dedup.length := by exact_mod_cast hright
      have hzero : (0 : ℚ) ≤ overlap := Nat.cast_nonneg _
      exact ⟨div_nonneg (by linarith) (by linarith), div_le_one_of_le₀ (by linarith) (by linarith)⟩

/-- Names without a common token are not alike at all. -/
theorem nameTokenSimilarity_of_disjoint {a b : Option (List String)} (ha : Pii.noName a = false)
    (hb : Pii.noName b = false) (hdisjoint : ∀ token ∈ a.getD [], token ∉ b.getD []) :
    Pii.nameTokenSimilarity a b = some 0 := by
  have hoverlap : (a.getD []).dedup.filter (· ∈ (b.getD []).dedup) = [] := by
    rw [List.filter_eq_nil_iff]
    intro token htoken
    simpa using hdisjoint token (List.mem_dedup.mp htoken)
  unfold Pii.nameTokenSimilarity
  rw [ha, hb, Bool.or_false, if_neg Bool.false_ne_true]
  simp only [hoverlap, List.length_nil]
  rw [if_neg (by omega)]
  norm_num

variable (source c)

theorem nameScore_mem : 0 ≤ (nameScore source c : ℚ) ∧ (nameScore source c : ℚ) ≤ 1 := by
  unfold nameScore
  cases h : Pii.nameTokenSimilarity source.counterpartyNameTokens c.counterpartyNameTokens with
  | some similarity => exact nameTokenSimilarity_mem h
  | none =>
      simp only [ofRat_rat]
      split_ifs <;> norm_num

theorem bankScore_mem : 0 ≤ (bankScore source c : ℚ) ∧ (bankScore source c : ℚ) ≤ 1 := by
  unfold bankScore
  cases bankCode source with
  | none =>
      cases bankCode c with
      | none => simp only [ofRat_rat]; norm_num
      | some cb => simp only [ofRat_rat]; norm_num
  | some sb =>
      cases bankCode c with
      | none => simp only [ofRat_rat]; norm_num
      | some cb =>
          simp only [ofRat_rat]
          split_ifs <;> norm_num

end Partial

section Sum

/-- The weights that no setting changes. -/
structure DefaultWeights (config : MatchingConfig ℚ) : Prop where
  amount : config.weightAmount = 0.40
  time : config.weightTime = 0.25
  name : config.weightName = 0.25
  bank : config.weightBank = 0.10

variable {α : Type} [DecidableEq α] {config : MatchingConfig ℚ}

omit [DecidableEq α] in
theorem pairScore_eq (hweights : DefaultWeights config) (source c : TransactionCandidate α) :
    pairScore config source c = amountScore source c config * 0.40
      + timeScore source c config * 0.25 + nameScore source c * 0.25
      + bankScore source c * 0.10 := by
  change amountScore source c config * config.weightAmount
    + timeScore source c config * config.weightTime + nameScore source c * config.weightName
    + bankScore source c * config.weightBank = _
  rw [hweights.amount, hweights.time, hweights.name, hweights.bank]

omit [DecidableEq α] in
theorem confidenceScore_mem (hweights : DefaultWeights config)
    (hwindow : 0 < config.probabilisticTimeWindow) (source c : TransactionCandidate α) :
    0 ≤ pairScore config source c ∧ pairScore config source c ≤ 1 := by
  have hamount := amountScore_nonneg config source c
  have hamount' := amountScore_le_one config source c
  have htime := timeScore_mem source c hwindow
  have hname := nameScore_mem source c
  have hbank := bankScore_mem source c
  rw [pairScore_eq hweights]
  constructor <;> linarith [htime.1, htime.2.1, hname.1, hname.2, hbank.1, hbank.2]

/-- Rounding to four decimals keeps a score legal. -/
theorem round4_mem {x : ℚ} (h0 : 0 ≤ x) (h1 : x ≤ 1) :
    0 ≤ ScoreArith.round4 x ∧ ScoreArith.round4 x ≤ 1 := by
  have hzero : ScoreArith.round4 (0 : ℚ) = 0 := by
    simpa using ScoreArith.round4_decimal (F := ℚ) 0
  have hone : ScoreArith.round4 (1 : ℚ) = 1 := by
    simpa using ScoreArith.round4_decimal (F := ℚ) 10000
  have hlow := ScoreArith.round4_mono 0 x h0
  have hhigh := ScoreArith.round4_mono x 1 h1
  rw [hzero] at hlow
  rw [hone] at hhigh
  exact ⟨hlow, hhigh⟩

/-- The score of a result can be stored. -/
def LegalScore (r : MatchResult α ℚ) : Prop :=
  (0 ≤ r.confidenceScore ∧ r.confidenceScore ≤ 1) ∧
    0 ≤ ScoreArith.round4 r.confidenceScore ∧ ScoreArith.round4 r.confidenceScore ≤ 1

omit [DecidableEq α] in
theorem legalScore_of_mem {r : MatchResult α ℚ} (h0 : 0 ≤ r.confidenceScore)
    (h1 : r.confidenceScore ≤ 1) : LegalScore r := ⟨⟨h0, h1⟩, round4_mem h0 h1⟩

omit [DecidableEq α] in
theorem legalScore_unmatched (source : TransactionCandidate α) (strategy : MatchStrategy)
    (evidence : MatchEvidence α ℚ) : LegalScore (unmatchedResult source strategy evidence) :=
  legalScore_of_mem (le_refl (0 : ℚ)) zero_le_one

omit [DecidableEq α] in
theorem legalScore_exact (source m : TransactionCandidate α) (td : ℚ) (n : Nat) :
    LegalScore (exactResult source m td n) :=
  legalScore_of_mem zero_le_one (le_refl (1 : ℚ))

omit [DecidableEq α] in
theorem legalScore_probabilistic (hweights : DefaultWeights config)
    (hwindow : 0 < config.probabilisticTimeWindow) (source m : TransactionCandidate α) :
    LegalScore (probabilisticResult source (scoredCandidate source m config) config) := by
  have hscore := confidenceScore_mem hweights hwindow source m
  have hround := round4_mem hscore.1 hscore.2
  exact legalScore_of_mem hround.1 hround.2

variable (hweights : DefaultWeights config) (hwindow : 0 < config.probabilisticTimeWindow)
  (source : TransactionCandidate α) (pool : List (TransactionCandidate α))

theorem findPrimaryMatch_legal : LegalScore (findPrimaryMatch source pool config) := by
  rcases findPrimaryMatch_cases config source pool with ⟨_, hr⟩ | ⟨m, n, _, hr⟩ | ⟨_, _, hr⟩
  · rw [hr]
    exact legalScore_unmatched source _ _
  · rw [hr]
    exact legalScore_exact source m _ n
  · rw [hr]
    exact legalScore_unmatched source _ _

include hweights hwindow

theorem findProbabilisticMatch_legal : LegalScore (findProbabilisticMatch source pool config) := by
  rcases findProbabilisticMatch_cases config source pool with hr | ⟨m, _, hr⟩ | ⟨_, _, hr⟩
  · rw [hr]
    exact legalScore_unmatched source _ _
  · rw [hr]
    exact legalScore_probabilistic hweights hwindow source m
  · rw [hr]
    exact legalScore_unmatched source _ _

theorem runMatching_legal : LegalScore (runMatching source pool config) := by
  rcases runMatching_cases config source pool with
    ⟨m, n, _, hr⟩ | ⟨m, _, _, hr⟩ | ⟨evidence, _, hr⟩ | ⟨_, hr⟩
  · rw [hr]
    exact legalScore_exact source m _ n
  · rw [hr]
    exact legalScore_probabilistic hweights hwindow source m
  · rw [hr]
    exact legalScore_unmatched source _ _
  · rw [hr]
    exact legalScore_unmatched source _ _

end Sum

section Engine

variable {α : Type} [DecidableEq α]

theorem fromSettings_weights (s : Settings ℚ) : DefaultWeights (MatchingConfig.fromSettings s) where
  amount := by norm_num [MatchingConfig.fromSettings]
  time := by norm_num [MatchingConfig.fromSettings]
  name := by norm_num [MatchingConfig.fromSettings]
  bank := by norm_num [MatchingConfig.fromSettings]

theorem fromSettings_window (s : Settings ℚ) :
    0 < (MatchingConfig.fromSettings s).probabilisticTimeWindow := by
  have hwindow := s.secondary_ge
  change 0 < hours s.matchingSecondaryWindowHours
  unfold hours
  omega

/-- Under any settings nothing is divided by zero, and every score is legal. -/
theorem settings_scores_legal (s : Settings ℚ) (source : TransactionCandidate α)
    (pool : List (TransactionCandidate α)) :
    ((∀ c, Dividing.computeConfidenceEvidence source c (MatchingConfig.fromSettings s)
          = .ok (computeConfidenceEvidence source c (MatchingConfig.fromSettings s))) ∧
        Dividing.findProbabilisticMatch source pool (MatchingConfig.fromSettings s)
          = .ok (findProbabilisticMatch source pool (MatchingConfig.fromSettings s)) ∧
        Dividing.runMatching source pool (MatchingConfig.fromSettings s)
          = .ok (runMatching source pool (MatchingConfig.fromSettings s))) ∧
      (∀ c ev, ev = computeConfidenceEvidence source c (MatchingConfig.fromSettings s) →
        (0 ≤ ev.amountScore ∧ ev.amountScore ≤ 1) ∧ (0 ≤ ev.timeScore ∧ ev.timeScore ≤ 1) ∧
          (0 ≤ ev.nameScore ∧ ev.nameScore ≤ 1) ∧ 0 ≤ ev.bankScore ∧ ev.bankScore ≤ 1) ∧
      LegalScore (findPrimaryMatch source pool (MatchingConfig.fromSettings s)) ∧
      LegalScore (findProbabilisticMatch source pool (MatchingConfig.fromSettings s)) ∧
      LegalScore (runMatching source pool (MatchingConfig.fromSettings s)) ∧
      ∀ r ∈ matchAll pool (MatchingConfig.fromSettings s), LegalScore r := by
  have hweights := fromSettings_weights s
  have hwindow := fromSettings_window s
  refine ⟨⟨fun c => Dividing.computeConfidenceEvidence_ok source c hwindow.ne',
      Dividing.findProbabilisticMatch_ok source hwindow.ne' pool,
      Dividing.runMatching_ok source hwindow.ne' pool⟩, ?_,
    findPrimaryMatch_legal source pool, findProbabilisticMatch_legal hweights hwindow source pool,
    runMatching_legal hweights hwindow source pool, fun r hr => ?_⟩
  · rintro c ev rfl
    have htime := timeScore_mem source c hwindow
    exact ⟨⟨amountScore_nonneg _ source c, amountScore_le_one _ source c⟩,
      ⟨htime.1, htime.2.1⟩, nameScore_mem source c, bankScore_mem source c⟩
  · -- A pair of the pass is the result of a search.
    rcases (mem_matchAll pool _ r).mp hr with ⟨pre, x, post, hacc⟩
    rw [hacc.result]
    exact runMatching_legal hweights hwindow x _

theorem defaultConfig_weights : DefaultWeights (defaultConfig ℚ) where
  amount := by norm_num [defaultConfig]
  time := by norm_num [defaultConfig]
  name := by norm_num [defaultConfig]
  bank := by norm_num [defaultConfig]

/-- Two transactions under names that share no token reach the threshold only
    by agreeing in everything else. -/
theorem exact_of_strangers {source c : TransactionCandidate α}
    (hname : nameScore source c = (0 : ℚ)) (heligible : eligible source c = true)
    (hscore : 0.75 ≤ pairScore (defaultConfig ℚ) source c) :
    ExactCounterpart (defaultConfig ℚ) source c := by
  have hwindow : 0 < (defaultConfig ℚ).probabilisticTimeWindow := by decide
  have hamount := amountScore_le_one (defaultConfig ℚ) source c
  rcases timeScore_mem source c hwindow with ⟨_, htime, hinstant⟩
  have hbank := bankScore_mem source c
  rw [pairScore_eq defaultConfig_weights, hname] at hscore
  -- Three quarters of the weight are left, and all of them are needed.
  have hamount' : amountScore source c (defaultConfig ℚ) = 1 := by linarith [hbank.2]
  have htime' : timeScore source c (defaultConfig ℚ) = 1 := by linarith [hbank.2]
  refine ⟨heligible, amountScore_eq_one _ source c hamount', ?_⟩
  rw [hinstant htime']
  unfold totalSeconds
  exact div_nonneg (by decide) (by norm_num)

/-- Different people are never fuzzily matched. -/
theorem strangers_never_fuzzy (source : TransactionCandidate α)
    (pool : List (TransactionCandidate α)) (hids : (pool.map TransactionCandidate.id).Nodup)
    {m : TransactionCandidate α} (hm : m ∈ pool)
    (hsource : Pii.noName source.counterpartyNameTokens = false)
    (hmatched : Pii.noName m.counterpartyNameTokens = false)
    (hdisjoint : ∀ token ∈ source.counterpartyNameTokens.getD [],
      token ∉ m.counterpartyNameTokens.getD []) :
    ¬ ((runMatching source pool (defaultConfig ℚ)).strategy = .probabilisticSecondary ∧
      (runMatching source pool (defaultConfig ℚ)).matchedTransactionId = some m.id) := by
  rintro ⟨hstrategy, htarget⟩
  rcases runMatching_cases (defaultConfig ℚ) source pool with
    ⟨b, n, _, hr⟩ | ⟨b, hnone, hbest, hr⟩ | ⟨evidence, _, hr⟩ | ⟨_, hr⟩
  · rw [hr] at hstrategy
    cases hstrategy
  · -- The best fuzzy counterpart is `m`, as no other has its id.
    rw [hr] at htarget
    have hid : b.id = m.id := Option.some.inj htarget
    have hsame : b = m := List.inj_on_of_nodup_map hids hbest.1 hm hid
    subst hsame
    have hname : nameScore source b = (0 : ℚ) := by
      unfold nameScore
      rw [nameTokenSimilarity_of_disjoint hsource hmatched hdisjoint]
      rfl
    have hexact := exact_of_strangers hname hbest.2.1.1 hbest.2.2.1
    exact hnone b hm hexact
  · rw [hr] at hstrategy
    cases hstrategy
  · rw [hr] at hstrategy
    cases hstrategy

/-- A transaction of a given person at the same bank, amount and instant. -/
def paymentOf (id : Nat) (pspName : String) (transactionType : TransactionType) (name : String) :
    TransactionCandidate Nat where
  id := id
  pspName := pspName
  transactionType := transactionType
  amountNgn := 1000
  initiatedAt := 0
  counterpartyNameTokens := some [name]
  beneficiaryBankCode := some "057"

theorem strangers_never_fuzzy_same_bank :
    ¬ ((runMatching (paymentOf 0 "paystack" .credit "ADA")
          [paymentOf 1 "flutterwave" .debit "BOLA"] (defaultConfig ℚ)).strategy
        = .probabilisticSecondary ∧
      (runMatching (paymentOf 0 "paystack" .credit "ADA")
          [paymentOf 1 "flutterwave" .debit "BOLA"] (defaultConfig ℚ)).matchedTransactionId
        = some (paymentOf 1 "flutterwave" .debit "BOLA").id) :=
  strangers_never_fuzzy (paymentOf 0 "paystack" .credit "ADA")
    [paymentOf 1 "flutterwave" .debit "BOLA"] (by decide) List.mem_cons_self (by decide)
    (by decide) (by decide)

end Engine

end Matching

end MmrEngine
