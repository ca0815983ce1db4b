import MmrEngine.Flows.MatchAll
import Mathlib.Tactic.NormNum

/-!
# What the Matching Pass Guarantees

Three questions about `match_all`: are its pairs legitimate, are ties guessed,
and can a fuzzy match take a transaction away from its exact counterpart.

The first has the answer one hopes for (`matchAll_one_to_one`). For the other
two the pass gives less than a reader of the ambiguity guard may expect,
because the guard belongs to one search and a search has a side: the source.
At its own turn a transaction is never paired by a guess. As somebody else's
match it is not asked. `matchAll_pairs_tied_transaction` and
`matchAll_breaks_exact_pair` are the smallest lists that show it.

What does hold about the matched side is about order. A transaction that could
also have had the match `m`, with the same amount and near enough, and that is
still available, comes later in the list than the source, or had its turn
before and was left for review because it was ambiguous itself.

## Main definitions

* `LegitimatePair`: What a pair of the pass has to satisfy.

## Theorems

* `matchAll_one_to_one`: The assignment is one-to-one and every pair is
  legitimate.
* `matchAll_source_unambiguous`: The source of a pair was never ambiguous, and
  what became of the rivals for its match.
* `matchAll_fuzzy_after_exact`: A fuzzy pair's source has no exact counterpart,
  and what became of those of its match.
-/

namespace MmrEngine

namespace Matching

variable {α F : Type} [DecidableEq α] [LinearOrder F] [Add F] [Sub F] [Mul F] [Div F] [ScoreArith F]

/-- The time between two transactions, in microseconds. -/
def timeDistance (a b : TransactionCandidate α) : ℤ := |a.initiatedAt - b.initiatedAt|

/-- A result pairing `a` with `b` is as its strategy requires. -/
structure LegitimatePair (config : MatchingConfig F) (a b : TransactionCandidate α)
    (r : MatchResult α F) : Prop where
  source_id : r.sourceTransactionId = a.id
  matched_id : r.matchedTransactionId = some b.id
  different_psp : a.pspName ≠ b.pspName
  credit_and_debit : (a.transactionType = .credit ∧ b.transactionType = .debit) ∨
    (a.transactionType = .debit ∧ b.transactionType = .credit)
  delta : r.amountDeltaNgn = some |a.amountNgn - b.amountNgn|
  evidence : (r.strategy = .exactPrimary ∧ a.amountNgn = b.amountNgn ∧
      timeDistance a b ≤ config.primaryTimeWindow) ∨
    (r.strategy = .probabilisticSecondary ∧
      timeDistance a b ≤ config.probabilisticTimeWindow ∧
      0 < a.amountNgn ∧
      (amountDeltaPct a b = 0 ∨ amountDeltaPct a b < config.amountTolerancePct) ∧
      config.probabilisticThreshold ≤ r.confidenceScore)

theorem totalSeconds_le {x y : ℤ} : totalSeconds x ≤ totalSeconds y ↔ x ≤ y := by
  unfold totalSeconds
  rw [div_le_div_iff_of_pos_right (by norm_num)]
  exact Int.cast_le

theorem complementary_iff {a b : TransactionType} :
    areComplementaryTypes a b = true ↔
      (a = .credit ∧ b = .debit) ∨ (a = .debit ∧ b = .credit) := by
  unfold areComplementaryTypes
  simp only [Bool.or_eq_true, Bool.and_eq_true, decide_eq_true_eq]

omit [DecidableEq α] in
/-- A candidate within the tolerance has the amount, or a smaller delta. -/
theorem amountScore_ne_zero {config : MatchingConfig F} {a b : TransactionCandidate α}
    (h : amountScore a b config ≠ ScoreArith.ofRat 0) :
    0 < a.amountNgn ∧
      (amountDeltaPct a b = 0 ∨ amountDeltaPct a b < config.amountTolerancePct) := by
  unfold amountScore at h
  by_cases ha : 0 < a.amountNgn
  · refine ⟨ha, ?_⟩
    rw [if_pos ha] at h
    by_cases hz : amountDeltaPct a b = 0
    · exact Or.inl hz
    right
    simp only [if_neg hz] at h
    by_cases ht : 0 < config.amountTolerancePct ∧ amountDeltaPct a b ≤ config.amountTolerancePct
    · rw [if_pos ht] at h
      refine lt_of_le_of_ne ht.2 (fun heq => h ?_)
      -- At the boundary the score is zero.
      rw [heq, div_self (ne_of_gt ht.1), sub_self]
    · rw [if_neg ht] at h
      exact absurd rfl h
  · rw [if_neg ha] at h
    exact absurd rfl h

theorem eligible_types {a b : TransactionCandidate α} (h : eligible a b = true) :
    a.pspName ≠ b.pspName ∧ ((a.transactionType = .credit ∧ b.transactionType = .debit) ∨
      (a.transactionType = .debit ∧ b.transactionType = .credit)) := by
  unfold eligible at h
  simp only [Bool.and_eq_true, decide_eq_true_eq] at h
  exact ⟨Ne.symm h.1.1.2, complementary_iff.mp h.2⟩

theorem exactResult_legitimate {config : MatchingConfig F} {a b : TransactionCandidate α} {n : Nat}
    (h : ExactCounterpart config a b) :
    LegitimatePair config a b (exactResult a b (timeDeltaSeconds a b) n) := by
  rcases h with ⟨hel, hamount, hwindow⟩
  rcases eligible_types hel with ⟨hpsp, htypes⟩
  have hdelta : |a.amountNgn - b.amountNgn| = 0 := by rw [hamount, sub_self, abs_zero]
  exact {
    source_id := rfl
    matched_id := rfl
    different_psp := hpsp
    credit_and_debit := htypes
    delta := by rw [hdelta]; rfl
    evidence := Or.inl ⟨rfl, hamount.symm, totalSeconds_le.mp hwindow⟩ }

theorem probabilisticResult_legitimate {config : MatchingConfig F} {a b : TransactionCandidate α}
    {pool : List (TransactionCandidate α)} {n : ℤ}
    (hthreshold : config.probabilisticThreshold = ScoreArith.ofRat (n / 10000))
    (h : BestFuzzy config a pool b) :
    LegitimatePair config a b (probabilisticResult a (scoredCandidate a b config) config) := by
  rcases h with ⟨_, ⟨hel, hwindow, hscore⟩, hthr, _⟩
  rcases eligible_types hel with ⟨hpsp, htypes⟩
  rcases amountScore_ne_zero hscore with ⟨hpos, hdelta⟩
  -- Rounding is monotone and keeps a threshold of four decimals.
  have hround : config.probabilisticThreshold ≤ ScoreArith.round4 (pairScore config a b) := by
    have hmono := ScoreArith.round4_mono _ _ hthr
    rw [hthreshold] at hmono ⊢
    rwa [ScoreArith.round4_decimal] at hmono
  exact {
    source_id := rfl
    matched_id := rfl
    different_psp := hpsp
    credit_and_debit := htypes
    delta := rfl
    evidence := Or.inr ⟨rfl, totalSeconds_le.mp hwindow, hpos, hdelta, hround⟩ }

/-- No transaction is in two pairs, and every pair is legitimate. -/
theorem matchAll_one_to_one (candidates : List (TransactionCandidate α)) (config : MatchingConfig F)
    (n : ℤ) (hthreshold : config.probabilisticThreshold = ScoreArith.ofRat (n / 10000)) :
    ((matchAll candidates config).flatMap pairIds).Nodup ∧
      ∀ r ∈ matchAll candidates config,
        ∃ a ∈ candidates, ∃ b ∈ candidates, LegitimatePair config a b r := by
  refine ⟨nodup_matchAll candidates config, fun r hr => ?_⟩
  rcases (mem_matchAll candidates config r).mp hr with ⟨pre, s, post, hacc⟩
  have hs : s ∈ candidates := hacc.split ▸ List.mem_append_right _ List.mem_cons_self
  rcases acceptedAt_cases hacc with ⟨m, k, hm, hres⟩ | ⟨m, _, hm, hres⟩
  · have hmc := ((mem_availableAfter _ _ _ _).mp hm.1).1
    rw [hres]
    exact ⟨s, hs, m, hmc, exactResult_legitimate hm.2.1⟩
  · have hmc := ((mem_availableAfter _ _ _ _).mp hm.1).1
    rw [hres]
    exact ⟨s, hs, m, hmc, probabilisticResult_legitimate hthreshold hm⟩

section Examples

/-- A transaction of the exhibits: amounts in naira, times in minutes. -/
def leg (id : Nat) (pspName : String) (transactionType : TransactionType) (amountNgn : ℚ)
    (minute : ℤ) : TransactionCandidate Nat where
  id := id
  pspName := pspName
  transactionType := transactionType
  amountNgn := amountNgn
  initiatedAt := minute * 60 * 1000000

/-- A debit with one credit of its amount on either side of it in time. -/
def tiedDebit : List (TransactionCandidate Nat) :=
  [leg 1 "paystack" .credit 50000 0, leg 2 "flutterwave" .debit 50000 10,
    leg 3 "paystack" .credit 50000 20]

/-- A credit slightly below a debit's amount, and one with exactly that amount
    a little later. -/
def nearlyExact : List (TransactionCandidate Nat) :=
  [leg 1 "paystack" .credit 49990 0, leg 2 "flutterwave" .debit 50000 10,
    leg 3 "paystack" .credit 50000 20]

end Examples

/-- One exact pair and one transaction left over. -/
theorem matchAll_one_to_one_tiedDebit :
    ((matchAll tiedDebit (defaultConfig ℚ)).flatMap pairIds).Nodup ∧
      ∀ r ∈ matchAll tiedDebit (defaultConfig ℚ),
        ∃ a ∈ tiedDebit, ∃ b ∈ tiedDebit, LegitimatePair (defaultConfig ℚ) a b r :=
  matchAll_one_to_one tiedDebit (defaultConfig ℚ) 7500 (by norm_num [defaultConfig])

/-- The source of a pair is not ambiguous at the moment it is paired: its match
    is strictly the closest of its exact counterparts, or it has none and the
    match is the best fuzzy one by the margin. A transaction with two equally
    close exact counterparts is therefore reported ambiguous at its own turn.
    The matched side is not asked; an available exact counterpart of the match
    other than the source comes later, or was ambiguous at its own turn. -/
theorem matchAll_source_unambiguous (candidates : List (TransactionCandidate α))
    (config : MatchingConfig F) :
    (∀ r ∈ matchAll candidates config, ∃ pre s post m,
      AcceptedAt candidates config pre s post r ∧ r.matchedTransactionId = some m.id ∧
      (ClosestExact config s (availableAfter candidates config pre) m ∨
        (∀ c ∈ availableAfter candidates config pre, ¬ ExactCounterpart config s c) ∧
          BestFuzzy config s (availableAfter candidates config pre) m) ∧
      ∀ x ∈ availableAfter candidates config pre, x ≠ s → ExactCounterpart config m x →
        x ∈ post ∨ ∃ pre₁ post₁, pre = pre₁ ++ x :: post₁ ∧
          ReportedAmbiguous candidates config pre₁ x) ∧
    ∀ pre s post, candidates = pre ++ s :: post →
      s.id ∉ (stateAfter candidates config pre).matched →
      ∀ c ∈ availableAfter candidates config pre, ∀ c' ∈ availableAfter candidates config pre,
        c ≠ c' → ExactCounterpart config s c → ExactCounterpart config s c' →
        timeDeltaSeconds s c = timeDeltaSeconds s c' →
        (∀ x ∈ availableAfter candidates config pre, ExactCounterpart config s x →
          timeDeltaSeconds s c ≤ timeDeltaSeconds s x) →
        ReportedAmbiguous candidates config pre s := by
  constructor
  · intro r hr
    rcases (mem_matchAll candidates config r).mp hr with ⟨pre, s, post, hacc⟩
    rcases acceptedAt_cases hacc with ⟨m, k, hm, hres⟩ | ⟨m, hno, hm, hres⟩
    · refine ⟨pre, s, post, m, hacc, by rw [hres]; rfl, Or.inl hm, fun x hx hxs hex => ?_⟩
      exact exact_rival_waits hacc.split hm.1 (eligible_not_matched hm.2.1.1) hx hxs hex
    · refine ⟨pre, s, post, m, hacc, by rw [hres]; rfl, Or.inr ⟨hno, hm⟩, fun x hx hxs hex => ?_⟩
      exact exact_rival_waits hacc.split hm.1 (eligible_not_matched hm.2.1.1) hx hxs hex
  · intro pre s post _ hfree c hc c' hc' hne hex hex' htie hmin
    rcases runMatching_cases config s (availableAfter candidates config pre) with
      ⟨m, n, hm, _⟩ | ⟨m, hno, _⟩ | ⟨ev, hev, hr⟩ | ⟨hno, _⟩
    · -- A strictly closest counterpart would have to be both of the two.
      exfalso
      by_cases hcm : c = m
      · have hlt := hm.2.2 c' hc' hex' (fun h => hne (hcm.trans h.symm))
        rw [← hcm, htie] at hlt
        exact lt_irrefl _ hlt
      · exact absurd (hm.2.2 c hc hex hcm) (not_lt.mpr (hmin m hm.1 hm.2.1))
    · exact absurd hex (hno c hc)
    · refine ⟨hfree, ?_, ?_⟩
      · rw [hr]
        rfl
      · rw [hr]
        exact hev
    · exact absurd hex (hno c hc)

/-- The debit has two equally close credits; it is paired with the earlier one,
    although a search from the debit's side reports the tie. -/
theorem matchAll_pairs_tied_transaction :
    ¬ ∀ (candidates : List (TransactionCandidate Nat)) (config : MatchingConfig ℚ),
      (candidates.map TransactionCandidate.id).Nodup →
      candidates.Pairwise (fun a b => a.initiatedAt ≤ b.initiatedAt) →
      ∀ pre s post r, AcceptedAt candidates config pre s post r →
        ∀ m ∈ availableAfter candidates config pre, r.matchedTransactionId = some m.id →
          (runMatching m (availableAfter candidates config pre)
            config).confidenceEvidence.ambiguous = false := by
  intro h
  have hids : (tiedDebit.map TransactionCandidate.id).Nodup := by decide
  have horder : tiedDebit.Pairwise (fun a b => a.initiatedAt ≤ b.initiatedAt) := by decide
  have hacc : AcceptedAt tiedDebit (defaultConfig ℚ) [] (leg 1 "paystack" .credit 50000 0)
      [leg 2 "flutterwave" .debit 50000 10, leg 3 "paystack" .credit 50000 20]
      (runMatching (leg 1 "paystack" .credit 50000 0) tiedDebit (defaultConfig ℚ)) :=
    { split := rfl, free := by decide, result := rfl, accepted := by decide +kernel }
  have hquiet := h tiedDebit (defaultConfig ℚ) hids horder _ _ _ _ hacc
    (leg 2 "flutterwave" .debit 50000 10) (by decide) (by decide +kernel)
  exact absurd hquiet (by decide +kernel)

/-- A fuzzy pair is made only when its source has no exact counterpart left,
    and an available exact counterpart of its match comes later in the list or
    was ambiguous at its own turn. -/
theorem matchAll_fuzzy_after_exact (candidates : List (TransactionCandidate α))
    (config : MatchingConfig F) :
    ∀ r ∈ matchAll candidates config, r.strategy = .probabilisticSecondary →
      ∃ pre s post m, AcceptedAt candidates config pre s post r ∧
        r.matchedTransactionId = some m.id ∧ m ∈ availableAfter candidates config pre ∧
        (∀ c ∈ availableAfter candidates config pre, ¬ ExactCounterpart config s c) ∧
        ∀ x ∈ availableAfter candidates config pre, ExactCounterpart config m x →
          x ∈ post ∨ ∃ pre₁ post₁, pre = pre₁ ++ x :: post₁ ∧
            ReportedAmbiguous candidates config pre₁ x := by
  intro r hr hstrategy
  rcases (mem_matchAll candidates config r).mp hr with ⟨pre, s, post, hacc⟩
  rcases acceptedAt_cases hacc with ⟨m, k, hm, hres⟩ | ⟨m, hno, hm, hres⟩
  · rw [hres] at hstrategy
    cases hstrategy
  · have hmfree := eligible_not_matched hm.2.1.1
    refine ⟨pre, s, post, m, hacc, by rw [hres]; rfl, hm.1, hno, fun x hx hex => ?_⟩
    -- The source is no exact counterpart of its match: it has none.
    have hxs : x ≠ s := by
      intro heq
      subst heq
      exact hno m hm.1 (ExactCounterpart.symm hmfree hex)
    exact exact_rival_waits hacc.split hm.1 hmfree hx hxs hex

/-- The fuzzy pair of `nearlyExact`: the credit with the debit's exact amount
    comes later. -/
theorem matchAll_fuzzy_after_exact_nearlyExact :
    ∃ pre s post m, AcceptedAt nearlyExact (defaultConfig ℚ) pre s post
        (runMatching (leg 1 "paystack" .credit 49990 0) nearlyExact (defaultConfig ℚ)) ∧
      (runMatching (leg 1 "paystack" .credit 49990 0) nearlyExact
        (defaultConfig ℚ)).matchedTransactionId = some m.id ∧
      m ∈ availableAfter nearlyExact (defaultConfig ℚ) pre ∧
      (∀ c ∈ availableAfter nearlyExact (defaultConfig ℚ) pre,
        ¬ ExactCounterpart (defaultConfig ℚ) s c) ∧
      ∀ x ∈ availableAfter nearlyExact (defaultConfig ℚ) pre,
        ExactCounterpart (defaultConfig ℚ) m x →
        x ∈ post ∨ ∃ pre₁ post₁, pre = pre₁ ++ x :: post₁ ∧
          ReportedAmbiguous nearlyExact (defaultConfig ℚ) pre₁ x :=
  matchAll_fuzzy_after_exact nearlyExact (defaultConfig ℚ) _ (by decide +kernel)
    (by decide +kernel)

/-- The debit has an exact counterpart a few minutes later, and is given to the
    earlier credit that only nearly matches. -/
theorem matchAll_breaks_exact_pair :
    ¬ ∀ candidates : List (TransactionCandidate Nat),
      (candidates.map TransactionCandidate.id).Nodup →
      candidates.Pairwise (fun a b => a.initiatedAt ≤ b.initiatedAt) →
      ∀ pre s post r, AcceptedAt candidates (defaultConfig ℚ) pre s post r →
        r.strategy = .probabilisticSecondary →
        ∀ m ∈ availableAfter candidates (defaultConfig ℚ) pre,
          r.matchedTransactionId = some m.id →
          ∀ x ∈ availableAfter candidates (defaultConfig ℚ) pre,
            ¬ ExactCounterpart (defaultConfig ℚ) m x := by
  intro h
  have hids : (nearlyExact.map TransactionCandidate.id).Nodup := by decide
  have horder : nearlyExact.Pairwise (fun a b => a.initiatedAt ≤ b.initiatedAt) := by decide
  have hacc : AcceptedAt nearlyExact (defaultConfig ℚ) [] (leg 1 "paystack" .credit 49990 0)
      [leg 2 "flutterwave" .debit 50000 10, leg 3 "paystack" .credit 50000 20]
      (runMatching (leg 1 "paystack" .credit 49990 0) nearlyExact (defaultConfig ℚ)) :=
    { split := rfl, free := by decide, result := rfl, accepted := by decide +kernel }
  have hno := h nearlyExact hids horder _ _ _ _ hacc (by decide +kernel)
    (leg 2 "flutterwave" .debit 50000 10) (by decide) (by decide +kernel)
    (leg 3 "paystack" .credit 50000 20) (by decide)
  exact hno ⟨by decide, by decide, by decide +kernel⟩

end Matching

end MmrEngine
