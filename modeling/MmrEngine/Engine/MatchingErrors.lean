import MmrEngine.Engine.Matching

/-!
# Where Matching Divides by Zero

The two-tier search with the one error it can raise.

Every division of the engine is guarded but one: the time score divides by the
length of the probabilistic window. A candidate gets that far when it is
within the window, so with a window of length zero it is a candidate at the
very instant of the source, and 0/0 is a `ZeroDivisionError`. The definitions
here are the engine's again with that error; `runMatchingChecked_eq` says that
it is the only difference.

## Main definitions

* `MatchingError`: What the engine raises.
* `timeScoreChecked`: The time score, or the error.
* `runMatchingChecked`: The two tiers, or the error.
* `DividesByZero`: When the error is raised.

## Theorems

* `findProbabilisticMatchChecked_eq`: Tier 2 with and without the error.
* `runMatchingChecked_eq`: Both tiers with and without it.
-/

namespace MmrEngine

namespace Matching

/-- Python's `ZeroDivisionError`, the one exception the engine can raise. -/
inductive MatchingError where
  | zeroDivision
  deriving DecidableEq, Repr

section Checked

variable {α F : Type} [DecidableEq α] [LinearOrder F] [Add F] [Sub F] [Mul F] [Div F] [ScoreArith F]

open ScoreArith

/-- `max(0.0, 1.0 - td / win) if td <= win else 0.0`. -/
def timeScoreChecked (source candidate : TransactionCandidate α) (config : MatchingConfig F) :
    Except MatchingError F :=
  let td := timeDeltaSeconds source candidate
  let win := totalSeconds config.probabilisticTimeWindow
  if td ≤ win then
    if win = 0 then .error .zeroDivision
    else .ok (max (ofRat 0) (ofRat 1 - ofRat td / ofRat win))
  else .ok (ofRat 0)

def scoredCandidateChecked (source c : TransactionCandidate α) (config : MatchingConfig F) :
    Except MatchingError (Scored α F) := do
  let time ← timeScoreChecked source c config
  let ev := { computeConfidenceEvidence source c config with timeScore := time }
  return { score := confidenceScore ev config, candidate := c, evidence := ev }

/-- What passes the filters of tier 2's loop. -/
def nearby (source : TransactionCandidate α) (candidates : List (TransactionCandidate α))
    (config : MatchingConfig F) : List (TransactionCandidate α) :=
  candidates.filter fun c => eligible source c &&
    timeDeltaSeconds source c ≤ totalSeconds config.probabilisticTimeWindow

def scoredCandidatesChecked (source : TransactionCandidate α)
    (candidates : List (TransactionCandidate α)) (config : MatchingConfig F) :
    Except MatchingError (List (Scored α F)) := do
  let scored ← (nearby source candidates config).mapM fun c => scoredCandidateChecked source c config
  return Ranking.descending Scored.score (scored.filter fun s => s.evidence.amountScore ≠ ofRat 0)

def findProbabilisticMatchChecked (source : TransactionCandidate α)
    (candidates : List (TransactionCandidate α)) (config : MatchingConfig F) :
    Except MatchingError (MatchResult α F) := do
  let scored ← scoredCandidatesChecked source candidates config
  return decideScored source config scored

/-- Both tiers, with the error tier 2 can raise. -/
def runMatchingChecked (source : TransactionCandidate α)
    (candidates : List (TransactionCandidate α)) (config : MatchingConfig F) :
    Except MatchingError (MatchResult α F) := do
  let primary := findPrimaryMatch source candidates config
  if primary.matchedTransactionId.isSome then return primary
  else if primary.confidenceEvidence.ambiguous then
    return unmatchedResult source .unmatched primary.confidenceEvidence
  else
    let prob ← findProbabilisticMatchChecked source candidates config
    if prob.matchedTransactionId.isSome then return prob
    else return unmatchedResult source .unmatched prob.confidenceEvidence

end Checked

section Errors

variable {α F : Type} [DecidableEq α] [LinearOrder F] [Add F] [Sub F] [Mul F] [Div F] [ScoreArith F]
variable (config : MatchingConfig F) (source : TransactionCandidate α)
  (pool : List (TransactionCandidate α))

/-- Tier 2 is reached with a window of length zero and a candidate at the
    instant of the source. -/
def DividesByZero : Prop :=
  config.probabilisticTimeWindow = 0 ∧ (∀ c ∈ pool, ¬ ExactCounterpart config source c) ∧
    ∃ c ∈ pool, eligible source c = true ∧ c.initiatedAt = source.initiatedAt

theorem totalSeconds_eq_zero {delta : ℤ} : totalSeconds delta = 0 ↔ delta = 0 := by
  unfold totalSeconds
  rw [div_eq_zero_iff]
  constructor
  · intro h
    rcases h with h | h
    · exact_mod_cast h
    · norm_num at h
  · intro h
    exact Or.inl (by exact_mod_cast h)

omit [DecidableEq α] in
theorem timeDeltaSeconds_nonneg (c : TransactionCandidate α) : 0 ≤ timeDeltaSeconds source c := by
  unfold timeDeltaSeconds totalSeconds
  exact div_nonneg (by exact_mod_cast abs_nonneg _) (by norm_num)

omit [DecidableEq α] in
theorem timeDeltaSeconds_eq_zero {c : TransactionCandidate α} :
    timeDeltaSeconds source c = 0 ↔ c.initiatedAt = source.initiatedAt := by
  rw [timeDeltaSeconds, totalSeconds_eq_zero, abs_eq_zero, sub_eq_zero]
  exact eq_comm

variable {config source}

/-- Within a window of length zero is at the same instant. -/
theorem mem_nearby_of_zero (hzero : config.probabilisticTimeWindow = 0)
    (c : TransactionCandidate α) :
    c ∈ nearby source pool config ↔
      c ∈ pool ∧ eligible source c = true ∧ c.initiatedAt = source.initiatedAt := by
  have hwin : totalSeconds config.probabilisticTimeWindow = 0 := totalSeconds_eq_zero.mpr hzero
  simp only [nearby, List.mem_filter, Bool.and_eq_true, decide_eq_true_eq, hwin]
  rw [← timeDeltaSeconds_eq_zero source]
  constructor
  · rintro ⟨hc, hel, hle⟩
    exact ⟨hc, hel, le_antisymm hle (timeDeltaSeconds_nonneg source c)⟩
  · rintro ⟨hc, hel, heq⟩
    exact ⟨hc, hel, le_of_eq heq⟩

omit [DecidableEq α] in
theorem scoredCandidateChecked_of_pos (hne : config.probabilisticTimeWindow ≠ 0)
    (c : TransactionCandidate α) :
    scoredCandidateChecked source c config = .ok (scoredCandidate source c config) := by
  have hwin : totalSeconds config.probabilisticTimeWindow ≠ 0 :=
    fun h => hne (totalSeconds_eq_zero.mp h)
  have htime : timeScoreChecked source c config = .ok (timeScore source c config) := by
    unfold timeScoreChecked timeScore
    by_cases hle : timeDeltaSeconds source c ≤ totalSeconds config.probabilisticTimeWindow
    · simp only [if_pos hle, if_neg hwin]
    · simp only [if_neg hle]
  rw [scoredCandidateChecked, htime]
  rfl

theorem scoredCandidateChecked_of_zero (hzero : config.probabilisticTimeWindow = 0)
    {c : TransactionCandidate α} (hc : c ∈ nearby source pool config) :
    scoredCandidateChecked source c config = .error .zeroDivision := by
  have hwin : totalSeconds config.probabilisticTimeWindow = 0 := totalSeconds_eq_zero.mpr hzero
  have hle : timeDeltaSeconds source c ≤ totalSeconds config.probabilisticTimeWindow := by
    have hfilter := (List.mem_filter.mp hc).2
    simp only [Bool.and_eq_true, decide_eq_true_eq] at hfilter
    exact hfilter.2
  have htime : timeScoreChecked source c config = .error .zeroDivision := by
    unfold timeScoreChecked
    simp only [if_pos hle, if_pos hwin]
  rw [scoredCandidateChecked, htime]
  rfl

variable (config source) in
/-- Tier 2 raises exactly when it scores somebody in a window of length zero. -/
theorem scoredCandidatesChecked_eq :
    (config.probabilisticTimeWindow = 0 ∧ nearby source pool config ≠ [] ∧
        scoredCandidatesChecked source pool config = .error .zeroDivision) ∨
      ((config.probabilisticTimeWindow ≠ 0 ∨ nearby source pool config = []) ∧
        scoredCandidatesChecked source pool config = .ok (scoredCandidates source pool config)) := by
  by_cases hzero : config.probabilisticTimeWindow = 0
  · cases hl : nearby source pool config with
    | nil =>
        refine Or.inr ⟨Or.inr rfl, ?_⟩
        have hplain : scoredCandidates source pool config
            = Ranking.descending Scored.score
              (((nearby source pool config).map fun c => scoredCandidate source c config).filter
                fun s => s.evidence.amountScore ≠ ScoreArith.ofRat 0) := rfl
        rw [scoredCandidatesChecked, hplain, hl]
        rfl
    | cons c rest =>
        have hc : c ∈ nearby source pool config := by rw [hl]; exact List.mem_cons_self
        refine Or.inl ⟨hzero, List.cons_ne_nil c rest, ?_⟩
        rw [scoredCandidatesChecked, hl, List.mapM_cons,
          scoredCandidateChecked_of_zero pool hzero hc]
        rfl
  · refine Or.inr ⟨Or.inl hzero, ?_⟩
    have hall : (nearby source pool config).mapM
          (fun c => scoredCandidateChecked source c config)
        = .ok ((nearby source pool config).map fun c => scoredCandidate source c config) := by
      induction nearby source pool config with
      | nil => rfl
      | cons c rest ih =>
          rw [List.mapM_cons, scoredCandidateChecked_of_pos hzero, ih]
          rfl
    rw [scoredCandidatesChecked, hall]
    rfl

/-- Without exact counterparts tier 1 finds nobody and nothing ambiguous. -/
theorem findPrimaryMatch_of_none (hnone : ∀ c ∈ pool, ¬ ExactCounterpart config source c) :
    findPrimaryMatch source pool config = unmatchedResult source .exactPrimary .empty := by
  have hnil : exactCandidates source pool config = [] := by
    rw [List.eq_nil_iff_forall_not_mem]
    intro pair hpair
    rcases (mem_exactCandidates config source pool pair).mp hpair with ⟨hc, hex, -⟩
    exact hnone pair.2 hc hex
  rw [findPrimaryMatch, hnil]

variable (config source) in
/-- The search with the error: it raises when it divides by zero, and is the
    plain search otherwise. -/
theorem runMatchingChecked_eq :
    (DividesByZero config source pool ∧
        runMatchingChecked source pool config = .error .zeroDivision) ∨
      (¬ DividesByZero config source pool ∧
        runMatchingChecked source pool config = .ok (runMatching source pool config)) := by
  rcases findPrimaryMatch_cases config source pool with
    ⟨hnone, hr⟩ | ⟨m, n, hm, hr⟩ | ⟨evidence, hev, hr⟩
  · -- Tier 2 is reached, and decides whether there is an error.
    have hskip : (unmatchedResult source .exactPrimary .empty
        : MatchResult α F).matchedTransactionId.isSome = false := rfl
    have hquiet : (unmatchedResult source .exactPrimary .empty
        : MatchResult α F).confidenceEvidence.ambiguous = false := rfl
    have hreached : runMatchingChecked source pool config
        = (findProbabilisticMatchChecked source pool config).map fun prob =>
            if prob.matchedTransactionId.isSome then prob
            else unmatchedResult source .unmatched prob.confidenceEvidence := by
      unfold runMatchingChecked
      simp only [hr, hskip, hquiet, Bool.false_eq_true, if_false]
      cases findProbabilisticMatchChecked source pool config with
      | error e => rfl
      | ok prob => by_cases h : prob.matchedTransactionId.isSome <;> simp [h, Except.map, bind,
          Except.bind, pure, Except.pure]
    rcases scoredCandidatesChecked_eq config source pool with
      ⟨hzero, hne, herr⟩ | ⟨hsafe, hok⟩
    · refine Or.inl ⟨⟨hzero, hnone, ?_⟩, ?_⟩
      · rcases List.exists_mem_of_ne_nil _ hne with ⟨c, hc⟩
        rcases (mem_nearby_of_zero pool hzero c).mp hc with ⟨hpool, hel, hat⟩
        exact ⟨c, hpool, hel, hat⟩
      · rw [hreached, findProbabilisticMatchChecked, herr]
        rfl
    · refine Or.inr ⟨?_, ?_⟩
      · rintro ⟨hzero, -, c, hpool, hel, hat⟩
        have hc := (mem_nearby_of_zero pool hzero c).mpr ⟨hpool, hel, hat⟩
        rcases hsafe with hne | hnil
        · exact hne hzero
        · rw [hnil] at hc
          exact List.not_mem_nil hc
      · rw [hreached, findProbabilisticMatchChecked, hok, runMatching_of_nobody hr,
          findProbabilisticMatch]
        rfl
  · refine Or.inr ⟨fun h => h.2.1 m hm.1 hm.2.1, ?_⟩
    have hfound : (exactResult source m (timeDeltaSeconds source m) n
        : MatchResult α F).matchedTransactionId.isSome = true := rfl
    rw [runMatching_of_closest hr]
    unfold runMatchingChecked
    simp only [hr, hfound, if_true]
    rfl
  · refine Or.inr ⟨fun h => ?_, ?_⟩
    · -- An ambiguous tier 1 has exact counterparts.
      rw [findPrimaryMatch_of_none pool h.2.1] at hr
      have hempty : (MatchEvidence.empty : MatchEvidence α F) = evidence :=
        congrArg MatchResult.confidenceEvidence hr
      rw [← hempty] at hev
      cases hev
    · have hskip : (unmatchedResult source .exactPrimary evidence
          : MatchResult α F).matchedTransactionId.isSome = false := rfl
      have hloud : (unmatchedResult source .exactPrimary evidence
          : MatchResult α F).confidenceEvidence.ambiguous = true := hev
      rw [runMatching_of_tie hev hr]
      unfold runMatchingChecked
      simp only [hr, hskip, hloud, Bool.false_eq_true, if_false, if_true]
      rfl

end Errors

end Matching

end MmrEngine
