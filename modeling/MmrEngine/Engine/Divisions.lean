import MmrEngine.Engine.MatchingErrors

/-!
# The Divisions of the Engine

The scores and the two-tier search with every division checked.

`Engine.MatchingErrors` raises at the one division that can go wrong for an
arbitrary configuration. Here no division is trusted: each one raises when its
divisor is zero, and stands behind the guard it has in the source. There are
five of them: the relative amount delta, twice, the amount score, the time score
and the overlap of the name tokens. Tier 1 has none.

The guards are enough for all but the time score, which divides by the length of
the window, so without a window of length zero every function here returns what
the engine's own returns.

## Main definitions

* `divideChecked`: A division, or the error.
* `Dividing.amountEvidence`, `Dividing.nameTokenSimilarity`,
  `Dividing.computeConfidenceEvidence`: The evidence.
* `Dividing.findProbabilisticMatch`, `Dividing.runMatching`: The search.

## Theorems

* `computeConfidenceEvidence_ok`, `findProbabilisticMatch_ok`, `runMatching_ok`:
  Nothing is raised.
-/

namespace MmrEngine

namespace Matching

/-- `a / b`, or the error. -/
def divideChecked (a b : ℚ) : Except MatchingError ℚ :=
  if b = 0 then .error .zeroDivision else .ok (a / b)

theorem divideChecked_of_pos (a : ℚ) {b : ℚ} (hb : 0 < b) : divideChecked a b = .ok (a / b) :=
  if_neg hb.ne'

namespace Dividing

section Definitions

variable {α F : Type} [DecidableEq α] [LinearOrder F] [Add F] [Sub F] [Mul F] [Div F] [ScoreArith F]

open ScoreArith

/-- The amount score and the relative amount delta. -/
def amountEvidence (source candidate : TransactionCandidate α) (config : MatchingConfig F) :
    Except MatchingError (F × F) :=
  if 0 < source.amountNgn then do
    let deltaPct ← divideChecked |source.amountNgn - candidate.amountNgn| source.amountNgn
    let tol := config.amountTolerancePct
    if deltaPct = 0 then return (ofRat 1, ofRat deltaPct)
    else if 0 < tol ∧ deltaPct ≤ tol then
      let share ← divideChecked deltaPct tol
      return (ofRat (1 - share), ofRat deltaPct)
    else return (ofRat 0, ofRat deltaPct)
  else return (ofRat 0, ofRat 0)

def nameTokenSimilarity (a b : Option (List String)) : Except MatchingError (Option ℚ) :=
  if Pii.noName a || Pii.noName b then return none
  else
    let setA := (a.getD []).dedup
    let setB := (b.getD []).dedup
    let overlap := (setA.filter (· ∈ setB)).length
    let shorter := min setA.length setB.length
    if 2 ≤ shorter ∧ overlap = shorter then return some 1
    else (divideChecked (2 * overlap) (setA.length + setB.length)).map some

def computeConfidenceEvidence (source candidate : TransactionCandidate α)
    (config : MatchingConfig F) : Except MatchingError (ConfidenceEvidence F) := do
  let amount ← amountEvidence source candidate config
  let time ← timeScoreChecked source candidate config
  let similarity ← nameTokenSimilarity source.counterpartyNameTokens
    candidate.counterpartyNameTokens
  let name := match similarity with
    | some similarity => ofRat similarity
    | none =>
      if Pii.noName source.counterpartyNameTokens && Pii.noName candidate.counterpartyNameTokens
      then ofRat 0.5
      else ofRat 0.2
  return {
    amountScore := amount.1
    timeScore := time
    nameScore := name
    bankScore := bankScore source candidate
    amountDeltaPct := amount.2
    timeDeltaSeconds := timeDeltaSeconds source candidate
    nameSimilarity := similarity.map ofRat
    bankMatch := (bankCode source).isSome && bankCode source = bankCode candidate }

def scoredCandidate (source c : TransactionCandidate α) (config : MatchingConfig F) :
    Except MatchingError (Scored α F) := do
  let ev ← computeConfidenceEvidence source c config
  return { score := confidenceScore ev config, candidate := c, evidence := ev }

/-- The result for the best candidate, whose delta is divided once more. -/
def probabilisticResult (source : TransactionCandidate α) (best : Scored α F)
    (config : MatchingConfig F) : Except MatchingError (MatchResult α F) := do
  let delta := |source.amountNgn - best.candidate.amountNgn|
  let deltaPct ← if 0 < source.amountNgn then divideChecked delta source.amountNgn else pure 0
  return { Matching.probabilisticResult source best config with
    isWithinFxThreshold := deltaPct ≤ config.fxVarianceThresholdPct }

def findProbabilisticMatch (source : TransactionCandidate α)
    (candidates : List (TransactionCandidate α)) (config : MatchingConfig F) :
    Except MatchingError (MatchResult α F) := do
  let scored ← (nearby source candidates config).mapM fun c => scoredCandidate source c config
  match Ranking.descending Scored.score
      (scored.filter fun s => s.evidence.amountScore ≠ ofRat 0) with
  | [] => return unmatchedResult source .probabilisticSecondary .empty
  | best :: rest =>
    if best.score < config.probabilisticThreshold then
      return unmatchedResult source .probabilisticSecondary .empty
    else
      match rest with
      | [] => probabilisticResult source best config
      | runnerUp :: _ =>
        if best.score - runnerUp.score < config.ambiguityMargin then
          return unmatchedResult source .probabilisticSecondary
            (.nearTie "runner-up within ambiguity margin" (round4 best.score)
              (round4 runnerUp.score) (((best :: rest).take 5).map fun s => s.candidate.id))
        else probabilisticResult source best config

/-- Both tiers; tier 1 does not divide. -/
def runMatching (source : TransactionCandidate α) (candidates : List (TransactionCandidate α))
    (config : MatchingConfig F) : Except MatchingError (MatchResult α F) := do
  let primary := findPrimaryMatch source candidates config
  if primary.matchedTransactionId.isSome then return primary
  else if primary.confidenceEvidence.ambiguous then
    return unmatchedResult source .unmatched primary.confidenceEvidence
  else
    let prob ← findProbabilisticMatch source candidates config
    if prob.matchedTransactionId.isSome then return prob
    else return unmatchedResult source .unmatched prob.confidenceEvidence

end Definitions

section Guards

variable {α F : Type} [DecidableEq α] [LinearOrder F] [Add F] [Sub F] [Mul F] [Div F] [ScoreArith F]
variable (config : MatchingConfig F) (source c : TransactionCandidate α)

omit [DecidableEq α] in
theorem amountEvidence_ok : amountEvidence source c config = .ok (amountScore source c config,
    if 0 < source.amountNgn then ScoreArith.ofRat (amountDeltaPct source c)
    else ScoreArith.ofRat 0) := by
  unfold amountEvidence amountScore amountDeltaPct
  by_cases hpos : 0 < source.amountNgn
  · simp only [if_pos hpos, divideChecked_of_pos _ hpos, bind, Except.bind, pure, Except.pure]
    split
    · rfl
    · split
      · next htol =>
          rw [divideChecked_of_pos _ htol.1]
      · rfl
  · simp only [if_neg hpos]
    rfl

/-- Two sides with a name have tokens to divide by. -/
theorem nameTokenSimilarity_ok (a b : Option (List String)) :
    nameTokenSimilarity a b = .ok (Pii.nameTokenSimilarity a b) := by
  unfold nameTokenSimilarity Pii.nameTokenSimilarity
  by_cases hnone : (Pii.noName a || Pii.noName b) = true
  · rw [if_pos hnone, if_pos hnone]
    rfl
  · rw [if_neg hnone, if_neg hnone]
    simp only []
    split
    · rfl
    · have hname : (a.getD []).dedup ≠ [] := by
        intro hc
        rw [List.dedup_eq_nil] at hc
        simp [Pii.noName, hc] at hnone
      have hpos : 0 < (a.getD []).dedup.length := List.length_pos_of_ne_nil hname
      have hsum : (0 : ℚ) < (a.getD []).dedup.length + (b.getD []).dedup.length := by
        have hcast : (0 : ℚ) < (a.getD []).dedup.length := by exact_mod_cast hpos
        have hcast' : (0 : ℚ) ≤ (b.getD []).dedup.length := Nat.cast_nonneg _
        linarith
      rw [divideChecked_of_pos _ hsum]
      rfl

variable {config} (hwindow : config.probabilisticTimeWindow ≠ 0)

include hwindow

omit [DecidableEq α] in
theorem timeScoreChecked_ok :
    timeScoreChecked source c config = .ok (timeScore source c config) := by
  have hwin : totalSeconds config.probabilisticTimeWindow ≠ 0 :=
    fun h => hwindow (totalSeconds_eq_zero.mp h)
  unfold timeScoreChecked timeScore
  by_cases hle : timeDeltaSeconds source c ≤ totalSeconds config.probabilisticTimeWindow
  · simp only [if_pos hle, if_neg hwin]
  · simp only [if_neg hle]

omit [DecidableEq α] in
theorem computeConfidenceEvidence_ok : computeConfidenceEvidence source c config
    = .ok (Matching.computeConfidenceEvidence source c config) := by
  rw [computeConfidenceEvidence, amountEvidence_ok, timeScoreChecked_ok source c hwindow,
    nameTokenSimilarity_ok]
  rfl

omit [DecidableEq α] hwindow in
theorem probabilisticResult_ok (best : Scored α F) : probabilisticResult source best config
    = .ok (Matching.probabilisticResult source best config) := by
  unfold probabilisticResult
  by_cases hpos : 0 < source.amountNgn
  · simp only [if_pos hpos, divideChecked_of_pos _ hpos]
    simp [Matching.probabilisticResult, hpos, bind, Except.bind, pure, Except.pure]
  · simp [Matching.probabilisticResult, hpos, bind, Except.bind, pure, Except.pure]

theorem findProbabilisticMatch_ok (pool : List (TransactionCandidate α)) :
    findProbabilisticMatch source pool config
      = .ok (Matching.findProbabilisticMatch source pool config) := by
  have hall : (nearby source pool config).mapM (fun c => scoredCandidate source c config)
      = .ok ((nearby source pool config).map
        fun c => Matching.scoredCandidate source c config) := by
    induction nearby source pool config with
    | nil => rfl
    | cons c rest ih =>
        rw [List.mapM_cons, scoredCandidate, computeConfidenceEvidence_ok source c hwindow, ih]
        rfl
  have hranked : Ranking.descending Scored.score
      (((nearby source pool config).map fun c => Matching.scoredCandidate source c config).filter
        fun s => s.evidence.amountScore ≠ ScoreArith.ofRat 0)
      = scoredCandidates source pool config := rfl
  rw [findProbabilisticMatch, hall]
  simp only [bind, Except.bind, hranked, probabilisticResult_ok]
  unfold Matching.findProbabilisticMatch decideScored
  -- The same ranking is looked at in the same way.
  cases scoredCandidates source pool config with
  | nil => rfl
  | cons best rest =>
      simp only []
      split
      · rfl
      · cases rest with
        | nil => rfl
        | cons runnerUp others =>
            simp only []
            split
            · rfl
            · rfl

/-- Without a window of length zero nothing is raised. -/
theorem runMatching_ok (pool : List (TransactionCandidate α)) :
    runMatching source pool config = .ok (Matching.runMatching source pool config) := by
  unfold runMatching Matching.runMatching
  rw [findProbabilisticMatch_ok source hwindow]
  simp only [bind, Except.bind]
  split
  · rfl
  · split
    · rfl
    · split
      · rfl
      · rfl

end Guards

end Dividing

end Matching

end MmrEngine
