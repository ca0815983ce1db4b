import MmrEngine.Core.Clock
import MmrEngine.Core.Score
import MmrEngine.Engine.Normaliser
import MmrEngine.Engine.Pii
import MmrEngine.Lib.Ranking
import Mathlib.Data.Rat.Lemmas

/-!
# The Matching Engine

The two-tier search for one transaction's counterpart.

Tier 1 looks for a transaction of the other type on another PSP with the very
same amount, close enough in time, and takes the closest. Tier 2 scores
whatever is near enough in amount and time. Both refuse to choose between two
candidates that are equally good, and a tie in tier 1 ends the search: the
result is unmatched with `ambiguous` evidence.

The two tiers are stated twice here. Below are the definitions as the source
computes them, with sorted lists and the first two places. The `_cases`
theorems after them say what those lists decide in terms of the candidates
alone: `ExactCounterpart` and `FuzzyCounterpart` are the eligible candidates of
a tier, and a tier matches the one that beats all others, or is ambiguous, or
has nobody good enough. Everything about the pass over all transactions is
proved from those.

Times are microseconds and `timedelta`s too. Where the source divides by zero,
which takes a zero-length probabilistic window, it raises; the value here is
whatever the division gives and stands for no result.

## Main definitions

* `MatchingConfig`, `TransactionCandidate`, `MatchResult`: The engine's data.
* `eligible`: What both tiers require of a candidate.
* `computeConfidenceEvidence`, `confidenceScore`: The fuzzy evidence.
* `findPrimaryMatch`, `findProbabilisticMatch`: The two tiers.
* `runMatching`: Both tiers.
* `ExactCounterpart`, `FuzzyCounterpart`: A tier's candidates.
* `ClosestExact`, `BestFuzzy`: A tier's winner.

## Theorems

* `findPrimaryMatch_cases`: What tier 1 decides.
* `findProbabilisticMatch_cases`: What tier 2 decides.
* `runMatching_cases`: What the two tiers decide together.
-/

namespace MmrEngine

namespace Matching

inductive MatchStrategy where
  | exactPrimary
  | probabilisticSecondary
  | unmatched
  deriving DecidableEq, Repr

section Data

variable (α F : Type) [LinearOrder F] [Add F] [Sub F] [Mul F] [Div F] [ScoreArith F]

structure MatchingConfig where
  primaryTimeWindow : ℤ := hours 72
  probabilisticThreshold : F := ScoreArith.ofRat 0.75
  probabilisticTimeWindow : ℤ := hours 168
  amountTolerancePct : ℚ := 0.05
  weightAmount : F := ScoreArith.ofRat 0.40
  weightTime : F := ScoreArith.ofRat 0.25
  weightName : F := ScoreArith.ofRat 0.25
  weightBank : F := ScoreArith.ofRat 0.10
  fxVarianceThresholdPct : ℚ := 0.005
  /-- Best probabilistic score must beat the runner-up by at least this much. -/
  ambiguityMargin : F := ScoreArith.ofRat 0.05

def defaultConfig : MatchingConfig F := {}

/-- A Silver row as the engine reads it. -/
structure TransactionCandidate where
  id : α
  pspName : String
  transactionType : TransactionType
  amountNgn : ℚ
  initiatedAt : ℤ
  counterpartyNameTokens : Option (List String) := none
  beneficiaryBankCode : Option String := none
  senderBankCode : Option String := none
  alreadyMatched : Bool := false
  deriving DecidableEq

structure ConfidenceEvidence where
  amountScore : F
  timeScore : F
  nameScore : F
  bankScore : F
  amountDeltaPct : F
  timeDeltaSeconds : ℚ
  nameSimilarity : Option F
  bankMatch : Bool

/-- The `confidence_evidence` dictionaries a result carries. -/
inductive MatchEvidence where
  | empty
  | exact (timeDeltaSeconds : ℚ) (exactCandidates : Nat)
  | tied (reason : String) (candidateIds : List α)
  | nearTie (reason : String) (bestScore runnerUpScore : F) (candidateIds : List α)
  | scores (amountScore timeScore nameScore bankScore : F) (timeDeltaSeconds : ℚ)
  deriving DecidableEq

structure MatchResult where
  sourceTransactionId : α
  matchedTransactionId : Option α
  strategy : MatchStrategy
  confidenceScore : F
  confidenceEvidence : MatchEvidence α F := .empty
  amountDeltaNgn : Option ℚ := none
  isWithinFxThreshold : Bool := false
  deriving DecidableEq

end Data

/-- `evidence.get("ambiguous")`. -/
def MatchEvidence.ambiguous {α F : Type} : MatchEvidence α F → Bool
  | .tied _ _ => true
  | .nearTie _ _ _ _ => true
  | _ => false

section Engine

variable {α F : Type} [DecidableEq α] [LinearOrder F] [Add F] [Sub F] [Mul F] [Div F] [ScoreArith F]

open ScoreArith

def areComplementaryTypes (typeA typeB : TransactionType) : Bool :=
  (typeA = .credit && typeB = .debit) || (typeA = .debit && typeB = .credit)

def eligible (source c : TransactionCandidate α) : Bool :=
  c.id ≠ source.id && c.pspName ≠ source.pspName && !c.alreadyMatched &&
    areComplementaryTypes source.transactionType c.transactionType

def timeDeltaSeconds (a b : TransactionCandidate α) : ℚ :=
  totalSeconds |a.initiatedAt - b.initiatedAt|

/-- `|source - candidate| / source`, the relative amount delta. -/
def amountDeltaPct (source candidate : TransactionCandidate α) : ℚ :=
  |source.amountNgn - candidate.amountNgn| / source.amountNgn

/-- 1 for the same amount, linearly down to 0 at the tolerance boundary. -/
def amountScore (source candidate : TransactionCandidate α) (config : MatchingConfig F) : F :=
  if 0 < source.amountNgn then
    let deltaPct := amountDeltaPct source candidate
    let tol := config.amountTolerancePct
    if deltaPct = 0 then ofRat 1
    else if 0 < tol ∧ deltaPct ≤ tol then ofRat (1 - deltaPct / tol)
    else ofRat 0
  else ofRat 0

/-- 1 at zero delta, linearly down to 0 at the window boundary. -/
def timeScore (source candidate : TransactionCandidate α) (config : MatchingConfig F) : F :=
  let td := timeDeltaSeconds source candidate
  let win := totalSeconds config.probabilisticTimeWindow
  if td ≤ win then max (ofRat 0) (ofRat 1 - ofRat td / ofRat win) else ofRat 0

/-- Unknown on both sides is neutral, known on one side only is weak evidence
    against. -/
def nameScore (source candidate : TransactionCandidate α) : F :=
  match Pii.nameTokenSimilarity source.counterpartyNameTokens candidate.counterpartyNameTokens with
  | some similarity => ofRat similarity
  | none =>
    if Pii.noName source.counterpartyNameTokens && Pii.noName candidate.counterpartyNameTokens then
      ofRat 0.5
    else ofRat 0.2

/-- The bank code of a transaction, an empty text counting as none. -/
def bankCode (c : TransactionCandidate α) : Option String :=
  (c.beneficiaryBankCode.filter (· ≠ "")).or (c.senderBankCode.filter (· ≠ ""))

def bankScore (source candidate : TransactionCandidate α) : F :=
  match bankCode source, bankCode candidate with
  | some sb, some cb => if sb = cb then ofRat 1 else ofRat 0
  | none, none => ofRat 0.5
  | _, _ => ofRat 0

def computeConfidenceEvidence (source candidate : TransactionCandidate α)
    (config : MatchingConfig F) : ConfidenceEvidence F where
  amountScore := amountScore source candidate config
  timeScore := timeScore source candidate config
  nameScore := nameScore source candidate
  bankScore := bankScore source candidate
  amountDeltaPct :=
    if 0 < source.amountNgn then ofRat (amountDeltaPct source candidate) else ofRat 0
  timeDeltaSeconds := timeDeltaSeconds source candidate
  nameSimilarity :=
    (Pii.nameTokenSimilarity source.counterpartyNameTokens
      candidate.counterpartyNameTokens).map ofRat
  bankMatch := (bankCode source).isSome && bankCode source = bankCode candidate

/-- The weighted sum of the four partial scores. -/
def confidenceScore (ev : ConfidenceEvidence F) (config : MatchingConfig F) : F :=
  ev.amountScore * config.weightAmount + ev.timeScore * config.weightTime +
    ev.nameScore * config.weightName + ev.bankScore * config.weightBank

/-- `_unmatched`. -/
def unmatchedResult (source : TransactionCandidate α) (strategy : MatchStrategy)
    (evidence : MatchEvidence α F) : MatchResult α F where
  sourceTransactionId := source.id
  matchedTransactionId := none
  strategy := strategy
  confidenceScore := ofRat 0
  confidenceEvidence := evidence

/-- The candidates of tier 1 with their time distance, closest first. -/
def exactCandidates (source : TransactionCandidate α) (candidates : List (TransactionCandidate α))
    (config : MatchingConfig F) : List (ℚ × TransactionCandidate α) :=
  (Ranking.ascending Prod.fst
    ((candidates.filter fun c => eligible source c && c.amountNgn = source.amountNgn).map
      fun c => (timeDeltaSeconds source c, c))).filter
    fun pair => pair.1 ≤ totalSeconds config.primaryTimeWindow

/-- The result for the closest candidate of tier 1. -/
def exactResult (source best : TransactionCandidate α) (td : ℚ) (exactCandidates : Nat) :
    MatchResult α F where
  sourceTransactionId := source.id
  matchedTransactionId := some best.id
  strategy := .exactPrimary
  confidenceScore := ofRat 1
  confidenceEvidence := .exact td exactCandidates
  amountDeltaNgn := some 0
  isWithinFxThreshold := true

/-- Tier 1: exact amount, cross-PSP, complementary type, closest in time. -/
def findPrimaryMatch (source : TransactionCandidate α) (candidates : List (TransactionCandidate α))
    (config : MatchingConfig F) : MatchResult α F :=
  match exactCandidates source candidates config with
  | [] => unmatchedResult source .exactPrimary .empty
  | (td, best) :: rest =>
    if rest.head?.map Prod.fst = some td then
      unmatchedResult source .exactPrimary
        (.tied "multiple exact-amount candidates equally close in time"
          ((((td, best) :: rest).take 5).map fun pair => pair.2.id))
    else exactResult source best td (rest.length + 1)

/-- A candidate of tier 2 with its score. -/
structure Scored (α F : Type) where
  score : F
  candidate : TransactionCandidate α
  evidence : ConfidenceEvidence F

/-- The evidence for a candidate, scored. -/
def scoredCandidate (source c : TransactionCandidate α) (config : MatchingConfig F) : Scored α F :=
  let ev := computeConfidenceEvidence source c config
  { score := confidenceScore ev config, candidate := c, evidence := ev }

/-- The candidates of tier 2, best score first. -/
def scoredCandidates (source : TransactionCandidate α) (candidates : List (TransactionCandidate α))
    (config : MatchingConfig F) : List (Scored α F) :=
  Ranking.descending Scored.score
    (((candidates.filter fun c => eligible source c &&
        timeDeltaSeconds source c ≤ totalSeconds config.probabilisticTimeWindow).map
      fun c => scoredCandidate source c config).filter
      -- Outside the amount tolerance: never a match, whatever else agrees.
      fun s => s.evidence.amountScore ≠ ofRat 0)

/-- The result for the best candidate of tier 2. -/
def probabilisticResult (source : TransactionCandidate α) (best : Scored α F)
    (config : MatchingConfig F) : MatchResult α F :=
  let delta := |source.amountNgn - best.candidate.amountNgn|
  let deltaPct := if 0 < source.amountNgn then delta / source.amountNgn else 0
  { sourceTransactionId := source.id
    matchedTransactionId := some best.candidate.id
    strategy := .probabilisticSecondary
    confidenceScore := round4 best.score
    confidenceEvidence := .scores (round4 best.evidence.amountScore)
      (round4 best.evidence.timeScore) (round4 best.evidence.nameScore)
      (round4 best.evidence.bankScore) best.evidence.timeDeltaSeconds
    amountDeltaNgn := some delta
    isWithinFxThreshold := deltaPct ≤ config.fxVarianceThresholdPct }

/-- What tier 2 decides about its ranked candidates. -/
def decideScored (source : TransactionCandidate α) (config : MatchingConfig F)
    (scored : List (Scored α F)) : MatchResult α F :=
  match scored with
  | [] => unmatchedResult source .probabilisticSecondary .empty
  | best :: rest =>
    if best.score < config.probabilisticThreshold then
      unmatchedResult source .probabilisticSecondary .empty
    else
      match rest with
      | [] => probabilisticResult source best config
      | runnerUp :: _ =>
        if best.score - runnerUp.score < config.ambiguityMargin then
          unmatchedResult source .probabilisticSecondary
            (.nearTie "runner-up within ambiguity margin" (round4 best.score)
              (round4 runnerUp.score) (((best :: rest).take 5).map fun s => s.candidate.id))
        else probabilisticResult source best config

/-- Tier 2: weighted confidence score, with an ambiguity guard. -/
def findProbabilisticMatch (source : TransactionCandidate α)
    (candidates : List (TransactionCandidate α)) (config : MatchingConfig F) : MatchResult α F :=
  decideScored source config (scoredCandidates source candidates config)

/-- Full two-tier matching: primary exact, then the probabilistic fallback. -/
def runMatching (source : TransactionCandidate α) (candidates : List (TransactionCandidate α))
    (config : MatchingConfig F) : MatchResult α F :=
  let primary := findPrimaryMatch source candidates config
  if primary.matchedTransactionId.isSome then primary
  else if primary.confidenceEvidence.ambiguous then
    -- Several exact-amount candidates tie: leave it for review.
    unmatchedResult source .unmatched primary.confidenceEvidence
  else
    let prob := findProbabilisticMatch source candidates config
    if prob.matchedTransactionId.isSome then prob
    else unmatchedResult source .unmatched prob.confidenceEvidence

end Engine

section Decisions

variable {α F : Type} [DecidableEq α] [LinearOrder F] [Add F] [Sub F] [Mul F] [Div F] [ScoreArith F]
variable (config : MatchingConfig F) (source : TransactionCandidate α)
  (pool : List (TransactionCandidate α))

open ScoreArith

/-- A candidate of tier 1. -/
def ExactCounterpart (c : TransactionCandidate α) : Prop :=
  eligible source c = true ∧ c.amountNgn = source.amountNgn ∧
    timeDeltaSeconds source c ≤ totalSeconds config.primaryTimeWindow

/-- A candidate of tier 2. -/
def FuzzyCounterpart (c : TransactionCandidate α) : Prop :=
  eligible source c = true ∧
    timeDeltaSeconds source c ≤ totalSeconds config.probabilisticTimeWindow ∧
    amountScore source c config ≠ ofRat 0

/-- The score tier 2 gives a candidate. -/
def pairScore (c : TransactionCandidate α) : F := (scoredCandidate source c config).score

/-- A member of the pool strictly closer in time than every other exact
    counterpart in it. -/
def ClosestExact (m : TransactionCandidate α) : Prop :=
  m ∈ pool ∧ ExactCounterpart config source m ∧
    ∀ c ∈ pool, ExactCounterpart config source c → c ≠ m →
      timeDeltaSeconds source m < timeDeltaSeconds source c

/-- A member of the pool whose score reaches the threshold and beats every
    other fuzzy counterpart in it by the margin. -/
def BestFuzzy (m : TransactionCandidate α) : Prop :=
  m ∈ pool ∧ FuzzyCounterpart config source m ∧
    config.probabilisticThreshold ≤ pairScore config source m ∧
    ∀ c ∈ pool, FuzzyCounterpart config source c → c ≠ m →
      config.ambiguityMargin ≤ pairScore config source m - pairScore config source c

theorem mem_exactCandidates (x : ℚ × TransactionCandidate α) :
    x ∈ exactCandidates source pool config ↔
      x.2 ∈ pool ∧ ExactCounterpart config source x.2 ∧ x.1 = timeDeltaSeconds source x.2 := by
  rcases x with ⟨td, c⟩
  unfold exactCandidates ExactCounterpart
  simp only [List.mem_filter, Ranking.mem_ascending, List.mem_map, Bool.and_eq_true,
    decide_eq_true_eq, Prod.mk.injEq]
  constructor
  · rintro ⟨⟨c', ⟨hc, he, ha⟩, htd, hcc⟩, hw⟩
    subst hcc
    exact ⟨hc, ⟨he, ha, htd ▸ hw⟩, htd.symm⟩
  · rintro ⟨hc, ⟨he, ha, hw⟩, htd⟩
    exact ⟨⟨c, ⟨hc, he, ha⟩, htd.symm, rfl⟩, htd ▸ hw⟩

theorem mem_scoredCandidates (x : Scored α F) :
    x ∈ scoredCandidates source pool config ↔
      ∃ c ∈ pool, FuzzyCounterpart config source c ∧ x = scoredCandidate source c config := by
  unfold scoredCandidates FuzzyCounterpart
  simp only [List.mem_filter, Ranking.mem_descending, List.mem_map, Bool.and_eq_true,
    decide_eq_true_eq]
  constructor
  · rintro ⟨⟨c, ⟨hc, he, hw⟩, hx⟩, ha⟩
    rw [← hx] at ha
    exact ⟨c, hc, ⟨he, hw, ha⟩, hx.symm⟩
  · rintro ⟨c, hc, ⟨he, hw, ha⟩, hx⟩
    rw [hx]
    exact ⟨⟨c, ⟨hc, he, hw⟩, rfl⟩, ha⟩

/-- Tier 1 finds no exact counterpart, or matches the closest one, or is
    ambiguous. -/
theorem findPrimaryMatch_cases :
    ((∀ c ∈ pool, ¬ ExactCounterpart config source c) ∧
        findPrimaryMatch source pool config = unmatchedResult source .exactPrimary .empty) ∨
      (∃ m n, ClosestExact config source pool m ∧
        findPrimaryMatch source pool config
          = exactResult source m (timeDeltaSeconds source m) n) ∨
      ∃ evidence : MatchEvidence α F, evidence.ambiguous = true ∧
        findPrimaryMatch source pool config = unmatchedResult source .exactPrimary evidence := by
  have hmem := mem_exactCandidates config source pool
  have hsorted : (exactCandidates source pool config).Pairwise (fun a b => a.1 ≤ b.1) :=
    (Ranking.ascending_pairwise Prod.fst _).filter _
  unfold findPrimaryMatch
  cases hl : exactCandidates source pool config with
  | nil =>
      refine Or.inl ⟨fun c hc hex => ?_, rfl⟩
      have hin := (hmem (timeDeltaSeconds source c, c)).mpr ⟨hc, hex, rfl⟩
      rw [hl] at hin
      exact List.not_mem_nil hin
  | cons first rest =>
      rcases first with ⟨td, best⟩
      rw [hl] at hmem hsorted
      simp only []
      by_cases htie : rest.head?.map Prod.fst = some td
      · rw [if_pos htie]
        exact Or.inr (Or.inr ⟨_, rfl, rfl⟩)
      · rw [if_neg htie]
        rcases (hmem (td, best)).mp List.mem_cons_self with ⟨hbest, hex, htd⟩
        have htd' : td = timeDeltaSeconds source best := htd
        subst htd'
        refine Or.inr (Or.inl ⟨best, rest.length + 1, ⟨hbest, hex, fun c hc hcex hne => ?_⟩, rfl⟩)
        -- Another exact counterpart stands behind the first place.
        have hin := (hmem (timeDeltaSeconds source c, c)).mpr ⟨hc, hcex, rfl⟩
        rcases List.mem_cons.mp hin with heq | hrest
        · exact absurd (Prod.mk.inj heq).2 hne
        · exact Ranking.first_lt_of_no_tie hsorted htie hrest

/-- Tier 2 has nobody good enough, or matches the best candidate, or is
    ambiguous. -/
theorem findProbabilisticMatch_cases :
    findProbabilisticMatch source pool config
        = unmatchedResult source .probabilisticSecondary .empty ∨
      (∃ m, BestFuzzy config source pool m ∧
        findProbabilisticMatch source pool config
          = probabilisticResult source (scoredCandidate source m config) config) ∨
      ∃ evidence : MatchEvidence α F, evidence.ambiguous = true ∧
        findProbabilisticMatch source pool config
          = unmatchedResult source .probabilisticSecondary evidence := by
  have hmem := mem_scoredCandidates config source pool
  have hsorted : (scoredCandidates source pool config).Pairwise (fun a b => b.score ≤ a.score) :=
    Ranking.descending_pairwise Scored.score _
  unfold findProbabilisticMatch decideScored
  cases hl : scoredCandidates source pool config with
  | nil => exact Or.inl rfl
  | cons best rest =>
      rw [hl] at hmem hsorted
      simp only []
      by_cases hthr : best.score < config.probabilisticThreshold
      · rw [if_pos hthr]
        exact Or.inl rfl
      rw [if_neg hthr]
      rcases (hmem best).mp List.mem_cons_self with ⟨m, hm, hfuzzy, hbest⟩
      subst hbest
      -- Whoever else is a fuzzy counterpart is ranked behind the first place.
      have hbehind : ∀ c ∈ pool, FuzzyCounterpart config source c → c ≠ m →
          scoredCandidate source c config ∈ rest := by
        intro c hc hcf hne
        rcases List.mem_cons.mp ((hmem _).mpr ⟨c, hc, hcf, rfl⟩) with heq | hrest
        · exact absurd (congrArg Scored.candidate heq) hne
        · exact hrest
      cases rest with
      | nil =>
          refine Or.inr (Or.inl ⟨m, ⟨hm, hfuzzy, not_lt.mp hthr, fun c hc hcf hne => ?_⟩, rfl⟩)
          exact absurd (hbehind c hc hcf hne) List.not_mem_nil
      | cons runnerUp others =>
          simp only []
          by_cases hmargin :
              (scoredCandidate source m config).score - runnerUp.score < config.ambiguityMargin
          · rw [if_pos hmargin]
            exact Or.inr (Or.inr ⟨_, rfl, rfl⟩)
          · rw [if_neg hmargin]
            refine Or.inr (Or.inl ⟨m, ⟨hm, hfuzzy, not_lt.mp hthr, fun c hc hcf hne => ?_⟩, rfl⟩)
            have hle := Ranking.le_runner_up hsorted (hbehind c hc hcf hne)
            exact le_trans (not_lt.mp hmargin) (ScoreArith.sub_le_sub _ _ _ hle)

variable {config source pool}

/-- Where tier 1 finds nobody, tier 2 decides. -/
theorem runMatching_of_nobody
    (hr : findPrimaryMatch source pool config = unmatchedResult source .exactPrimary .empty) :
    runMatching source pool config
      = if (findProbabilisticMatch source pool config).matchedTransactionId.isSome then
          findProbabilisticMatch source pool config
        else unmatchedResult source .unmatched
          (findProbabilisticMatch source pool config).confidenceEvidence := by
  have hskip : (unmatchedResult source .exactPrimary .empty
      : MatchResult α F).matchedTransactionId.isSome = false := rfl
  have hquiet : (unmatchedResult source .exactPrimary .empty
      : MatchResult α F).confidenceEvidence.ambiguous = false := rfl
  unfold runMatching
  simp only [hr, hskip, hquiet, Bool.false_eq_true, if_false]

/-- What tier 1 matches is matched. -/
theorem runMatching_of_closest {m : TransactionCandidate α} {td : ℚ} {n : Nat}
    (hr : findPrimaryMatch source pool config = exactResult source m td n) :
    runMatching source pool config = exactResult source m td n := by
  unfold runMatching
  simp only [hr]
  rfl

/-- Where tier 1 cannot choose, tier 2 is not asked. -/
theorem runMatching_of_tie {evidence : MatchEvidence α F} (hev : evidence.ambiguous = true)
    (hr : findPrimaryMatch source pool config = unmatchedResult source .exactPrimary evidence) :
    runMatching source pool config = unmatchedResult source .unmatched evidence := by
  have hskip : (unmatchedResult source .exactPrimary evidence
      : MatchResult α F).matchedTransactionId.isSome = false := rfl
  have hloud : (unmatchedResult source .exactPrimary evidence
      : MatchResult α F).confidenceEvidence.ambiguous = true := hev
  unfold runMatching
  simp only [hr, hskip, hloud, Bool.false_eq_true, if_false, if_true]
  rfl

variable (config source pool)

/-- The four outcomes of the two-tier search. -/
theorem runMatching_cases :
    (∃ m n, ClosestExact config source pool m ∧
        runMatching source pool config = exactResult source m (timeDeltaSeconds source m) n) ∨
      (∃ m, (∀ c ∈ pool, ¬ ExactCounterpart config source c) ∧ BestFuzzy config source pool m ∧
        runMatching source pool config
          = probabilisticResult source (scoredCandidate source m config) config) ∨
      (∃ evidence : MatchEvidence α F, evidence.ambiguous = true ∧
        runMatching source pool config = unmatchedResult source .unmatched evidence) ∨
      (∀ c ∈ pool, ¬ ExactCounterpart config source c) ∧
        runMatching source pool config = unmatchedResult source .unmatched .empty := by
  rcases findPrimaryMatch_cases config source pool with
    ⟨hnone, hr⟩ | ⟨m, n, hm, hr⟩ | ⟨evidence, hev, hr⟩
  · -- Nobody in tier 1: tier 2 decides.
    rw [runMatching_of_nobody hr]
    rcases findProbabilisticMatch_cases config source pool with
      hp | ⟨m, hm, hp⟩ | ⟨evidence, hev, hp⟩
    · rw [hp]
      exact Or.inr (Or.inr (Or.inr ⟨hnone, rfl⟩))
    · rw [hp]
      exact Or.inr (Or.inl ⟨m, hnone, hm, rfl⟩)
    · rw [hp]
      exact Or.inr (Or.inr (Or.inl ⟨evidence, hev, rfl⟩))
  · exact Or.inl ⟨m, n, hm, runMatching_of_closest hr⟩
  · exact Or.inr (Or.inr (Or.inl ⟨evidence, hev, runMatching_of_tie hev hr⟩))

end Decisions

end Matching

end MmrEngine
