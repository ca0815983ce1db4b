import MmrEngine.Flows.GoldSteps
import MmrEngine.Flows.MatchAll

/-!
# From Settings to Pairs

What `silver_to_gold_matching_flow` hands to `persist_pairs`.

The settings of the matching engine are validated when they are read, so their
bounds are part of the structure, and so are the facts about a list of
candidates that the query and the columns give: no id occurs twice, and an
amount is a `NUMERIC(20,6)`. `flowPlans` runs the pass over such a list and
looks the two transactions of every result up again, which finds them
(`flowPlans_isSome`).

`FlowStep` is a step of the concurrent writers in which `persist_pairs` starts
with such pairs, and in which the pair rows satisfy their `CHECK` constraints.

## Main definitions

* `Settings`, `MatchingConfig.fromSettings`: The settings of the engine.
* `IsNumeric`: The values of a `NUMERIC(20,6)` column.
* `CandidateList`: What `fetch_match_candidates` returns.
* `flowPlans`: The pairs of one run.
* `FlowStep`: A step of the writers, with pairs out of the flow.

## Theorems

* `flowPlans_isSome`: The lookups find their transactions.
-/

namespace MmrEngine

namespace Matching

section Flow

variable (F : Type) [LinearOrder F] [Add F] [Sub F] [Mul F] [Div F] [ScoreArith F]

/-- The settings of the matching engine, within the bounds of their fields. -/
structure Settings where
  matchingPrimaryWindowHours : ℕ := 72
  matchingSecondaryWindowHours : ℕ := 168
  matchingSecondaryConfidenceThreshold : F := ScoreArith.ofRat 0.75
  matchingAmountTolerancePct : ℚ := 0.05
  fxVarianceThresholdPct : ℚ := 0.005
  primary_ge : 1 ≤ matchingPrimaryWindowHours
  primary_le : matchingPrimaryWindowHours ≤ 720
  secondary_ge : 1 ≤ matchingSecondaryWindowHours
  secondary_le : matchingSecondaryWindowHours ≤ 720
  windows : matchingPrimaryWindowHours ≤ matchingSecondaryWindowHours
  threshold_ge : ScoreArith.ofRat 0.5 ≤ matchingSecondaryConfidenceThreshold
  threshold_le : matchingSecondaryConfidenceThreshold ≤ ScoreArith.ofRat 1
  tolerance_ge : 0 ≤ matchingAmountTolerancePct
  tolerance_le : matchingAmountTolerancePct ≤ 0.2
  variance_ge : 0 ≤ fxVarianceThresholdPct
  variance_le : fxVarianceThresholdPct ≤ 0.1

variable {F}

/-- `MatchingConfig.from_settings`; the weights and the margin are not settings. -/
def MatchingConfig.fromSettings (s : Settings F) : MatchingConfig F where
  primaryTimeWindow := hours s.matchingPrimaryWindowHours
  probabilisticThreshold := s.matchingSecondaryConfidenceThreshold
  probabilisticTimeWindow := hours s.matchingSecondaryWindowHours
  amountTolerancePct := s.matchingAmountTolerancePct
  fxVarianceThresholdPct := s.fxVarianceThresholdPct

/-- The values of a `NUMERIC(20,6)` column. -/
def IsNumeric (x : ℚ) : Prop := ∃ n : ℤ, |n| < 10 ^ 20 ∧ x = n / 10 ^ 6

/-- What `fetch_match_candidates` returns: rows of a table, by their id. -/
structure CandidateList (α : Type) where
  rows : List (TransactionCandidate α)
  unique : (rows.map TransactionCandidate.id).Nodup
  numeric : ∀ c ∈ rows, IsNumeric c.amountNgn

variable {α : Type} [DecidableEq α]

/-- `by_id[...]`. -/
def CandidateList.byId (candidates : CandidateList α) (id : α) : Option (TransactionCandidate α) :=
  candidates.rows.find? fun c => c.id = id

/-- A result as `persist_pairs` writes it, its two transactions looked up. -/
def planOf (candidates : CandidateList α) (r : MatchResult α F) : Option (Gold.PairPlan α) := do
  let a ← candidates.byId r.sourceTransactionId
  let b ← r.matchedTransactionId.bind candidates.byId
  return {
    a := a.id
    b := b.id
    amountANgn := a.amountNgn
    amountBNgn := b.amountNgn
    amountDeltaNgn := r.amountDeltaNgn }

/-- The pairs of one run. -/
def flowPlans (candidates : CandidateList α) (settings : Settings F) :
    Option (List (Gold.PairPlan α)) :=
  (matchAll candidates.rows (MatchingConfig.fromSettings settings)).mapM (planOf candidates)

theorem CandidateList.byId_of_mem (candidates : CandidateList α) {c : TransactionCandidate α}
    (hc : c ∈ candidates.rows) : candidates.byId c.id = some c := by
  unfold CandidateList.byId
  rw [List.find?_eq_some_iff_append]
  refine ⟨decide_eq_true rfl, ?_⟩
  rcases List.append_of_mem hc with ⟨pre, post, hsplit⟩
  refine ⟨pre, post, hsplit, fun c' hc' => ?_⟩
  have hnodup := candidates.unique
  rw [hsplit, List.map_append, List.map_cons] at hnodup
  have hne := (List.nodup_append.mp hnodup).2.2 c'.id (List.mem_map_of_mem hc') c.id
    List.mem_cons_self
  simpa using hne

omit [LinearOrder F] [Add F] [Sub F] [Mul F] [Div F] [ScoreArith F] in
/-- The lookups of a result's two transactions. -/
theorem planOf_eq (candidates : CandidateList α) {r : MatchResult α F}
    {s m : TransactionCandidate α} (hs : s ∈ candidates.rows) (hm : m ∈ candidates.rows)
    (hsource : r.sourceTransactionId = s.id) (htarget : r.matchedTransactionId = some m.id) :
    planOf candidates r = some
      { a := s.id, b := m.id, amountANgn := s.amountNgn, amountBNgn := m.amountNgn
        amountDeltaNgn := r.amountDeltaNgn } := by
  simp only [planOf, hsource, htarget, candidates.byId_of_mem hs, Option.bind_some,
    candidates.byId_of_mem hm]
  rfl

/-- What the pass has made of two candidates. -/
theorem planOf_of_mem (candidates : CandidateList α) {config : MatchingConfig F}
    {r : MatchResult α F} (hr : r ∈ matchAll candidates.rows config) :
    ∃ s ∈ candidates.rows, ∃ m ∈ candidates.rows,
      planOf candidates r = some
        { a := s.id, b := m.id, amountANgn := s.amountNgn, amountBNgn := m.amountNgn
          amountDeltaNgn := r.amountDeltaNgn } ∧
      ((m.amountNgn = s.amountNgn ∧ r.amountDeltaNgn = some 0) ∨
        (amountScore s m config ≠ ScoreArith.ofRat 0 ∧
          r.amountDeltaNgn = some |s.amountNgn - m.amountNgn|)) := by
  rcases (mem_matchAll candidates.rows config r).mp hr with ⟨pre, s, post, hacc⟩
  have hs : s ∈ candidates.rows := by
    rw [hacc.split]
    exact List.mem_append_right _ List.mem_cons_self
  rcases acceptedAt_cases hacc with ⟨m, n, hm, hr⟩ | ⟨m, _, hm, hr⟩
  · -- The exact tier: equal amounts.
    have hmem := ((mem_availableAfter _ _ _ _).mp hm.1).1
    refine ⟨s, hs, m, hmem, planOf_eq candidates hs hmem (by rw [hr]; rfl) (by rw [hr]; rfl),
      Or.inl ⟨hm.2.1.2.1, ?_⟩⟩
    rw [hr]
    rfl
  · -- The fuzzy tier: a gap within the tolerance.
    have hmem := ((mem_availableAfter _ _ _ _).mp hm.1).1
    refine ⟨s, hs, m, hmem, planOf_eq candidates hs hmem (by rw [hr]; rfl) (by rw [hr]; rfl),
      Or.inr ⟨hm.2.1.2.2, ?_⟩⟩
    rw [hr]
    rfl

/-- The lookups find their transactions. -/
theorem flowPlans_isSome (candidates : CandidateList α) (settings : Settings F) :
    (flowPlans candidates settings).isSome = true := by
  have hall : ∀ results : List (MatchResult α F),
      (∀ r ∈ results, (planOf candidates r).isSome = true) →
      (results.mapM (planOf candidates)).isSome = true := by
    intro results hresults
    induction results with
    | nil => rfl
    | cons r results ih =>
        rcases Option.isSome_iff_exists.mp (hresults r List.mem_cons_self) with ⟨p, hp⟩
        rcases Option.isSome_iff_exists.mp
          (ih fun r' hr' => hresults r' (List.mem_cons_of_mem _ hr')) with ⟨ps, hps⟩
        simp [List.mapM_cons, hp, hps]
  refine hall _ fun r hr => ?_
  rcases planOf_of_mem candidates hr with ⟨s, _, m, _, hplan, _⟩
  rw [hplan]
  rfl

/-- A run has one pair for each result, in their order. -/
theorem map_flowPlans {candidates : CandidateList α} {settings : Settings F}
    {plans : List (Gold.PairPlan α)} (h : flowPlans candidates settings = some plans) :
    (matchAll candidates.rows (MatchingConfig.fromSettings settings)).map (planOf candidates)
      = plans.map some := by
  have hall : ∀ (results : List (MatchResult α F)) (plans : List (Gold.PairPlan α)),
      results.mapM (planOf candidates) = some plans →
      results.map (planOf candidates) = plans.map some := by
    intro results
    induction results with
    | nil =>
        intro plans hplans
        rw [List.mapM_nil] at hplans
        cases hplans
        rfl
    | cons r results ih =>
        intro plans hplans
        rw [List.mapM_cons] at hplans
        rcases Option.bind_eq_some_iff.mp hplans with ⟨p, hp, hplans⟩
        rcases Option.bind_eq_some_iff.mp hplans with ⟨rest, hrest, hplans⟩
        cases hplans
        rw [List.map_cons, List.map_cons, hp, ih rest hrest]
  exact hall _ plans h

/-- The pairs of a run are those of the results of its pass. -/
theorem mem_flowPlans_iff {candidates : CandidateList α} {settings : Settings F}
    {plans : List (Gold.PairPlan α)} (h : flowPlans candidates settings = some plans)
    (p : Gold.PairPlan α) :
    p ∈ plans ↔ ∃ r ∈ matchAll candidates.rows (MatchingConfig.fromSettings settings),
      planOf candidates r = some p := by
  rw [← List.mem_map, map_flowPlans h]
  simp

end Flow

end Matching

namespace Gold

section Flow

variable {T : Type} [DecidableEq T]
variable (F : Type) [LinearOrder F] [Add F] [Sub F] [Mul F] [Div F] [ScoreArith F]

/-- `CHECK (amount_a_ngn >= 0)` and `CHECK (amount_b_ngn >= 0)`. -/
def PairRow.Checked (r : PairRow T) : Prop := 0 ≤ r.amountANgn ∧ 0 ≤ r.amountBNgn

/-- A step of the writers: `persist_pairs` begins with the pairs of a run of the
    matching flow, and a pair row is inserted within its constraints. -/
structure FlowStep (s s' : GoldDb T) : Prop where
  step : Step s s'
  plans : ∀ t now run, s.sessions t = .idle → s'.sessions t = .active now (.persisting run) →
    ∃ (candidates : Matching.CandidateList T) (settings : Matching.Settings F),
      Matching.flowPlans candidates settings = some run.todo
  checked : ∀ pid r, s.pairs pid = none → s'.pairs pid = some r → r.value.Checked

/-- What holds of the runs of all writers holds of these. -/
theorem reachable_of_flow {s : GoldDb T} (h : Transition.Reachable Initial (FlowStep F) s) :
    Transition.Reachable Initial Step s :=
  Transition.reachable_mono (fun _ _ hstep => hstep.step) h

end Flow

end Gold

end MmrEngine
