import MmrEngine.Engine.Matching
import MmrEngine.Lib.Greedy

/-!
# The Matching Pass

`match_all`: every candidate in turn searches among those nobody has taken yet.

The pass is an instance of the one-pass greedy assignment of the library:
`search` is the two-tier search, which answers with the transaction it was
asked for and matches an available transaction with another id. What the
library says about moments of a pass carries over, with `stateAfter` and
`availableAfter` for the state and the pool once a prefix of the list has had
its turns.

## Main definitions

* `matchAll`: The loop.
* `stateAfter`, `availableAfter`: The loop's state and pool after a prefix.
* `AcceptedAt`: A result is accepted at one moment of the pass.
* `search`: The two-tier search as a search of the library.

## Theorems

* `stateAfter_eq_pass`: The loop is the greedy pass.
* `search_honest`: The search settles on another available transaction.
* `mem_matchAll`: Every result was accepted at some moment.
* `acceptedAt_cases`: What made the pass accept it.
* `exact_rival_waits`: An exact counterpart passed over was ambiguous itself.
-/

namespace MmrEngine

namespace Matching

variable {α F : Type} [DecidableEq α] [LinearOrder F] [Add F] [Sub F] [Mul F] [Div F] [ScoreArith F]

/-- The loop variables of `match_all`. -/
structure MatchProgress (α F : Type) where
  matched : List α
  pairs : List (MatchResult α F)

/-- One iteration of the loop. -/
def matchAllStep (candidates : List (TransactionCandidate α)) (config : MatchingConfig F)
    (st : MatchProgress α F) (source : TransactionCandidate α) : MatchProgress α F :=
  if source.id ∈ st.matched then st
  else
    let available := candidates.filter fun c => c.id ∉ st.matched
    let result := runMatching source available config
    match result.matchedTransactionId with
    | none => st
    | some matchedId =>
      { matched := st.matched ++ [source.id, matchedId]
        pairs := st.pairs ++ [result] }

/-- The loop's state once the transactions of `pre` have had their turn. -/
def stateAfter (candidates : List (TransactionCandidate α)) (config : MatchingConfig F)
    (pre : List (TransactionCandidate α)) : MatchProgress α F :=
  pre.foldl (matchAllStep candidates config) { matched := [], pairs := [] }

/-- Greedy one-to-one matching in initiation order. -/
def matchAll (candidates : List (TransactionCandidate α)) (config : MatchingConfig F) :
    List (MatchResult α F) :=
  (stateAfter candidates config candidates).pairs

/-- The candidates nobody has taken yet. -/
def availableAfter (candidates : List (TransactionCandidate α)) (config : MatchingConfig F)
    (pre : List (TransactionCandidate α)) : List (TransactionCandidate α) :=
  candidates.filter fun c => c.id ∉ (stateAfter candidates config pre).matched

/-- At the turn of `s`, after `pre` and before `post`, the pass accepts `r`. -/
structure AcceptedAt (candidates : List (TransactionCandidate α)) (config : MatchingConfig F)
    (pre : List (TransactionCandidate α)) (s : TransactionCandidate α)
    (post : List (TransactionCandidate α)) (r : MatchResult α F) : Prop where
  split : candidates = pre ++ s :: post
  free : s.id ∉ (stateAfter candidates config pre).matched
  result : r = runMatching s (availableAfter candidates config pre) config
  accepted : r.matchedTransactionId ≠ none

/-- At its turn, after `pre`, the transaction `x` got an ambiguous result. -/
def ReportedAmbiguous (candidates : List (TransactionCandidate α)) (config : MatchingConfig F)
    (pre : List (TransactionCandidate α)) (x : TransactionCandidate α) : Prop :=
  x.id ∉ (stateAfter candidates config pre).matched ∧
    (runMatching x (availableAfter candidates config pre) config).matchedTransactionId = none ∧
    (runMatching x (availableAfter candidates config pre) config).confidenceEvidence.ambiguous
      = true

/-- The ids a result pairs up. -/
def pairIds (r : MatchResult α F) : List α :=
  r.sourceTransactionId :: r.matchedTransactionId.toList

/-- The two-tier search, as the library sees it. -/
def search (config : MatchingConfig F) :
    Greedy.Search (TransactionCandidate α) α (MatchResult α F) where
  key := TransactionCandidate.id
  search s pool := runMatching s pool config
  origin := MatchResult.sourceTransactionId
  target := MatchResult.matchedTransactionId

section Pass

variable (candidates : List (TransactionCandidate α)) (config : MatchingConfig F)

/-- The loop state is the state of the greedy pass. -/
theorem stateAfter_eq_pass (pre : List (TransactionCandidate α)) :
    stateAfter candidates config pre =
      { matched := (Greedy.pass (search config) candidates pre).used
        pairs := (Greedy.pass (search config) candidates pre).picks } := by
  induction pre using List.reverseRecOn with
  | nil => rfl
  | append_singleton xs s ih =>
      have hstep : stateAfter candidates config (xs ++ [s])
          = matchAllStep candidates config (stateAfter candidates config xs) s := by
        simp only [stateAfter, List.foldl_append, List.foldl_cons, List.foldl_nil]
      rw [hstep, ih, Greedy.pass_concat]
      unfold matchAllStep Greedy.visit
      by_cases hs : s.id ∈ (Greedy.pass (search config) candidates xs).used
      · have hs' : (search config).key s ∈ (Greedy.pass (search config) candidates xs).used := hs
        simp only [if_pos hs, if_pos hs']
      · have hs' : (search config).key s ∉ (Greedy.pass (search config) candidates xs).used := hs
        simp only [if_neg hs, if_neg hs']
        -- Both searches are one term; only the record around the result differs.
        have hsame : (search config).search s
            (Greedy.available (search config) candidates
              (Greedy.pass (search config) candidates xs).used)
            = runMatching s (candidates.filter fun c =>
                c.id ∉ (Greedy.pass (search config) candidates xs).used) config := rfl
        rw [hsame]
        have htarget : ∀ r : MatchResult α F,
            (search config).target r = r.matchedTransactionId := fun _ => rfl
        rw [htarget]
        cases (runMatching s (candidates.filter fun c =>
          c.id ∉ (Greedy.pass (search config) candidates xs).used) config).matchedTransactionId with
        | none => rfl
        | some k => rfl

theorem availableAfter_eq (pre : List (TransactionCandidate α)) :
    availableAfter candidates config pre
      = Greedy.available (search config) candidates
          (Greedy.pass (search config) candidates pre).used := by
  unfold availableAfter
  rw [stateAfter_eq_pass]
  rfl

theorem mem_availableAfter (pre : List (TransactionCandidate α)) (c : TransactionCandidate α) :
    c ∈ availableAfter candidates config pre ↔
      c ∈ candidates ∧ c.id ∉ (stateAfter candidates config pre).matched := by
  unfold availableAfter
  rw [List.mem_filter, decide_eq_true_eq]

/-- A match is an available transaction with another id. -/
theorem runMatching_target {source : TransactionCandidate α}
    {pool : List (TransactionCandidate α)} {k : α}
    (h : (runMatching source pool config).matchedTransactionId = some k) :
    ∃ m ∈ pool, m.id = k ∧ eligible source m = true := by
  rcases runMatching_cases config source pool with
    ⟨m, n, hm, hr⟩ | ⟨m, _, hm, hr⟩ | ⟨ev, _, hr⟩ | ⟨_, hr⟩
  · rw [hr] at h
    exact ⟨m, hm.1, Option.some.inj h, hm.2.1.1⟩
  · rw [hr] at h
    exact ⟨m, hm.1, Option.some.inj h, hm.2.1.1⟩
  · rw [hr] at h
    cases h
  · rw [hr] at h
    cases h

/-- A result is about the transaction that searched. -/
theorem runMatching_source (source : TransactionCandidate α)
    (pool : List (TransactionCandidate α)) :
    (runMatching source pool config).sourceTransactionId = source.id := by
  rcases runMatching_cases config source pool with
    ⟨m, n, _, hr⟩ | ⟨m, _, _, hr⟩ | ⟨ev, _, hr⟩ | ⟨_, hr⟩ <;> rw [hr] <;> rfl

theorem eligible_ids {source c : TransactionCandidate α} (h : eligible source c = true) :
    c.id ≠ source.id := by
  unfold eligible at h
  simp only [Bool.and_eq_true, decide_eq_true_eq] at h
  exact h.1.1.1

theorem search_honest : Greedy.Honest (search (α := α) config) where
  origin_eq s pool := runMatching_source config s pool
  target_mem s pool k hk := by
    rcases runMatching_target config hk with ⟨m, hm, hmk, hel⟩
    exact ⟨m, hm, hmk, hmk ▸ eligible_ids hel⟩

/-- No transaction occurs twice among the results. -/
theorem nodup_matchAll : ((matchAll candidates config).flatMap pairIds).Nodup := by
  have h := Greedy.nodup_picks (search config) candidates (search_honest config) candidates
  unfold matchAll
  rw [stateAfter_eq_pass]
  exact h

/-- Every result was accepted at one moment of the pass. -/
theorem mem_matchAll (r : MatchResult α F) :
    r ∈ matchAll candidates config ↔ ∃ pre s post, AcceptedAt candidates config pre s post r := by
  have h := Greedy.mem_picks (search config) candidates candidates r
  unfold matchAll
  rw [stateAfter_eq_pass]
  refine h.trans ?_
  constructor
  · rintro ⟨pre, s, post, hsplit, hs, hr, k, hk⟩
    have hk' : r.matchedTransactionId = some k := hk
    refine ⟨pre, s, post, hsplit, ?_, ?_, ?_⟩
    · rw [stateAfter_eq_pass]
      exact hs
    · rw [availableAfter_eq]
      exact hr
    · rw [hk']
      exact Option.some_ne_none k
  · rintro ⟨pre, s, post, hsplit, hs, hr, hk⟩
    rw [stateAfter_eq_pass] at hs
    rw [availableAfter_eq] at hr
    exact ⟨pre, s, post, hsplit, hs, hr, Option.ne_none_iff_exists'.mp hk⟩

variable {candidates config}

/-- An accepted result is the closest exact counterpart, or, with no exact
    counterpart around, the best fuzzy one. -/
theorem acceptedAt_cases {pre post : List (TransactionCandidate α)} {s : TransactionCandidate α}
    {r : MatchResult α F} (h : AcceptedAt candidates config pre s post r) :
    (∃ m n, ClosestExact config s (availableAfter candidates config pre) m ∧
        r = exactResult s m (timeDeltaSeconds s m) n) ∨
      ∃ m, (∀ c ∈ availableAfter candidates config pre, ¬ ExactCounterpart config s c) ∧
        BestFuzzy config s (availableAfter candidates config pre) m ∧
        r = probabilisticResult s (scoredCandidate s m config) config := by
  rcases runMatching_cases config s (availableAfter candidates config pre) with
    hexact | hfuzzy | ⟨ev, _, hr⟩ | ⟨_, hr⟩
  · rw [← h.result] at hexact
    exact Or.inl hexact
  · rw [← h.result] at hfuzzy
    exact Or.inr hfuzzy
  · exact absurd (by rw [h.result, hr]; rfl) h.accepted
  · exact absurd (by rw [h.result, hr]; rfl) h.accepted

omit [DecidableEq α] in
theorem timeDeltaSeconds_comm (a b : TransactionCandidate α) :
    timeDeltaSeconds a b = timeDeltaSeconds b a := by
  unfold timeDeltaSeconds
  rw [abs_sub_comm]

theorem areComplementaryTypes_comm (a b : TransactionType) :
    areComplementaryTypes a b = areComplementaryTypes b a := by
  cases a <;> cases b <;> rfl

/-- Eligibility is symmetric between transactions not matched before. -/
theorem eligible_symm {a b : TransactionCandidate α} (ha : a.alreadyMatched = false)
    (h : eligible a b = true) : eligible b a = true := by
  unfold eligible at h ⊢
  simp only [Bool.and_eq_true, decide_eq_true_eq, Bool.not_eq_true'] at h ⊢
  rcases h with ⟨⟨⟨hid, hpsp⟩, _⟩, htypes⟩
  rw [areComplementaryTypes_comm] at htypes
  exact ⟨⟨⟨Ne.symm hid, Ne.symm hpsp⟩, ha⟩, htypes⟩

theorem ExactCounterpart.symm {a b : TransactionCandidate α} (ha : a.alreadyMatched = false)
    (h : ExactCounterpart config a b) : ExactCounterpart config b a := by
  rcases h with ⟨hel, hamount, hwindow⟩
  rw [timeDeltaSeconds_comm] at hwindow
  exact ⟨eligible_symm ha hel, hamount.symm, hwindow⟩

theorem eligible_not_matched {source c : TransactionCandidate α} (h : eligible source c = true) :
    c.alreadyMatched = false := by
  unfold eligible at h
  simp only [Bool.and_eq_true, Bool.not_eq_true'] at h
  exact h.1.2

/-- An available exact counterpart of an available transaction `m`, other than
    the one whose turn it is, either comes later or had an ambiguous turn. -/
theorem exact_rival_waits {pre post : List (TransactionCandidate α)}
    {s m x : TransactionCandidate α} (hsplit : candidates = pre ++ s :: post)
    (hm : m ∈ availableAfter candidates config pre) (hmfree : m.alreadyMatched = false)
    (hx : x ∈ availableAfter candidates config pre) (hxs : x ≠ s)
    (hex : ExactCounterpart config m x) :
    x ∈ post ∨ ∃ pre₁ post₁, pre = pre₁ ++ x :: post₁ ∧
      ReportedAmbiguous candidates config pre₁ x := by
  have hxall : x ∈ pre ++ s :: post := hsplit ▸ ((mem_availableAfter _ _ _ _).mp hx).1
  rcases List.mem_append.mp hxall with hpre | hrest
  · right
    have hxfree : x.id ∉ (Greedy.pass (search config) candidates pre).used := by
      have hxf := ((mem_availableAfter _ _ _ _).mp hx).2
      rw [stateAfter_eq_pass] at hxf
      exact hxf
    rcases Greedy.passed_over (search config) candidates hpre hxfree with
      ⟨pre₁, post₁, hpre₁, hfree₁, hnone⟩
    have hfree₁' : x.id ∉ (stateAfter candidates config pre₁).matched := by
      rw [stateAfter_eq_pass]
      exact hfree₁
    have hnone' : (runMatching x (availableAfter candidates config pre₁)
        config).matchedTransactionId = none := by
      rw [availableAfter_eq]
      exact hnone
    -- `m` was available at the turn of `x` already.
    have hm₁ : m ∈ availableAfter candidates config pre₁ := by
      rw [availableAfter_eq] at hm ⊢
      rw [hpre₁] at hm
      exact Greedy.available_antitone (search config) candidates pre₁ _ hm
    have hexm : ExactCounterpart config x m := ExactCounterpart.symm hmfree hex
    refine ⟨pre₁, post₁, hpre₁, hfree₁', hnone', ?_⟩
    rcases runMatching_cases config x (availableAfter candidates config pre₁) with
      ⟨m', n, _, hr⟩ | ⟨m', hno, _, _⟩ | ⟨ev, hev, hr⟩ | ⟨hno, _⟩
    · rw [hr] at hnone'
      cases hnone'
    · exact absurd hexm (hno m hm₁)
    · rw [hr]
      exact hev
    · exact absurd hexm (hno m hm₁)
  · rcases List.mem_cons.mp hrest with heq | hpost
    · exact absurd heq hxs
    · exact Or.inl hpost

end Pass

end Matching

end MmrEngine
