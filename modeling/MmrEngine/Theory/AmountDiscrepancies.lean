import MmrEngine.Core.Decimal
import MmrEngine.Flows.MatchingFlow
import MmrEngine.Theory.OneMatch

/-!
# A Pair and Its Discrepancy

A committed pair whose amounts differ by more than the threshold says so and
has exactly one discrepancy, of its own transaction and over its delta; any
other pair is matched and has none.

What makes it so is that the pair's savepoint holds both, and that the pass
produces no pair with a second amount of zero, which would be classified as
something else. What the discrepancy's own statement does about a row that is
already there, `ON CONFLICT DO NOTHING`, is never put to the test: such a row
belongs to a pair of the same transaction (`AmountInv.linked`), and the primary
key of `gold_matched_transactions` has room for one pair only, which is the one
at hand (`no_conflict`).

`AmountInv` is about committed and uncommitted rows alike. While a savepoint is
open the pair may be ahead of its discrepancy, so what `status` says is left
out until the savepoint is released or the discrepancy raised (`SavedAt`).

The threshold is compared with a quotient that Python rounds to 28 digits. For
amounts out of `NUMERIC(20,6)` columns that rounding does not matter, as
`exceeds_iff_rounded` says.

## Main definitions

* `Exceeds`: The amounts of a pair differ by more than the threshold.
* `SoundPlan`: What the pass says about the amounts of a pair.
* `AmountInv`: The invariant.

## Theorems

* `exceeds_iff_rounded`: The threshold as the source compares it.
* `soundPlan_of_flow`: The pairs of a run are sound.
* `no_conflict`: Nobody has raised the discrepancy of a pair before.
* `amountInv_step`: A step keeps the invariant.
* `matched_pair_and_discrepancy`: What it says about committed states.
-/

namespace MmrEngine

namespace Gold

open Discrepancy

section Amounts

/-- The amounts differ by more than 0.5% of the first. -/
def Exceeds (amountANgn amountBNgn : ℚ) : Prop :=
  amountThresholdPct * amountANgn < |amountANgn - amountBNgn|

/-- The classes an amount delta can have. -/
def AmountClass (c : DiscrepancyType) : Prop := c = .amountMismatch ∨ c = .fxVariance

theorem amountClass_ne {c : DiscrepancyType} (h : AmountClass c) : c ≠ .missingSettlement := by
  rintro rfl
  rcases h with h | h <;> cases h

/-- What the pass says about the amounts of a pair: they come out of their
    columns, they are equal, or both positive, and the delta is theirs. -/
def SoundPlan {T : Type} (p : PairPlan T) : Prop :=
  Matching.IsNumeric p.amountANgn ∧ Matching.IsNumeric p.amountBNgn ∧
    ((p.amountANgn = p.amountBNgn ∧ p.amountDeltaNgn = some 0) ∨
      (0 < p.amountANgn ∧ 0 < p.amountBNgn ∧
        p.amountDeltaNgn = some |p.amountANgn - p.amountBNgn|))

theorem soundPlan_delta {T : Type} {p : PairPlan T} (h : SoundPlan p) :
    p.amountDeltaNgn.getD 0 = |p.amountANgn - p.amountBNgn| := by
  rcases h with ⟨_, _, ⟨hsame, hdelta⟩ | ⟨_, _, hdelta⟩⟩
  · rw [hdelta, hsame, sub_self, abs_zero]
    rfl
  · rw [hdelta]
    rfl

theorem exceeds_pos {a b : ℚ} (ha : 0 ≤ a) (h : Exceeds a b) : 0 < |a - b| := by
  unfold Exceeds amountThresholdPct at h
  linarith

theorem not_exceeds_self {a : ℚ} (ha : 0 ≤ a) : ¬ Exceeds a a := by
  intro h
  have hpos := exceeds_pos ha h
  rw [sub_self, abs_zero] at hpos
  exact lt_irrefl _ hpos

theorem deltaPct_le_iff {a b : ℚ} (ha : 0 < a) :
    deltaPct a b ≤ amountThresholdPct ↔ ¬ Exceeds a b := by
  rw [deltaPct, if_pos ha, div_le_iff₀ ha, Exceeds, not_lt]

/-- Amounts that differ too much raise a discrepancy over their delta, and
    others none. -/
theorem amountFinding_cases {T : Type} [DecidableEq T] (silver : List (SilverRow T))
    {p : PairPlan T} (hp : SoundPlan p) (ha : 0 ≤ p.amountANgn) :
    (amountFinding silver p = none ∧ ¬ Exceeds p.amountANgn p.amountBNgn) ∨
      ∃ f, amountFinding silver p = some f ∧ Exceeds p.amountANgn p.amountBNgn ∧
        AmountClass f.classification ∧ f.exposure = |p.amountANgn - p.amountBNgn| := by
  unfold amountFinding
  rcases hp with ⟨_, _, ⟨hsame, hdelta⟩ | ⟨hposA, hposB, hdelta⟩⟩
  · refine Or.inl ⟨?_, ?_⟩
    · simp [hdelta]
    · rw [← hsame]
      exact not_exceeds_self ha
  · simp only [hdelta, Option.getD_some]
    by_cases hexceeds : Exceeds p.amountANgn p.amountBNgn
    · right
      rw [if_pos (exceeds_pos ha hexceeds)]
      have hover : ¬ deltaPct p.amountANgn p.amountBNgn ≤ amountThresholdPct := by
        rw [deltaPct_le_iff hposA]
        exact not_not.mpr hexceeds
      -- Rates decide between the two classes.
      have hclass : ∀ fx, ∃ c, AmountClass c ∧
          (classifyAmountDelta p.amountANgn p.amountBNgn fx).1 = some c := by
        intro fx
        unfold classifyAmountDelta
        rw [if_neg hposB.ne', if_neg hover]
        cases fx with
        | none => exact ⟨_, Or.inl rfl, rfl⟩
        | some x =>
            simp only []
            split
            · exact ⟨_, Or.inr rfl, rfl⟩
            · exact ⟨_, Or.inl rfl, rfl⟩
      rcases hclass (fxVariance (fxRateOf silver p.a) (fxRateOf silver p.b)) with ⟨c, hc, hfst⟩
      simp only [classifyAmountDiscrepancy, hfst]
      exact ⟨_, rfl, hexceeds, hc, rfl⟩
    · refine Or.inl ⟨?_, hexceeds⟩
      have hwithin := (deltaPct_le_iff hposA).mpr hexceeds
      simp [classifyAmountDiscrepancy, classifyAmountDelta, hposB.ne', hwithin]

/-- Amounts out of `NUMERIC(20,6)` columns, in millionths. -/
theorem numeric_quotient {a b : ℚ} (ha : Matching.IsNumeric a) (hb : Matching.IsNumeric b)
    (hpos : 0 < a) : ∃ n d : ℤ, 0 < n ∧ n < 10 ^ 20 ∧ d < 10 ^ 21 ∧ a = n / 10 ^ 6 ∧
      |a - b| = d / 10 ^ 6 ∧ |a - b| / a = d / n := by
  rcases ha with ⟨n, hn, rfl⟩
  rcases hb with ⟨m, hm, rfl⟩
  have hnpos : 0 < n := by
    by_contra hc
    have hle : (n : ℚ) ≤ 0 := by exact_mod_cast not_lt.mp hc
    linarith [div_nonpos_of_nonpos_of_nonneg hle (by norm_num : (0 : ℚ) ≤ 10 ^ 6)]
  have hnq : (0 : ℚ) < n := by exact_mod_cast hnpos
  have hdelta : |(n : ℚ) / 10 ^ 6 - m / 10 ^ 6| = ((|n - m| : ℤ) : ℚ) / 10 ^ 6 := by
    rw [← sub_div, abs_div]
    push_cast
    norm_num
  refine ⟨n, |n - m|, hnpos, lt_of_le_of_lt (le_abs_self n) hn, ?_, rfl, hdelta, ?_⟩
  · have htriangle := abs_sub n m
    omega
  · rw [hdelta]
    field_simp

/-- Amounts that differ by more than the threshold do so by more than a rounding
    error. -/
theorem exceeds_gap {a b : ℚ} (ha : Matching.IsNumeric a) (hb : Matching.IsNumeric b)
    (hpos : 0 < a) (h : Exceeds a b) :
    (amountThresholdPct : ℚ) + 10 ^ (-28 : ℤ) ≤ |a - b| / a := by
  rcases numeric_quotient ha hb hpos with ⟨n, d, hn, hbound, -, hamount, hdelta, hquotient⟩
  unfold Exceeds amountThresholdPct at h
  rw [hdelta, hamount] at h
  -- In millionths both sides are whole numbers.
  have hwhole : n < 200 * d := by
    have hq : (n : ℚ) < 200 * d := by linarith
    exact_mod_cast hq
  have hstep : (n : ℚ) + 1 ≤ 200 * d := by exact_mod_cast hwhole
  have hnq : (0 : ℚ) < n := by exact_mod_cast hn
  have hboundq : (n : ℚ) < 10 ^ 20 := by exact_mod_cast hbound
  have hunit : (10 : ℚ) ^ (-28 : ℤ) = 1 / 10 ^ 28 := by norm_num
  rw [hquotient, le_div_iff₀ hnq, amountThresholdPct, hunit]
  linarith

/-- The quotient the source computes is above the threshold exactly when the
    amounts differ by more than that. -/
theorem exceeds_iff_rounded {a b : ℚ} (ha : Matching.IsNumeric a) (hb : Matching.IsNumeric b)
    (hpos : 0 < a) : ∃ q, Decimal.divide |a - b| a = .ok q ∧
      (amountThresholdPct < q ↔ Exceeds a b) := by
  have hnonneg : 0 ≤ |a - b| / a := div_nonneg (abs_nonneg _) hpos.le
  -- The quotient is far from the largest exponent.
  have hlimit : |a - b| / a < Decimal.overflowLimit := by
    rcases numeric_quotient ha hb hpos with ⟨n, d, hn, -, hbound, -, -, hquotient⟩
    have hnq : (1 : ℚ) ≤ n := by exact_mod_cast hn
    have hdq : (d : ℚ) < 10 ^ 21 := by exact_mod_cast hbound
    have hexp : (1 : ℚ) ≤ 10 ^ (999972 : ℤ) := one_le_zpow₀ (by norm_num) (by norm_num)
    have hscale : (1 : ℚ) ≤ 10 ^ (999972 : ℤ) * n := one_le_mul_of_one_le_of_one_le hexp hnq
    rw [hquotient, div_lt_iff₀ (by linarith), Decimal.overflowLimit, mul_assoc]
    generalize (10 : ℚ) ^ (999972 : ℤ) * n = scale at hscale ⊢
    linarith
  refine ⟨_, Decimal.divide_of_nonneg hnonneg hlimit, ?_⟩
  have hthreshold : amountThresholdPct = ((5 : ℤ) : ℚ) * 10 ^ (-3 : ℤ) := by
    norm_num [amountThresholdPct]
  by_cases hexceeds : Exceeds a b
  · refine ⟨fun _ => hexceeds, fun _ => ?_⟩
    have hgap := exceeds_gap ha hb hpos hexceeds
    have hquotient : 0 < |a - b| / a := by
      have hunit := Decimal.zpow_ten_pos (-28)
      unfold amountThresholdPct at hgap
      linarith
    by_cases hlog : 0 ≤ Int.log 10 (|a - b| / a)
    · -- From 1 on there is no need to look at the last place.
      have hlead := Decimal.zpow_log_le_roundedMagnitude hquotient (by unfold Decimal.etiny; omega)
      have hone : (1 : ℚ) ≤ 10 ^ Int.log 10 (|a - b| / a) := one_le_zpow₀ (by norm_num) hlog
      unfold amountThresholdPct
      linarith
    · have hplace : Decimal.lastPlace (|a - b| / a) ≤ -28 := by
        unfold Decimal.lastPlace Decimal.etiny
        omega
      have hunit := Decimal.zpow_ten_le hplace
      rw [hthreshold] at hgap ⊢
      exact Decimal.lt_roundedMagnitude_of_gap 5 (by omega) (by linarith)
  · refine ⟨fun hq => absurd hq (not_lt.mpr ?_), fun h => absurd h hexceeds⟩
    have hle : |a - b| / a ≤ amountThresholdPct := by
      rw [div_le_iff₀ hpos]
      exact not_lt.mp hexceeds
    rw [hthreshold] at hle ⊢
    refine Decimal.roundedMagnitude_le_of_le 5 ?_ hle
    have hlog : Int.log 10 (|a - b| / a) ≤ 0 := by
      rcases eq_or_lt_of_le hnonneg with hzero | hquotient
      · rw [← hzero, Int.log_zero_right]
      · by_contra hc
        have hlead := Decimal.zpow_log_le hquotient
        have hone : (1 : ℚ) ≤ 10 ^ Int.log 10 (|a - b| / a) := one_le_zpow₀ (by norm_num) (by omega)
        norm_num at hle
        linarith
    unfold Decimal.lastPlace Decimal.etiny
    omega

end Amounts

section Plans

variable {T F : Type} [DecidableEq T]
variable [LinearOrder F] [Add F] [Sub F] [Mul F] [Div F] [ScoreArith F]

omit [DecidableEq T] in
/-- A candidate of tier 2 has a positive amount not too far from another. -/
theorem amountScore_near {source c : Matching.TransactionCandidate T}
    {config : Matching.MatchingConfig F}
    (h : Matching.amountScore source c config ≠ ScoreArith.ofRat 0) :
    0 < source.amountNgn ∧ (source.amountNgn = c.amountNgn ∨
      |source.amountNgn - c.amountNgn| ≤ config.amountTolerancePct * source.amountNgn) := by
  unfold Matching.amountScore at h
  by_cases hpos : 0 < source.amountNgn
  · refine ⟨hpos, ?_⟩
    rw [if_pos hpos] at h
    by_cases hzero : Matching.amountDeltaPct source c = 0
    · left
      rcases div_eq_zero_iff.mp hzero with hdelta | hamount
      · exact sub_eq_zero.mp (abs_eq_zero.mp hdelta)
      · exact absurd hamount hpos.ne'
    · by_cases htol : 0 < config.amountTolerancePct ∧
          Matching.amountDeltaPct source c ≤ config.amountTolerancePct
      · exact Or.inr ((div_le_iff₀ hpos).mp htol.2)
      · simp only [hzero, htol, if_false] at h
        exact absurd rfl h
  · rw [if_neg hpos] at h
    exact absurd rfl h

/-- The pairs of a run are sound: the tolerance leaves something of the second
    amount. -/
theorem soundPlan_of_flow {candidates : Matching.CandidateList T} {settings : Matching.Settings F}
    {plans : List (PairPlan T)} (h : Matching.flowPlans candidates settings = some plans) :
    ∀ p ∈ plans, SoundPlan p := by
  intro p hp
  rcases (Matching.mem_flowPlans_iff h p).mp hp with ⟨r, hr, hplan⟩
  rcases Matching.planOf_of_mem candidates hr with ⟨a, ha, b, hb, hplan', hamounts⟩
  rw [hplan] at hplan'
  rw [Option.some.inj hplan']
  refine ⟨candidates.numeric a ha, candidates.numeric b hb, ?_⟩
  rcases hamounts with ⟨hsame, hdelta⟩ | ⟨hscore, hdelta⟩
  · exact Or.inl ⟨hsame.symm, hdelta⟩
  · right
    rcases amountScore_near hscore with ⟨hpos, hnear⟩
    refine ⟨hpos, ?_, hdelta⟩
    change 0 < b.amountNgn
    rcases hnear with hsame | hwithin
    · rw [← hsame]
      exact hpos
    · have htolerance : settings.matchingAmountTolerancePct * a.amountNgn ≤ 0.2 * a.amountNgn :=
        mul_le_mul_of_nonneg_right settings.tolerance_le hpos.le
      have hle := (abs_le.mp hwithin).2
      simp only [Matching.MatchingConfig.fromSettings] at hle
      linarith

end Plans

section Invariant

variable {T : Type}

/-- The savepoint of the pair is released, or its discrepancy raised. -/
def SavedAt (pos : Position) (pid : Nat) : Prop :=
  pos.pairId = some pid → ∃ c, pos = .discrepancyRaised pid c

/-- The row of a plan, whatever its status. -/
def PlannedRow (p : PairPlan T) (v : PairRow T) : Prop :=
  v.a = p.a ∧ v.amountANgn = p.amountANgn ∧ v.amountBNgn = p.amountBNgn ∧
    v.amountDeltaNgn = p.amountDeltaNgn.getD 0

/-- Pairs, statuses and discrepancies fit together. -/
structure AmountInv (s : GoldDb T) : Prop where
  plans : ∀ t run, openRun (s.sessions t) = some run → ∀ p ∈ run.todo, SoundPlan p
  amounts : ∀ pid v o, s.pairs pid = some { value := v, owner := o } →
    0 ≤ v.amountANgn ∧ v.amountDeltaNgn = |v.amountANgn - v.amountBNgn| ∧
      Matching.IsNumeric v.amountANgn ∧ Matching.IsNumeric v.amountBNgn
  planned : ∀ t run pid, openRun (s.sessions t) = some run → run.position.pairId = some pid →
    ∃ p rest v, run.todo = p :: rest ∧ s.pairs pid = some { value := v, owner := some t } ∧
      PlannedRow p v
  status : ∀ pid v o, s.pairs pid = some { value := v, owner := o } →
    SavedAt (positionOf s o) pid →
    (v.status = .discrepancy ↔ Exceeds v.amountANgn v.amountBNgn)
  /-- A pair that says so has a discrepancy, with the owner of the pair. -/
  raised : ∀ pid v o, s.pairs pid = some { value := v, owner := o } → v.status = .discrepancy →
    ∃ c d, RowStore.Layer (s.discrepancies (v.a, c)) o (some d) ∧
      d.reconciliationPairId = some pid
  linked : ∀ k o d pid, RowStore.Layer (s.discrepancies k) o (some d) →
    d.reconciliationPairId = some pid → AmountClass k.2 ∧
      ∃ v o', s.pairs pid = some { value := v, owner := o' } ∧ v.a = k.1 ∧
        v.status = .discrepancy ∧ d.estimatedExposureNgn = v.amountDeltaNgn
  unlinked : ∀ k o d, RowStore.Layer (s.discrepancies k) o (some d) →
    d.reconciliationPairId = none → k.2 = .missingSettlement
  once : ∀ k k' o o' d d' pid, RowStore.Layer (s.discrepancies k) o (some d) →
    RowStore.Layer (s.discrepancies k') o' (some d') → d.reconciliationPairId = some pid →
    d'.reconciliationPairId = some pid → k = k'

/-- A session goes on with the pairs it has. -/
structure RunKept (session session' : Session T) : Prop where
  todo : ∀ run', openRun session' = some run' → ∃ run, openRun session = some run ∧
    (∀ p ∈ run'.todo, p ∈ run.todo) ∧ ∀ pid, run'.position.pairId = some pid →
      run.position.pairId = some pid ∧ run.todo = run'.todo
  saved : ∀ pid, SavedAt (posOf session') pid → SavedAt (posOf session) pid

theorem runKept_refl (session : Session T) : RunKept session session where
  todo run' hrun := ⟨run', hrun, fun _ hp => hp, fun _ hpid => ⟨hpid, rfl⟩⟩
  saved _ h := h

theorem runKept_of_none {session session' : Session T} (h : openRun session = none)
    (h' : openRun session' = none) : RunKept session session' where
  todo run' hrun := by
    rw [h'] at hrun
    cases hrun
  saved pid _ hpid := by
    simp only [posOf, h] at hpid
    cases hpid

/-- A session that works on something else than pairs, before and after. -/
theorem runKept_outside {s : GoldDb T} {t : Nat} {session session' : Session T}
    (hs : s.sessions t = session) (h : openRun session = none) (h' : openRun session' = none) :
    RunKept (s.sessions t) session' := by
  rw [hs]
  exact runKept_of_none h h'

/-- The discrepancies keep what they say about their pairs, in every layer. -/
structure LinksKept (s s' : GoldDb T) : Prop where
  back : ∀ k o d, RowStore.Layer (s'.discrepancies k) o (some d) →
    (d.reconciliationPairId = none ∧ k.2 = .missingSettlement) ∨
      ∃ o₀ d₀, RowStore.Layer (s.discrepancies k) o₀ (some d₀) ∧
        d₀.reconciliationPairId = d.reconciliationPairId ∧
        d₀.estimatedExposureNgn = d.estimatedExposureNgn
  forth : ∀ k o d pid, RowStore.Layer (s.discrepancies k) o (some d) →
    d.reconciliationPairId = some pid →
    ∃ d', RowStore.Layer (s'.discrepancies k) o (some d') ∧ d'.reconciliationPairId = some pid

variable {s s' : GoldDb T} {t : Nat} {session : Session T}

theorem linksKept_same (hd : s'.discrepancies = s.discrepancies) : LinksKept s s' where
  back k o d hl := by
    rw [hd] at hl
    exact Or.inr ⟨o, d, hl, rfl, rfl⟩
  forth k o d pid hl hpid := by
    rw [hd]
    exact ⟨d, hl, hpid⟩

/-- A step that leaves the pair rows as they are, and at most releases
    savepoints of pairs that need no discrepancy. -/
theorem amountInv_frame (hinv : AmountInv s) (hpairs : s'.pairs = s.pairs)
    (hopen : ∀ t run', openRun (s'.sessions t) = some run' → (∀ p ∈ run'.todo, SoundPlan p) ∧
      ∀ pid, run'.position.pairId = some pid → ∃ run, openRun (s.sessions t) = some run ∧
        run.position.pairId = some pid ∧ run.todo = run'.todo)
    (hstatus : ∀ pid v o, s.pairs pid = some { value := v, owner := o } →
      SavedAt (positionOf s' o) pid → SavedAt (positionOf s o) pid ∨
        (v.status = .discrepancy ↔ Exceeds v.amountANgn v.amountBNgn))
    (hlinks : LinksKept s s') : AmountInv s' := by
  refine ⟨fun t run hrun => (hopen t run hrun).1, fun pid v o hv => ?_,
    fun t run pid hrun hpid => ?_, fun pid v o hv hsaved => ?_, fun pid v o hv hdisc => ?_,
    fun k o d pid hl hpid => ?_, fun k o d hl hnone => ?_,
    fun k k' o o' d d' pid hl hl' hpid hpid' => ?_⟩
  · rw [hpairs] at hv
    exact hinv.amounts pid v o hv
  · rcases (hopen t run hrun).2 pid hpid with ⟨run₀, hrun₀, hpid₀, htodo⟩
    rcases hinv.planned t run₀ pid hrun₀ hpid₀ with ⟨p, rest, v, hp, hv, hrow⟩
    rw [hpairs]
    exact ⟨p, rest, v, htodo ▸ hp, hv, hrow⟩
  · rw [hpairs] at hv
    rcases hstatus pid v o hv hsaved with hold | hiff
    · exact hinv.status pid v o hv hold
    · exact hiff
  · rw [hpairs] at hv
    rcases hinv.raised pid v o hv hdisc with ⟨c, d, hl, hpid⟩
    rcases hlinks.forth _ o d pid hl hpid with ⟨d', hl', hpid'⟩
    exact ⟨c, d', hl', hpid'⟩
  · -- A discrepancy with a pair was there before, with the same pair.
    rcases hlinks.back k o d hl with ⟨hnone, _⟩ | ⟨o₀, d₀, hl₀, hpid₀, hexposure⟩
    · rw [hpid] at hnone
      cases hnone
    · rw [hpairs, ← hexposure]
      exact hinv.linked k o₀ d₀ pid hl₀ (hpid₀.trans hpid)
  · rcases hlinks.back k o d hl with ⟨_, hclass⟩ | ⟨o₀, d₀, hl₀, hpid₀, _⟩
    · exact hclass
    · exact hinv.unlinked k o₀ d₀ hl₀ (hpid₀.trans hnone)
  · rcases hlinks.back k o d hl with ⟨hnone, _⟩ | ⟨o₀, d₀, hl₀, hpid₀, _⟩
    · rw [hpid] at hnone
      cases hnone
    · rcases hlinks.back k' o' d' hl' with ⟨hnone, _⟩ | ⟨o₁, d₁, hl₁, hpid₁, _⟩
      · rw [hpid'] at hnone
        cases hnone
      · exact hinv.once k k' o₀ o₁ d₀ d₁ pid hl₀ hl₁ (hpid₀.trans hpid) (hpid₁.trans hpid')

/-- A session that goes on with the pairs it has. -/
theorem amountInv_kept (hinv : AmountInv s) (hpairs : s'.pairs = s.pairs)
    (hsess : s'.sessions = Function.update s.sessions t session)
    (hkept : RunKept (s.sessions t) session) (hlinks : LinksKept s s') : AmountInv s' := by
  have hall : ∀ t', RunKept (s.sessions t') (s'.sessions t') := by
    intro t'
    rw [hsess]
    by_cases ht : t' = t
    · subst ht
      rw [Function.update_self]
      exact hkept
    · rw [Function.update_of_ne ht]
      exact runKept_refl _
  refine amountInv_frame hinv hpairs (fun t' run' hrun => ?_) (fun pid v o _ hsaved => ?_) hlinks
  · rcases (hall t').todo run' hrun with ⟨run, hrun₀, hsub, hpid⟩
    exact ⟨fun p hp => hinv.plans t' run hrun₀ p (hsub p hp),
      fun pid hpos => ⟨run, hrun₀, (hpid pid hpos).1, (hpid pid hpos).2⟩⟩
  · left
    cases o with
    | none => exact hsaved
    | some t' => exact (hall t').saved pid hsaved

end Invariant

section Writes

variable {T : Type} [DecidableEq T] {s s' : GoldDb T} {t : Nat} {k : Key T}

/-- A change of a discrepancy that keeps what it says about its pair, and where
    there was none raises at most a missing settlement. -/
structure KeepsLink (k : Key T) (f : Option DiscrepancyRow → Option DiscrepancyRow) : Prop where
  some_ : ∀ d, ∃ d', f (some d) = some d' ∧
    d'.reconciliationPairId = d.reconciliationPairId ∧
    d'.estimatedExposureNgn = d.estimatedExposureNgn
  none_ : ∀ d', f none = some d' → d'.reconciliationPairId = none ∧ k.2 = .missingSettlement

omit [DecidableEq T] in
theorem keepsLink_id : KeepsLink k id where
  some_ d := ⟨d, rfl, rfl, rfl⟩
  none_ d' h := by cases h

omit [DecidableEq T] in
theorem keepsLink_close (req : Closing) (status : DiscrepancyRow → DiscrepancyStatus) (n : Nat)
    (now : ℤ) : KeepsLink k (Option.map fun d => closeDiscrepancy req (status d) n now d) where
  some_ d := ⟨_, rfl, rfl, rfl⟩
  none_ d' h := by cases h

omit [DecidableEq T] in
theorem keepsLink_upsert (f : Finding) (n : Nat) (now : ℤ) (hk : k.2 = .missingSettlement) :
    KeepsLink k (upsertMissingSettlement f n now) where
  some_ d := by
    unfold upsertMissingSettlement
    by_cases hopen : d.status = .open_ ∧ d.severity ≠ f.severity
    · exact ⟨_, if_pos hopen, rfl, rfl⟩
    · exact ⟨_, if_neg hopen, rfl, rfl⟩
  none_ d' h := by
    cases h
    exact ⟨rfl, hk⟩

theorem linksKept_write {f : Option DiscrepancyRow → Option DiscrepancyRow}
    (hd : s'.discrepancies = RowStore.write t k f s.discrepancies)
    (hfree : RowStore.Free t (s.discrepancies k)) (hf : KeepsLink k f) : LinksKept s s' where
  back k' o d hl := by
    rw [hd] at hl
    rcases RowStore.layer_write hl with hold | ⟨rfl, rfl, hv⟩
    · exact Or.inr ⟨o, d, hold, rfl, rfl⟩
    · rcases RowStore.layer_visible t (s.discrepancies k') with ⟨o₀, _, hl₀⟩
      cases hvisible : RowStore.visible t (s.discrepancies k') with
      | none =>
          rw [hvisible] at hv
          exact Or.inl (hf.none_ d hv.symm)
      | some d₀ =>
          rw [hvisible] at hv hl₀
          rcases hf.some_ d₀ with ⟨d', hd', hpid, hexposure⟩
          rw [← hv] at hd'
          rw [Option.some.inj hd']
          exact Or.inr ⟨o₀, d₀, hl₀, hpid.symm, hexposure.symm⟩
  forth k' o d pid hl hpid := by
    rw [hd]
    by_cases hk : k' = k
    · subst hk
      cases o with
      | none => exact ⟨d, (RowStore.write_committed _ _ _ _ _).trans hl, hpid⟩
      | some t' =>
          -- The row is locked by nobody else, so it is `t` that sees it.
          have ht : t' = t := hfree t' _ hl
          subst ht
          have hwriter : (s.discrepancies k').writer = some (t', some d) := hl
          have hvisible : RowStore.visible t' (s.discrepancies k') = some d := by
            simp only [RowStore.visible, hwriter, if_true]
          rcases hf.some_ d with ⟨d', hd', hpid', _⟩
          refine ⟨d', ?_, hpid'.trans hpid⟩
          change (RowStore.write t' k' f s.discrepancies k').writer = _
          rw [RowStore.write_self, hvisible, hd']
    · rw [RowStore.write_other t k k' f _ hk]
      exact ⟨d, hl, hpid⟩

omit [DecidableEq T] in
/-- A discrepancy over an amount belongs to the pair its transaction is matched
    by, which is there at least as long. -/
theorem layer_matched (hm : MatchInv s) (hinv : AmountInv s) {o : Option Nat} {d : DiscrepancyRow}
    (hl : RowStore.Layer (s.discrepancies k) o (some d)) (hk : k.2 ≠ .missingSettlement) :
    ∃ pid o', d.reconciliationPairId = some pid ∧
      s.matched k.1 = some { value := pid, owner := o' } ∧ (o' = none ∨ o' = o) := by
  cases hpid : d.reconciliationPairId with
  | none => exact absurd (hinv.unlinked k o d hl hpid) hk
  | some pid =>
      rcases hinv.linked k o d pid hl hpid with ⟨_, v, o', hv, ha, _⟩
      rcases hm.link k o d pid hl hpid with ⟨a, b, t', o'', hp, ho, hraised⟩
      rcases hasPair_unique hp (hasPair_of_some hv) with ⟨rfl, rfl, rfl, rfl⟩
      refine ⟨pid, o'', rfl, ?_, ho⟩
      rw [← ha]
      refine (hm.matched _ _ _).mpr ⟨_, _, _, hp, ?_⟩
      by_cases hpos : (positionOf s o'').pairId = some pid
      · rcases hraised hpos with ⟨c, hc, _⟩
        rw [hc]
        exact List.mem_cons_self
      · rw [recordedIds_of_ne hpos]
        exact List.mem_cons_self

omit [DecidableEq T] in
/-- The first transaction of the current pair is matched by it. -/
theorem matched_first (hm : MatchInv s) {now : ℤ} {run : PersistRun T} {p : PairPlan T}
    {rest : List (PairPlan T)} {pid : Nat} (hs : s.sessions t = .active now (.persisting run))
    (htodo : run.todo = p :: rest) (hpid : run.position.pairId = some pid)
    (hrecorded : p.a ∈ recordedIds run.position pid p.a p.b) :
    s.matched p.a = some { value := pid, owner := some t } := by
  refine (hm.matched _ _ _).mpr ⟨p.a, p.b, t, pair_of_savepoint hm.pairs hs htodo hpid, ?_⟩
  rw [positionOf_persisting hs]
  exact hrecorded

omit [DecidableEq T] in
/-- Nothing refers to a pair before its discrepancy is raised. -/
theorem unraised (hm : MatchInv s) {now : ℤ} {run : PersistRun T} {p : PairPlan T}
    {rest : List (PairPlan T)} {pid : Nat} (hs : s.sessions t = .active now (.persisting run))
    (htodo : run.todo = p :: rest) (hpos : run.position = .bothRecorded pid) {o : Option Nat}
    {d : DiscrepancyRow} (hl : RowStore.Layer (s.discrepancies k) o (some d)) :
    d.reconciliationPairId ≠ some pid := by
  intro hpid
  have hown := pair_of_savepoint hm.pairs hs htodo (by rw [hpos]; rfl)
  rcases hm.link k o d pid hl hpid with ⟨a, b, t', o', hp, _, hraised⟩
  rcases hasPair_unique hp hown with ⟨rfl, rfl, rfl, rfl⟩
  rw [positionOf_persisting hs, hpos] at hraised
  rcases hraised rfl with ⟨c, hc, _⟩
  cases hc

omit [DecidableEq T] in
/-- Nobody has raised an amount discrepancy of the first transaction before: it
    would belong to another pair of a transaction that has only this one. -/
theorem no_conflict (hm : MatchInv s) (hinv : AmountInv s) {now : ℤ} {run : PersistRun T}
    {p : PairPlan T} {rest : List (PairPlan T)} {pid : Nat}
    (hs : s.sessions t = .active now (.persisting run)) (htodo : run.todo = p :: rest)
    (hpos : run.position = .bothRecorded pid) {c : DiscrepancyType}
    (hc : c ≠ .missingSettlement) (o : Option Nat) (d : DiscrepancyRow) :
    ¬ RowStore.Layer (s.discrepancies (p.a, c)) o (some d) := by
  intro hl
  rcases layer_matched hm hinv hl hc with ⟨pid', o', hpid', hmatched, _⟩
  rw [matched_first hm hs htodo (by rw [hpos]; rfl) (by rw [hpos]; exact List.mem_cons_self)]
    at hmatched
  have heq : pid = pid' := (OwnedTable.Owned.mk.inj (Option.some.inj hmatched)).1
  rw [← heq] at hpid'
  exact unraised hm hs htodo hpos hl hpid'

end Writes

section Savepoint

variable {T : Type} {s s' : GoldDb T} {t : Nat} {now : ℤ} {run : PersistRun T}
  {p : PairPlan T} {rest : List (PairPlan T)} {pid : Nat}

theorem openRun_persisting (hs : s.sessions t = .active now (.persisting run)) :
    openRun (s.sessions t) = some run := by
  rw [hs]
  rfl

/-- The row of the current pair is the one its plan says. -/
theorem plannedRow (hinv : AmountInv s) (hs : s.sessions t = .active now (.persisting run))
    (htodo : run.todo = p :: rest) (hpid : run.position.pairId = some pid) :
    ∃ v, s.pairs pid = some { value := v, owner := some t } ∧ PlannedRow p v := by
  rcases hinv.planned t run pid (openRun_persisting hs) hpid with ⟨p', rest', v, htodo', hv, hrow⟩
  rw [htodo] at htodo'
  rw [(List.cons.inj htodo').1]
  exact ⟨v, hv, hrow⟩

/-- The run of the session that moves, and those of the others. -/
theorem openRun_goto {session : Session T} {run' : PersistRun T} {t' : Nat}
    (hsess : s'.sessions = Function.update s.sessions t session)
    (h : openRun (s'.sessions t') = some run') :
    (t' = t ∧ openRun session = some run') ∨ (t' ≠ t ∧ openRun (s.sessions t') = some run') := by
  by_cases ht : t' = t
  · rw [ht, session_goto hsess] at h
    exact Or.inl ⟨ht, h⟩
  · rw [stay_goto hsess ht] at h
    exact Or.inr ⟨ht, h⟩

/-- A pair outside the savepoint of the session that moves is as safe as it
    was. -/
theorem savedAt_goto {session : Session T} {o : Option Nat} {pid' : Nat}
    (hsess : s'.sessions = Function.update s.sessions t session)
    (hout : o = some t → (positionOf s (some t)).pairId ≠ some pid')
    (h : SavedAt (positionOf s' o) pid') : SavedAt (positionOf s o) pid' := by
  by_cases ho : o = some t
  · intro hpid'
    rw [ho] at hpid'
    exact absurd hpid' (hout ho)
  · rw [positionOf_goto hsess, if_neg ho] at h
    exact h

/-- The savepoint of a session holds one pair. -/
theorem savepoint_other (hs : s.sessions t = .active now (.persisting run))
    (hpid : run.position.pairId = some pid) {pid' : Nat} (hne : pid' ≠ pid) :
    (positionOf s (some t)).pairId ≠ some pid' := by
  rw [positionOf_persisting hs, hpid]
  exact fun heq => hne (Option.some.inj heq).symm

/-- A new pair row, within its constraints. -/
theorem amountInv_insert (hinv : AmountInv s) (hm : MatchInv s)
    (hs : s.sessions t = .active now (.persisting run)) (htodo : run.todo = p :: rest)
    (hpos : run.position = .between) (hchecked : (p.row t).Checked)
    (hpairs : s'.pairs = OwnedTable.insert t s.nextPair (p.row t) s.pairs)
    (hd : s'.discrepancies = s.discrepancies)
    (hsess : s'.sessions = Function.update s.sessions t
      (.active now (.persisting { run with position := .pairInserted s.nextPair }))) :
    AmountInv s' := by
  have hfree : s.pairs s.nextPair = none := hm.pairs.fresh _ (le_refl _)
  have hplan := hinv.plans t run (openRun_persisting hs)
  have hold : ∀ pid v o, s.pairs pid = some { value := v, owner := o } →
      s'.pairs pid = some { value := v, owner := o } := by
    intro pid v o hv
    rw [hpairs, OwnedTable.insert_other _ _ _ ?_]
    · exact hv
    · rintro rfl
      rw [hfree] at hv
      cases hv
  have hnew : ∀ pid v o, s'.pairs pid = some { value := v, owner := o } →
      (pid = s.nextPair ∧ v = p.row t ∧ o = some t) ∨
        (pid ≠ s.nextPair ∧ s.pairs pid = some { value := v, owner := o }) := by
    intro pid v o hv
    rw [hpairs, OwnedTable.insert_eq_some] at hv
    rcases hv with ⟨hpid, heq⟩ | hv
    · exact Or.inl ⟨hpid, (OwnedTable.Owned.mk.inj heq).1, (OwnedTable.Owned.mk.inj heq).2⟩
    · exact Or.inr hv
  refine ⟨fun t' run' hrun => ?_, fun pid v o hv => ?_, fun t' run' pid hrun hpid => ?_,
    fun pid v o hv hsaved => ?_, fun pid v o hv hdisc => ?_, fun k o d pid hl hpid => ?_,
    fun k o d hl => ?_, fun k k' o o' d d' pid hl hl' => ?_⟩
  · rcases openRun_goto hsess hrun with ⟨_, hrun⟩ | ⟨_, hrun⟩
    · cases hrun
      exact hplan
    · exact hinv.plans t' run' hrun
  · -- The check constraints and the engine vouch for the amounts of the new row.
    rcases hnew pid v o hv with ⟨_, rfl, _⟩ | ⟨_, hv⟩
    · have hsound : SoundPlan p := hplan p (by rw [htodo]; exact List.mem_cons_self)
      exact ⟨hchecked.1, soundPlan_delta hsound, hsound.1, hsound.2.1⟩
    · exact hinv.amounts pid v o hv
  · rcases openRun_goto hsess hrun with ⟨rfl, hrun⟩ | ⟨_, hrun⟩
    · cases hrun
      cases hpid
      refine ⟨p, rest, p.row t', htodo, ?_, rfl, rfl, rfl, rfl⟩
      rw [hpairs, OwnedTable.insert_self]
    · rcases hinv.planned t' run' pid hrun hpid with ⟨p', rest', v, htodo', hv, hrow⟩
      exact ⟨p', rest', v, htodo', hold _ _ _ hv, hrow⟩
  · rcases hnew pid v o hv with ⟨rfl, _, rfl⟩ | ⟨hne, hv⟩
    · -- Its savepoint is open.
      rw [positionOf_goto hsess, if_pos rfl] at hsaved
      rcases hsaved rfl with ⟨c, hc⟩
      cases hc
    · refine hinv.status pid v o hv (savedAt_goto hsess (fun _ hpid => ?_) hsaved)
      -- There was no savepoint before.
      rw [positionOf_persisting hs, hpos] at hpid
      cases hpid
  · -- The new row is not in discrepancy yet.
    rcases hnew pid v o hv with ⟨_, rfl, _⟩ | ⟨_, hv⟩
    · cases hdisc
    · rw [hd]
      exact hinv.raised pid v o hv hdisc
  · rw [hd] at hl
    rcases hinv.linked k o d pid hl hpid with ⟨hclass, v, o', hv, hrest⟩
    exact ⟨hclass, v, o', hold _ _ _ hv, hrest⟩
  · rw [hd] at hl
    exact hinv.unlinked k o d hl
  · rw [hd] at hl hl'
    exact hinv.once k k' o o' d d' pid hl hl'

variable [DecidableEq T]

/-- The savepoint of a pair that raises nothing is released: there was nothing
    to raise, and nobody else has. -/
theorem amountInv_release (hinv : AmountInv s) (hm : MatchInv s)
    (hs : s.sessions t = .active now (.persisting run)) (htodo : run.todo = p :: rest)
    (hpos : run.position = .bothRecorded pid)
    (hquiet : ∀ f, amountFinding s.silver p = some f →
      RowStore.visible t (s.discrepancies (p.a, f.classification)) ≠ none)
    (hpairs : s'.pairs = s.pairs) (hd : s'.discrepancies = s.discrepancies)
    (hsess : s'.sessions = Function.update s.sessions t
      (.active now (.persisting (run.keep rest pid 0)))) : AmountInv s' := by
  have hplan := hinv.plans t run (openRun_persisting hs)
  have hpid : run.position.pairId = some pid := by
    rw [hpos]
    rfl
  rcases plannedRow hinv hs htodo hpid with ⟨v, hv, hrow⟩
  have hsound : SoundPlan p := hplan p (by rw [htodo]; exact List.mem_cons_self)
  refine amountInv_frame hinv hpairs (fun t' run' hrun => ?_) (fun pid' v' o hv' hsaved => ?_)
    (linksKept_same hd)
  · rcases openRun_goto hsess hrun with ⟨_, hrun⟩ | ⟨_, hrun⟩
    · cases hrun
      refine ⟨fun q hq => hplan q ?_, fun _ hnone => by cases hnone⟩
      rw [htodo]
      exact List.mem_cons_of_mem _ hq
    · exact ⟨hinv.plans t' run' hrun, fun pid' hpid' => ⟨run', hrun, hpid', rfl⟩⟩
  · by_cases hsame : pid' = pid
    · -- The pair whose savepoint is released.
      subst hsame
      right
      have heq := (OwnedTable.Owned.mk.inj (Option.some.inj (hv.symm.trans hv'))).1
      rw [← heq]
      constructor
      · intro hdisc
        rcases hinv.raised pid' v (some t) hv hdisc with ⟨c, d, hl, hd'⟩
        exact absurd hd' (unraised hm hs htodo hpos hl)
      · intro hexceeds
        rw [hrow.2.1, hrow.2.2.1] at hexceeds
        have hnonneg := (hinv.amounts pid' v (some t) hv).1
        rw [hrow.2.1] at hnonneg
        rcases amountFinding_cases s.silver hsound hnonneg with ⟨_, hnot⟩ | ⟨f, hf, _, hclass, _⟩
        · exact absurd hexceeds hnot
        · -- It would have met a row, and there is none.
          rcases RowStore.layer_visible t (s.discrepancies (p.a, f.classification)) with
            ⟨o₀, _, hl⟩
          cases hvisible : RowStore.visible t (s.discrepancies (p.a, f.classification)) with
          | none => exact absurd hvisible (hquiet f hf)
          | some d =>
              rw [hvisible] at hl
              exact absurd hl (no_conflict hm hinv hs htodo hpos (amountClass_ne hclass) o₀ d)
    · left
      exact savedAt_goto hsess (fun _ => savepoint_other hs hpid hsame) hsaved

/-- A finding about a pair row is one its amounts call for. -/
theorem finding_of_row {f : Finding} {v : PairRow T} (hsound : SoundPlan p) (hrow : PlannedRow p v)
    (hnonneg : 0 ≤ v.amountANgn) (hf : amountFinding s.silver p = some f) :
    Exceeds v.amountANgn v.amountBNgn ∧ AmountClass f.classification ∧
      f.exposure = v.amountDeltaNgn := by
  rcases hrow with ⟨_, ha, hb, hdelta⟩
  rw [ha] at hnonneg
  rcases amountFinding_cases s.silver hsound hnonneg with ⟨hno, _⟩ | ⟨f', hf', hexceeds, hrest⟩
  · rw [hf] at hno
    cases hno
  · rw [hf] at hf'
    cases hf'
    rw [ha, hb, hdelta, soundPlan_delta hsound]
    exact ⟨hexceeds, hrest⟩

section Marked

variable (hpairs : s'.pairs = OwnedTable.amend pid (fun r => { r with status := .discrepancy })
  s.pairs)

include hpairs

omit [DecidableEq T] in
/-- Of the pair rows only that of the pair that is marked differs, in its
    status. -/
theorem row_of_marked {pid' : Nat} {v : PairRow T} {o : Option Nat}
    (hv : s'.pairs pid' = some { value := v, owner := o }) :
    ∃ v', s.pairs pid' = some { value := v', owner := o } ∧
      ((pid' = pid ∧ v = { v' with status := .discrepancy }) ∨ (pid' ≠ pid ∧ v = v')) := by
  rw [hpairs, OwnedTable.amend_eq_some] at hv
  rcases hv with ⟨v', hv', hvalue⟩
  refine ⟨v', hv', ?_⟩
  by_cases hsame : pid' = pid
  · exact Or.inl ⟨hsame, by rw [hvalue, if_pos hsame]⟩
  · exact Or.inr ⟨hsame, by rw [hvalue, if_neg hsame]⟩

omit [DecidableEq T] in
/-- The row of the pair that is marked. -/
theorem marked_self {v : PairRow T} {o : Option Nat}
    (hv : s.pairs pid = some { value := v, owner := o }) :
    s'.pairs pid = some { value := { v with status := .discrepancy }, owner := o } := by
  rw [hpairs, OwnedTable.amend_self, hv]
  rfl

omit [DecidableEq T] in
/-- No pair row loses anything by it. -/
theorem marked_of_row {pid' : Nat} {v : PairRow T} {o : Option Nat}
    (hv : s.pairs pid' = some { value := v, owner := o }) :
    ∃ v', s'.pairs pid' = some { value := v', owner := o } ∧ v'.a = v.a ∧
      v'.amountDeltaNgn = v.amountDeltaNgn ∧
      (v.status = .discrepancy → v'.status = .discrepancy) ∧
      ∀ q, PlannedRow q v → PlannedRow q v' := by
  by_cases hsame : pid' = pid
  · subst hsame
    exact ⟨_, marked_self hpairs hv, rfl, rfl, fun _ => rfl, fun q hq => hq⟩
  · refine ⟨v, ?_, rfl, rfl, id, fun q hq => hq⟩
    rw [hpairs, OwnedTable.amend_other _ _ hsame]
    exact hv

end Marked

/-- The discrepancy of the current pair is raised. -/
theorem amountInv_raise {f : Finding} {n : Nat} (hinv : AmountInv s) (hm : MatchInv s)
    (hs : s.sessions t = .active now (.persisting run)) (htodo : run.todo = p :: rest)
    (hpos : run.position = .bothRecorded pid) (hf : amountFinding s.silver p = some f)
    (hnone : s.discrepancies (p.a, f.classification) = { committed := none, writer := none })
    (hpairs : s'.pairs = OwnedTable.amend pid (fun r => { r with status := .discrepancy }) s.pairs)
    (hd : s'.discrepancies = RowStore.write t (p.a, f.classification)
      (fun _ => some (newDiscrepancy (some pid) f n now)) s.discrepancies)
    (hsess : s'.sessions = Function.update s.sessions t (.active now (.persisting
      { run with position := .discrepancyRaised pid f.classification }))) : AmountInv s' := by
  have hplan := hinv.plans t run (openRun_persisting hs)
  have hpid : run.position.pairId = some pid := by
    rw [hpos]
    rfl
  rcases plannedRow hinv hs htodo hpid with ⟨v₀, hv₀, hrow⟩
  have hsound : SoundPlan p := hplan p (by rw [htodo]; exact List.mem_cons_self)
  rcases finding_of_row hsound hrow (hinv.amounts pid v₀ (some t) hv₀).1 hf with
    ⟨hexceeds, hclass₀, hexposure₀⟩
  -- The discrepancies are those before and the new one.
  have hlayers : ∀ k o d, RowStore.Layer (s'.discrepancies k) o (some d) →
      RowStore.Layer (s.discrepancies k) o (some d) ∨
        (k = (p.a, f.classification) ∧ o = some t ∧ d = newDiscrepancy (some pid) f n now) := by
    intro k o d hl
    rw [hd] at hl
    rcases RowStore.layer_write hl with hold | ⟨hk, ho, hv⟩
    · exact Or.inl hold
    · exact Or.inr ⟨hk, ho, Option.some.inj hv⟩
  have hnew : RowStore.Layer (s'.discrepancies (p.a, f.classification)) (some t)
      (some (newDiscrepancy (some pid) f n now)) := by
    rw [hd]
    exact RowStore.layer_write_self _
  have hkeep : ∀ k o d, RowStore.Layer (s.discrepancies k) o (some d) →
      RowStore.Layer (s'.discrepancies k) o (some d) := by
    intro k o d hl
    rw [hd]
    refine RowStore.layer_write_of_unwritten (fun o' hl' => ?_) hl
    rw [hnone] at hl'
    cases o' <;> cases hl'
  refine ⟨fun t' run' hrun => ?_, fun pid' v o hv => ?_, fun t' run' pid' hrun hpid' => ?_,
    fun pid' v o hv hsaved => ?_, fun pid' v o hv hdisc => ?_, fun k o d pid' hl hpid' => ?_,
    fun k o d hl hunlinked => ?_, fun k k' o o' d d' pid' hl hl' hpid' hpid'' => ?_⟩
  · rcases openRun_goto hsess hrun with ⟨_, hrun⟩ | ⟨_, hrun⟩
    · cases hrun
      exact hplan
    · exact hinv.plans t' run' hrun
  · -- The status is all that changes.
    rcases row_of_marked hpairs hv with ⟨v', hv', ⟨_, rfl⟩ | ⟨_, rfl⟩⟩
    · exact hinv.amounts pid' v' o hv'
    · exact hinv.amounts pid' v o hv'
  · rcases openRun_goto hsess hrun with ⟨rfl, hrun⟩ | ⟨_, hrun⟩
    · cases hrun
      cases hpid'
      rcases marked_of_row hpairs hv₀ with ⟨v', hv', _, _, _, hplanned⟩
      exact ⟨p, rest, v', htodo, hv', hplanned p hrow⟩
    · rcases hinv.planned t' run' pid' hrun hpid' with ⟨q, rest', v, htodo', hv, hq⟩
      rcases marked_of_row hpairs hv with ⟨v', hv', _, _, _, hplanned⟩
      exact ⟨q, rest', v', htodo', hv', hplanned q hq⟩
  · rcases row_of_marked hpairs hv with ⟨v', hv', ⟨rfl, rfl⟩ | ⟨hne, rfl⟩⟩
    · refine ⟨fun _ => ?_, fun _ => rfl⟩
      rw [hv₀] at hv'
      rw [← (OwnedTable.Owned.mk.inj (Option.some.inj hv')).1]
      exact hexceeds
    · exact hinv.status pid' v o hv'
        (savedAt_goto hsess (fun _ => savepoint_other hs hpid hne) hsaved)
  · rcases row_of_marked hpairs hv with ⟨v', hv', ⟨rfl, rfl⟩ | ⟨_, rfl⟩⟩
    · rw [hv₀] at hv'
      rcases OwnedTable.Owned.mk.inj (Option.some.inj hv') with ⟨rfl, rfl⟩
      refine ⟨f.classification, newDiscrepancy (some pid') f n now, ?_, rfl⟩
      change RowStore.Layer (s'.discrepancies (v₀.a, _)) _ _
      rw [hrow.1]
      exact hnew
    · rcases hinv.raised pid' v o hv' hdisc with ⟨c, d, hl, hpid'⟩
      exact ⟨c, d, hkeep _ _ _ hl, hpid'⟩
  · -- Old links lead where they led; the new one leads to the current pair.
    rcases hlayers k o d hl with hold | ⟨rfl, rfl, rfl⟩
    · rcases hinv.linked k o d pid' hold hpid' with ⟨hclass, v, o', hv, ha, hdisc, hexposure⟩
      rcases marked_of_row hpairs hv with ⟨v', hv', ha', hdelta, hdisc', _⟩
      exact ⟨hclass, v', o', hv', ha'.trans ha, hdisc' hdisc, hexposure.trans hdelta.symm⟩
    · cases hpid'
      exact ⟨hclass₀, _, some t, marked_self hpairs hv₀, hrow.1, rfl, hexposure₀⟩
  · rcases hlayers k o d hl with hold | ⟨rfl, rfl, rfl⟩
    · exact hinv.unlinked k o d hold hunlinked
    · cases hunlinked
  · -- Nothing referred to the pair before.
    rcases hlayers k o d hl with hold | ⟨rfl, rfl, rfl⟩
    · rcases hlayers k' o' d' hl' with hold' | ⟨rfl, rfl, rfl⟩
      · exact hinv.once k k' o o' d d' pid' hold hold' hpid' hpid''
      · cases hpid''
        exact absurd hpid' (unraised hm hs htodo hpos hold)
    · rcases hlayers k' o' d' hl' with hold' | ⟨rfl, rfl, rfl⟩
      · cases hpid'
        exact absurd hpid'' (unraised hm hs htodo hpos hold')
      · rfl

/-- A conflict undoes the pair with what was raised for it. -/
theorem amountInv_conflict (hinv : AmountInv s) (hm : MatchInv s)
    (hholds : Holds s.discrepancies t (s.sessions t))
    (hs : s.sessions t = .active now (.persisting run)) (htodo : run.todo = p :: rest)
    (hpid : run.position.pairId = some pid) :
    AmountInv ((s.undoSavepoint t p run.position).work t now
      (.persisting (run.drop rest pid))) := by
  have hkept := othersKept_undo hm hholds hs htodo hpid
  have hgone := matchInv_conflict hm hs htodo hpid
  have hsess : ((s.undoSavepoint t p run.position).work t now
      (.persisting (run.drop rest pid))).sessions = Function.update s.sessions t
        (.active now (.persisting (run.drop rest pid))) := by
    simp only [GoldDb.work, GoldDb.goto, undoSavepoint_sessions]
  generalize hs' : (s.undoSavepoint t p run.position).work t now
    (.persisting (run.drop rest pid)) = s' at hgone hsess ⊢
  have hpairs : s'.pairs = OwnedTable.erase pid s.pairs := by
    rw [← hs']
    exact undoSavepoint_pairs s t p hpid
  have hrows : ∀ pid' v o, s'.pairs pid' = some { value := v, owner := o } ↔
      pid' ≠ pid ∧ s.pairs pid' = some { value := v, owner := o } := by
    intro pid' v o
    rw [hpairs, OwnedTable.erase_eq_some]
  have hback : ∀ k o d, RowStore.Layer (s'.discrepancies k) o (some d) →
      RowStore.Layer (s.discrepancies k) o (some d) := by
    intro k o d hl
    rw [← hs'] at hl
    exact (undoSavepoint_layer s t p hpid hl).1
  have hforth : ∀ k o d, RowStore.Layer (s.discrepancies k) o (some d) →
      d.reconciliationPairId ≠ some pid → RowStore.Layer (s'.discrepancies k) o (some d) := by
    intro k o d hl hne
    rw [← hs']
    exact hkept.discrepancies k o d hl hne
  refine ⟨fun t' run' hrun => ?_, fun pid' v o hv => ?_, fun t' run' pid' hrun hpid' => ?_,
    fun pid' v o hv hsaved => ?_, fun pid' v o hv hdisc => ?_, fun k o d pid' hl hpid' => ?_,
    fun k o d hl => hinv.unlinked k o d (hback k o d hl),
    fun k k' o o' d d' pid' hl hl' => hinv.once k k' o o' d d' pid' (hback k o d hl)
      (hback k' o' d' hl')⟩
  · rcases openRun_goto hsess hrun with ⟨_, hrun⟩ | ⟨_, hrun⟩
    · cases hrun
      refine fun q hq => hinv.plans t run (openRun_persisting hs) q ?_
      rw [htodo]
      exact List.mem_cons_of_mem _ hq
    · exact hinv.plans t' run' hrun
  · exact hinv.amounts pid' v o ((hrows pid' v o).mp hv).2
  · rcases openRun_goto hsess hrun with ⟨_, hrun⟩ | ⟨ht, hrun⟩
    · cases hrun
      cases hpid'
    · rcases hinv.planned t' run' pid' hrun hpid' with ⟨q, rest', v, htodo', hv, hq⟩
      refine ⟨q, rest', v, htodo', (hrows pid' v _).mpr ⟨?_, hv⟩, hq⟩
      -- The pair that goes is in the savepoint of `t`.
      rintro rfl
      rcases plannedRow hinv hs htodo hpid with ⟨v₀, hv₀, _⟩
      have howner := (OwnedTable.Owned.mk.inj (Option.some.inj (hv.symm.trans hv₀))).2
      exact ht (Option.some.inj howner)
  · rcases (hrows pid' v o).mp hv with ⟨hne, hv⟩
    exact hinv.status pid' v o hv
      (savedAt_goto hsess (fun _ => savepoint_other hs hpid hne) hsaved)
  · rcases (hrows pid' v o).mp hv with ⟨hne, hv⟩
    rcases hinv.raised pid' v o hv hdisc with ⟨c, d, hl, hd⟩
    refine ⟨c, d, hforth _ o d hl ?_, hd⟩
    rw [hd]
    exact fun heq => hne (Option.some.inj heq)
  · rcases hinv.linked k o d pid' (hback k o d hl) hpid' with ⟨hclass, v, o', hv, hrest⟩
    refine ⟨hclass, v, o', (hrows pid' v o').mpr ⟨?_, hv⟩, hrest⟩
    -- What refers to the pair does not outlive it.
    rintro rfl
    rcases hgone.link k o d pid' hl hpid' with ⟨a, b, t', o'', ⟨w, hw, _⟩, _⟩
    exact ((hrows pid' w o'').mp hw).1 rfl

end Savepoint

section Ends

variable {T : Type} {s : GoldDb T} {t : Nat} {now : ℤ}

/-- A session that ends is in no savepoint. -/
theorem openRun_ended {session : Session T} {s' : GoldDb T} {t' : Nat} {run : PersistRun T}
    (hsess : s'.sessions = Function.update s.sessions t session) (hended : openRun session = none)
    (h : openRun (s'.sessions t') = some run) : t' ≠ t ∧ openRun (s.sessions t') = some run := by
  rcases openRun_goto hsess h with ⟨_, hrun⟩ | hother
  · rw [hended] at hrun
    cases hrun
  · exact hother

/-- What a transaction has written over a discrepancy of a pair is of that
    pair. -/
theorem writer_link (hinv : AmountInv s) (hm : MatchInv s) (haudit : AuditInv s) {k : Key T}
    {d : DiscrepancyRow} {pid : Nat} {v : Option DiscrepancyRow}
    (hl : RowStore.Layer (s.discrepancies k) none (some d))
    (hpid : d.reconciliationPairId = some pid)
    (hw : (s.discrepancies k).writer = some (t, v)) :
    ∃ d', v = some d' ∧ d'.reconciliationPairId = some pid := by
  have hclass := amountClass_ne (hinv.linked k none d pid hl hpid).1
  rcases ((haudit.sound k).2 t v hw).2 d hl with ⟨d', rfl, _, _⟩
  have hl' : RowStore.Layer (s.discrepancies k) (some t) (some d') := hw
  rcases layer_matched hm hinv hl hclass with ⟨pid₁, o₁, hpid₁, hmatched₁, _⟩
  rcases layer_matched hm hinv hl' hclass with ⟨pid₂, o₂, hpid₂, hmatched₂, _⟩
  rw [hmatched₁] at hmatched₂
  have heq := (OwnedTable.Owned.mk.inj (Option.some.inj hmatched₂)).1
  refine ⟨d', rfl, ?_⟩
  rw [hpid₂, ← heq, ← hpid₁, hpid]

/-- A commit publishes pairs and discrepancies together. -/
theorem amountInv_commit {reply : Reply T} (hinv : AmountInv s) (hm : MatchInv s)
    (haudit : AuditInv s) (hs : s.sessions t = .active now (.done reply)) :
    AmountInv ((s.commitTx t).goto t (.committed reply)) := by
  have hsess : ((s.commitTx t).goto t (.committed reply)).sessions
      = Function.update s.sessions t (.committed reply) := rfl
  have hrows : ∀ pid v o, ((s.commitTx t).goto t (.committed reply)).pairs pid
      = some { value := v, owner := o } ↔
        ∃ o', s.pairs pid = some { value := v, owner := o' } ∧ OwnedTable.settle t o' = o :=
    fun pid v o => OwnedTable.commit_eq_some
  have hback : ∀ k o d, RowStore.Layer (((s.commitTx t).goto t (.committed reply)).discrepancies k)
      o (some d) → ∃ o₀, RowStore.Layer (s.discrepancies k) o₀ (some d) := by
    intro k o d hl
    rcases RowStore.layer_commit hl with ⟨hold, _⟩ | ⟨_, hold⟩
    · exact ⟨o, hold⟩
    · exact ⟨some t, hold⟩
  refine ⟨fun t' run' hrun => ?_, fun pid v o hv => ?_, fun t' run' pid hrun hpid => ?_,
    fun pid v o hv hsaved => ?_, fun pid v o hv hdisc => ?_, fun k o d pid hl hpid => ?_,
    fun k o d hl => ?_, fun k k' o o' d d' pid hl hl' => ?_⟩
  · exact hinv.plans t' run' (openRun_ended hsess rfl hrun).2
  · rcases (hrows pid v o).mp hv with ⟨o', hv, _⟩
    exact hinv.amounts pid v o' hv
  · rcases openRun_ended hsess rfl hrun with ⟨ht, hrun⟩
    rcases hinv.planned t' run' pid hrun hpid with ⟨p, rest, v, htodo, hv, hrow⟩
    refine ⟨p, rest, v, htodo, (hrows pid v _).mpr ⟨some t', hv, ?_⟩, hrow⟩
    exact OwnedTable.settle_other fun heq => ht (Option.some.inj heq)
  · rcases (hrows pid v o).mp hv with ⟨o', hv, ho⟩
    refine hinv.status pid v o' hv ?_
    by_cases ho' : o' = some t
    · -- The transaction that commits is in no savepoint.
      intro hpid
      rw [ho'] at hpid
      simp only [positionOf, posOf, openRun, hs] at hpid
      cases hpid
    · rw [OwnedTable.settle_other ho'] at ho
      rw [ho] at ho' ⊢
      exact savedAt_goto hsess (fun heq => absurd heq ho') hsaved
  · rcases (hrows pid v o).mp hv with ⟨o', hv, ho⟩
    rcases hinv.raised pid v o' hv hdisc with ⟨c, d, hl, hpid⟩
    rcases RowStore.publish_cases t (s.discrepancies (v.a, c)) with
      ⟨w, hw, hpublish⟩ | ⟨hforeign, hpublish⟩
    · -- Only a committed row, or the transaction's own, can be published over.
      have hown : ∃ d', w = some d' ∧ d'.reconciliationPairId = some pid ∧ o = none := by
        cases o' with
        | none =>
            rcases writer_link hinv hm haudit hl hpid hw with ⟨d', hd', hpid'⟩
            rw [OwnedTable.settle_none] at ho
            exact ⟨d', hd', hpid', ho.symm⟩
        | some t' =>
            have hwriter : (s.discrepancies (v.a, c)).writer = some (t', some d) := hl
            rw [hw] at hwriter
            rcases Prod.mk.inj (Option.some.inj hwriter) with ⟨rfl, rfl⟩
            rw [OwnedTable.settle_self] at ho
            exact ⟨d, rfl, hpid, ho.symm⟩
      rcases hown with ⟨d', rfl, hpid', rfl⟩
      refine ⟨c, d', ?_, hpid'⟩
      change RowStore.Layer (RowStore.publish t (s.discrepancies (v.a, c))) none (some d')
      rw [hpublish]
      rfl
    · refine ⟨c, d, ?_, hpid⟩
      change RowStore.Layer (RowStore.publish t (s.discrepancies (v.a, c))) o (some d)
      rw [hpublish]
      have hne : o' ≠ some t := by
        rintro rfl
        exact hforeign _ hl
      rw [OwnedTable.settle_other hne] at ho
      exact ho ▸ hl
  · rcases hback k o d hl with ⟨o₀, hold⟩
    rcases hinv.linked k o₀ d pid hold hpid with ⟨hclass, v, o', hv, hrest⟩
    exact ⟨hclass, v, _, (hrows pid v _).mpr ⟨o', hv, rfl⟩, hrest⟩
  · rcases hback k o d hl with ⟨o₀, hold⟩
    exact hinv.unlinked k o₀ d hold
  · rcases hback k o d hl with ⟨o₀, hold⟩
    rcases hback k' o' d' hl' with ⟨o₁, hold'⟩
    exact hinv.once k k' o₀ o₁ d d' pid hold hold'

/-- A rollback withdraws them together. -/
theorem amountInv_abort (hinv : AmountInv s) (hm : MatchInv s) :
    AmountInv ((s.rollbackTx t).goto t .rolledBack) := by
  have hsess : ((s.rollbackTx t).goto t .rolledBack).sessions
      = Function.update s.sessions t .rolledBack := rfl
  have hrows : ∀ pid v o, ((s.rollbackTx t).goto t .rolledBack).pairs pid
      = some { value := v, owner := o } ↔
        s.pairs pid = some { value := v, owner := o } ∧ o ≠ some t :=
    fun pid v o => OwnedTable.rollback_eq_some
  have hback : ∀ k o d, RowStore.Layer (((s.rollbackTx t).goto t .rolledBack).discrepancies k)
      o (some d) → RowStore.Layer (s.discrepancies k) o (some d) ∧ o ≠ some t :=
    fun k o d hl => RowStore.layer_rollback hl
  have hforth : ∀ k o d, RowStore.Layer (s.discrepancies k) o (some d) → o ≠ some t →
      RowStore.Layer (((s.rollbackTx t).goto t .rolledBack).discrepancies k) o (some d) := by
    intro k o d hl ho
    change RowStore.Layer (RowStore.release t (s.discrepancies k)) o (some d)
    cases o with
    | none => exact (RowStore.release_committed t _).trans hl
    | some t' =>
        have hne : t' ≠ t := fun heq => ho (congrArg some heq)
        rw [RowStore.release_foreign hne hl]
        exact hl
  refine ⟨fun t' run' hrun => ?_, fun pid v o hv => ?_, fun t' run' pid hrun hpid => ?_,
    fun pid v o hv hsaved => ?_, fun pid v o hv hdisc => ?_, fun k o d pid hl hpid => ?_,
    fun k o d hl => hinv.unlinked k o d (hback k o d hl).1,
    fun k k' o o' d d' pid hl hl' => hinv.once k k' o o' d d' pid (hback k o d hl).1
      (hback k' o' d' hl').1⟩
  · exact hinv.plans t' run' (openRun_ended hsess rfl hrun).2
  · exact hinv.amounts pid v o ((hrows pid v o).mp hv).1
  · rcases openRun_ended hsess rfl hrun with ⟨ht, hrun⟩
    rcases hinv.planned t' run' pid hrun hpid with ⟨p, rest, v, htodo, hv, hrow⟩
    exact ⟨p, rest, v, htodo,
      (hrows pid v _).mpr ⟨hv, fun heq => ht (Option.some.inj heq)⟩, hrow⟩
  · rcases (hrows pid v o).mp hv with ⟨hv, ho⟩
    exact hinv.status pid v o hv (savedAt_goto hsess (fun heq => absurd heq ho) hsaved)
  · -- A pair that stays is not of `t`, and its discrepancy has the same owner.
    rcases (hrows pid v o).mp hv with ⟨hv, ho⟩
    rcases hinv.raised pid v o hv hdisc with ⟨c, d, hl, hpid⟩
    exact ⟨c, d, hforth _ o d hl ho, hpid⟩
  · rcases hback k o d hl with ⟨hold, ho⟩
    rcases hinv.linked k o d pid hold hpid with ⟨hclass, v, o', hv, hrest⟩
    refine ⟨hclass, v, o', (hrows pid v o').mpr ⟨hv, ?_⟩, hrest⟩
    -- The pair is there at least as long as its discrepancy.
    rcases hm.link k o d pid hold hpid with ⟨a, b, t', o'', hp, howner, _⟩
    rcases hasPair_unique hp (hasPair_of_some hv) with ⟨_, _, _, rfl⟩
    rcases howner with hnone | heq
    · rw [hnone]
      exact Option.some_ne_none t |>.symm
    · rw [heq]
      exact ho

end Ends

section Steps

variable {T F : Type} [DecidableEq T]
variable [LinearOrder F] [Add F] [Sub F] [Mul F] [Div F] [ScoreArith F]
variable {s s' : GoldDb T} {t : Nat} {now : ℤ}

omit [DecidableEq T] in
/-- A run that moves on between two pairs, or within the savepoint it has. -/
theorem runKept_persisting {run run' : PersistRun T} (hsub : ∀ p ∈ run'.todo, p ∈ run.todo)
    (hplan : ∀ pid, run'.position.pairId = some pid →
      run.position.pairId = some pid ∧ run.todo = run'.todo)
    (hsaved : ∀ pid, SavedAt run'.position pid → SavedAt run.position pid) :
    RunKept (.active now (.persisting run)) (.active now (.persisting run')) where
  todo run₁ hrun := by
    cases hrun
    exact ⟨run, rfl, hsub, hplan⟩
  saved := hsaved

omit [DecidableEq T] in
/-- A run that records a matched row, which raises nothing. -/
theorem runKept_recording {run : PersistRun T} {position : Position} {pid : Nat}
    (hold : run.position.pairId = some pid) (hnew : position.pairId = some pid)
    (hunraised : ∀ c, position ≠ .discrepancyRaised pid c) :
    RunKept (.active now (.persisting run))
      (.active now (.persisting { run with position := position })) := by
  refine runKept_persisting (fun q hq => hq) (fun pid' hpid => ?_) fun pid' hsaved hpid => ?_
  · rw [hold, ← hnew]
    exact ⟨hpid, rfl⟩
  · rw [hold] at hpid
    have hsame : pid = pid' := Option.some.inj hpid
    subst hsame
    rcases hsaved hnew with ⟨c, hc⟩
    exact absurd hc (hunraised c)

/-- A step keeps the invariant. -/
theorem amountInv_step (hinv : AmountInv s) (hm : MatchInv s) (haudit : AuditInv s)
    (h : FlowStep F s s') : AmountInv s' := by
  have hplans := h.plans
  have hchecked := h.checked
  cases h.step with
  | arrive row hnew =>
      refine amountInv_frame hinv rfl (fun t' run' hrun => ?_)
        (fun _ _ _ _ hsaved => Or.inl ?_) (linksKept_same rfl)
      · exact ⟨hinv.plans t' run' hrun, fun pid hpid => ⟨run', hrun, hpid, rfl⟩⟩
      · exact hsaved
  | tick now hlater =>
      refine amountInv_frame hinv rfl (fun t' run' hrun => ?_)
        (fun _ _ _ _ hsaved => Or.inl ?_) (linksKept_same rfl)
      · exact ⟨hinv.plans t' run' hrun, fun pid hpid => ⟨run', hrun, hpid, rfl⟩⟩
      · exact hsaved
  | beginPersist t plans hidle =>
      have hsess : (s.work t s.clock (.persisting (PersistRun.start plans))).sessions
          = Function.update s.sessions t (.active s.clock (.persisting (PersistRun.start plans))) :=
        rfl
      refine amountInv_frame hinv rfl (fun t' run' hrun => ?_)
        (fun pid v o _ hsaved => Or.inl ?_) (linksKept_same rfl)
      · rcases openRun_goto hsess hrun with ⟨_, hrun⟩ | ⟨_, hrun⟩
        · -- The pairs come out of a run of the matching flow.
          cases hrun
          rcases hplans t s.clock _ hidle (session_goto hsess) with ⟨candidates, settings, hflow⟩
          exact ⟨soundPlan_of_flow hflow, fun _ hnone => by cases hnone⟩
        · exact ⟨hinv.plans t' run' hrun, fun pid hpid => ⟨run', hrun, hpid, rfl⟩⟩
      · refine savedAt_goto hsess (fun _ hpid => ?_) hsaved
        simp only [positionOf, posOf, openRun, hidle] at hpid
        cases hpid
  | insertPair t now run p rest hs htodo hpos hdiff hunique =>
      refine amountInv_insert hinv hm hs htodo hpos ?_ rfl rfl rfl
      refine hchecked s.nextPair { value := p.row t, owner := some t }
        (hm.pairs.fresh _ (le_refl _)) ?_
      exact OwnedTable.insert_self _ _ _ _
  | refusePair t now run p rest hs htodo hpos =>
      refine amountInv_kept hinv rfl rfl ?_ (linksKept_same rfl)
      rw [hs]
      refine runKept_persisting (fun q hq => ?_) (fun pid hpid => ?_) fun pid hsaved => hsaved
      · rw [htodo]
        exact List.mem_cons_of_mem _ hq
      · rw [hpos] at hpid
        cases hpid
  | recordFirst t now run p rest pid hs htodo hpos hfree =>
      refine amountInv_kept hinv rfl rfl ?_ (linksKept_same rfl)
      rw [hs]
      exact runKept_recording (by rw [hpos]; rfl) rfl fun c hc => by cases hc
  | recordSecond t now run p rest pid hs htodo hpos hfree =>
      refine amountInv_kept hinv rfl rfl ?_ (linksKept_same rfl)
      rw [hs]
      exact runKept_recording (by rw [hpos]; rfl) rfl fun c hc => by cases hc
  | raiseDiscrepancy t now run p rest pid f hs htodo hpos hf hnone =>
      exact amountInv_raise hinv hm hs htodo hpos hf hnone rfl rfl rfl
  | releasePair t now run p rest pid hs htodo hpos hquiet =>
      exact amountInv_release hinv hm hs htodo hpos hquiet rfl rfl rfl
  | releaseRaised t now run p rest pid c hs htodo hpos =>
      refine amountInv_kept hinv rfl rfl ?_ (linksKept_same rfl)
      rw [hs]
      refine runKept_persisting (fun q hq => ?_) (fun _ hnone => by cases hnone)
        fun pid' _ hpid => ⟨c, ?_⟩
      · rw [htodo]
        exact List.mem_cons_of_mem _ hq
      · rw [hpos] at hpid ⊢
        rw [Option.some.inj hpid]
  | conflict t now run p rest pid hs htodo hpos =>
      exact amountInv_conflict hinv hm (haudit.holds t) hs htodo hpos
  | persistDone t now run hs htodo hpos =>
      refine amountInv_kept hinv rfl rfl ?_ (linksKept_same rfl)
      rw [hs]
      refine ⟨fun run' hrun => (by cases hrun), fun pid _ hpid => ?_⟩
      simp only [posOf, openRun, hpos] at hpid
      cases hpid
  | beginSweep t hidle =>
      exact amountInv_kept hinv rfl rfl (runKept_outside hidle rfl rfl) (linksKept_same rfl)
  | selectOverdue t now hs =>
      exact amountInv_kept hinv rfl rfl (runKept_outside hs rfl rfl) (linksKept_same rfl)
  | sweepRow t now o rest raised hs hfree =>
      exact amountInv_kept hinv rfl rfl (runKept_outside hs rfl rfl)
        (linksKept_write rfl hfree (keepsLink_upsert _ _ _ rfl))
  | sweepDone t now raised hs =>
      exact amountInv_kept hinv rfl rfl (runKept_outside hs rfl rfl) (linksKept_same rfl)
  | beginResolve t k req hidle =>
      exact amountInv_kept hinv rfl rfl (runKept_outside hidle rfl rfl) (linksKept_same rfl)
  | resolveUnknown t now k req hs hnone =>
      exact amountInv_kept hinv rfl rfl (runKept_outside hs rfl rfl) (linksKept_same rfl)
  | resolveClosed t now k req d hs hd hclosed =>
      exact amountInv_kept hinv rfl rfl (runKept_outside hs rfl rfl) (linksKept_same rfl)
  | resolveLock t now k req d hs hd hopen =>
      exact amountInv_kept hinv rfl rfl (runKept_outside hs rfl rfl)
        (linksKept_write rfl (free_of_unlocked hd t).1 keepsLink_id)
  | resolveClose t now k req status hs =>
      have hlocked := haudit.holds t
      rw [hs] at hlocked
      exact amountInv_kept hinv rfl rfl (runKept_outside hs rfl rfl)
        (linksKept_write rfl (locked_visible hlocked.1).1
          (keepsLink_close req (fun _ => status) _ _))
  | beginBulk t ids req hids hidle =>
      exact amountInv_kept hinv rfl rfl (runKept_outside hidle rfl rfl) (linksKept_same rfl)
  | bulkUnknown t now ids k rest found req hs hnone =>
      exact amountInv_kept hinv rfl rfl (runKept_outside hs rfl rfl) (linksKept_same rfl)
  | bulkLock t now ids k rest found req d hs hd =>
      exact amountInv_kept hinv rfl rfl (runKept_outside hs rfl rfl)
        (linksKept_write rfl (free_of_unlocked hd t).1 keepsLink_id)
  | bulkSelect t now ids found req hs =>
      exact amountInv_kept hinv rfl rfl (runKept_outside hs rfl rfl) (linksKept_same rfl)
  | bulkClose t now k rest req resolved skipped hs =>
      have hlocked := haudit.holds t
      rw [hs] at hlocked
      rcases hlocked.2 k List.mem_cons_self with ⟨status, hlock, _⟩
      exact amountInv_kept hinv rfl rfl (runKept_outside hs rfl rfl)
        (linksKept_write rfl (locked_visible hlock).1
          (keepsLink_close req DiscrepancyRow.status _ _))
  | bulkDone t now req resolved skipped hs =>
      exact amountInv_kept hinv rfl rfl (runKept_outside hs rfl rfl) (linksKept_same rfl)
  | commit t now reply hs => exact amountInv_commit hinv hm haudit hs
  | abort t now work hs => exact amountInv_abort hinv hm

omit [DecidableEq T] in
theorem amountInv_initial (h : Initial s) : AmountInv s := by
  rcases h with ⟨hpairs, _, hd, hsess⟩
  have hopen : ∀ t run, openRun (s.sessions t) ≠ some run := by
    intro t run hrun
    rw [hsess t] at hrun
    cases hrun
  have hrows : ∀ pid v o, s.pairs pid ≠ some { value := v, owner := o } := by
    intro pid v o hv
    rw [hpairs] at hv
    cases hv
  have hlayers : ∀ k o d, ¬ RowStore.Layer (s.discrepancies k) o (some d) := by
    intro k o d hl
    rw [hd] at hl
    cases (RowStore.layer_blank hl).2
  refine ⟨fun t run hrun => absurd hrun (hopen t run), fun pid v o hv => absurd hv (hrows pid v o),
    fun t run _ hrun => absurd hrun (hopen t run), fun pid v o hv => absurd hv (hrows pid v o),
    fun pid v o hv => absurd hv (hrows pid v o), fun k o d _ hl => absurd hl (hlayers k o d),
    fun k o d hl => absurd hl (hlayers k o d), fun k _ o _ d _ _ hl => absurd hl (hlayers k o d)⟩

theorem amountInv_of_reachable (h : Transition.Reachable Initial (FlowStep F) s) :
    AmountInv s := by
  have hall : AmountInv s ∧ MatchInv s ∧ AuditInv s := by
    refine Transition.invariant_of_step (I := fun s => AmountInv s ∧ MatchInv s ∧ AuditInv s)
      (fun s₀ hinit => ?_) (fun a b hab hstep => ?_) h
    · exact ⟨amountInv_initial hinit, matchInv_initial hinit, auditInv_initial hinit⟩
    · rcases hab with ⟨hinv, hm, haudit⟩
      exact ⟨amountInv_step hinv hm haudit hstep, matchInv_step hm hstep.step,
        (auditInv_step haudit hstep.step).1⟩
  exact hall.1

/-- In every committed state a pair whose amounts differ by more than 0.5% of
    the first says so and has exactly one discrepancy, of one of the two amount
    classes, of its first transaction and over its delta; any other pair is
    matched and has none. The rounded quotient the source compares says the same
    of each pair. And no run finds a row in the way of a discrepancy it is about
    to raise. -/
theorem matched_pair_and_discrepancy (h : Transition.Reachable Initial (FlowStep F) s) :
    (∀ pid v, CommittedPair s pid v →
      (Exceeds v.amountANgn v.amountBNgn → v.status = .discrepancy ∧
        ∃ k d, (s.discrepancies k).committed = some d ∧ d.reconciliationPairId = some pid ∧
          AmountClass k.2 ∧ k.1 = v.a ∧ d.estimatedExposureNgn = v.amountDeltaNgn ∧
          ∀ k' d', (s.discrepancies k').committed = some d' →
            d'.reconciliationPairId = some pid → k' = k) ∧
      (¬ Exceeds v.amountANgn v.amountBNgn → v.status = .matched ∧
        ∀ k d, (s.discrepancies k).committed = some d → d.reconciliationPairId ≠ some pid) ∧
      (0 < v.amountANgn → ∃ q, Decimal.divide |v.amountANgn - v.amountBNgn| v.amountANgn = .ok q ∧
        (amountThresholdPct < q ↔ Exceeds v.amountANgn v.amountBNgn))) ∧
    ∀ t now run p rest pid f, s.sessions t = .active now (.persisting run) →
      run.todo = p :: rest → run.position = .bothRecorded pid →
      amountFinding s.silver p = some f →
      RowStore.visible t (s.discrepancies (p.a, f.classification)) = none := by
  have hinv := amountInv_of_reachable h
  have hm := matchInv_of_reachable (reachable_of_flow F h)
  refine ⟨fun pid v hv => ⟨fun hexceeds => ?_, fun hnot => ?_, fun hpos => ?_⟩, ?_⟩
  · have hdisc := (hinv.status pid v none hv fun hpos => by cases hpos).mpr hexceeds
    rcases hinv.raised pid v none hv hdisc with ⟨c, d, hl, hpid⟩
    rcases hinv.linked _ none d pid hl hpid with ⟨hclass, v', o', hv', ha, _, hexposure⟩
    have heq := (OwnedTable.Owned.mk.inj (Option.some.inj (hv'.symm.trans hv))).1
    rw [heq] at hexposure
    exact ⟨hdisc, (v.a, c), d, hl, hpid, hclass, rfl, hexposure,
      fun k' d' hl' hpid' => hinv.once k' _ none none d' d pid hl' hl hpid' hpid⟩
  · have hiff := hinv.status pid v none hv fun hpos => by cases hpos
    refine ⟨?_, fun k d hl hpid => ?_⟩
    · cases hstatus : v.status with
      | matched => rfl
      | discrepancy => exact absurd (hiff.mp hstatus) hnot
    · rcases hinv.linked k none d pid hl hpid with ⟨_, v', o', hv', _, hdisc, _⟩
      have heq := (OwnedTable.Owned.mk.inj (Option.some.inj (hv'.symm.trans hv))).1
      rw [heq] at hdisc
      exact hnot (hiff.mp hdisc)
  · have hamounts := hinv.amounts pid v none hv
    exact exceeds_iff_rounded hamounts.2.2.1 hamounts.2.2.2 hpos
  · intro t now run p rest pid f hs htodo hpos hf
    have hpid : run.position.pairId = some pid := by
      rw [hpos]
      rfl
    rcases plannedRow hinv hs htodo hpid with ⟨v, hv, hrow⟩
    have hnonneg := (hinv.amounts pid v (some t) hv).1
    rw [hrow.2.1] at hnonneg
    have hsound : SoundPlan p :=
      hinv.plans t run (openRun_persisting hs) p (by rw [htodo]; exact List.mem_cons_self)
    rcases amountFinding_cases s.silver hsound hnonneg with ⟨hno, _⟩ | ⟨f', hf', _, hclass, _⟩
    · rw [hf] at hno
      cases hno
    · rw [hf] at hf'
      cases hf'
      rcases RowStore.layer_visible t (s.discrepancies (p.a, f.classification)) with ⟨o₀, _, hl⟩
      cases hvisible : RowStore.visible t (s.discrepancies (p.a, f.classification)) with
      | none => rfl
      | some d =>
          rw [hvisible] at hl
          exact absurd hl (no_conflict hm hinv hs htodo hpos (amountClass_ne hclass) o₀ d)

end Steps

section Exhibit

open Matching (CandidateList Settings TransactionCandidate IsNumeric flowPlans)

/-- A credit of 1000 on one PSP and a debit of 990 on the other, to the same
    name at the same time. -/
def unequalCandidates : CandidateList Nat where
  rows := [
    { id := 1, pspName := "paystack", transactionType := .credit, amountNgn := 1000
      initiatedAt := 0, counterpartyNameTokens := some ["a"] },
    { id := 2, pspName := "flutterwave", transactionType := .debit, amountNgn := 990
      initiatedAt := 0, counterpartyNameTokens := some ["a"] }]
  unique := by decide
  numeric := by
    intro c hc
    rcases List.mem_cons.mp hc with rfl | hc
    · exact ⟨1000000000, by norm_num, by norm_num⟩
    · rw [List.mem_singleton.mp hc]
      exact ⟨990000000, by norm_num, by norm_num⟩

def usualSettings : Settings ℚ where
  primary_ge := by decide
  primary_le := by decide
  secondary_ge := by decide
  secondary_le := by decide
  windows := by decide
  threshold_ge := by decide +kernel
  threshold_le := by decide +kernel
  tolerance_ge := by decide +kernel
  tolerance_le := by decide +kernel
  variance_ge := by decide +kernel
  variance_le := by decide +kernel

/-- The pair they make. -/
def unequalPair : PairPlan Nat where
  a := 1
  b := 2
  amountANgn := 1000
  amountBNgn := 990
  amountDeltaNgn := some 10

theorem flowPlans_unequal : flowPlans unequalCandidates usualSettings = some [unequalPair] := by
  decide +kernel

/-- The discrepancy of that pair. -/
def unequalFinding : Finding where
  classification := .amountMismatch
  severity := .medium
  exposure := 10
  evidence := .amounts 1000 990 10 0.01 none .amountMismatch

/-- A step of a session that is at work already. -/
theorem flowStep_of_active {s s' : GoldDb Nat} (h : Step s s') (t : Nat) {session : Session Nat}
    (hactive : s.sessions t ≠ .idle)
    (hsess : s'.sessions = Function.update s.sessions t session)
    (hpairs : ∀ pid r, s.pairs pid = none → s'.pairs pid = some r → r.value.Checked) :
    FlowStep ℚ s s' where
  step := h
  plans t' now run hidle hrun := by
    have ht : t' ≠ t := fun heq => hactive (heq ▸ hidle)
    rw [stay_goto hsess ht, hidle] at hrun
    cases hrun
  checked := hpairs

/-- A run matches the two and raises the discrepancy. -/
theorem matched_pair_and_discrepancy_unequal :
    ∃ s : GoldDb Nat, ∃ v k d, Transition.Reachable Initial (FlowStep ℚ) s ∧
      CommittedPair s 0 v ∧ v.status = .discrepancy ∧
      (s.discrepancies k).committed = some d ∧ d.reconciliationPairId = some 0 ∧
      d.estimatedExposureNgn = v.amountDeltaNgn := by
  have h0 : Transition.Reachable Initial (FlowStep ℚ) freshDb :=
    Transition.reachable_of_init ⟨rfl, rfl, rfl, fun _ => rfl⟩
  have h1 := Transition.reachable_step h0
    { step := Step.beginPersist freshDb 0 [unequalPair] rfl
      plans := fun t now run _ hrun => by
        refine ⟨unequalCandidates, usualSettings, ?_⟩
        rcases openRun_goto rfl (openRun_persisting hrun) with ⟨_, hopen⟩ | ⟨_, hopen⟩
        · rw [← Option.some.inj hopen]
          exact flowPlans_unequal
        · cases hopen
      checked := fun pid r hnone hr => by
        cases hnone.symm.trans hr }
  have h2 := Transition.reachable_step h1 (flowStep_of_active
    (Step.insertPair _ 0 (hours 3) _ unequalPair [] rfl rfl rfl (by decide)
      (fun _ _ hr => by cases hr)) 0 (fun hc => by cases hc) rfl
    fun pid r _ hr => by
      rcases OwnedTable.insert_eq_some.mp hr with ⟨_, rfl⟩ | ⟨_, hr⟩
      · exact ⟨by norm_num [PairPlan.row, unequalPair], by norm_num [PairPlan.row, unequalPair]⟩
      · cases hr)
  have h3 := Transition.reachable_step h2 (flowStep_of_active
    (Step.recordFirst _ 0 (hours 3) _ unequalPair [] 0 rfl rfl rfl rfl) 0
    (fun hc => by cases hc) rfl fun pid r hnone hr => by
      cases hnone.symm.trans hr)
  have h4 := Transition.reachable_step h3 (flowStep_of_active
    (Step.recordSecond _ 0 (hours 3) _ unequalPair [] 0 rfl rfl rfl rfl) 0
    (fun hc => by cases hc) rfl fun pid r hnone hr => by
      cases hnone.symm.trans hr)
  have h5 := Transition.reachable_step h4 (flowStep_of_active
    (Step.raiseDiscrepancy _ 0 (hours 3) _ unequalPair [] 0 unequalFinding rfl rfl rfl
      (by decide +kernel) rfl) 0 (fun hc => by cases hc) rfl fun pid r hnone hr => by
        have hgone := (OwnedTable.amend_eq_none 0 fun r : PairRow Nat =>
          { r with status := .discrepancy }).mpr hnone
        cases hgone.symm.trans hr)
  have h6 := Transition.reachable_step h5 (flowStep_of_active
    (Step.releaseRaised _ 0 (hours 3) _ unequalPair [] 0 _ rfl rfl rfl) 0
    (fun hc => by cases hc) rfl fun pid r hnone hr => by
      cases hnone.symm.trans hr)
  have h7 := Transition.reachable_step h6 (flowStep_of_active
    (Step.persistDone _ 0 (hours 3) _ rfl rfl rfl) 0
    (fun hc => by cases hc) rfl fun pid r hnone hr => by
      cases hnone.symm.trans hr)
  have h8 := Transition.reachable_step h7 (flowStep_of_active
    (Step.commit _ 0 (hours 3) _ rfl) 0 (fun hc => by cases hc) rfl fun pid r hnone hr => by
      have hgone := (OwnedTable.commit_eq_none 0).mpr hnone
      cases hgone.symm.trans hr)
  rcases ((matched_pair_and_discrepancy h8).1 0 { unequalPair.row 0 with status := .discrepancy }
    rfl).1 (by norm_num [Exceeds, amountThresholdPct, PairPlan.row, unequalPair]) with
    ⟨hstatus, k, d, hd, hpid, _, _, hexposure, _⟩
  exact ⟨_, _, k, d, h8, rfl, hstatus, hd, hpid, hexposure⟩

end Exhibit

end Gold

end MmrEngine
