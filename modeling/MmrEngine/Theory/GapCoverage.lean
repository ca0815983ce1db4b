import MmrEngine.Flows.GapDetection
import MmrEngine.Lib.Coverage
import Mathlib.Tactic.NormNum
import Mathlib.Tactic.Ring

/-!
# What Gap Detection Covers

Whether every instant lies in some polled window, as long as every poll
succeeds and none takes as long as the overlap.

Polls start a run and an interval apart, and each looks back seven hours: the
six of the default `hours_back` and the overlap. So nothing is left out
exactly when no run and interval together exceed seven hours, whatever the
interval is set to. With an interval of six hours or less that is what the
overlap is for. With a longer one the very first pause already leaves hours
uncovered.

## Main definitions

* `TimelyRuns`: Every poll succeeds in less than the overlap.
* `LeavesNoGap`: Every instant up to the latest poll is in a polled window.

## Theorems

* `leavesNoGap_iff`: The condition on one run of the loop.
* `gap_detection_covers_iff`: The condition on the setting.
* `gap_detection_leaves_gap`: An interval of twelve hours leaves a gap.
-/

namespace MmrEngine

namespace GapDetection

/-- Every poll succeeds and takes less than the overlap. -/
def TimelyRuns (runs : ℕ → JobRun) : Prop :=
  ∀ i, (runs i).succeeded = true ∧ 0 ≤ (runs i).duration ∧ (runs i).duration < windowOverlap

/-- Every instant from the start of the first polled window to the latest poll
    lies in a window polled by then. -/
def LeavesNoGap (interval : GapInterval) (psp : String) (boot : ℚ) (runs : ℕ → JobRun) : Prop :=
  ∀ n first latest, gapDetectionWindow interval psp boot runs 0 = some first →
    gapDetectionWindow interval psp boot runs n = some latest →
    ∀ t, first.since ≤ t → t ≤ latest.until_ →
      ∃ i ≤ n, ∃ w, gapDetectionWindow interval psp boot runs i = some w ∧
        w.since ≤ t ∧ t ≤ w.until_

/-- How far back a scheduled poll looks. -/
def windowLength : ℚ := hours 6 + windowOverlap

variable {interval : GapInterval} {psp : String} {boot : ℚ} {runs : ℕ → JobRun}

theorem gapDetectionWindow_timely (h : TimelyRuns runs) (n : ℕ) :
    gapDetectionWindow interval psp boot runs n =
      some { pspName := psp
             since := everyStart (hours interval.val) false boot runs n - windowLength
             until_ := everyStart (hours interval.val) false boot runs n } := by
  unfold gapDetectionWindow gapDetectionJob gapDetectionFlow windowLength
  rw [if_pos (h n).1, sub_sub]

theorem hours_pos (interval : GapInterval) : (0 : ℚ) < hours interval.val := by
  have h : 0 < hours interval.val := by
    have h1 := interval.property.1
    unfold hours
    omega
  exact_mod_cast h

theorem everyStart_mono (h : TimelyRuns runs) (i : ℕ) :
    everyStart (hours interval.val) false boot runs i
      ≤ everyStart (hours interval.val) false boot runs (i + 1) := by
  rw [everyStart_succ]
  linarith [(h i).2.1, hours_pos interval]

/-- A run of the loop leaves no gap exactly when no poll and pause together are
    longer than a window. -/
theorem leavesNoGap_iff (h : TimelyRuns runs) :
    LeavesNoGap interval psp boot runs ↔
      ∀ i, (runs i).duration + hours interval.val ≤ windowLength := by
  have hlen : 0 ≤ windowLength := by
    unfold windowLength windowOverlap hours
    norm_num
  have hmono : ∀ i, everyStart (hours interval.val) false boot runs i
      ≤ everyStart (hours interval.val) false boot runs (i + 1) := fun i => everyStart_mono h i
  have hcov := Coverage.covered_iff hmono hlen
  have hstep : ∀ i, everyStart (hours interval.val) false boot runs (i + 1)
      - everyStart (hours interval.val) false boot runs i
      = (runs i).duration + hours interval.val := by
    intro i
    rw [everyStart_succ]
    ring
  simp only [hstep] at hcov
  rw [← hcov]
  unfold LeavesNoGap Coverage.Covered
  simp only [gapDetectionWindow_timely h, Option.some.injEq]
  constructor
  · intro hgap n t hfrom hto
    rcases hgap n _ _ rfl rfl t hfrom hto with ⟨i, hi, w, hw, hback, hend⟩
    subst hw
    exact ⟨i, hi, hback, hend⟩
  · intro hgap n first latest hfirst hlatest t hfrom hto
    subst hfirst hlatest
    rcases hgap n t hfrom hto with ⟨i, hi, hback, hend⟩
    exact ⟨i, hi, _, rfl, hback, hend⟩

/-- Every run of the loop leaves no gap exactly for the intervals up to six
    hours; and one run leaves none exactly when it never pauses too long. -/
theorem gap_detection_covers_iff (interval : GapInterval) (psp : String) :
    ((∀ boot runs, TimelyRuns runs → LeavesNoGap interval psp boot runs) ↔ interval.val ≤ 6) ∧
      ∀ boot runs, TimelyRuns runs →
        (LeavesNoGap interval psp boot runs ↔
          ∀ i, (runs i).duration + hours interval.val ≤ hours 6 + windowOverlap) := by
  refine ⟨⟨fun hall => ?_, fun hle boot runs h => ?_⟩, fun boot runs h => leavesNoGap_iff h⟩
  · -- Polls that all take half an hour: seven hours are too many by half of one.
    by_contra hlong
    have htimely : TimelyRuns (fun _ => { duration := hours 1 / 2, succeeded := true }) := by
      intro i
      unfold windowOverlap hours
      refine ⟨rfl, ?_, ?_⟩ <;> norm_num
    have hcond := (leavesNoGap_iff htimely).mp (hall 0 _ htimely) 0
    have hseven : hours 7 ≤ hours interval.val := by
      unfold hours
      omega
    have hcast : ((hours 7 : ℤ) : ℚ) ≤ hours interval.val := by exact_mod_cast hseven
    unfold windowLength windowOverlap at hcond
    unfold hours at hcond hcast
    norm_num at hcond hcast
    linarith
  · rw [leavesNoGap_iff h]
    intro i
    have hsix : hours interval.val ≤ hours 6 := by
      unfold hours
      omega
    have hcast : (hours interval.val : ℚ) ≤ hours 6 := by exact_mod_cast hsix
    unfold windowLength
    linarith [(h i).2.2]

/-- Polls every twelve hours that take no time at all still leave five hours
    out between two windows. -/
theorem gap_detection_leaves_gap :
    ¬ ∀ (interval : GapInterval) (psp : String) (boot : ℚ) (runs : ℕ → JobRun),
      TimelyRuns runs → LeavesNoGap interval psp boot runs := by
  intro h
  have htimely : TimelyRuns (fun _ => { duration := 0, succeeded := true }) := by
    intro i
    refine ⟨rfl, le_refl 0, ?_⟩
    unfold windowOverlap hours
    norm_num
  have hcond := (leavesNoGap_iff htimely).mp
    (h ⟨12, by norm_num⟩ "paystack" 0 _ htimely) 0
  unfold windowLength windowOverlap hours at hcond
  norm_num at hcond

end GapDetection

end MmrEngine
