import MmrEngine.Core.Clock

/-!
# Gap Detection

The periodic poll that looks for webhooks the PSP sent and nobody received,
and the scheduler loop that runs it.

`gap_detection_flow` polls from `hours_back` hours and an overlap ago until
now. The scheduler starts it, waits for it to finish, sleeps for the interval
and starts it again, on time: what may come late here is the end of a run, and
the delays of a sleep and of a reading of the clock, which `Flows.Scheduler` has
for the daily job, are left out. The interval is a setting; `hours_back` is a
parameter with a default, and the scheduler calls the flow without it.

Instants are rational here although clock readings are whole microseconds: a
webhook can be missed between two readings.

## Main definitions

* `gapDetectionFlow`: The window one poll covers.
* `gapDetectionJob`: The poll as the scheduler calls it.
* `everyStart`: When the loop starts its `n`-th run.
* `gapDetectionWindow`: The window the `n`-th run polls, if it succeeds.

## Theorems

* `everyStart_succ`: The next run starts a run and a pause later.
-/

namespace MmrEngine

namespace GapDetection

/-- Overlap between consecutive windows so nothing at a boundary is missed. -/
def windowOverlap : ℚ := hours 1

/-- The PSP a poll asks, and from when until when. -/
structure PolledWindow where
  pspName : String
  since : ℚ
  until_ : ℚ

/-- The window one poll at `now` covers. -/
def gapDetectionFlow (pspName : String) (now : ℚ) (hoursBack : ℤ := 6) : PolledWindow where
  pspName := pspName
  since := now - hours hoursBack - windowOverlap
  until_ := now

/-- `_gap_detection`: the job passes the PSP and nothing else. -/
def gapDetectionJob (psp : String) (now : ℚ) : PolledWindow := gapDetectionFlow psp now

/-- `gap_detection_interval_hours`, as `Settings` admits it. -/
def GapInterval : Type := { h : ℤ // 1 ≤ h ∧ h ≤ 24 }

/-- One run of a job: how long it took, and whether it raised. -/
structure JobRun where
  duration : ℚ
  succeeded : Bool

/-- `every`: the start of the `n`-th run of a job. A run that fails is logged
    and the loop sleeps all the same. -/
def everyStart (interval : ℚ) (runAtStart : Bool) (boot : ℚ) (runs : ℕ → JobRun) : ℕ → ℚ
  | 0 => if runAtStart then boot else boot + interval
  | n + 1 => everyStart interval runAtStart boot runs n + (runs n).duration + interval

/-- The window the `n`-th run polls for a PSP, in the loop `main` sets up. The
    clock is taken as read at the start of the run, and the sleep as exact. -/
def gapDetectionWindow (interval : GapInterval) (psp : String) (boot : ℚ) (runs : ℕ → JobRun)
    (n : ℕ) : Option PolledWindow :=
  if (runs n).succeeded then
    some (gapDetectionJob psp (everyStart (hours interval.val) false boot runs n))
  else none

theorem everyStart_succ (interval : ℚ) (runAtStart : Bool) (boot : ℚ) (runs : ℕ → JobRun) (n : ℕ) :
    everyStart interval runAtStart boot runs (n + 1)
      = everyStart interval runAtStart boot runs n + (runs n).duration + interval := rfl

end GapDetection

end MmrEngine
