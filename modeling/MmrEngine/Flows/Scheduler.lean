import MmrEngine.Core.Calendar

/-!
# The Scheduler's Daily Job

`daily_at`: read the clock, sleep until the time of day comes round, run the
job, and over again.

The clock is read twice in a round: by the loop, before it sleeps, and by the
job, which works out its date for itself. In between the sleep may end late and
the job may take its time before it gets to it. A job that raises is logged and
ends its round like any other (`_run_safely`), but where it raises before its
return is committed, the round leaves none, and the next is for another date.

`seconds_until` computes with the wall clock in Lagos. Subtracting two datetimes
of one zone subtracts what the clock shows.

## Main definitions

* `TimeOfDay`: `datetime.time`, to the minute.
* `secondsUntil`: The sleep of a round.
* `DailyRound`: What a round takes.
* `roundStart`, `dueAt`, `jobStart`: The instants of a round.
* `reportDate`: The date the job of a round reads.
* `generatedReturn`: The date of the return a round leaves, if it leaves one.
-/

namespace MmrEngine

namespace Scheduler

/-- `time(hour, minute)`. -/
structure TimeOfDay where
  hour : ℤ
  minute : ℤ
  valid : 0 ≤ hour ∧ hour < 24 ∧ 0 ≤ minute ∧ minute < 60

/-- A time of day after midnight, in microseconds. -/
def TimeOfDay.micros (time : TimeOfDay) : ℤ := hours time.hour + seconds (60 * time.minute)

/-- What a clock in Lagos shows. -/
def lagosWall (t : ℤ) : ℤ := t + lagosOffset t

/-- `seconds_until`, in microseconds. -/
def secondsUntil (time : TimeOfDay) (now : ℤ) : ℤ :=
  -- `now.replace(hour=..., minute=..., second=0, microsecond=0)`
  let target := lagosWall now / dayMicros * dayMicros + time.micros
  if target ≤ lagosWall now then target + dayMicros - lagosWall now else target - lagosWall now

/-- A round: how late the sleep ends, after what time the job has read its date
    and is over, and whether it has committed its return by then. -/
structure DailyRound where
  late : ℤ
  readAfter : ℤ
  duration : ℤ
  committed : Bool
  order : 0 ≤ late ∧ 0 ≤ readAfter ∧ readAfter ≤ duration

section Loop

variable (time : TimeOfDay) (boot : ℤ) (rounds : ℕ → DailyRound)

/-- When the loop reads the clock for the `n`-th time. -/
def roundStart : ℕ → ℤ
  | 0 => boot
  | n + 1 =>
    roundStart n + secondsUntil time (roundStart n) + (rounds n).late + (rounds n).duration

/-- When the `n`-th sleep should end. -/
def dueAt (n : ℕ) : ℤ :=
  roundStart time boot rounds n + secondsUntil time (roundStart time boot rounds n)

/-- When the `n`-th job starts. -/
def jobStart (n : ℕ) : ℤ := dueAt time boot rounds n + (rounds n).late

/-- `datetime.now(LAGOS).date() - timedelta(days=1)`, in the `n`-th job. -/
def reportDate (n : ℕ) : ℤ := lagosDate (jobStart time boot rounds n + (rounds n).readAfter) - 1

/-- The date the `n`-th round leaves a return for. -/
def generatedReturn (n : ℕ) : Option ℤ :=
  if (rounds n).committed then some (reportDate time boot rounds n) else none

end Loop

/-- `daily_at(time(2, 0), "daily_return", _daily_return)`. -/
def dailyReturnTime : TimeOfDay where
  hour := 2
  minute := 0
  valid := by decide

end Scheduler

end MmrEngine
