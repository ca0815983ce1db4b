import MmrEngine.Flows.Scheduler
import Mathlib.Tactic.Ring

/-!
# One Return a Day

Whether every date gets a return, and only one.

A sleep ends at the next time of day after the clock was read, never at the one
just passed, so the instants the jobs are due at are whole days apart
(`dueAt_succ`). Which day a job then reports on is another matter: it reads the
clock itself, and by then it may be tomorrow. Dates can be skipped that way, and
one can be reported twice. A job that raises skips its date too, as the next
round is a day ahead: by the `n`-th round the dates have gone up by `n` at least
(`add_le_reportDate`).

Values that have gone up so far by then, and of which none is left out, go up by
one each time (`eq_add_of_existsUnique`). From there the condition can be read
off round by round.

## Theorems

* `eq_add_of_existsUnique`: A sequence that leaves no value out.
* `dueAt_succ`: When the next job is due.
* `reportDate_eq`: The date of a round.
* `add_le_reportDate`: How far the dates have gone up.
* `one_return_a_day_iff`: When every date gets one return.
-/

namespace MmrEngine

namespace Scheduler

/-- A sequence that is at `a + n` or further where its `n`-th member is a value
    takes every value from `a` on, each exactly once, just if it counts up from
    `a` by one and no member is missing. -/
theorem eq_add_of_existsUnique {f : ℕ → Option ℤ} {a : ℤ}
    (hlow : ∀ (n : ℕ) d, f n = some d → a + n ≤ d) :
    (∀ d, a ≤ d → ∃! n, f n = some d) ↔ ∀ n : ℕ, f n = some (a + n) := by
  constructor
  · intro hunique n
    induction n using Nat.strong_induction_on with
    | _ n ih =>
        rcases hunique (a + n) (by omega) with ⟨k, hk, -⟩
        have hle := hlow k (a + n) hk
        by_cases hearly : k < n
        · -- The members before have values of their own.
          have hbefore := (ih k hearly).symm.trans hk
          rw [Option.some.injEq] at hbefore
          omega
        · have heq : k = n := by omega
          rw [heq] at hk
          exact hk
  · intro hcount d hd
    refine ⟨(d - a).toNat, ?_, fun m hm => ?_⟩
    · simp only [hcount, Option.some.injEq]
      omega
    · simp only [hcount, Option.some.injEq] at hm
      omega

section Rounds

variable {time : TimeOfDay} {boot : ℤ} {rounds : ℕ → DailyRound}

theorem micros_bounds (time : TimeOfDay) : 0 ≤ time.micros ∧ time.micros < dayMicros := by
  have hvalid := time.valid
  unfold TimeOfDay.micros dayMicros hours seconds
  omega

theorem lagosWall_of_standard {t : ℤ} (h : lagosStandardTime ≤ t) : lagosWall t = t + hours 1 := by
  rw [lagosWall, lagosOffset_of_standard h]

/-- A sleep ends at the next time of day, within a day. -/
theorem secondsUntil_spec (time : TimeOfDay) (now : ℤ) :
    0 < secondsUntil time now ∧ secondsUntil time now ≤ dayMicros ∧
      (lagosWall now + secondsUntil time now - time.micros) % dayMicros = 0 := by
  have htime := micros_bounds time
  unfold secondsUntil
  simp only
  unfold dayMicros hours at *
  split
  · omega
  · omega

/-- The zone stays what it is from the start of the loop on. -/
theorem roundStart_standard (h : lagosStandardTime ≤ boot) (n : ℕ) :
    lagosStandardTime ≤ roundStart time boot rounds n := by
  induction n with
  | zero => exact h
  | succ n ih =>
      have hsleep := (secondsUntil_spec time (roundStart time boot rounds n)).1
      have horder := (rounds n).order
      rw [roundStart]
      omega

theorem dueAt_standard (h : lagosStandardTime ≤ boot) (n : ℕ) :
    lagosStandardTime ≤ dueAt time boot rounds n := by
  have hstart : lagosStandardTime ≤ roundStart time boot rounds n := roundStart_standard h n
  have hsleep := (secondsUntil_spec time (roundStart time boot rounds n)).1
  unfold dueAt
  omega

/-- A job is due at the time of day. -/
theorem dueAt_timeOfDay (h : lagosStandardTime ≤ boot) (n : ℕ) :
    (dueAt time boot rounds n + hours 1 - time.micros) % dayMicros = 0 := by
  have hspec := (secondsUntil_spec time (roundStart time boot rounds n)).2.2
  rw [lagosWall_of_standard (roundStart_standard h n)] at hspec
  rw [← hspec, dueAt]
  congr 1
  ring

/-- The next job is due a day later, or as many days more as the round takes. -/
theorem dueAt_succ (h : lagosStandardTime ≤ boot) (n : ℕ) :
    dueAt time boot rounds (n + 1) = dueAt time boot rounds n
      + (((rounds n).late + (rounds n).duration) / dayMicros + 1) * dayMicros := by
  have hround : roundStart time boot rounds (n + 1)
      = dueAt time boot rounds n + (rounds n).late + (rounds n).duration := rfl
  have hspec := secondsUntil_spec time (roundStart time boot rounds (n + 1))
  have hnow : (dueAt time boot rounds n + hours 1 - time.micros) % dayMicros = 0 :=
    dueAt_timeOfDay h n
  have hnext : (dueAt time boot rounds (n + 1) + hours 1 - time.micros) % dayMicros = 0 :=
    dueAt_timeOfDay h (n + 1)
  have horder := (rounds n).order
  have hdue : dueAt time boot rounds (n + 1) = roundStart time boot rounds (n + 1)
      + secondsUntil time (roundStart time boot rounds (n + 1)) := rfl
  -- Both are at the time of day, and the sleep in between is a day at most.
  unfold dayMicros hours at *
  omega

/-- The date of a round is the day before the job was due, unless the job read it
    so late that it was another day by then. -/
theorem reportDate_eq (h : lagosStandardTime ≤ boot) (n : ℕ) :
    reportDate time boot rounds n = lagosDate (dueAt time boot rounds n) - 1
      + (time.micros + (rounds n).late + (rounds n).readAfter) / dayMicros := by
  have hdue : lagosStandardTime ≤ dueAt time boot rounds n := dueAt_standard h n
  have horder := (rounds n).order
  have htime : (dueAt time boot rounds n + hours 1 - time.micros) % dayMicros = 0 :=
    dueAt_timeOfDay h n
  have hbounds := micros_bounds time
  have hread : lagosStandardTime ≤ jobStart time boot rounds n + (rounds n).readAfter := by
    unfold jobStart
    omega
  rw [reportDate, lagosDate_of_standard hread, lagosDate_of_standard hdue, jobStart]
  unfold dayMicros hours at *
  omega

theorem lagosDate_dueAt_succ (h : lagosStandardTime ≤ boot) (n : ℕ) :
    lagosDate (dueAt time boot rounds (n + 1)) = lagosDate (dueAt time boot rounds n)
      + ((rounds n).late + (rounds n).duration) / dayMicros + 1 := by
  rw [lagosDate_of_standard (dueAt_standard h (n + 1)), lagosDate_of_standard (dueAt_standard h n),
    dueAt_succ h n]
  unfold dayMicros hours
  omega

/-- The jobs are due on different days. -/
theorem le_lagosDate_dueAt (h : lagosStandardTime ≤ boot) (n : ℕ) :
    lagosDate (dueAt time boot rounds 0) + n ≤ lagosDate (dueAt time boot rounds n) := by
  induction n with
  | zero => simp
  | succ n ih =>
      have horder := (rounds n).order
      rw [lagosDate_dueAt_succ h]
      unfold dayMicros hours
      push_cast
      omega

/-- They are due on consecutive days if each is over before the next is due. -/
theorem lagosDate_dueAt (h : lagosStandardTime ≤ boot)
    (hover : ∀ n, (rounds n).late + (rounds n).duration < hours 24) (n : ℕ) :
    lagosDate (dueAt time boot rounds n) = lagosDate (dueAt time boot rounds 0) + n := by
  induction n with
  | zero => simp
  | succ n ih =>
      have horder := (rounds n).order
      have hthis := hover n
      rw [lagosDate_dueAt_succ h, ih]
      unfold dayMicros hours at *
      push_cast
      omega

/-- By the `n`-th round the dates have gone up by `n` days at least. -/
theorem add_le_reportDate (h : lagosStandardTime ≤ boot) (n : ℕ) :
    lagosDate (dueAt time boot rounds 0) - 1 + n ≤ reportDate time boot rounds n := by
  have hdue : lagosDate (dueAt time boot rounds 0) + n ≤ lagosDate (dueAt time boot rounds n) :=
    le_lagosDate_dueAt h n
  have horder := (rounds n).order
  have hbounds := micros_bounds time
  rw [reportDate_eq h]
  unfold dayMicros hours at *
  omega

theorem generatedReturn_eq_some {n : ℕ} {d : ℤ} :
    generatedReturn time boot rounds n = some d ↔
      (rounds n).committed = true ∧ reportDate time boot rounds n = d := by
  unfold generatedReturn
  split
  · next hcommitted => simp [hcommitted]
  · next hraised => simp [hraised]

/-- Every date from the day before the first job is due on gets exactly one
    return, just if in every round the job commits its return, reads its date
    before midnight and is over before the next job is due. -/
theorem one_return_a_day_iff (time : TimeOfDay) {boot : ℤ} (rounds : ℕ → DailyRound)
    (h : lagosStandardTime ≤ boot) :
    (∀ d, lagosDate (dueAt time boot rounds 0) - 1 ≤ d →
        ∃! n, generatedReturn time boot rounds n = some d) ↔
      ∀ n, (rounds n).committed = true ∧
        time.micros + (rounds n).late + (rounds n).readAfter < hours 24 ∧
        (rounds n).late + (rounds n).duration < hours 24 := by
  have hbounds := micros_bounds time
  have hlow : ∀ (n : ℕ) d, generatedReturn time boot rounds n = some d →
      lagosDate (dueAt time boot rounds 0) - 1 + n ≤ d := by
    intro n d hd
    rw [← (generatedReturn_eq_some.mp hd).2]
    exact add_le_reportDate h n
  rw [eq_add_of_existsUnique hlow]
  constructor
  · intro hcount n
    -- Neither the report nor the next job has a day to lose.
    rcases generatedReturn_eq_some.mp (hcount n) with ⟨hcommitted, hnow⟩
    have hnext := (generatedReturn_eq_some.mp (hcount (n + 1))).2
    have hdue : lagosDate (dueAt time boot rounds 0) + n ≤ lagosDate (dueAt time boot rounds n) :=
      le_lagosDate_dueAt h n
    have horder := (rounds n).order
    have horder' := (rounds (n + 1)).order
    rw [reportDate_eq h] at hnow hnext
    rw [lagosDate_dueAt_succ h] at hnext
    refine ⟨hcommitted, ?_⟩
    unfold dayMicros hours at *
    push_cast at *
    omega
  · intro hround n
    have hdue : lagosDate (dueAt time boot rounds n) = lagosDate (dueAt time boot rounds 0) + n :=
      lagosDate_dueAt h (fun m => (hround m).2.2) n
    have horder := (rounds n).order
    have hthis := (hround n).2.1
    rw [generatedReturn_eq_some]
    refine ⟨(hround n).1, ?_⟩
    rw [reportDate_eq h, hdue]
    unfold dayMicros hours at *
    omega

end Rounds

/-- Every night ten minutes, on time. -/
def nightly (_ : ℕ) : DailyRound where
  late := 0
  readAfter := seconds 1
  duration := seconds 600
  committed := true
  order := by decide

/-- A scheduler that was started at the beginning of 1970 generates the return of
    2024-10-04 once. -/
theorem one_return_a_day_nightly :
    ∃! n, generatedReturn dailyReturnTime 0 nightly n = some 20000 := by
  have hboot : lagosStandardTime ≤ 0 := by decide
  have hone := (one_return_a_day_iff dailyReturnTime nightly hboot).mpr
    fun _ => ⟨rfl, show dailyReturnTime.micros + 0 + seconds 1 < hours 24 by decide,
      show 0 + seconds 600 < hours 24 by decide⟩
  exact hone 20000 (by decide)

end Scheduler

end MmrEngine
