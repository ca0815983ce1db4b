import MmrEngine.Core.Clock
import Mathlib.Tactic.Linarith

/-!
# Calendar Days in Lagos

An instant as a calendar date, once by the rules of the time zone and once by a
shift of one hour.

Dates are counted in days from 1970-01-01, as instants are in microseconds. The
zone `Africa/Lagos` has been one hour ahead of UTC since September 1919. Before
that it followed Greenwich, its own mean solar time of 13:35 ahead, and for some
years half an hour ahead; it was never more than an hour ahead. So the shift of
one hour gives the date by the zone from the change on, and a later date at most
before it.

## Main definitions

* `lagosOffset`, `lagosDate`: `AT TIME ZONE 'Africa/Lagos'` and its date.
* `utcMidnight`: A date as a timestamp in a session in UTC.

## Theorems

* `lagosDate_of_standard`: The date by the shift, after the change.
* `lagosDate_eq_iff_shift`: One day as the hours it spans.
* `utcMidnight_le_of_lagosDate`: No instant of a day is before its shifted start.
-/

namespace MmrEngine

/-- Microseconds of a day. -/
def dayMicros : ℤ := hours 24

/-- A date as the timestamp of its midnight, in a session in UTC. -/
def utcMidnight (date : ℤ) : ℤ := date * dayMicros

/-- Microseconds of some seconds. -/
def seconds (n : ℤ) : ℤ := n * 1000000

/-- The start of the standard time in Lagos, 1919-08-31T23:30:00Z. -/
def lagosStandardTime : ℤ := seconds (-1588465800)

/-- How far the clocks in Lagos are ahead of UTC, by the time zone database. -/
def lagosOffset (t : ℤ) : ℤ :=
  if t < seconds (-2035584815) then seconds 815
  else if t < seconds (-1940889600) then 0
  else if t < seconds (-1767226415) then seconds 815
  else if t < lagosStandardTime then seconds 1800
  else seconds 3600

/-- `(t AT TIME ZONE 'Africa/Lagos')::date`. -/
def lagosDate (t : ℤ) : ℤ := (t + lagosOffset t) / dayMicros

theorem lagosOffset_le (t : ℤ) : lagosOffset t ≤ hours 1 := by
  unfold lagosOffset seconds hours
  split
  · omega
  · split
    · omega
    · split
      · omega
      · split
        · omega
        · omega

theorem lagosOffset_of_standard {t : ℤ} (h : lagosStandardTime ≤ t) : lagosOffset t = hours 1 := by
  have hlate : ∀ n, seconds n ≤ lagosStandardTime → ¬ t < seconds n := by
    intro n hn
    omega
  unfold lagosOffset
  rw [if_neg (hlate _ (by decide)), if_neg (hlate _ (by decide)), if_neg (hlate _ (by decide)),
    if_neg (by omega)]
  decide

theorem lagosOffset_of_earlier {t : ℤ} (h : t < lagosStandardTime) :
    lagosOffset t ≤ seconds 1800 := by
  unfold lagosOffset
  rw [if_pos h]
  split
  · decide
  · split
    · decide
    · split
      · decide
      · exact le_refl _

/-- From the change on, a day begins an hour before midnight in UTC. -/
theorem lagosDate_of_standard {t : ℤ} (h : lagosStandardTime ≤ t) :
    lagosDate t = (t + hours 1) / dayMicros := by
  rw [lagosDate, lagosOffset_of_standard h]

/-- The day that is `date` by the shift, as the hours it spans. -/
theorem shift_eq_iff (t date : ℤ) : (t + hours 1) / dayMicros = date ↔
    utcMidnight date - hours 1 ≤ t ∧ t < utcMidnight date + hours 23 := by
  unfold utcMidnight dayMicros hours
  omega

/-- No instant of a day is before its shifted start, whatever the offset was. -/
theorem utcMidnight_le_of_lagosDate {t date : ℤ} (h : date ≤ lagosDate t) :
    utcMidnight date - hours 1 ≤ t := by
  have hoffset := lagosOffset_le t
  unfold lagosDate at h
  unfold utcMidnight dayMicros hours at *
  omega

/-- The last date that is not the same by the shift: 1919-09-01. -/
def lagosChangeDate : ℤ := -18385

/-- A later day is the same by the zone and by the shift. -/
theorem lagosDate_eq_iff_shift {t date : ℤ} (h : lagosChangeDate < date ∨ lagosStandardTime ≤ t) :
    lagosDate t = date ↔ utcMidnight date - hours 1 ≤ t ∧ t < utcMidnight date + hours 23 := by
  rw [← shift_eq_iff]
  by_cases hstandard : lagosStandardTime ≤ t
  · rw [lagosDate_of_standard hstandard]
  · -- Before the change both dates are too early.
    have hlate := h.resolve_right hstandard
    have hoffset := lagosOffset_of_earlier (lt_of_not_ge hstandard)
    unfold lagosDate
    unfold lagosStandardTime lagosChangeDate at *
    unfold seconds dayMicros hours at *
    omega

end MmrEngine
