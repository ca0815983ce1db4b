import MmrEngine.Core.Calendar

/-!
# Aware Datetimes

Python's `datetime` with a `tzinfo`: a wall clock reading in a time zone.

A reading alone does not say which instant it is. The zone does, with `fold` to
tell the two readings apart that a clock shows when it is set back. Arithmetic
is on the reading, whatever the clock does meanwhile, and so are the date, the
time of day and the weekday; conversion to another zone goes through the
instant.

Dates count from 1970-01-01, a Thursday. The years a `datetime` can have are
not modelled.

## Main definitions

* `TimeZone`: A `tzinfo`; `TimeZone.fixed` is `timezone(timedelta)`.
* `Datetime`: An aware `datetime`, with its `instant`.
* `Datetime.astimezone`, `Datetime.add`: Conversion and arithmetic.
* `Datetime.date`, `Datetime.time`, `Datetime.weekday`, `Datetime.replaceTime`.
* `Datetime.isoformat`: The text of an instant in UTC.
* `Datetime.strftimeDate`, `Datetime.strftimeHour`, `Datetime.strftimeSecond`: Texts of a
  reading.

## Theorems

* `instant_astimezone`: Conversion keeps the instant.
* `instant_add_fixed`: Where the offset is fixed, arithmetic is on instants.
-/

namespace MmrEngine

/-- A `tzinfo`: the offset of a reading, and the reading at an instant. -/
structure TimeZone where
  utcOffset : ℤ → Bool → ℤ
  fromUtc : ℤ → ℤ × Bool
  fromUtc_offset : ∀ t, (fromUtc t).1 - utcOffset (fromUtc t).1 (fromUtc t).2 = t

/-- `timezone(offset)`. -/
def TimeZone.fixed (offset : ℤ) : TimeZone where
  utcOffset _ _ := offset
  fromUtc t := (t + offset, false)
  fromUtc_offset t := by
    simp only []
    omega

/-- `datetime.UTC`. -/
def TimeZone.utc : TimeZone := .fixed 0

/-- An aware `datetime`. -/
structure Datetime where
  wallClock : ℤ
  fold : Bool := false
  tzinfo : TimeZone

namespace Datetime

/-- The instant, in microseconds since 1970-01-01T00:00:00Z. -/
def instant (d : Datetime) : ℤ := d.wallClock - d.tzinfo.utcOffset d.wallClock d.fold

/-- An instant in UTC. -/
def ofInstant (t : ℤ) : Datetime where
  wallClock := t
  tzinfo := .utc

def astimezone (d : Datetime) (tz : TimeZone) : Datetime where
  wallClock := (tz.fromUtc d.instant).1
  fold := (tz.fromUtc d.instant).2
  tzinfo := tz

/-- `d + delta`: the clock goes on by `delta`, as if it were never set. -/
def add (d : Datetime) (delta : ℤ) : Datetime :=
  { d with wallClock := d.wallClock + delta, fold := false }

def date (d : Datetime) : ℤ := d.wallClock / dayMicros

/-- The time of day. -/
def time (d : Datetime) : ℤ := d.wallClock % dayMicros

/-- Monday is 0 and Sunday 6. -/
def weekday (d : Datetime) : ℤ := (d.date + 3) % 7

/-- `replace` of hour, minute, second and microsecond. -/
def replaceTime (d : Datetime) (time : ℤ) : Datetime :=
  { d with wallClock := d.date * dayMicros + time }

/-- Year, month and day of a date in the Gregorian calendar. -/
def civilFromDays (date : ℤ) : ℤ × ℤ × ℤ :=
  -- Years begin in March, in eras of 400.
  let days := date + 719468
  let ofEra := days % 146097
  let year := (ofEra - ofEra / 1460 + ofEra / 36524 - ofEra / 146096) / 365
  let ofYear := ofEra - (365 * year + year / 4 - year / 100)
  let shifted := (5 * ofYear + 2) / 153
  let month := if shifted < 10 then shifted + 3 else shifted - 9
  (year + days / 146097 * 400 + (if month ≤ 2 then 1 else 0), month,
    ofYear - (153 * shifted + 2) / 5 + 1)

/-- A number that is not negative, in at least so many digits. -/
def padded (width : Nat) (n : ℤ) : String :=
  String.ofList (List.replicate (width - (toString n).length) '0') ++ toString n

/-- `isoformat` of a `datetime` in UTC. -/
def isoformat (t : ℤ) : String :=
  let date := civilFromDays (t / dayMicros)
  let time := t % dayMicros
  let second := time / 1000000
  padded 4 date.1 ++ "-" ++ padded 2 date.2.1 ++ "-" ++ padded 2 date.2.2 ++ "T" ++
    padded 2 (second / 3600) ++ ":" ++ padded 2 (second / 60 % 60) ++ ":" ++
    padded 2 (second % 60) ++
    (if time % 1000000 = 0 then "" else "." ++ padded 6 (time % 1000000)) ++ "+00:00"

/-- `strftime("%Y-%m-%d")`. -/
def strftimeDate (d : Datetime) : String :=
  let date := civilFromDays d.date
  padded 4 date.1 ++ "-" ++ padded 2 date.2.1 ++ "-" ++ padded 2 date.2.2

/-- `strftime("%H")`. -/
def strftimeHour (d : Datetime) : String := padded 2 (d.time / 1000000 / 3600)

/-- `strftime("%Y-%m-%dT%H:%M:%S.000Z")`. -/
def strftimeSecond (d : Datetime) : String :=
  let second := d.time / 1000000
  strftimeDate d ++ "T" ++ padded 2 (second / 3600) ++ ":" ++ padded 2 (second / 60 % 60) ++
    ":" ++ padded 2 (second % 60) ++ ".000Z"

@[simp] theorem instant_ofInstant (t : ℤ) : (ofInstant t).instant = t := by
  simp [ofInstant, instant, TimeZone.utc, TimeZone.fixed]

/-- Conversion keeps the instant. -/
@[simp] theorem instant_astimezone (d : Datetime) (tz : TimeZone) :
    (d.astimezone tz).instant = d.instant := tz.fromUtc_offset d.instant

/-- Where the offset is fixed, arithmetic is on instants. -/
theorem instant_add_fixed {d : Datetime} {offset : ℤ} (h : d.tzinfo = .fixed offset) (delta : ℤ) :
    (d.add delta).instant = d.instant + delta := by
  simp only [instant, add, h, TimeZone.fixed]
  omega

end Datetime

end MmrEngine
