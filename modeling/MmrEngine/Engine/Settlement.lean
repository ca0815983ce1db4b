import MmrEngine.Core.Datetime
import MmrEngine.Engine.Normaliser
import MmrEngine.Lib.ClosingTimes

/-!
# Expected Settlement

When a transaction should settle: its settlement window's lag after it was
initiated, a day later if that was past the cutoff, and for a window of business
days not on a weekend.

All of this is in West Africa Time, one hour ahead of UTC. The cutoff is
compared with the time of day there, and a weekend is a Saturday or Sunday
there; what falls on one is moved to the Monday after, at 09:00.

What the source does to `datetime`s in whatever zone is a matter of instants.
`weekends` is the weekend as closing times of the library, with Monday 09:00 as
the opening, and `skipWeekends` postpones by it (`instant_skipWeekends`).

A lag is a `NUMERIC(5,2)` of hours, so in hundredths it is a whole number, and
as a `timedelta` a whole number of seconds.

## Main definitions

* `SettlementWindow`: A settlement window.
* `skipWeekends`, `SettlementWindow.base`, `SettlementWindow.expectedAt`,
  `computeExpectedSettlement`: The source's computation.
* `weekends`: The weekends, as closing times.
* `SettlementWindow.baseAt`, `SettlementWindow.settlesAt`: The same on instants.

## Theorems

* `instant_skipWeekends`: Skipping weekends is postponing.
* `instant_base`, `instant_expectedAt`: The computation on instants.
-/

namespace MmrEngine

namespace Settlement

/-- The values of `settlement_days`. -/
inductive SettlementDays where
  | business
  | calendar
  deriving DecidableEq, Repr

/-- A row of `silver_psp_settlement_windows`, the lag in hundredths of an hour
    and the cutoff as a time of day. -/
structure SettlementWindow where
  pspName : String
  transactionType : TransactionType
  accountTier : String := "standard"
  settlementLagHundredths : ℕ
  settlementDays : SettlementDays
  cutoffTimeWat : Option ℤ
  effectiveFrom : ℤ
  effectiveUntil : Option ℤ := none

/-- `timedelta(hours=lag_hours)`. -/
def SettlementWindow.lag (w : SettlementWindow) : ℤ := w.settlementLagHundredths * seconds 36

/-- `WAT`. -/
def wat : TimeZone := .fixed (hours 1)

/-- `_skip_weekends`. -/
def skipWeekends (dt : Datetime) : Datetime :=
  let localTime := dt.astimezone wat
  if localTime.weekday < 5 then dt
  else
    -- Saturday is two days before Monday, Sunday one.
    let daysAhead := 7 - localTime.weekday
    let monday := (localTime.add (daysAhead * dayMicros)).replaceTime (hours 9)
    monday.astimezone dt.tzinfo

/-- Initiated after the cutoff, by the clock in Lagos. -/
def SettlementWindow.afterCutoff (w : SettlementWindow) (initiatedWat : Datetime) : Bool :=
  match w.cutoffTimeWat with
  | none => false
  | some cutoff => cutoff < initiatedWat.time

/-- The lag after the initiation, and a day more after the cutoff. -/
def SettlementWindow.base (w : SettlementWindow) (initiatedAt : Datetime) : Datetime :=
  let cutoffExtra := if w.afterCutoff (initiatedAt.astimezone wat) then hours 24 else 0
  initiatedAt.add (w.lag + cutoffExtra)

/-- What `compute_expected_settlement` makes of a window's row. -/
def SettlementWindow.expectedAt (w : SettlementWindow) (initiatedAt : Datetime) : Datetime :=
  match w.settlementDays with
  | .business => skipWeekends (w.base initiatedAt)
  | .calendar => w.base initiatedAt

/-- The window in force on a date. -/
def windowFor (windows : List SettlementWindow) (pspName : String)
    (transactionType : TransactionType) (accountTier : String) (txDate : ℤ) :
    Option SettlementWindow :=
  ((windows.filter fun w =>
      decide (w.pspName = pspName ∧ w.transactionType = transactionType ∧
        w.accountTier = accountTier ∧ w.effectiveFrom ≤ txDate) &&
      w.effectiveUntil.all fun until_ => decide (txDate < until_)).mergeSort
    -- `ORDER BY effective_from DESC LIMIT 1`.
    fun a b => decide (b.effectiveFrom ≤ a.effectiveFrom)).head?

def computeExpectedSettlement (windows : List SettlementWindow) (pspName : String)
    (transactionType : TransactionType) (initiatedAt : Datetime) (accountTier : String) :
    Option Datetime :=
  (windowFor windows pspName transactionType accountTier initiatedAt.date).map
    fun w => w.expectedAt initiatedAt

/-- The date of an instant in West Africa Time. -/
def watDate (t : ℤ) : ℤ := (t + hours 1) / dayMicros

/-- Its time of day there. -/
def watTime (t : ℤ) : ℤ := (t + hours 1) % dayMicros

/-- Monday is 0 and Sunday 6. -/
def weekdayOf (date : ℤ) : ℤ := (date + 3) % 7

/-- 09:00 on the Monday after the week of an instant. -/
def nextMonday (t : ℤ) : ℤ :=
  (watDate t + (7 - weekdayOf (watDate t))) * dayMicros + hours 9 - hours 1

/-- Saturdays and Sundays, which end on Monday at 09:00. -/
def weekends : ClosingTimes ℤ where
  closed t := decide (5 ≤ weekdayOf (watDate t))
  opening := nextMonday
  lt_opening t h := by
    rw [decide_eq_true_eq] at h
    unfold nextMonday weekdayOf watDate dayMicros hours at *
    omega
  open_opening t h := by
    rw [decide_eq_true_eq] at h
    rw [decide_eq_false_iff_not]
    unfold nextMonday weekdayOf watDate dayMicros hours at *
    omega
  opening_eq t t' h h' hle hbefore := by
    rw [decide_eq_true_eq] at h h'
    unfold nextMonday weekdayOf watDate dayMicros hours at *
    omega

/-- A window's lag and cutoff, on instants. -/
def SettlementWindow.late (w : SettlementWindow) (t : ℤ) : Bool :=
  w.cutoffTimeWat.any fun cutoff => decide (cutoff < watTime t)

/-- When a window has something settle, before weekends are skipped. -/
def SettlementWindow.baseAt (w : SettlementWindow) (t : ℤ) : ℤ :=
  t + w.lag + if w.late t then hours 24 else 0

/-- When a window has something settle. -/
def SettlementWindow.settlesAt (w : SettlementWindow) (t : ℤ) : ℤ :=
  match w.settlementDays with
  | .business => weekends.postpone (w.baseAt t)
  | .calendar => w.baseAt t

theorem date_wat (dt : Datetime) : (dt.astimezone wat).date = watDate dt.instant := rfl

theorem weekday_wat (dt : Datetime) :
    (dt.astimezone wat).weekday = weekdayOf (watDate dt.instant) := rfl

theorem weekends_closed (t : ℤ) : weekends.closed t = true ↔ 5 ≤ weekdayOf (watDate t) :=
  decide_eq_true_iff

theorem weekends_open (t : ℤ) : weekends.closed t = false ↔ weekdayOf (watDate t) < 5 := by
  rw [← Bool.not_eq_true, weekends_closed, not_le]

/-- On a weekday nothing is skipped. -/
theorem skipWeekends_of_weekday {dt : Datetime} (h : (dt.astimezone wat).weekday < 5) :
    skipWeekends dt = dt := if_pos h

/-- Skipping weekends is postponing, in whatever zone. -/
theorem instant_skipWeekends (dt : Datetime) :
    (skipWeekends dt).instant = weekends.postpone dt.instant := by
  by_cases hopen : (dt.astimezone wat).weekday < 5
  · rw [skipWeekends_of_weekday hopen,
      ClosingTimes.postpone_of_open ((weekends_open _).mpr hopen)]
  · unfold skipWeekends
    simp only [if_neg hopen]
    rw [ClosingTimes.postpone_of_closed ((weekends_closed _).mpr (not_lt.mp hopen)),
      Datetime.instant_astimezone]
    -- The Monday is a reading in West Africa Time.
    have hmonday : (((dt.astimezone wat).add ((7 - (dt.astimezone wat).weekday) * dayMicros)).date)
        = watDate dt.instant + (7 - weekdayOf (watDate dt.instant)) := by
      unfold Datetime.date
      change (dt.instant + hours 1 + _ * dayMicros) / dayMicros = _
      rw [Int.add_mul_ediv_right _ _ (by decide)]
      rfl
    change (_ : ℤ) * dayMicros + hours 9 - hours 1 = nextMonday dt.instant
    rw [hmonday]
    rfl

/-- A window's cutoff is passed by the instant. -/
theorem afterCutoff_eq (w : SettlementWindow) (dt : Datetime) :
    w.afterCutoff (dt.astimezone wat) = w.late dt.instant := by
  unfold SettlementWindow.afterCutoff SettlementWindow.late
  cases w.cutoffTimeWat <;> rfl

/-- In a zone of fixed offset the computation is one on instants. -/
theorem instant_base (w : SettlementWindow) {dt : Datetime} {offset : ℤ}
    (h : dt.tzinfo = .fixed offset) : (w.base dt).instant = w.baseAt dt.instant := by
  unfold SettlementWindow.base SettlementWindow.baseAt
  simp only []
  rw [Datetime.instant_add_fixed h, afterCutoff_eq, add_assoc]

theorem instant_expectedAt (w : SettlementWindow) {dt : Datetime} {offset : ℤ}
    (h : dt.tzinfo = .fixed offset) : (w.expectedAt dt).instant = w.settlesAt dt.instant := by
  unfold SettlementWindow.expectedAt SettlementWindow.settlesAt
  cases w.settlementDays with
  | business =>
      simp only []
      rw [instant_skipWeekends, instant_base w h]
  | calendar => exact instant_base w h

end Settlement

end MmrEngine
