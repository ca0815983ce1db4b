import MmrEngine.Core.Library
import MmrEngine.Engine.Settlement

/-!
# Where Settlements Are Expected

The expected settlement of one transaction, and of two that the same window
applies to.

One transaction settles its lag after it was initiated, a day later past the
cutoff, and a business window never expects it on a weekend.

Two transactions need not settle in the order they were initiated. The cutoff
adds a day that the next midnight takes away again, so what comes shortly after
midnight may settle before what came after the cutoff the evening before. And a
weekend ends at 09:00 on Monday for what was due on it, but not for what is due
earlier on that Monday. `settlement_order_iff` says that there is no other case,
and which of these cases the weekend hides again.

For the same reason missing the cutoff does not always cost a business day. The
day it costs is added before weekends are skipped, and is lost where the lag
alone already leads into a weekend.

## Main definitions

* `MondayAtNine`: The instants a weekend ends at.

## Theorems

* `expected_settlement_bounds`: One transaction.
* `settlement_order_iff`: Two transactions in order.
* `missed_cutoff_costs_a_day_iff`: Two on one day, one past the cutoff.
-/

namespace MmrEngine

namespace Settlement

/-- 09:00 on a Monday, West Africa Time. -/
def MondayAtNine (t : ℤ) : Prop := weekdayOf (watDate t) = 0 ∧ watTime t = hours 9

section Weekends

variable {t : ℤ}

/-- A weekend is over on the first Monday at 09:00 after it. -/
theorem nextMonday_first (h : weekends.closed t = true) :
    MondayAtNine (nextMonday t) ∧ t < nextMonday t ∧
      ∀ u, MondayAtNine u → t < u → nextMonday t ≤ u := by
  rw [weekends_closed] at h
  refine ⟨⟨?_, ?_⟩, ?_, fun u hu hlt => ?_⟩
  · unfold nextMonday weekdayOf watDate dayMicros hours at *
    omega
  · unfold watTime nextMonday weekdayOf watDate dayMicros hours at *
    omega
  · unfold nextMonday weekdayOf watDate dayMicros hours at *
    omega
  · -- A Monday after `t` is not before the next one, and neither is its 09:00.
    unfold MondayAtNine watTime at hu
    unfold nextMonday weekdayOf watDate dayMicros hours at *
    omega

/-- It is over at most 57 hours later, from the first moment of Saturday on. -/
theorem postpone_le_add (t : ℤ) : weekends.postpone t ≤ t + hours 57 := by
  cases h : weekends.closed t with
  | true =>
      rw [ClosingTimes.postpone_of_closed h]
      rw [weekends_closed] at h
      change nextMonday t ≤ t + hours 57
      unfold nextMonday weekdayOf watDate dayMicros hours at *
      omega
  | false =>
      rw [ClosingTimes.postpone_of_open h]
      unfold hours
      omega

theorem watDate_add_days (t n : ℤ) : watDate (t + n * dayMicros) = watDate t + n := by
  unfold watDate dayMicros hours
  omega

/-- Postponing moves the date of a weekend to the Monday after. -/
theorem watDate_postpone (t : ℤ) : watDate (weekends.postpone t) =
    if weekdayOf (watDate t) < 5 then watDate t
    else watDate t + (7 - weekdayOf (watDate t)) := by
  by_cases hopen : weekdayOf (watDate t) < 5
  · rw [if_pos hopen, ClosingTimes.postpone_of_open ((weekends_open t).mpr hopen)]
  · rw [if_neg hopen, ClosingTimes.postpone_of_closed ((weekends_closed t).mpr (not_lt.mp hopen))]
    change watDate (nextMonday t) = _
    unfold nextMonday watDate dayMicros hours
    omega

end Weekends

section Single

/-- Skipping weekends twice is skipping them once. -/
theorem skipWeekends_skipWeekends (dt : Datetime) :
    skipWeekends (skipWeekends dt) = skipWeekends dt := by
  have hopen : ((skipWeekends dt).astimezone wat).weekday < 5 := by
    rw [weekday_wat, instant_skipWeekends, ← weekends_open]
    exact ClosingTimes.not_closed_postpone weekends _
  exact skipWeekends_of_weekday hopen

/-- Where a transaction's settlement is expected. -/
theorem expected_settlement_bounds (w : SettlementWindow) (initiatedAt : Datetime) :
    (100 * w.lag = w.settlementLagHundredths * hours 1 ∧
      w.base initiatedAt = initiatedAt.add (w.lag +
        if w.afterCutoff (initiatedAt.astimezone wat) then hours 24 else 0) ∧
      (w.afterCutoff (initiatedAt.astimezone wat) = true ↔
        ∃ cutoff, w.cutoffTimeWat = some cutoff ∧ cutoff < (initiatedAt.astimezone wat).time) ∧
      ∀ offset, initiatedAt.tzinfo = .fixed offset → (w.base initiatedAt).instant =
        initiatedAt.instant + (w.lag +
          if w.afterCutoff (initiatedAt.astimezone wat) then hours 24 else 0)) ∧
      (w.settlementDays = .calendar → w.expectedAt initiatedAt = w.base initiatedAt) ∧
      (w.settlementDays = .business →
        ((w.expectedAt initiatedAt).astimezone wat).weekday < 5 ∧
        (((w.base initiatedAt).astimezone wat).weekday < 5 →
          w.expectedAt initiatedAt = w.base initiatedAt) ∧
        (5 ≤ ((w.base initiatedAt).astimezone wat).weekday →
          MondayAtNine (w.expectedAt initiatedAt).instant ∧
          (w.base initiatedAt).instant < (w.expectedAt initiatedAt).instant ∧
          ∀ t, MondayAtNine t → (w.base initiatedAt).instant < t →
            (w.expectedAt initiatedAt).instant ≤ t) ∧
        (w.base initiatedAt).instant ≤ (w.expectedAt initiatedAt).instant ∧
        (w.expectedAt initiatedAt).instant ≤ (w.base initiatedAt).instant + hours 57) ∧
      (∀ dt, skipWeekends (skipWeekends dt) = skipWeekends dt) ∧
      ∀ dt dt' : Datetime, dt.instant = dt'.instant →
        (skipWeekends dt).instant = (skipWeekends dt').instant := by
  refine ⟨⟨?_, rfl, ?_, fun offset hzone => Datetime.instant_add_fixed hzone _⟩,
    fun hcalendar => ?_, fun hbusiness => ?_, skipWeekends_skipWeekends, fun dt dt' hsame => ?_⟩
  · unfold SettlementWindow.lag seconds hours
    omega
  · unfold SettlementWindow.afterCutoff
    cases w.cutoffTimeWat with
    | none => simp
    | some cutoff => simp
  · rw [SettlementWindow.expectedAt, hcalendar]
  · have hskip : w.expectedAt initiatedAt = skipWeekends (w.base initiatedAt) := by
      rw [SettlementWindow.expectedAt, hbusiness]
    rw [hskip, weekday_wat, weekday_wat, instant_skipWeekends]
    -- What is left is about postponing a weekend.
    refine ⟨?_, fun hopen => ?_, fun hclosed => ?_, ClosingTimes.le_postpone _ _,
      postpone_le_add _⟩
    · rw [← weekends_open]
      exact ClosingTimes.not_closed_postpone weekends _
    · exact skipWeekends_of_weekday hopen
    · have hweekend := (weekends_closed _).mpr hclosed
      rw [ClosingTimes.postpone_of_closed hweekend]
      exact nextMonday_first hweekend
  · rw [instant_skipWeekends, instant_skipWeekends, hsame]

end Single

section Pairs

/-- What the midnight after the cutoff takes away again. -/
theorem baseAt_lt_iff (w : SettlementWindow) {t t' : ℤ} (hle : t ≤ t') :
    w.baseAt t' < w.baseAt t ↔ w.late t = true ∧ w.late t' = false ∧ t' < t + hours 24 := by
  unfold SettlementWindow.baseAt
  cases w.late t with
  | false =>
      -- The later one is not the one without the extra day.
      cases w.late t' <;> simp [hours] <;> omega
  | true =>
      cases w.late t' with
      | false => simp [hours]; omega
      | true => simp; omega

/-- When the expected settlements of two transactions are in the order they were
    initiated in. -/
theorem settlement_order_iff (w : SettlementWindow) {t t' : ℤ} (hle : t ≤ t') :
    ((w.base (.ofInstant t')).instant < (w.base (.ofInstant t)).instant ↔
        w.afterCutoff ((Datetime.ofInstant t).astimezone wat) = true ∧
        w.afterCutoff ((Datetime.ofInstant t').astimezone wat) = false ∧ t' < t + hours 24) ∧
      (w.settlementDays = .calendar →
        ((w.expectedAt (.ofInstant t)).instant ≤ (w.expectedAt (.ofInstant t')).instant ↔
          (w.base (.ofInstant t)).instant ≤ (w.base (.ofInstant t')).instant)) ∧
      (w.settlementDays = .business →
        ((w.expectedAt (.ofInstant t)).instant ≤ (w.expectedAt (.ofInstant t')).instant ↔
          ((w.base (.ofInstant t)).instant ≤ (w.base (.ofInstant t')).instant ∧
            ¬ (5 ≤ ((w.base (.ofInstant t)).astimezone wat).weekday ∧
              ((w.base (.ofInstant t')).astimezone wat).weekday < 5 ∧
              (w.base (.ofInstant t')).instant < nextMonday (w.base (.ofInstant t)).instant)) ∨
          ((w.base (.ofInstant t')).instant < (w.base (.ofInstant t)).instant ∧
            5 ≤ ((w.base (.ofInstant t')).astimezone wat).weekday ∧
            (w.base (.ofInstant t)).instant ≤ nextMonday (w.base (.ofInstant t')).instant))) := by
  -- Everything is a statement about instants and weekends as closing times.
  have hbase : ∀ u, (w.base (.ofInstant u)).instant = w.baseAt u := by
    intro u
    rw [instant_base w rfl, Datetime.instant_ofInstant]
  have hexpected : ∀ u, (w.expectedAt (.ofInstant u)).instant = w.settlesAt u := by
    intro u
    rw [instant_expectedAt w rfl, Datetime.instant_ofInstant]
  simp only [hbase, hexpected, weekday_wat, afterCutoff_eq, Datetime.instant_ofInstant]
  refine ⟨baseAt_lt_iff w hle, fun hcalendar => ?_, fun hbusiness => ?_⟩
  · rw [SettlementWindow.settlesAt, SettlementWindow.settlesAt, hcalendar]
  · rw [SettlementWindow.settlesAt, SettlementWindow.settlesAt, hbusiness]
    simp only [← weekends_open, ← weekends_closed]
    -- The library has one rule for bases in order and one for bases out of order.
    rcases le_or_gt (w.baseAt t) (w.baseAt t') with horder | horder
    · rw [ClosingTimes.postpone_le_postpone_iff horder]
      constructor
      · exact fun h => Or.inl ⟨horder, h⟩
      · rintro (h | h)
        · exact h.2
        · exact absurd h.1 (not_lt.mpr horder)
    · rw [ClosingTimes.postpone_le_of_lt_iff horder]
      constructor
      · exact fun h => Or.inr ⟨horder, h⟩
      · rintro (h | h)
        · exact absurd h.1 (not_le.mpr horder)
        · exact h.2

/-- When missing the cutoff costs a business day. -/
theorem missed_cutoff_costs_a_day_iff (w : SettlementWindow) {days : ℕ} {cutoff : ℤ}
    (hbusiness : w.settlementDays = .business) (hcutoff : w.cutoffTimeWat = some cutoff)
    (hlag : w.settlementLagHundredths = 2400 * days) {t t' : ℤ} (hday : watDate t' = watDate t)
    (hontime : watTime t ≤ cutoff) (hlate : cutoff < watTime t') :
    ((w.expectedAt (.ofInstant t)).astimezone wat).date
        < ((w.expectedAt (.ofInstant t')).astimezone wat).date ↔
      weekdayOf (watDate t + days) < 5 := by
  have hdate : ∀ u, ((w.expectedAt (.ofInstant u)).astimezone wat).date
      = watDate (weekends.postpone (w.baseAt u)) := by
    intro u
    rw [date_wat, instant_expectedAt w rfl, Datetime.instant_ofInstant,
      SettlementWindow.settlesAt, hbusiness]
  have hwhole : w.lag = days * dayMicros := by
    rw [SettlementWindow.lag, hlag]
    unfold seconds dayMicros hours
    push_cast
    omega
  -- The lag alone leads to one day, and past the cutoff to the next.
  have hbase : watDate (w.baseAt t) = watDate t + days := by
    have hfalse : w.late t = false := by
      simp [SettlementWindow.late, hcutoff, hontime]
    rw [SettlementWindow.baseAt, hwhole, hfalse, if_neg Bool.false_ne_true, add_zero,
      watDate_add_days]
  have hbase' : watDate (w.baseAt t') = watDate t + days + 1 := by
    have htrue : w.late t' = true := by
      simp [SettlementWindow.late, hcutoff, hlate]
    have hnext : t' + days * dayMicros + hours 24 = t' + (days + 1) * dayMicros := by
      unfold dayMicros hours
      omega
    rw [SettlementWindow.baseAt, hwhole, htrue, if_pos rfl, hnext, watDate_add_days, hday]
    omega
  rw [hdate, hdate, watDate_postpone, watDate_postpone, hbase, hbase']
  -- A lost day is one that the following Monday makes up for.
  unfold weekdayOf at *
  split_ifs <;> omega

/-- The seeded window for Flutterwave's standard credits: T+1, 18:00 cutoff. -/
def flutterwaveStandard : SettlementWindow where
  pspName := "flutterwave"
  transactionType := .credit
  settlementLagHundredths := 2400
  settlementDays := .business
  cutoffTimeWat := some (hours 18)
  effectiveFrom := daysFromCivil 2026 1 1

/-- An instant by its date and time of day in West Africa Time. -/
def atWat (date time : ℤ) : ℤ := date * dayMicros + time - hours 1

/-- What comes in on Tuesday evening after the cutoff is expected later than what
    comes in on Wednesday morning. Without a cutoff, what is due on a Sunday is
    expected later than what is due early on the Monday after. -/
theorem settlement_order_fails :
    (atWat (daysFromCivil 2026 5 5) (hours 19) ≤ atWat (daysFromCivil 2026 5 6) (hours 8) ∧
      (flutterwaveStandard.expectedAt
          (.ofInstant (atWat (daysFromCivil 2026 5 6) (hours 8)))).instant
        < (flutterwaveStandard.expectedAt
          (.ofInstant (atWat (daysFromCivil 2026 5 5) (hours 19)))).instant) ∧
      atWat (daysFromCivil 2026 5 9) (hours 12) ≤ atWat (daysFromCivil 2026 5 10) (hours 1) ∧
      (({ flutterwaveStandard with cutoffTimeWat := none }).expectedAt
          (.ofInstant (atWat (daysFromCivil 2026 5 10) (hours 1)))).instant
        < (({ flutterwaveStandard with cutoffTimeWat := none }).expectedAt
          (.ofInstant (atWat (daysFromCivil 2026 5 9) (hours 12)))).instant := by
  decide

/-- On Tuesday morning and Tuesday evening the order is kept. -/
theorem settlement_order_iff_tuesday :
    (flutterwaveStandard.expectedAt
        (.ofInstant (atWat (daysFromCivil 2026 5 5) (hours 8)))).instant
      ≤ (flutterwaveStandard.expectedAt
        (.ofInstant (atWat (daysFromCivil 2026 5 5) (hours 19)))).instant :=
  ((@settlement_order_iff flutterwaveStandard (atWat (daysFromCivil 2026 5 5) (hours 8))
    (atWat (daysFromCivil 2026 5 5) (hours 19)) (by decide)).2.2 rfl).mpr
    (Or.inl (by decide))

/-- On a Friday missing the cutoff costs nothing: either way it is Monday. -/
theorem missed_cutoff_costs_nothing_on_friday :
    watDate (atWat (daysFromCivil 2026 5 8) (hours 19))
        = watDate (atWat (daysFromCivil 2026 5 8) (hours 12)) ∧
      weekdayOf (watDate (atWat (daysFromCivil 2026 5 8) (hours 12))) < 5 ∧
      watTime (atWat (daysFromCivil 2026 5 8) (hours 12)) ≤ hours 18 ∧
      hours 18 < watTime (atWat (daysFromCivil 2026 5 8) (hours 19)) ∧
      ¬ ((flutterwaveStandard.expectedAt
            (.ofInstant (atWat (daysFromCivil 2026 5 8) (hours 12)))).astimezone wat).date
          < ((flutterwaveStandard.expectedAt
            (.ofInstant (atWat (daysFromCivil 2026 5 8) (hours 19)))).astimezone wat).date := by
  decide

theorem missed_cutoff_costs_a_day_iff_tuesday :
    ((flutterwaveStandard.expectedAt
        (.ofInstant (atWat (daysFromCivil 2026 5 5) (hours 12)))).astimezone wat).date
      < ((flutterwaveStandard.expectedAt
        (.ofInstant (atWat (daysFromCivil 2026 5 5) (hours 19)))).astimezone wat).date :=
  (@missed_cutoff_costs_a_day_iff flutterwaveStandard 1 (hours 18) rfl rfl rfl _ _
    (by decide) (by decide) (by decide)).mpr (by decide)

end Pairs

end Settlement

end MmrEngine
