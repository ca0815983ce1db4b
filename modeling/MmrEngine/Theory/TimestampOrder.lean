import MmrEngine.Core.UtcDatetime
import Mathlib.Data.String.Basic
import Mathlib.Order.Monotone.Basic

/-!
# The Order of Timestamps

Timestamps in UTC sorted as texts are sorted by time.

Both orders are that of the fields. For the instants this is the calendar: a
month has ended before the next begins, and so has a year. For the texts it is
that a field is written in so many digits, whatever its value. The fraction is
the exception, as it is left out when it is zero; what stands in its place then
is the `+` of the offset, which comes before the `.` of a fraction.

## Theorems

* `toordinal_lt`, `instant_strictMono`: Earlier fields, earlier instant.
* `suffix_lt`, `isoformat_strictMono`: Earlier fields, smaller text.
-/

namespace MmrEngine

/-! ### The calendar -/

def daysInYear (year : Nat) : Nat := if isLeap year then 366 else 365

/-- One more year has ended, and maybe one more that can be divided by `n`. -/
theorem div_pred {year n : Nat} (h : 1 ≤ year) :
    year / n = (year - 1) / n + if year % n = 0 then 1 else 0 := by
  have hsucc : year - 1 + 1 = year := Nat.sub_add_cancel h
  have hdiv := @Nat.succ_div (year - 1) n
  rw [hsucc] at hdiv
  simp only [hdiv, Nat.dvd_iff_mod_eq_zero]

theorem daysBeforeYear_succ {year : Nat} (h : 1 ≤ year) :
    daysBeforeYear (year + 1) = daysBeforeYear year + daysInYear year := by
  have hle : (year - 1) / 100 ≤ (year - 1) / 4 := Nat.div_le_div_left (by omega) (by omega)
  have hdays : (year - 1 + 1) * 365 = (year - 1) * 365 + 365 := by omega
  unfold daysBeforeYear daysInYear
  rw [Nat.add_sub_cancel, div_pred h, div_pred h, div_pred h]
  simp only [isLeap, decide_eq_true_eq]
  -- A year that 400 divides is one that 100 divides, and that is one that 4 divides.
  by_cases h400 : year % 400 = 0
  · rw [if_pos h400, if_pos (by omega), if_pos (by omega), if_pos ⟨by omega, Or.inr h400⟩]
    omega
  · rw [if_neg h400]
    by_cases h100 : year % 100 = 0
    · rw [if_pos h100, if_pos (by omega), if_neg fun hleap => by omega]
      omega
    · rw [if_neg h100]
      by_cases h4 : year % 4 = 0
      · rw [if_pos h4, if_pos ⟨h4, Or.inl h100⟩]
        omega
      · rw [if_neg h4, if_neg fun hleap => h4 hleap.1]
        omega

/-- A year has ended when a later one begins. -/
theorem daysBeforeYear_le {year year' : Nat} (hpos : 1 ≤ year) (h : year < year') :
    daysBeforeYear year + daysInYear year ≤ daysBeforeYear year' := by
  induction h with
  | refl => exact le_of_eq (daysBeforeYear_succ hpos).symm
  | @step between hle ih =>
      have hone : 1 ≤ between := le_trans hpos (Nat.le_of_lt hle)
      rw [Nat.succ_eq_add_one, daysBeforeYear_succ hone]
      omega

theorem daysBeforeMonth_le (year : Nat) {month month' : Nat} (h : month < month') :
    daysBeforeMonth year month + daysInMonth year month ≤ daysBeforeMonth year month' := by
  induction h with
  | refl => exact le_refl _
  | step hle ih =>
      rw [Nat.succ_eq_add_one, daysBeforeMonth]
      omega

theorem daysBeforeMonth_thirteen (year : Nat) : daysBeforeMonth year 13 = daysInYear year := by
  simp only [daysBeforeMonth, daysInMonth, daysInYear]
  by_cases hleap : isLeap year = true
  · rw [if_pos hleap, if_pos hleap]
  · rw [if_neg hleap, if_neg hleap]

namespace UtcDatetime

/-- The days of a year up to a date are no more than the year has. -/
theorem dayOfYear_le (d : UtcDatetime) :
    daysBeforeMonth d.year d.month + d.day ≤ daysInYear d.year := by
  rcases d.valid with ⟨-, hmonth, hday, -⟩
  have hle := daysBeforeMonth_le d.year (by omega : d.month < 13)
  rw [daysBeforeMonth_thirteen] at hle
  omega

theorem toordinal_lt_of_year {d e : UtcDatetime} (h : d.year < e.year) :
    d.toordinal < e.toordinal := by
  rcases d.valid with ⟨hyear, -⟩
  rcases e.valid with ⟨-, -, hday, -⟩
  have hle := daysBeforeYear_le hyear.1 h
  have hdoy := dayOfYear_le d
  unfold toordinal
  omega

theorem toordinal_lt_of_month {d e : UtcDatetime} (hyear : d.year = e.year)
    (h : d.month < e.month) : d.toordinal < e.toordinal := by
  rcases d.valid with ⟨-, -, hday, -⟩
  rcases e.valid with ⟨-, -, hday', -⟩
  have hle := daysBeforeMonth_le d.year h
  unfold toordinal
  rw [← hyear]
  omega

theorem toordinal_lt_of_day {d e : UtcDatetime} (hyear : d.year = e.year)
    (hmonth : d.month = e.month) (h : d.day < e.day) : d.toordinal < e.toordinal := by
  unfold toordinal
  rw [← hyear, ← hmonth]
  omega

/-- An earlier day ends before a later one begins. -/
theorem instant_lt_of_toordinal {d e : UtcDatetime} (h : d.toordinal < e.toordinal) :
    d.instant < e.instant := by
  rcases d.valid with ⟨-, -, -, hhour, hminute, hsecond, hmicro⟩
  unfold instant
  omega

/-- The order of the fields is that of the instants. -/
theorem instant_strictMono : StrictMono instant := by
  intro d e h
  rw [lt_iff_fields] at h
  simp only [fields, List.cons_lt_cons_iff, List.not_lt_nil, and_false, or_false] at h
  rcases h with hyear | ⟨hyear, hmonth | ⟨hmonth, hday | ⟨hday, htime⟩⟩⟩
  · exact instant_lt_of_toordinal (toordinal_lt_of_year hyear)
  · exact instant_lt_of_toordinal (toordinal_lt_of_month hyear hmonth)
  · exact instant_lt_of_toordinal (toordinal_lt_of_day hyear hmonth hday)
  · -- On one day the time decides.
    have hordinal : d.toordinal = e.toordinal := by
      rw [toordinal, toordinal, hyear, hmonth, hday]
    rcases d.valid with ⟨-, -, -, hhour, hminute, hsecond, hmicro⟩
    unfold instant
    omega

/-! ### The texts -/

/-- A missing fraction comes first. -/
theorem suffix_lt {m n : Nat} (hm : m < 1000000) (hn : n < 1000000) (h : m < n) :
    suffix m < suffix n := by
  have hpos : n ≠ 0 := by omega
  unfold suffix
  rw [if_neg hpos]
  -- The plus sign comes before the dot.
  by_cases hzero : m = 0
  · rw [if_pos hzero]
    exact List.cons_lt_cons_iff.mpr (Or.inl (by decide))
  · rw [if_neg hzero]
    refine List.cons_lt_cons_iff.mpr (Or.inr ⟨rfl, ?_⟩)
    exact Digits.padded_append_lt (by omega) (by omega) (by omega)
      (List.cons_lt_cons_iff.mpr (Or.inl h)) fun hnil => absurd hnil (List.not_lt_nil [])

theorem cons_lt {c : Char} {r r' : List Char} (h : r < r') : c :: r < c :: r' :=
  List.cons_lt_cons_iff.mpr (Or.inr ⟨rfl, h⟩)

/-- The order of the fields is that of the texts. -/
theorem isoformat_strictMono : StrictMono isoformat := by
  intro d e h
  rw [lt_iff_fields] at h
  rcases d.fields_lt with ⟨hyear, hmonth, hday, hhour, hminute, hsecond, hmicro⟩
  rcases e.fields_lt with ⟨hyear', hmonth', hday', hhour', hminute', hsecond', hmicro'⟩
  rw [String.lt_iff_toList_lt, isoformat, isoformat, String.toList_ofList, String.toList_ofList]
  -- One field after the other, as long as they are the same.
  refine Digits.padded_append_lt (by omega) hyear hyear' h fun h => cons_lt ?_
  refine Digits.padded_append_lt (by omega) hmonth hmonth' h fun h => cons_lt ?_
  refine Digits.padded_append_lt (by omega) hday hday' h fun h => cons_lt ?_
  refine Digits.padded_append_lt (by omega) hhour hhour' h fun h => cons_lt ?_
  refine Digits.padded_append_lt (by omega) hminute hminute' h fun h => cons_lt ?_
  refine Digits.padded_append_lt (by omega) hsecond hsecond' h fun h => ?_
  rcases List.cons_lt_cons_iff.mp h with hlt | ⟨-, hnil⟩
  · exact suffix_lt hmicro hmicro' hlt
  · exact absurd hnil (List.not_lt_nil [])

theorem isoformat_le_iff {d e : UtcDatetime} : d.isoformat ≤ e.isoformat ↔ d ≤ e :=
  isoformat_strictMono.le_iff_le

theorem instant_le_iff {d e : UtcDatetime} : d.instant ≤ e.instant ↔ d ≤ e :=
  instant_strictMono.le_iff_le

end UtcDatetime

end MmrEngine
