import MmrEngine.Lib.Digits
import Mathlib.Order.Basic
import Mathlib.Data.List.Lex

/-!
# Datetimes in UTC, Field by Field

Python's `datetime` in UTC as the fields it is made of, for what depends on how
it is written: the text `isoformat` makes of it and what `fromisoformat` reads
back.

`isoformat` leaves the fraction out when there are no microseconds, so not all
texts have one length. `fromisoformat` reads more forms than this one; here it
reads those `isoformat` writes in UTC.

Datetimes are ordered by their fields, the year first.

## Main definitions

* `UtcDatetime`: The fields of a `datetime`.
* `toordinal`, `instant`: Days, and microseconds.
* `isoformat`, `fromisoformat`: As text, and back.

## Theorems

* `fromisoformat_isoformat`: Reading what was written.
-/

namespace MmrEngine

/-- `_is_leap`. -/
def isLeap (year : Nat) : Bool := year % 4 = 0 ∧ (year % 100 ≠ 0 ∨ year % 400 = 0)

/-- `_days_in_month`. -/
def daysInMonth (year month : Nat) : Nat :=
  match month with
  | 2 => if isLeap year then 29 else 28
  | 4 | 6 | 9 | 11 => 30
  | 1 | 3 | 5 | 7 | 8 | 10 | 12 => 31
  | _ => 0

/-- `_days_before_month`: the days of the months before, added up. -/
def daysBeforeMonth (year : Nat) : Nat → Nat
  | 0 => 0
  | month + 1 => daysBeforeMonth year month + daysInMonth year month

/-- `_days_before_year`. -/
def daysBeforeYear (year : Nat) : Nat :=
  (year - 1) * 365 + (year - 1) / 4 - (year - 1) / 100 + (year - 1) / 400

/-- `_check_date_fields` and `_check_time_fields`. -/
def ValidFields (year month day hour minute second microsecond : Nat) : Prop :=
  (1 ≤ year ∧ year ≤ 9999) ∧ (1 ≤ month ∧ month ≤ 12) ∧
    (1 ≤ day ∧ day ≤ daysInMonth year month) ∧ hour < 24 ∧ minute < 60 ∧ second < 60 ∧
    microsecond < 1000000

instance (year month day hour minute second microsecond : Nat) :
    Decidable (ValidFields year month day hour minute second microsecond) :=
  inferInstanceAs (Decidable (_ ∧ _))

/-- A `datetime` with `tzinfo=UTC`. -/
@[ext] structure UtcDatetime where
  year : Nat
  month : Nat
  day : Nat
  hour : Nat
  minute : Nat
  second : Nat
  microsecond : Nat
  valid : ValidFields year month day hour minute second microsecond
  deriving DecidableEq

namespace UtcDatetime

/-- The fields in the order of their weight. -/
def fields (d : UtcDatetime) : List Nat :=
  [d.year, d.month, d.day, d.hour, d.minute, d.second, d.microsecond]

theorem fields_injective : Function.Injective fields := by
  intro d e h
  simp only [fields, List.cons.injEq, and_true] at h
  rcases h with ⟨hyear, hmonth, hday, hhour, hminute, hsecond, hmicro⟩
  exact UtcDatetime.ext hyear hmonth hday hhour hminute hsecond hmicro

/-- The year comes first and the microsecond last. -/
instance : LinearOrder UtcDatetime := LinearOrder.lift' fields fields_injective

theorem lt_iff_fields {d e : UtcDatetime} : d < e ↔ d.fields < e.fields := Iff.rfl

/-- `toordinal`: 0001-01-01 is day 1. -/
def toordinal (d : UtcDatetime) : Nat :=
  daysBeforeYear d.year + daysBeforeMonth d.year d.month + d.day

/-- Microseconds since the day before the first. -/
def instant (d : UtcDatetime) : Nat :=
  (((d.toordinal * 24 + d.hour) * 60 + d.minute) * 60 + d.second) * 1000000 + d.microsecond

/-! ### As text -/

/-- The end of the text: the fraction, if there is one, and the offset. -/
def suffix (microsecond : Nat) : List Char :=
  if microsecond = 0 then "+00:00".toList
  else '.' :: (Digits.padded 6 microsecond ++ "+00:00".toList)

def isoformatChars (d : UtcDatetime) : List Char :=
  Digits.padded 4 d.year ++ '-' :: (Digits.padded 2 d.month ++ '-' :: (Digits.padded 2 d.day ++
    'T' :: (Digits.padded 2 d.hour ++ ':' :: (Digits.padded 2 d.minute ++
      ':' :: (Digits.padded 2 d.second ++ suffix d.microsecond)))))

/-- `isoformat()`. -/
def isoformat (d : UtcDatetime) : String := String.ofList d.isoformatChars

/-- So many digits in front of a text. -/
def readField (width : Nat) (text : List Char) : Option (Nat × List Char) :=
  if (text.take width).length = width ∧ (text.take width).all Char.isDigit then
    some (Digits.value (text.take width), text.drop width)
  else none

/-- A separator in front of a text. -/
def readSeparator (c : Char) : List Char → Option (List Char)
  | [] => none
  | c' :: text => if c' = c then some text else none

/-- The fraction, if there is one. -/
def readFraction : List Char → Option (Nat × List Char)
  | '.' :: text => readField 6 text
  | text => some (0, text)

/-- `datetime.fromisoformat(text)`, of the texts that `isoformat` writes in UTC;
    `none` is the `ValueError`. -/
def fromisoformat (text : String) : Option UtcDatetime := do
  let (year, rest) ← readField 4 text.toList
  let rest ← readSeparator '-' rest
  let (month, rest) ← readField 2 rest
  let rest ← readSeparator '-' rest
  let (day, rest) ← readField 2 rest
  let rest ← readSeparator 'T' rest
  let (hour, rest) ← readField 2 rest
  let rest ← readSeparator ':' rest
  let (minute, rest) ← readField 2 rest
  let rest ← readSeparator ':' rest
  let (second, rest) ← readField 2 rest
  let (microsecond, rest) ← readFraction rest
  if rest = "+00:00".toList then
    if h : ValidFields year month day hour minute second microsecond then
      some ⟨year, month, day, hour, minute, second, microsecond, h⟩
    else none
  else none

theorem readField_padded {width n : Nat} (hwidth : 0 < width) (h : n < 10 ^ width)
    (text : List Char) : readField width (Digits.padded width n ++ text) = some (n, text) := by
  have hlength := Digits.length_padded hwidth h
  have htake : (Digits.padded width n ++ text).take width = Digits.padded width n :=
    List.take_left' hlength
  have hdrop : (Digits.padded width n ++ text).drop width = text := List.drop_left' hlength
  have hdigits : (Digits.padded width n).all Char.isDigit = true :=
    List.all_eq_true.mpr (Digits.allDigits_padded width n)
  rw [readField, htake, hdrop, if_pos ⟨hlength, hdigits⟩, Digits.value_padded]

theorem readField_bind {β : Type} {width n : Nat} (hwidth : 0 < width) (h : n < 10 ^ width)
    (text : List Char) (f : Nat × List Char → Option β) :
    (readField width (Digits.padded width n ++ text) >>= f) = f (n, text) := by
  rw [readField_padded hwidth h]
  rfl

theorem readSeparator_bind {β : Type} (c : Char) (text : List Char) (f : List Char → Option β) :
    (readSeparator c (c :: text) >>= f) = f text := by
  rw [readSeparator, if_pos rfl]
  rfl

theorem readFraction_suffix {microsecond : Nat} (h : microsecond < 1000000) :
    readFraction (suffix microsecond) = some (microsecond, "+00:00".toList) := by
  unfold suffix
  by_cases hzero : microsecond = 0
  · rw [if_pos hzero, hzero]
    rfl
  · rw [if_neg hzero]
    exact readField_padded (by omega) (by omega) _

theorem readFraction_bind {β : Type} {microsecond : Nat} (h : microsecond < 1000000)
    (f : Nat × List Char → Option β) :
    (readFraction (suffix microsecond) >>= f) = f (microsecond, "+00:00".toList) := by
  rw [readFraction_suffix h]
  rfl

theorem daysInMonth_le (year month : Nat) : daysInMonth year month ≤ 31 := by
  unfold daysInMonth
  split
  · split
    · omega
    · omega
  all_goals omega

/-- Every field is written in as many digits as are read. -/
theorem fields_lt (d : UtcDatetime) : d.year < 10 ^ 4 ∧ d.month < 10 ^ 2 ∧ d.day < 10 ^ 2 ∧
    d.hour < 10 ^ 2 ∧ d.minute < 10 ^ 2 ∧ d.second < 10 ^ 2 ∧ d.microsecond < 1000000 := by
  rcases d.valid with ⟨hyear, hmonth, hday, hhour, hminute, hsecond, hmicro⟩
  have hdays := daysInMonth_le d.year d.month
  omega

theorem fromisoformat_isoformat (d : UtcDatetime) : fromisoformat d.isoformat = some d := by
  rcases d.fields_lt with ⟨hyear, hmonth, hday, hhour, hminute, hsecond, hmicro⟩
  unfold fromisoformat
  rw [isoformat, String.toList_ofList, isoformatChars]
  -- One field after the other is read as it was written.
  refine (readField_bind (by omega) hyear _ _).trans ?_
  refine (readSeparator_bind '-' _ _).trans ?_
  refine (readField_bind (by omega) hmonth _ _).trans ?_
  refine (readSeparator_bind '-' _ _).trans ?_
  refine (readField_bind (by omega) hday _ _).trans ?_
  refine (readSeparator_bind 'T' _ _).trans ?_
  refine (readField_bind (by omega) hhour _ _).trans ?_
  refine (readSeparator_bind ':' _ _).trans ?_
  refine (readField_bind (by omega) hminute _ _).trans ?_
  refine (readSeparator_bind ':' _ _).trans ?_
  refine (readField_bind (by omega) hsecond _ _).trans ?_
  refine (readFraction_bind hmicro _).trans ?_
  exact (if_pos rfl).trans (dif_pos d.valid)

end UtcDatetime

end MmrEngine
