import Mathlib.Algebra.Order.Ring.Rat

/-!
# Clock Values

Instants and durations as Python's `datetime` and `timedelta` keep them: whole
microseconds.

## Main definitions

* `hours`: `timedelta(hours=h)`.
* `totalSeconds`: `timedelta.total_seconds()`.
-/

namespace MmrEngine

/-- `timedelta(hours=h)`. -/
def hours (h : ℤ) : ℤ := h * 3600 * 1000000

/-- `total_seconds()` of a duration. -/
def totalSeconds (delta : ℤ) : ℚ := delta / 1000000

end MmrEngine
