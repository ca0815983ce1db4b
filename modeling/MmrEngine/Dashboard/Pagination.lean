import Mathlib.Data.Nat.Notation

/-!
# Offset Pagination

The next button under a list of the dashboard: whether there is a next page, and
the offset it asks for.

The total is `none` for the endpoints that return a page only; then a page that
is full may have another one after it.

## Main definitions

* `hasNext`: Whether the next page can be asked for.
* `nextOffset`: What the button asks for.
* `pageOffset`: The offset after some clicks on the next page.
-/

namespace MmrEngine

namespace Pagination

def hasNext (offset pageSize shown : ℕ) : Option ℕ → Bool
  | some total => decide (offset + shown < total)
  | none => decide (shown = pageSize)

def nextOffset (offset pageSize : ℕ) : ℕ := offset + pageSize

/-- The offset of the first page, and then of one page after the other. -/
def pageOffset (pageSize : ℕ) : ℕ → ℕ
  | 0 => 0
  | k + 1 => nextOffset (pageOffset pageSize k) pageSize

theorem pageOffset_eq (pageSize k : ℕ) : pageOffset pageSize k = k * pageSize := by
  induction k with
  | zero => rw [pageOffset, Nat.zero_mul]
  | succ k ih => rw [pageOffset, nextOffset, ih, Nat.succ_mul]

end Pagination

end MmrEngine
