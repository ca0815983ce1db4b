import Mathlib.Order.Basic
import Mathlib.Order.MinMax

/-!
# Closing Times

Moments at which something is closed, and what is postponed until it opens.

A closed moment has an opening: a later moment that is open. What falls on a
closed moment is postponed to its opening, everything else stays where it is.
What is closed before that opening has the same one, so of two closed moments the
later one does not open earlier.

Postponing keeps the order of two moments except in one case. A moment between
a closed one and its opening that is itself open stays where it is, and is
overtaken by nobody: it is the earlier, postponed one that ends up behind it.
For two moments in the wrong order postponing mends that where the later one is
not past the opening of the earlier. `postpone_le_postpone_iff` and
`postpone_le_of_lt_iff` are these two statements.

## Main definitions

* `ClosingTimes`: What is closed, and when it opens.
* `postpone`: A moment, or the opening after it.

## Theorems

* `not_closed_postpone`: Postponing once is enough.
* `le_postpone`: Nothing comes earlier by being postponed.
* `postpone_le_postpone_iff`: When two moments keep their order.
* `postpone_le_of_lt_iff`: When two moments in the wrong order are mended.
-/

namespace MmrEngine

/-- Closed moments, each with the moment at which it opens again. -/
structure ClosingTimes (α : Type*) [LinearOrder α] where
  closed : α → Bool
  opening : α → α
  lt_opening : ∀ t, closed t = true → t < opening t
  open_opening : ∀ t, closed t = true → closed (opening t) = false
  opening_eq : ∀ t t', closed t = true → closed t' = true → t ≤ t' → t' < opening t →
    opening t' = opening t

namespace ClosingTimes

variable {α : Type*} [LinearOrder α] (c : ClosingTimes α)

/-- A moment, or the opening after it if it is closed. -/
def postpone (t : α) : α := if c.closed t then c.opening t else t

variable {c} {t t' : α}

/-- The later of two closed moments does not open earlier. -/
theorem opening_le_opening (h : c.closed t = true) (h' : c.closed t' = true) (hle : t ≤ t') :
    c.opening t ≤ c.opening t' := by
  rcases lt_or_ge t' (c.opening t) with hbefore | hafter
  · exact (c.opening_eq t t' h h' hle hbefore).ge
  · exact hafter.trans (c.lt_opening t' h').le

theorem postpone_of_closed (h : c.closed t = true) : c.postpone t = c.opening t := if_pos h

theorem postpone_of_open (h : c.closed t = false) : c.postpone t = t := by
  unfold postpone
  rw [h]
  rfl

variable (c t) in
/-- Postponing once is enough. -/
theorem not_closed_postpone : c.closed (c.postpone t) = false := by
  cases h : c.closed t with
  | true =>
      rw [postpone_of_closed h]
      exact c.open_opening t h
  | false =>
      rw [postpone_of_open h]
      exact h

variable (c t) in
theorem le_postpone : t ≤ c.postpone t := by
  cases h : c.closed t with
  | true =>
      rw [postpone_of_closed h]
      exact (c.lt_opening t h).le
  | false => rw [postpone_of_open h]

/-- Two moments keep their order unless the first is closed and the second is
    open before the first one opens. -/
theorem postpone_le_postpone_iff (hle : t ≤ t') :
    c.postpone t ≤ c.postpone t' ↔
      ¬ (c.closed t = true ∧ c.closed t' = false ∧ t' < c.opening t) := by
  cases h : c.closed t with
  | false =>
      -- What is not postponed is not overtaken.
      rw [postpone_of_open h]
      exact ⟨fun _ hc => Bool.noConfusion hc.1, fun _ => hle.trans (le_postpone c t')⟩
  | true =>
      rw [postpone_of_closed h]
      cases h' : c.closed t' with
      | true =>
          rw [postpone_of_closed h']
          exact ⟨fun _ hc => Bool.noConfusion hc.2.1,
            fun _ => opening_le_opening h h' hle⟩
      | false =>
          rw [postpone_of_open h']
          exact ⟨fun hopen hc => absurd hopen (not_le.mpr hc.2.2),
            fun hc => not_lt.mp fun hlt => hc ⟨rfl, rfl, hlt⟩⟩

/-- Two moments in the wrong order are mended only where the earlier one is closed
    and the later one is not past its opening. -/
theorem postpone_le_of_lt_iff (hlt : t' < t) :
    c.postpone t ≤ c.postpone t' ↔ c.closed t' = true ∧ t ≤ c.opening t' := by
  cases h' : c.closed t' with
  | true =>
      rw [postpone_of_closed h']
      refine ⟨fun h => ⟨rfl, (le_postpone c t).trans h⟩, fun h => ?_⟩
      cases hclosed : c.closed t with
      | true =>
          -- An opening is open, so the later one is before it and shares it.
          have hne : t ≠ c.opening t' := by
            intro heq
            have hopen := c.open_opening t' h'
            rw [← heq, hclosed] at hopen
            cases hopen
          rw [postpone_of_closed hclosed]
          exact (c.opening_eq t' t h' hclosed hlt.le (lt_of_le_of_ne h.2 hne)).le
      | false =>
          rw [postpone_of_open hclosed]
          exact h.2
  | false =>
      rw [postpone_of_open h']
      refine ⟨fun h => ?_, fun h => Bool.noConfusion h.1⟩
      exact absurd ((le_postpone c t).trans h) (not_le.mpr hlt)

end ClosingTimes

end MmrEngine
