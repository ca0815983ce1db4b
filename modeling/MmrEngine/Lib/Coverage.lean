import Mathlib.Algebra.Order.Field.Basic
import Mathlib.Tactic.Linarith

/-!
# Coverage by Trailing Windows

A sequence of observations, each of which looks back over the same length of
time. Together they leave no instant out exactly when no two consecutive ones
are further apart than that length.

Time is a densely ordered field on purpose: between two windows that do not
touch there is an instant, however small the distance.

## Main definitions

* `Covered`: Some window up to the `n`-th contains the instant.

## Theorems

* `covered_of_steps`: Steps no longer than a window leave nothing out.
* `steps_of_covered`: A longer step leaves an instant out.
* `covered_iff`: Both.
-/

namespace MmrEngine

namespace Coverage

variable {K : Type*} [Field K] [LinearOrder K] [IsStrictOrderedRing K]

/-- Some window among the first `n + 1` contains `t`: window `i` ends at
    `ends i` and is `length` long. -/
def Covered (ends : ℕ → K) (length : K) (n : ℕ) (t : K) : Prop :=
  ∃ i ≤ n, ends i - length ≤ t ∧ t ≤ ends i

variable {ends : ℕ → K} {length : K}

omit [Field K] [IsStrictOrderedRing K] in
theorem ends_mono (h : ∀ i, ends i ≤ ends (i + 1)) {i j : ℕ} (hij : i ≤ j) :
    ends i ≤ ends j := by
  induction j with
  | zero =>
      have hi : i = 0 := by omega
      rw [hi]
  | succ j ih =>
      by_cases hi : i = j + 1
      · rw [hi]
      · exact le_trans (ih (by omega)) (h j)

theorem covered_of_steps (hsteps : ∀ i, ends (i + 1) - ends i ≤ length) (n : ℕ) (t : K)
    (hfrom : ends 0 - length ≤ t) (hto : t ≤ ends n) : Covered ends length n t := by
  induction n with
  | zero => exact ⟨0, le_refl 0, hfrom, hto⟩
  | succ n ih =>
      by_cases ht : t ≤ ends n
      · rcases ih ht with ⟨i, hi, hcov⟩
        exact ⟨i, by omega, hcov⟩
      · -- After the previous end, the last window reaches back far enough.
        have hstep := hsteps n
        refine ⟨n + 1, le_refl _, ?_, hto⟩
        linarith [not_le.mp ht]

theorem steps_of_covered (hmono : ∀ i, ends i ≤ ends (i + 1))
    (hcov : ∀ n t, ends 0 - length ≤ t → t ≤ ends n → Covered ends length n t) (hlen : 0 ≤ length)
    (i : ℕ) : ends (i + 1) - ends i ≤ length := by
  by_contra hlong
  have hgap : ends i < ends (i + 1) - length := by linarith [not_le.mp hlong]
  -- An instant strictly between the two windows.
  rcases exists_between hgap with ⟨t, hlo, hhi⟩
  have hfirst : ends 0 ≤ ends i := ends_mono hmono (Nat.zero_le i)
  rcases hcov (i + 1) t (by linarith) (by linarith) with ⟨j, hj, hback, hend⟩
  by_cases hji : j = i + 1
  · rw [hji] at hback
    linarith
  · have hle : ends j ≤ ends i := ends_mono hmono (by omega)
    linarith

/-- Nothing between the first window's start and the latest end is left out
    exactly when no step is longer than a window. -/
theorem covered_iff (hmono : ∀ i, ends i ≤ ends (i + 1)) (hlen : 0 ≤ length) :
    (∀ n t, ends 0 - length ≤ t → t ≤ ends n → Covered ends length n t) ↔
      ∀ i, ends (i + 1) - ends i ≤ length := by
  constructor
  · intro hcov i
    exact steps_of_covered hmono hcov hlen i
  · intro hsteps n t hfrom hto
    exact covered_of_steps hsteps n t hfrom hto

end Coverage

end MmrEngine
