import MmrEngine.Lib.UniqueTable
import Mathlib.Order.Basic

/-!
# The First Row of Each Key

Rows inserted one after another into a table with a unique key, where a row
whose key is taken is skipped: `INSERT ... SELECT ... ON CONFLICT DO NOTHING`.

A key keeps the first row that has it. Where the rows come in the order of some
rank, that is one of least rank, and where ranks differ the only one, so the
order of rows of the same rank is of no account.

## Main definitions

* `insertAll`: The inserts.

## Theorems

* `find?_insertOrFind`, `find?_insertAll`: What a key finds afterwards.
* `mem_insertAll`: The rows inserted are among those offered.
* `exists_find?_insertAll`: Every key that is offered is there.
* `find?_insertAll_least`: And has the row of least rank.
-/

namespace MmrEngine

namespace UniqueTable

variable {ρ κ : Type*} {key : ρ → κ} [DecidableEq κ]

/-- The rows in turn, each unless its key is taken. -/
def insertAll (t : UniqueTable key) (rows : List ρ) : UniqueTable key :=
  rows.foldl (fun t row => (t.insertOrFind row).1) t

theorem find?_insertOrFind (t : UniqueTable key) (row : ρ) (k : κ) :
    (t.insertOrFind row).1.find? k = (t.find? k).or (if key row = k then some row else none) := by
  cases h : t.find? (key row) with
  | some r =>
      rw [insertOrFind_of_some h]
      by_cases hk : key row = k
      · rw [← hk, h]
        rfl
      · rw [if_neg hk, Option.or_none]
  | none =>
      rw [insertOrFind_of_none h, find?_insert]
      by_cases hk : key row = k
      · rw [if_pos hk.symm, if_pos hk, ← hk, h]
        rfl
      · rw [if_neg (Ne.symm hk), if_neg hk, Option.or_none]

/-- A key keeps its row, and else finds the first that is offered. -/
theorem find?_insertAll (rows : List ρ) (t : UniqueTable key) (k : κ) :
    (t.insertAll rows).find? k = (t.find? k).or (rows.find? fun row => key row = k) := by
  induction rows generalizing t with
  | nil => simp [insertAll]
  | cons row rows ih =>
      have hstep : t.insertAll (row :: rows) = (t.insertOrFind row).1.insertAll rows := rfl
      rw [hstep, ih, find?_insertOrFind, Option.or_assoc]
      by_cases hk : key row = k
      · rw [if_pos hk, List.find?_cons_of_pos (by simpa using hk), Option.some_or]
      · rw [if_neg hk, List.find?_cons_of_neg (by simpa using hk), Option.none_or]

/-- Into a table without rows. -/
theorem find?_insertAll_empty (rows : List ρ) (k : κ) :
    ((empty key).insertAll rows).find? k = rows.find? fun row => key row = k := by
  rw [find?_insertAll]
  rfl

theorem mem_insertAll {rows : List ρ} {r : ρ} (h : r ∈ ((empty key).insertAll rows).rows) :
    r ∈ rows := by
  have hfind := find?_eq_some_iff.mpr ⟨h, rfl⟩
  rw [find?_insertAll_empty] at hfind
  exact List.mem_of_find?_eq_some hfind

/-- A key that is offered is in the table afterwards. -/
theorem exists_find?_insertAll {rows : List ρ} {r : ρ} (h : r ∈ rows) :
    ∃ r', ((empty key).insertAll rows).find? (key r) = some r' := by
  rw [find?_insertAll_empty]
  exact Option.isSome_iff_exists.mp (List.find?_isSome.mpr ⟨r, h, decide_eq_true rfl⟩)

/-- In rows sorted by a rank, the first that passes is one of least rank. -/
theorem find?_least {β : Type*} [Preorder β] {rank : ρ → β} {rows : List ρ} {p : ρ → Bool}
    (hsorted : rows.Pairwise fun r r' => rank r ≤ rank r') {r : ρ} (h : rows.find? p = some r) :
    ∀ r' ∈ rows, p r' = true → rank r ≤ rank r' := by
  induction rows with
  | nil => cases h
  | cons row rows ih =>
      rw [List.pairwise_cons] at hsorted
      intro r' hr' hp
      cases hrow : p row with
      | true =>
          rw [List.find?_cons_of_pos hrow, Option.some.injEq] at h
          rw [← h]
          rcases List.mem_cons.mp hr' with rfl | htail
          · exact le_refl _
          · exact hsorted.1 r' htail
      | false =>
          rw [List.find?_cons_of_neg (by simp [hrow])] at h
          rcases List.mem_cons.mp hr' with rfl | htail
          · rw [hrow] at hp
            cases hp
          · exact ih hsorted.2 h r' htail hp

/-- A key finds a row of least rank among those that have it. -/
theorem find?_insertAll_least {β : Type*} [Preorder β] {rank : ρ → β} {rows : List ρ}
    (hsorted : rows.Pairwise fun r r' => rank r ≤ rank r') {k : κ} {r : ρ}
    (h : ((empty key).insertAll rows).find? k = some r) :
    ∀ r' ∈ rows, key r' = k → rank r ≤ rank r' := by
  intro r' hr' hkey
  rw [find?_insertAll_empty] at h
  exact find?_least hsorted h r' hr' (decide_eq_true hkey)

end UniqueTable

end MmrEngine
