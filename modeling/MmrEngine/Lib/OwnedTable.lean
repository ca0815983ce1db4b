import Mathlib.Logic.Function.Basic

/-!
# Insert-Only Tables

A table whose rows are inserted by transactions, kept or withdrawn when these
end, and never taken over by another one.

Every row carries its owner: the transaction that inserted it while that is
still open, and nobody once it has committed. A unique key has room for one
row, so the second inserter of a key meets either a row it may see, which is a
conflict, or one it may not, which makes it wait; either way there is nothing
it could overwrite.

Committing and rolling back act on rows one by one through their owner alone.
An invariant of the shape "a row here has a partner there with the same owner"
is therefore kept by both without looking at what the rows say, which is what
`commit_eq_some` and `rollback_eq_some` are for.

## Main definitions

* `Owned`: A row with its owner.
* `OwnedTable`: At most one row for each key.
* `insert`, `amend`, `erase`: Adding, changing and withdrawing one row.
* `committed`: The row of a key everybody sees.
* `commit`: A transaction's rows become everybody's.
* `rollback`: A transaction's rows disappear.

## Theorems

* `insert_eq_some`, `amend_eq_some`, `erase_eq_some`: The rows after a change.
* `commit_eq_some`: The rows after a commit.
* `rollback_eq_some`: The rows after a rollback.
-/

namespace MmrEngine

namespace OwnedTable

variable {κ τ ρ : Type*}

/-- A row and the open transaction that inserted it; `none` is committed. -/
@[ext]
structure Owned (τ ρ : Type*) where
  value : ρ
  owner : Option τ

/-- At most one row for each key. -/
abbrev Table (κ τ ρ : Type*) := κ → Option (Owned τ ρ)

/-- The table without rows. -/
def empty : Table κ τ ρ := fun _ => none

section Rows

variable [DecidableEq κ]

def insert (t : τ) (k : κ) (v : ρ) (tbl : Table κ τ ρ) : Table κ τ ρ :=
  Function.update tbl k (some { value := v, owner := some t })

/-- Change the row of a key, if there is one, leaving its owner. -/
def amend (k : κ) (f : ρ → ρ) (tbl : Table κ τ ρ) : Table κ τ ρ :=
  Function.update tbl k ((tbl k).map fun r => { r with value := f r.value })

def erase (k : κ) (tbl : Table κ τ ρ) : Table κ τ ρ := Function.update tbl k none

@[simp] theorem insert_self (t : τ) (k : κ) (v : ρ) (tbl : Table κ τ ρ) :
    insert t k v tbl k = some { value := v, owner := some t } := by
  simp only [insert, Function.update_self]

theorem insert_other (t : τ) {k k' : κ} (v : ρ) (tbl : Table κ τ ρ) (h : k' ≠ k) :
    insert t k v tbl k' = tbl k' := by
  simp only [insert, Function.update_of_ne h]

/-- What is there after an insert is the new row or an old one. -/
theorem insert_eq_some {t : τ} {k k' : κ} {v : ρ} {tbl : Table κ τ ρ} {r : Owned τ ρ} :
    insert t k v tbl k' = some r ↔
      (k' = k ∧ r = { value := v, owner := some t }) ∨ (k' ≠ k ∧ tbl k' = some r) := by
  by_cases h : k' = k
  · subst h
    simp only [insert_self, Option.some.injEq, true_and, ne_eq, not_true_eq_false, false_and,
      or_false]
    exact eq_comm
  · simp only [insert_other t v tbl h, h, false_and, ne_eq, not_false_eq_true, true_and, false_or]

@[simp] theorem amend_self (k : κ) (f : ρ → ρ) (tbl : Table κ τ ρ) :
    amend k f tbl k = (tbl k).map fun r => { r with value := f r.value } := by
  simp only [amend, Function.update_self]

theorem amend_other {k k' : κ} (f : ρ → ρ) (tbl : Table κ τ ρ) (h : k' ≠ k) :
    amend k f tbl k' = tbl k' := by
  simp only [amend, Function.update_of_ne h]

/-- Changing a row adds none. -/
theorem amend_eq_none (k : κ) (f : ρ → ρ) {k' : κ} {tbl : Table κ τ ρ} :
    amend k f tbl k' = none ↔ tbl k' = none := by
  by_cases h : k' = k
  · rw [h, amend_self, Option.map_eq_none_iff]
  · rw [amend_other f tbl h]

/-- A row after a change is a row before it, changed under its key. -/
theorem amend_eq_some {k k' : κ} {f : ρ → ρ} {tbl : Table κ τ ρ} {v : ρ} {o : Option τ} :
    amend k f tbl k' = some { value := v, owner := o } ↔
      ∃ v₀, tbl k' = some { value := v₀, owner := o } ∧ v = if k' = k then f v₀ else v₀ := by
  by_cases h : k' = k
  · subst h
    rw [amend_self, Option.map_eq_some_iff]
    simp only [if_true, Owned.mk.injEq]
    constructor
    · rintro ⟨⟨v₀, o'⟩, hrow, hv, ho⟩
      exact ⟨v₀, ho ▸ hrow, hv.symm⟩
    · rintro ⟨v₀, hrow, hv⟩
      exact ⟨_, hrow, hv.symm, rfl⟩
  · simp only [amend_other f tbl h, if_neg h, exists_eq_right']

@[simp] theorem erase_self (k : κ) (tbl : Table κ τ ρ) : erase k tbl k = none := by
  simp only [erase, Function.update_self]

theorem erase_other {k k' : κ} (tbl : Table κ τ ρ) (h : k' ≠ k) : erase k tbl k' = tbl k' := by
  simp only [erase, Function.update_of_ne h]

/-- What is left after erasing a row was there before, under another key. -/
theorem erase_eq_some {k k' : κ} {tbl : Table κ τ ρ} {r : Owned τ ρ} :
    erase k tbl k' = some r ↔ k' ≠ k ∧ tbl k' = some r := by
  by_cases h : k' = k
  · subst h
    simp only [erase_self, reduceCtorEq, ne_eq, not_true_eq_false, false_and]
  · simp only [erase_other tbl h, ne_eq, h, not_false_eq_true, true_and]

end Rows

/-- The row of a key everybody sees. -/
def committed (tbl : Table κ τ ρ) (k : κ) : Option ρ :=
  (tbl k).bind fun r => if r.owner.isNone then some r.value else none

theorem committed_eq_some {tbl : Table κ τ ρ} {k : κ} {v : ρ} :
    committed tbl k = some v ↔ tbl k = some { value := v, owner := none } := by
  unfold committed
  rcases tbl k with _ | ⟨v', o⟩
  · simp only [Option.bind_none, reduceCtorEq]
  · cases o with
    | none => simp
    | some t => simp

section Ends

variable [DecidableEq τ]

/-- The owner of a row once `t` has committed. -/
def settle (t : τ) (o : Option τ) : Option τ := if o = some t then none else o

/-- `t`'s rows become everybody's. -/
def commit (t : τ) (tbl : Table κ τ ρ) : Table κ τ ρ :=
  fun k => (tbl k).map fun r => { r with owner := settle t r.owner }

/-- `t`'s rows disappear. -/
def rollback (t : τ) (tbl : Table κ τ ρ) : Table κ τ ρ :=
  fun k => (tbl k).filter fun r => decide (r.owner ≠ some t)

@[simp] theorem settle_self (t : τ) : settle t (some t) = none := by
  simp only [settle, if_pos]

@[simp] theorem settle_none (t : τ) : settle t none = none := by
  simp only [settle, reduceCtorEq, if_false]

theorem settle_other {t : τ} {o : Option τ} (h : o ≠ some t) : settle t o = o := if_neg h

/-- A row after a commit is a row before it, with its owner settled. -/
theorem commit_eq_some {t : τ} {k : κ} {tbl : Table κ τ ρ} {v : ρ} {o : Option τ} :
    commit t tbl k = some { value := v, owner := o } ↔
      ∃ o', tbl k = some { value := v, owner := o' } ∧ settle t o' = o := by
  unfold commit
  rcases htbl : tbl k with _ | ⟨v', o'⟩
  · simp only [Option.map_none, reduceCtorEq, false_and, exists_false]
  · simp only [Option.map_some, Option.some.injEq, Owned.mk.injEq]
    constructor
    · rintro ⟨hv, ho⟩
      exact ⟨o', ⟨hv, rfl⟩, ho⟩
    · rintro ⟨o'', ⟨hv, ho⟩, hs⟩
      exact ⟨hv, ho ▸ hs⟩

theorem commit_eq_none (t : τ) {k : κ} {tbl : Table κ τ ρ} :
    commit t tbl k = none ↔ tbl k = none := by
  rw [commit, Option.map_eq_none_iff]

/-- A row after a rollback is a row before it that `t` did not own. -/
theorem rollback_eq_some {t : τ} {k : κ} {tbl : Table κ τ ρ} {v : ρ} {o : Option τ} :
    rollback t tbl k = some { value := v, owner := o } ↔
      tbl k = some { value := v, owner := o } ∧ o ≠ some t := by
  unfold rollback
  rcases htbl : tbl k with _ | ⟨v', o'⟩
  · simp only [Option.filter_none, reduceCtorEq, false_and]
  · by_cases ho : o' = some t
    · simp only [Option.filter_some, ho, ne_eq, not_true_eq_false, decide_false,
        Bool.false_eq_true, if_false, reduceCtorEq, Option.some.injEq, Owned.mk.injEq, false_iff]
      rintro ⟨⟨_, h⟩, hne⟩
      exact hne h.symm
    · simp only [Option.filter_some, ne_eq, ho, not_false_eq_true, decide_true, if_true,
        Option.some.injEq, Owned.mk.injEq]
      constructor
      · intro h
        exact ⟨h, fun hc => ho (h.2.trans hc)⟩
      · exact fun h => h.1

end Ends

end OwnedTable

end MmrEngine
