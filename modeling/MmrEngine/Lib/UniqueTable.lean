import Mathlib.Data.List.Nodup

/-!
# Tables with a Unique Key

A table whose rows have pairwise different keys, by construction, and the one
write that makes such a table useful for redeliveries: insert a row unless its
key is taken, and in either case say which row is there now.

As the table cannot hold two rows of one key, a single row found is already
"exactly one" (`count_of_mem`), and a row once written stays what the key
finds.

A plain insert is `insert?`, which refuses a key that is taken, a write that
replaces the row of its key is `put`, and an update that leaves the keys alone
is `modify`. A table seen through `mapRows` has rows of another type under the
same keys, and the writes go through.

## Main definitions

* `UniqueTable`: Rows with pairwise different keys.
* `find?`: The row of a key.
* `insertOrFind`: `INSERT ... ON CONFLICT DO NOTHING`, and the row of the key.
* `insert?`: `INSERT`, unless it violates the constraint.
* `put`: Write a row, in the place of the row of its key if there is one.
* `modify`: An update of every row that keeps its key.
* `mapRows`: The rows as something else under the same keys.

## Theorems

* `find?_eq_some_iff`: What a key finds is its row.
* `insertOrFind_row`: The row returned is in the table and has the key.
* `insertOrFind_subset`: No row is lost.
* `find?_of_insert?`, `find?_modify`: What a key finds after a write.
* `mem_put`: The rows after a `put`.
* `insertOrFind_mapRows`: An insert, seen through `mapRows`.
* `count_of_mem`, `count_eq_one_iff`, `count_le_one`: A row is the only one of
  its key.
-/

namespace MmrEngine

/-- Rows with pairwise different keys. -/
structure UniqueTable {ρ κ : Type*} (key : ρ → κ) where
  rows : List ρ
  unique : (rows.map key).Nodup

namespace UniqueTable

variable {ρ κ : Type*} {key : ρ → κ}

/-- The table without rows. -/
def empty (key : ρ → κ) : UniqueTable key where
  rows := []
  unique := List.nodup_nil

variable [DecidableEq κ]

def find? (t : UniqueTable key) (k : κ) : Option ρ := t.rows.find? fun r => key r = k

theorem find?_some {t : UniqueTable key} {k : κ} {r : ρ} (h : t.find? k = some r) :
    r ∈ t.rows ∧ key r = k := by
  have hkey := List.find?_some h
  exact ⟨List.mem_of_find?_eq_some h, of_decide_eq_true hkey⟩

theorem find?_none {t : UniqueTable key} {k : κ} (h : t.find? k = none) : k ∉ t.rows.map key := by
  intro hmem
  rcases List.mem_map.mp hmem with ⟨r, hr, hkey⟩
  have hne := List.find?_eq_none.mp h r hr
  exact hne (decide_eq_true hkey)

/-- Where keys differ, a key finds the row that has it. -/
theorem find?_eq_some_of_nodup {l : List ρ} (h : (l.map key).Nodup) {k : κ} {r : ρ} (hr : r ∈ l)
    (hkey : key r = k) : (l.find? fun x => key x = k) = some r := by
  induction l with
  | nil => cases hr
  | cons x l ih =>
      rw [List.map_cons, List.nodup_cons] at h
      rcases List.mem_cons.mp hr with rfl | htail
      · exact List.find?_cons_of_pos (decide_eq_true hkey)
      · have hne : key x ≠ k := by
          intro hx
          have hmem : key r ∈ l.map key := List.mem_map_of_mem htail
          rw [hkey, ← hx] at hmem
          exact h.1 hmem
        rw [List.find?_cons_of_neg (by simpa using hne)]
        exact ih h.2 htail

theorem find?_eq_some_iff {t : UniqueTable key} {k : κ} {r : ρ} :
    t.find? k = some r ↔ r ∈ t.rows ∧ key r = k := by
  constructor
  · exact find?_some
  · rintro ⟨hr, hkey⟩
    exact find?_eq_some_of_nodup t.unique hr hkey

/-- Add a row whose key is not taken. -/
def insert (t : UniqueTable key) (row : ρ) (h : t.find? (key row) = none) : UniqueTable key where
  rows := t.rows ++ [row]
  unique := by
    rw [List.map_append, List.nodup_append]
    refine ⟨t.unique, List.pairwise_singleton _ _, fun x hx y hy heq => find?_none h ?_⟩
    rw [List.mem_singleton.mp hy] at heq
    rw [← heq]
    exact hx

theorem find?_insert (t : UniqueTable key) (row : ρ) (h : t.find? (key row) = none) (k : κ) :
    (t.insert row h).find? k = if k = key row then some row else t.find? k := by
  by_cases hk : k = key row
  · rw [if_pos hk, hk]
    exact find?_eq_some_iff.mpr ⟨List.mem_append_right _ List.mem_cons_self, rfl⟩
  · rw [if_neg hk]
    have hne : ¬ key row = k := fun hc => hk hc.symm
    simp [find?, insert, hne]

/-- `INSERT`: add a row unless its key is taken. -/
def insert? (t : UniqueTable key) (row : ρ) : Option (UniqueTable key) :=
  if h : t.find? (key row) = none then some (t.insert row h) else none

theorem insert?_of_free {t : UniqueTable key} {row : ρ} (h : t.find? (key row) = none) :
    t.insert? row = some (t.insert row h) := dif_pos h

theorem insert?_eq_some {t t' : UniqueTable key} {row : ρ} (h : t.insert? row = some t') :
    ∃ hfree : t.find? (key row) = none, t' = t.insert row hfree := by
  unfold insert? at h
  split at h
  · next hfree => exact ⟨hfree, (Option.some.inj h).symm⟩
  · cases h

theorem find?_of_insert? {t t' : UniqueTable key} {row : ρ} (h : t.insert? row = some t') (k : κ) :
    t'.find? k = if k = key row then some row else t.find? k := by
  rcases insert?_eq_some h with ⟨hfree, rfl⟩
  exact find?_insert t row hfree k

/-- Write a row, in the place of the row of its key if there is one. -/
def put (t : UniqueTable key) (row : ρ) : UniqueTable key where
  rows := t.rows.filter (fun r => key r ≠ key row) ++ [row]
  unique := by
    rw [List.map_append, List.nodup_append]
    refine ⟨(List.filter_sublist.map key).nodup t.unique, List.pairwise_singleton _ _,
      fun x hx y hy heq => ?_⟩
    rcases List.mem_map.mp hx with ⟨r, hr, rfl⟩
    rw [List.mem_singleton.mp hy] at heq
    exact of_decide_eq_true (List.mem_filter.mp hr).2 heq

theorem mem_put {t : UniqueTable key} {row r : ρ} :
    r ∈ (t.put row).rows ↔ r = row ∨ (r ∈ t.rows ∧ key r ≠ key row) := by
  simp only [put, List.mem_append, List.mem_filter, List.mem_singleton, decide_eq_true_eq]
  exact Or.comm

section

variable {ρ' : Type*} {key' : ρ' → κ} (g : ρ → ρ') (hg : ∀ r, key' (g r) = key r)

omit [DecidableEq κ] in
/-- The rows as something else under the same keys. -/
def mapRows (t : UniqueTable key) : UniqueTable key' where
  rows := t.rows.map g
  unique := by
    have hmap : (t.rows.map g).map key' = t.rows.map key := by
      rw [List.map_map]
      exact List.map_congr_left fun r _ => hg r
    rw [hmap]
    exact t.unique

theorem find?_mapRows (t : UniqueTable key) (k : κ) :
    (t.mapRows g hg).find? k = (t.find? k).map g := by
  have hcomp : ((fun x => decide (key' x = k)) ∘ g) = fun x => decide (key x = k) := by
    funext x
    simp only [Function.comp_apply, hg]
  simp only [find?, mapRows, List.find?_map, hcomp]

end

/-- Update rows without touching their keys. -/
def modify (t : UniqueTable key) (f : ρ → ρ) (hf : ∀ r, key (f r) = key r) : UniqueTable key where
  rows := t.rows.map f
  unique := by
    have hmap : (t.rows.map f).map key = t.rows.map key := by
      rw [List.map_map]
      exact List.map_congr_left fun r _ => hf r
    rw [hmap]
    exact t.unique

theorem find?_modify (t : UniqueTable key) (f : ρ → ρ) (hf : ∀ r, key (f r) = key r) (k : κ) :
    (t.modify f hf).find? k = (t.find? k).map f := find?_mapRows f hf t k

/-- Add a row unless its key is taken, and return the row of the key. -/
def insertOrFind (t : UniqueTable key) (row : ρ) : UniqueTable key × ρ :=
  match h : t.find? (key row) with
  | some r => (t, r)
  | none => (t.insert row h, row)

theorem insertOrFind_of_some {t : UniqueTable key} {row r : ρ} (h : t.find? (key row) = some r) :
    t.insertOrFind row = (t, r) := by
  unfold insertOrFind
  split
  · next r' h' =>
    rw [h] at h'
    rw [Option.some.inj h']
  · next h' =>
    rw [h] at h'
    cases h'

theorem insertOrFind_of_none {t : UniqueTable key} {row : ρ} (h : t.find? (key row) = none) :
    t.insertOrFind row = (t.insert row h, row) := by
  unfold insertOrFind
  split
  · next r h' =>
    rw [h] at h'
    cases h'
  · rfl

theorem insertOrFind_row (t : UniqueTable key) (row : ρ) :
    (t.insertOrFind row).2 ∈ (t.insertOrFind row).1.rows ∧
      key (t.insertOrFind row).2 = key row := by
  unfold insertOrFind
  split
  · next r h => exact find?_some h
  · exact ⟨List.mem_append_right _ List.mem_cons_self, rfl⟩

theorem insertOrFind_subset (t : UniqueTable key) (row : ρ) {r : ρ} (h : r ∈ t.rows) :
    r ∈ (t.insertOrFind row).1.rows := by
  unfold insertOrFind
  split
  · exact h
  · exact List.mem_append_left _ h

theorem mem_insertOrFind {t : UniqueTable key} {row r : ρ}
    (h : r ∈ (t.insertOrFind row).1.rows) : r = row ∨ r ∈ t.rows := by
  unfold insertOrFind at h
  split at h
  · exact Or.inr h
  · rcases List.mem_append.mp h with hold | hnew
    · exact Or.inr hold
    · exact Or.inl (List.mem_singleton.mp hnew)

omit [DecidableEq κ] in
theorem ext_rows {t t' : UniqueTable key} (h : t.rows = t'.rows) : t = t' := by
  cases t
  cases t'
  cases h
  rfl

section

variable {ρ' : Type*} {key' : ρ' → κ} (g : ρ → ρ') (hg : ∀ r, key' (g r) = key r)

/-- An insert is the insert of what the row is seen as. -/
theorem insertOrFind_mapRows (t : UniqueTable key) (row : ρ) :
    (t.mapRows g hg).insertOrFind (g row) =
      ((t.insertOrFind row).1.mapRows g hg, g (t.insertOrFind row).2) := by
  have hfind := find?_mapRows g hg t (key' (g row))
  cases h : t.find? (key row) with
  | some r =>
      rw [hg row, h] at hfind
      rw [insertOrFind_of_some h, insertOrFind_of_some ((hg row).symm ▸ hfind)]
  | none =>
      rw [hg row, h] at hfind
      rw [insertOrFind_of_none h, insertOrFind_of_none ((hg row).symm ▸ hfind)]
      refine Prod.ext (ext_rows ?_) rfl
      simp only [insert, mapRows, List.map_append, List.map_cons, List.map_nil]

end

/-- A row is the only one of its key. -/
theorem count_of_mem (t : UniqueTable key) {r : ρ} (h : r ∈ t.rows) :
    (t.rows.filter fun x => key x = key r).length = 1 := by
  have hcount : (t.rows.map key).count (key r) = 1 :=
    List.count_eq_one_of_mem t.unique (List.mem_map_of_mem h)
  rw [List.count_eq_countP, List.countP_map, List.countP_eq_length_filter] at hcount
  rw [← hcount]
  congr 2

/-- A key has exactly one row if it has any. -/
theorem count_eq_one_iff (t : UniqueTable key) (k : κ) :
    (t.rows.filter fun x => key x = k).length = 1 ↔ ∃ r ∈ t.rows, key r = k := by
  constructor
  · intro h
    rcases List.length_eq_one_iff.mp h with ⟨r, hr⟩
    have hmem : r ∈ t.rows.filter fun x => key x = k := hr ▸ List.mem_cons_self
    exact ⟨r, (List.mem_filter.mp hmem).1, of_decide_eq_true (List.mem_filter.mp hmem).2⟩
  · rintro ⟨r, hr, rfl⟩
    exact t.count_of_mem hr

/-- A key never has two rows. -/
theorem count_le_one (t : UniqueTable key) (k : κ) :
    (t.rows.filter fun x => key x = k).length ≤ 1 := by
  by_cases h : ∃ r ∈ t.rows, key r = k
  · exact Nat.le_of_eq ((t.count_eq_one_iff k).mpr h)
  · have hnone : (t.rows.filter fun x => key x = k) = [] := by
      refine List.filter_eq_nil_iff.mpr fun r hr hkey => ?_
      exact h ⟨r, hr, of_decide_eq_true hkey⟩
    rw [hnone]
    exact Nat.zero_le 1

end UniqueTable

end MmrEngine
