import MmrEngine.Lib.UniqueTable

/-!
# Tables with a Serial Id and a Unique Key

A table with a primary key the database hands out and a unique key the rows
bring: inserting draws the next id, and a row is updated by its id.

Both constraints are fields, so whoever has found a row by its key may update
it by its id without touching another.

## Main definitions

* `SerialTable`: Rows with an id each, unique by key, and the next id.
* `get?`: The row of an id.
* `insert`, `insert?`: `INSERT` of a row whose key is free, or if it is.
* `modifyAt`: `UPDATE ... WHERE id = ...`.
* `modifyRows`: `UPDATE` of all rows.
* `Grown`: No row is lost, and each has changed only as is allowed.

## Theorems

* `get?_eq_some_iff`: What an id gets is its row.
* `get?_modifyAt`, `get?_modifyRows`: What an id gets after an update.
* `find?_insert`, `find?_modifyAt`, `find?_modifyAt_of_find?`: What a key finds after a write.
* `id_find?_modifyAt`: The id it finds does not change.
* `eq_of_id`: An id names one row.
* `grown_modifyAt`, `grown_insert`: Writes that lose no row.
-/

namespace MmrEngine

/-- Rows with an id each: ids and keys are pairwise different, and no id has
    been handed out beyond `next`. -/
structure SerialTable {ρ κ : Type*} (key : ρ → κ) extends
    UniqueTable (fun r : Nat × ρ => key r.2) where
  next : Nat
  below : ∀ r ∈ rows, r.1 < next
  serial : (rows.map Prod.fst).Nodup

namespace SerialTable

variable {ρ κ : Type*} {key : ρ → κ}

/-- The table without rows. -/
def empty (key : ρ → κ) : SerialTable key where
  toUniqueTable := UniqueTable.empty _
  next := 0
  below := by
    intro r hr
    cases hr
  serial := List.nodup_nil

/-- The row of an id. -/
def get? (t : SerialTable key) (id : Nat) : Option ρ :=
  (t.rows.find? fun r => r.1 = id).map Prod.snd

theorem get?_eq_some_iff {t : SerialTable key} {id : Nat} {row : ρ} :
    t.get? id = some row ↔ (id, row) ∈ t.rows := by
  constructor
  · intro h
    rcases Option.map_eq_some_iff.mp h with ⟨r, hr, rfl⟩
    have hid : r.1 = id := by simpa using List.find?_some hr
    rw [← hid]
    exact List.mem_of_find?_eq_some hr
  · intro h
    have hfind : (t.rows.find? fun r => r.1 = id) = some (id, row) :=
      UniqueTable.find?_eq_some_of_nodup t.serial h rfl
    rw [get?, hfind]
    rfl

/-- A table is its rows and the next id. -/
theorem ext_rows {t t' : SerialTable key} (hrows : t.rows = t'.rows) (hnext : t.next = t'.next) :
    t = t' := by
  rcases t with ⟨⟨rows, unique⟩, next, below, serial⟩
  rcases t' with ⟨⟨rows', unique'⟩, next', below', serial'⟩
  cases hrows
  cases hnext
  rfl

/-- An id names one row. -/
theorem eq_of_id {t : SerialTable key} {id : Nat} {row row' : ρ} (h : (id, row) ∈ t.rows)
    (h' : (id, row') ∈ t.rows) : row = row' := by
  have hget := get?_eq_some_iff.mpr h
  rw [get?_eq_some_iff.mpr h'] at hget
  exact (Option.some.inj hget).symm

/-- The update of one row leaves every key alone. -/
theorem key_modified {id : Nat} {f : ρ → ρ} (hf : ∀ r, key (f r) = key r) (r : Nat × ρ) :
    key (if r.1 = id then (r.1, f r.2) else r).2 = key r.2 := by
  split
  · exact hf r.2
  · rfl

/-- `UPDATE ... WHERE id = ...`, of columns outside the key. -/
def modifyAt (t : SerialTable key) (id : Nat) (f : ρ → ρ) (hf : ∀ r, key (f r) = key r) :
    SerialTable key where
  toUniqueTable := t.toUniqueTable.modify (fun r => if r.1 = id then (r.1, f r.2) else r)
    (key_modified hf)
  next := t.next
  below := by
    intro r hr
    rcases List.mem_map.mp hr with ⟨r₀, hr₀, rfl⟩
    have hlt := t.below r₀ hr₀
    split
    · exact hlt
    · exact hlt
  serial := by
    have hmap : (t.rows.map fun r => if r.1 = id then (r.1, f r.2) else r).map Prod.fst
        = t.rows.map Prod.fst := by
      rw [List.map_map]
      refine List.map_congr_left fun r _ => ?_
      rw [Function.comp_apply]
      split
      · rfl
      · rfl
    exact hmap.symm ▸ t.serial

/-- `UPDATE` of all rows, of columns outside the key. -/
def modifyRows (t : SerialTable key) (f : Nat → ρ → ρ) (hf : ∀ i r, key (f i r) = key r) :
    SerialTable key where
  toUniqueTable := t.toUniqueTable.modify (fun r => (r.1, f r.1 r.2)) fun r => hf r.1 r.2
  next := t.next
  below := by
    intro r hr
    rcases List.mem_map.mp hr with ⟨r₀, hr₀, rfl⟩
    exact t.below r₀ hr₀
  serial := by
    have hmap : (t.rows.map fun r => (r.1, f r.1 r.2)).map Prod.fst = t.rows.map Prod.fst := by
      rw [List.map_map]
      rfl
    exact hmap.symm ▸ t.serial

theorem get?_modifyRows (t : SerialTable key) (f : Nat → ρ → ρ) (hf : ∀ i r, key (f i r) = key r)
    (id : Nat) : (t.modifyRows f hf).get? id = (t.get? id).map (f id) := by
  have hfind : ((t.rows.map fun r => (r.1, f r.1 r.2)).find? fun r => r.1 = id)
      = (t.rows.find? fun r => r.1 = id).map fun r => (r.1, f r.1 r.2) := by
    rw [List.find?_map]
    rfl
  have hget : (t.modifyRows f hf).get? id
      = ((t.rows.map fun r => (r.1, f r.1 r.2)).find? fun r => r.1 = id).map Prod.snd := rfl
  rw [hget, hfind, get?]
  cases h : t.rows.find? fun r => r.1 = id with
  | none => rfl
  | some r =>
      have hid : r.1 = id := by simpa using List.find?_some h
      simp [hid]

/-- The update of one row is an update of all that leaves the others alone. -/
theorem modifyAt_eq_modifyRows (t : SerialTable key) (id : Nat) (f : ρ → ρ)
    (hf : ∀ r, key (f r) = key r) :
    t.modifyAt id f hf = t.modifyRows (fun i r => if i = id then f r else r)
      (fun i r => by
        split
        · exact hf r
        · rfl) := by
  refine ext_rows (List.map_congr_left fun r _ => ?_) rfl
  by_cases h : r.1 = id
  · simp [h]
  · simp [h]

theorem get?_modifyAt (t : SerialTable key) (id : Nat) (f : ρ → ρ) (hf : ∀ r, key (f r) = key r)
    (i : Nat) : (t.modifyAt id f hf).get? i
      = if i = id then (t.get? i).map f else t.get? i := by
  rw [modifyAt_eq_modifyRows, get?_modifyRows]
  by_cases h : i = id
  · simp [h]
  · simp [h]

section Grown

variable {R : ρ → ρ → Prop} {t t' t'' : SerialTable key}

/-- Every row is still there under its id, and has become what `R` allows. -/
def Grown (R : ρ → ρ → Prop) (t t' : SerialTable key) : Prop :=
  ∀ r ∈ t.rows, ∃ row, (r.1, row) ∈ t'.rows ∧ R r.2 row

theorem grown_refl (hrefl : ∀ row, R row row) (t : SerialTable key) : Grown R t t :=
  fun r hr => ⟨r.2, hr, hrefl r.2⟩

theorem grown_trans (htrans : ∀ {x y z}, R x y → R y z → R x z) (h : Grown R t t')
    (h' : Grown R t' t'') : Grown R t t'' := by
  intro r hr
  rcases h r hr with ⟨row, hrow, hstep⟩
  rcases h' (r.1, row) hrow with ⟨row', hrow', hstep'⟩
  exact ⟨row', hrow', htrans hstep hstep'⟩

/-- An update of one row grows the table if it grows the row. -/
theorem grown_modifyAt (hrefl : ∀ row, R row row) {id : Nat} {f : ρ → ρ}
    (hf : ∀ r, key (f r) = key r) (h : ∀ row, (id, row) ∈ t.rows → R row (f row)) :
    Grown R t (t.modifyAt id f hf) := by
  intro r hr
  by_cases hid : r.1 = id
  · refine ⟨f r.2, List.mem_map.mpr ⟨r, hr, if_pos hid⟩, h r.2 ?_⟩
    rw [← hid]
    exact hr
  · exact ⟨r.2, List.mem_map.mpr ⟨r, hr, if_neg hid⟩, hrefl r.2⟩

end Grown

variable [DecidableEq κ]

theorem find?_modifyAt (t : SerialTable key) (id : Nat) (f : ρ → ρ) (hf : ∀ r, key (f r) = key r)
    (k : κ) : (t.modifyAt id f hf).find? k
      = (t.find? k).map fun r => if r.1 = id then (r.1, f r.2) else r :=
  UniqueTable.find?_modify _ _ (key_modified hf) k

/-- A key finds the row of the same id. -/
theorem id_find?_modifyAt (t : SerialTable key) (id : Nat) (f : ρ → ρ)
    (hf : ∀ r, key (f r) = key r) (k : κ) :
    ((t.modifyAt id f hf).find? k).map Prod.fst = (t.find? k).map Prod.fst := by
  rw [find?_modifyAt, Option.map_map]
  congr 1
  funext r
  rw [Function.comp_apply]
  split
  · rfl
  · rfl

theorem get?_of_find? {t : SerialTable key} {k : κ} {id : Nat} {row : ρ}
    (h : t.find? k = some (id, row)) : t.get? id = some row :=
  get?_eq_some_iff.mpr (UniqueTable.find?_some h).1

/-- An update of the row a key has found changes what that key finds. -/
theorem find?_modifyAt_of_find? {t : SerialTable key} {id : Nat} {row : ρ} {k : κ}
    (h : t.find? k = some (id, row)) (f : ρ → ρ) (hf : ∀ r, key (f r) = key r) (k' : κ) :
    (t.modifyAt id f hf).find? k' = if k' = k then some (id, f row) else t.find? k' := by
  rw [find?_modifyAt]
  by_cases hk : k' = k
  · rw [if_pos hk, hk, h]
    simp
  · rw [if_neg hk]
    cases hk' : t.find? k' with
    | none => rfl
    | some r =>
        -- Another key finds another row, and that has another id.
        have hid : r.1 ≠ id := by
          intro hc
          have hmem := (UniqueTable.find?_some h)
          have hmem' := (UniqueTable.find?_some hk')
          have hrow : r.2 = row := eq_of_id (t := t) (hc ▸ hmem'.1) hmem.1
          rw [hrow] at hmem'
          exact hk (hmem'.2.symm.trans hmem.2)
        simp [hid]

/-- Add a row whose key is not taken, under the next id. -/
def insert (t : SerialTable key) (row : ρ) (h : t.find? (key row) = none) : SerialTable key where
  toUniqueTable := t.toUniqueTable.insert (t.next, row) h
  next := t.next + 1
  below := by
    intro r hr
    rcases List.mem_append.mp hr with hold | hnew
    · have hlt := t.below r hold
      omega
    · rw [List.mem_singleton.mp hnew]
      exact Nat.lt_succ_self _
  serial := by
    show ((t.rows ++ [(t.next, row)]).map Prod.fst).Nodup
    rw [List.map_append, List.nodup_append]
    refine ⟨t.serial, List.pairwise_singleton _ _, fun x hx y hy heq => ?_⟩
    rcases List.mem_map.mp hx with ⟨r, hr, rfl⟩
    have hlt := t.below r hr
    rw [heq, List.mem_singleton.mp hy] at hlt
    exact Nat.lt_irrefl _ hlt

theorem find?_insert (t : SerialTable key) (row : ρ) (h : t.find? (key row) = none) (k : κ) :
    (t.insert row h).find? k = if k = key row then some (t.next, row) else t.find? k :=
  UniqueTable.find?_insert t.toUniqueTable (t.next, row) h k

/-- `INSERT`: add a row unless its key is taken. -/
def insert? (t : SerialTable key) (row : ρ) : Option (SerialTable key) :=
  if h : t.find? (key row) = none then some (t.insert row h) else none

theorem insert?_of_free {t : SerialTable key} {row : ρ} (h : t.find? (key row) = none) :
    t.insert? row = some (t.insert row h) := dif_pos h

theorem insert?_eq_some {t t' : SerialTable key} {row : ρ} (h : t.insert? row = some t') :
    ∃ hfree : t.find? (key row) = none, t' = t.insert row hfree := by
  unfold insert? at h
  split at h
  · next hfree => exact ⟨hfree, (Option.some.inj h).symm⟩
  · cases h

/-- An insert grows the table. -/
theorem grown_insert {R : ρ → ρ → Prop} (hrefl : ∀ row, R row row) {t : SerialTable key} {row : ρ}
    {hfree : t.find? (key row) = none} : Grown R t (t.insert row hfree) :=
  fun r hr => ⟨r.2, List.mem_append_left _ hr, hrefl r.2⟩

end SerialTable

end MmrEngine
