import MmrEngine.Lib.UniqueTable
import Mathlib.Algebra.BigOperators.Group.List.Basic
import Mathlib.Data.List.Dedup

/-!
# Queries over Tables

Joins and `GROUP BY` over lists of rows, and when an aggregate over them is the
plain sum it should be.

A `LEFT JOIN` repeats a row for each of its partners. Where a row has at most
one, as the key it is joined by is unique, nothing is repeated and the join
only adds a column (`leftJoin_eq_map`). A group has every row of its key and no
other, so the sums of some groups make up the sum over the rows that are in
them (`sum_groupBy_filter`).

SQL does not say in which order the groups come; here it is that of the last
occurrence of their keys.

## Main definitions

* `innerJoin`, `leftJoin`: `JOIN ... ON` and `LEFT JOIN ... ON`.
* `groupBy`, `groups`: `GROUP BY`, with the rows of each group.
* `totalOver`: `SUM` over some rows.

## Theorems

* `leftJoin_eq_map`, `innerJoin_eq_filterMap`: A join by a unique key.
* `mem_innerJoin`, `nodup_innerJoin`: What is in a join, and how often.
* `groupBy_keys_nodup`, `mem_groupBy`: There is one group for each key.
* `aggregate_groupBy`: The aggregate of the group a row is joined with.
* `sum_groupBy_filter`: Some groups together.
-/

namespace MmrEngine

namespace Query

variable {α β κ M : Type*}

/-- `JOIN ... ON`. -/
def innerJoin (on : α → β → Bool) (xs : List α) (ys : List β) : List (α × β) :=
  xs.flatMap fun x => (ys.filter (on x)).map fun y => (x, y)

/-- `LEFT JOIN ... ON`: a row without a partner is kept once. -/
def leftJoin (on : α → β → Bool) (xs : List α) (ys : List β) : List (α × Option β) :=
  xs.flatMap fun x =>
    match ys.filter (on x) with
    | [] => [(x, none)]
    | zs => zs.map fun y => (x, some y)

/-- Where at most one row passes, it is the first that does. -/
theorem filter_eq_find?_toList {p : β → Bool} {ys : List β} (h : (ys.filter p).length ≤ 1) :
    ys.filter p = (ys.find? p).toList := by
  induction ys with
  | nil => rfl
  | cons y ys ih =>
      by_cases hy : p y = true
      · rw [List.filter_cons_of_pos hy, List.length_cons] at h
        have hnil : ys.filter p = [] := List.length_eq_zero_iff.mp (by omega)
        rw [List.filter_cons_of_pos hy, List.find?_cons_of_pos hy, hnil]
        rfl
      · rw [List.filter_cons_of_neg hy] at h
        rw [List.filter_cons_of_neg hy, List.find?_cons_of_neg hy]
        exact ih h

/-- A join by a unique key finds at most one partner. -/
theorem leftJoin_eq_map {on : α → β → Bool} {ys : List β}
    (h : ∀ x, (ys.filter (on x)).length ≤ 1) (xs : List α) :
    leftJoin on xs ys = xs.map fun x => (x, ys.find? (on x)) := by
  unfold leftJoin
  induction xs with
  | nil => rfl
  | cons x xs ih =>
      rw [List.flatMap_cons, ih, List.map_cons, filter_eq_find?_toList (h x)]
      cases ys.find? (on x) with
      | none => rfl
      | some y => rfl

/-- The same for `ON y.key = x.key` with a key that is unique in `ys`. -/
theorem leftJoin_by_key [DecidableEq κ] (kx : α → κ) (ky : β → κ) (xs : List α)
    (t : UniqueTable ky) :
    leftJoin (fun x y => decide (ky y = kx x)) xs t.rows = xs.map fun x => (x, t.find? (kx x)) :=
  leftJoin_eq_map (fun x => t.count_le_one (kx x)) xs

/-- A row with one partner is joined with it, and one without is dropped. -/
theorem innerJoin_eq_filterMap {on : α → β → Bool} {ys : List β}
    (h : ∀ x, (ys.filter (on x)).length ≤ 1) (xs : List α) :
    innerJoin on xs ys = xs.filterMap fun x => (ys.find? (on x)).map fun y => (x, y) := by
  unfold innerJoin
  induction xs with
  | nil => rfl
  | cons x xs ih =>
      rw [List.flatMap_cons, ih, filter_eq_find?_toList (h x)]
      cases hy : ys.find? (on x) with
      | none =>
          rw [List.filterMap_cons_none (by rw [hy]; rfl)]
          rfl
      | some y =>
          rw [List.filterMap_cons_some (b := (x, y)) (by rw [hy]; rfl)]
          rfl

/-- Where every row has its partner, the join keeps the rows as they are. -/
theorem map_fst_innerJoin {on : α → β → Bool} {xs : List α} {ys : List β}
    (h : ∀ x, (ys.filter (on x)).length ≤ 1) (hpartner : ∀ x ∈ xs, (ys.find? (on x)).isSome) :
    (innerJoin on xs ys).map Prod.fst = xs := by
  rw [innerJoin_eq_filterMap h]
  induction xs with
  | nil => rfl
  | cons x xs ih =>
      rcases Option.isSome_iff_exists.mp (hpartner x List.mem_cons_self) with ⟨y, hy⟩
      rw [List.filterMap_cons_some (b := (x, y)) (by rw [hy]; rfl), List.map_cons,
        ih fun x' hx' => hpartner x' (List.mem_cons_of_mem _ hx')]

/-- What is joined are the pairs of rows that fit. -/
theorem mem_innerJoin {on : α → β → Bool} {xs : List α} {ys : List β} {r : α × β} :
    r ∈ innerJoin on xs ys ↔ r.1 ∈ xs ∧ r.2 ∈ ys ∧ on r.1 r.2 = true := by
  unfold innerJoin
  constructor
  · intro h
    rcases List.mem_flatMap.mp h with ⟨x, hx, hr⟩
    rcases List.mem_map.mp hr with ⟨y, hy, rfl⟩
    exact ⟨hx, List.mem_filter.mp hy⟩
  · intro h
    exact List.mem_flatMap.mpr
      ⟨r.1, h.1, List.mem_map.mpr ⟨r.2, List.mem_filter.mpr h.2, rfl⟩⟩

/-- A row with at most one partner is in the join at most once. -/
theorem nodup_innerJoin {ι : Type*} {on : α → β → Bool} {xs : List α} {ys : List β} {name : α → ι}
    (h : ∀ x, (ys.filter (on x)).length ≤ 1) (hxs : (xs.map name).Nodup) :
    ((innerJoin on xs ys).map fun r => name r.1).Nodup := by
  have hsub : ((innerJoin on xs ys).map fun r => name r.1).Sublist (xs.map name) := by
    rw [innerJoin_eq_filterMap h]
    clear hxs
    induction xs with
    | nil => exact List.Sublist.refl _
    | cons x xs ih =>
        cases hy : ys.find? (on x) with
        | none =>
            rw [List.filterMap_cons_none (by rw [hy]; rfl), List.map_cons]
            exact ih.cons _
        | some y =>
            rw [List.filterMap_cons_some (b := (x, y)) (by rw [hy]; rfl), List.map_cons,
              List.map_cons]
            exact ih.cons_cons _
  exact hsub.nodup hxs

/-! ### Groups -/

section Groups

variable [DecidableEq κ]

/-- `GROUP BY`: the keys that occur, each with its rows. -/
def groupBy (key : α → κ) (xs : List α) : List (κ × List α) :=
  (xs.map key).dedup.map fun k => (k, xs.filter fun x => key x = k)

theorem groupBy_keys_nodup (key : α → κ) (xs : List α) :
    ((groupBy key xs).map Prod.fst).Nodup := by
  have hkeys : (groupBy key xs).map Prod.fst = (xs.map key).dedup := by
    rw [groupBy, List.map_map]
    exact List.map_id _
  rw [hkeys]
  exact List.nodup_dedup _

/-- A group has the rows of its key, of which there is one at least. -/
theorem mem_groupBy {key : α → κ} {xs : List α} {k : κ} {g : List α} :
    (k, g) ∈ groupBy key xs ↔ (∃ x ∈ xs, key x = k) ∧ g = xs.filter fun x => key x = k := by
  unfold groupBy
  constructor
  · intro h
    rcases List.mem_map.mp h with ⟨k', hk', heq⟩
    rcases Prod.mk.inj heq with ⟨rfl, rfl⟩
    exact ⟨List.mem_map.mp (List.mem_dedup.mp hk'), rfl⟩
  · rintro ⟨hk, rfl⟩
    exact List.mem_map.mpr ⟨k, List.mem_dedup.mpr (List.mem_map.mpr hk), rfl⟩

/-- Grouping rows that were made of others. -/
theorem groupBy_map (key : β → κ) (f : α → β) (xs : List α) :
    groupBy key (xs.map f) = (groupBy (fun x => key (f x)) xs).map fun g => (g.1, g.2.map f) := by
  unfold groupBy
  rw [List.map_map, List.map_map]
  refine List.map_congr_left fun k _ => ?_
  rw [List.filter_map]
  rfl

/-- The groups as a table: there is at most one to join with. -/
def groups (key : α → κ) (xs : List α) : UniqueTable (Prod.fst (α := κ) (β := List α)) where
  rows := groupBy key xs
  unique := groupBy_keys_nodup key xs

/-- An aggregate of the group a row is joined with is that of the rows of its
    key. What stands in for a missing group has to be the aggregate of no rows. -/
theorem aggregate_groupBy {γ : Type*} (agg : List α → γ) (key : α → κ) (xs : List α) (k : κ) :
    (((groups key xs).find? k).map fun g => agg g.2).getD (agg [])
      = agg (xs.filter fun x => key x = k) := by
  cases hfind : (groups key xs).find? k with
  | some g =>
      rcases g with ⟨k', rows⟩
      rcases UniqueTable.find?_some hfind with ⟨hmem, rfl⟩
      rw [Option.map_some, Option.getD_some, (mem_groupBy.mp hmem).2]
  | none =>
      have hempty : (xs.filter fun x => key x = k) = [] := by
        refine List.filter_eq_nil_iff.mpr fun x hx hkey => ?_
        have hgroup := mem_groupBy.mpr ⟨⟨x, hx, of_decide_eq_true hkey⟩, rfl⟩
        exact UniqueTable.find?_none hfind (List.mem_map.mpr ⟨_, hgroup, rfl⟩)
      rw [hempty]
      rfl

/-- `SUM` over some rows; `COUNT(*)` where every row counts one. -/
def totalOver [AddCommMonoid M] (f : α → M) (xs : List α) : M := (xs.map f).sum

variable [AddCommMonoid M]

@[simp] theorem totalOver_nil (f : α → M) : totalOver f [] = 0 := rfl

@[simp] theorem totalOver_cons (f : α → M) (x : α) (xs : List α) :
    totalOver f (x :: xs) = f x + totalOver f xs := by
  simp [totalOver]

theorem totalOver_map (f : β → M) (g : α → β) (xs : List α) :
    totalOver f (xs.map g) = totalOver (fun x => f (g x)) xs := by
  unfold totalOver
  rw [List.map_map]
  rfl

theorem totalOver_congr {f g : α → M} {xs : List α} (h : ∀ x ∈ xs, f x = g x) :
    totalOver f xs = totalOver g xs :=
  congrArg List.sum (List.map_congr_left h)

theorem totalOver_perm {f : α → M} {xs ys : List α} (h : xs.Perm ys) :
    totalOver f xs = totalOver f ys := (h.map f).sum_eq

theorem totalOver_add (f g : α → M) (xs : List α) :
    totalOver f xs + totalOver g xs = totalOver (fun x => f x + g x) xs :=
  (List.sum_map_add).symm

/-- Counting is summing ones. -/
theorem totalOver_one (xs : List α) : totalOver (fun _ => 1) xs = xs.length := by
  induction xs with
  | nil => rfl
  | cons x xs ih =>
      rw [totalOver_cons, ih, List.length_cons]
      omega

/-- `FILTER (WHERE ...)`, or a `CASE` that is zero elsewhere. -/
theorem totalOver_filter (p : α → Bool) (f : α → M) (xs : List α) :
    totalOver f (xs.filter p) = totalOver (fun x => if p x then f x else 0) xs := by
  induction xs with
  | nil => rfl
  | cons x xs ih =>
      by_cases hx : p x = true
      · rw [List.filter_cons_of_pos hx, totalOver_cons, totalOver_cons, if_pos hx, ih]
      · rw [List.filter_cons_of_neg hx, totalOver_cons, if_neg hx, zero_add, ih]

theorem length_filter_eq_totalOver (p : α → Bool) (xs : List α) :
    (xs.filter p).length = totalOver (fun x => if p x then 1 else 0) xs := by
  rw [← totalOver_one, totalOver_filter]

/-- The rows of one key and those of others are apart. -/
theorem totalOver_key_cons (key : α → κ) (f : α → M) {k : κ} {ks : List κ} (hk : k ∉ ks)
    (xs : List α) : totalOver f (xs.filter fun x => key x ∈ k :: ks)
      = totalOver f (xs.filter fun x => key x = k)
        + totalOver f (xs.filter fun x => key x ∈ ks) := by
  simp only [totalOver_filter]
  induction xs with
  | nil => simp
  | cons x xs ih =>
      simp only [totalOver_cons, ih]
      by_cases hx : key x = k
      · have hout : key x ∉ ks := fun hmem => hk (hx ▸ hmem)
        simp [hx, hk, add_assoc]
      · simp [hx, add_left_comm]

/-- The sums of the groups of some keys make up the sum over their rows. -/
theorem sum_keys (key : α → κ) (f : α → M) (xs : List α) {ks : List κ} (hks : ks.Nodup) :
    totalOver (fun k => totalOver f (xs.filter fun x => key x = k)) ks
      = totalOver f (xs.filter fun x => key x ∈ ks) := by
  induction ks with
  | nil => simp
  | cons k ks ih =>
      rw [List.nodup_cons] at hks
      rw [totalOver_cons, ih hks.2, totalOver_key_cons key f hks.1]

/-- Some groups together: what they sum up to is the sum over their rows. -/
theorem sum_groupBy_filter (p : κ → Bool) (key : α → κ) (f : α → M) (xs : List α) :
    totalOver (fun g => totalOver f g.2) ((groupBy key xs).filter fun g => p g.1)
      = totalOver f (xs.filter fun x => p (key x)) := by
  have hgroups : (groupBy key xs).filter (fun g => p g.1)
      = ((xs.map key).dedup.filter p).map fun k => (k, xs.filter fun x => key x = k) := by
    rw [groupBy, List.filter_map]
    rfl
  rw [hgroups, totalOver_map, sum_keys key f xs ((List.nodup_dedup _).filter _)]
  congr 1
  refine List.filter_congr fun x hx => ?_
  have hmem : key x ∈ xs.map key := List.mem_map_of_mem hx
  simp [hmem]

/-- All groups together. -/
theorem sum_groupBy (key : α → κ) (f : α → M) (xs : List α) :
    totalOver (fun g => totalOver f g.2) (groupBy key xs) = totalOver f xs := by
  have hall := sum_groupBy_filter (fun _ => true) key f xs
  simpa using hall

end Groups

end Query

end MmrEngine
