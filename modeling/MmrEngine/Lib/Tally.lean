import MmrEngine.Lib.OrderedDict
import MmrEngine.Lib.Query
import Mathlib.Tactic.Abel

/-!
# Tallies

A dictionary of accumulators, one for each key that has come up: a loop looks
up the accumulator of an item's key, with a fresh one for a new key, and adds
the item to it.

A key then has what its own items add up to, from a fresh accumulator. Where
the order of two additions does not matter, the order of the items does not
matter either, but to the order of the keys. And a figure of the accumulators
that grows by what each item brings sums up to that of all items.

## Main definitions

* `tally`: One item.
* `tallyAll`: All of them.

## Theorems

* `get?_setItem`: What a key has after a write.
* `getD_tallyAll`, `isSome_tallyAll`: What a key has after the loop.
* `get?_tallyAll_perm`: The order of the items does not matter.
* `entries_tallyAll_perm`: All there is after the loop.
* `total_tallyAll`: A figure of all accumulators together.
-/

namespace MmrEngine

namespace OrderedDict

open Query

variable {ι κ ν M : Type*} [DecidableEq κ]

/-! ### Writes -/

theorem entries_setItem_of_not_mem {d : OrderedDict κ ν} {k : κ} (v : ν)
    (h : k ∉ d.entries.map Prod.fst) : (d.setItem k v).entries = d.entries ++ [(k, v)] := if_neg h

theorem get?_setItem_self (d : OrderedDict κ ν) (k : κ) (v : ν) :
    (d.setItem k v).get? k = some v := by
  refine get?_of_mem ?_
  by_cases hk : k ∈ d.entries.map Prod.fst
  · rcases List.mem_map.mp hk with ⟨entry, hentry, heq⟩
    rw [entries_setItem_of_mem v hk]
    exact List.mem_map.mpr ⟨entry, hentry, if_pos heq⟩
  · rw [entries_setItem_of_not_mem v hk]
    exact List.mem_append_right _ List.mem_cons_self

/-- The entries of other keys stay as they are. -/
theorem mem_setItem_of_ne {d : OrderedDict κ ν} {k k' : κ} (h : k' ≠ k) (v v' : ν) :
    (k', v') ∈ (d.setItem k v).entries ↔ (k', v') ∈ d.entries := by
  by_cases hk : k ∈ d.entries.map Prod.fst
  · rw [entries_setItem_of_mem v hk, replaceValue, List.mem_map]
    constructor
    · rintro ⟨entry, hentry, heq⟩
      by_cases hfst : entry.1 = k
      · rw [if_pos hfst] at heq
        exact absurd (congrArg Prod.fst heq).symm h
      · rw [if_neg hfst] at heq
        exact heq ▸ hentry
    · intro hmem
      exact ⟨(k', v'), hmem, if_neg h⟩
  · rw [entries_setItem_of_not_mem v hk, List.mem_append, List.mem_singleton]
    constructor
    · rintro (hmem | heq)
      · exact hmem
      · exact absurd (congrArg Prod.fst heq) h
    · exact Or.inl

theorem get?_eq_some_iff {d : OrderedDict κ ν} {k : κ} {v : ν} :
    d.get? k = some v ↔ (k, v) ∈ d.entries := by
  constructor
  · exact mem_of_get?
  · exact get?_of_mem

theorem get?_setItem_of_ne {d : OrderedDict κ ν} {k k' : κ} (h : k' ≠ k) (v : ν) :
    (d.setItem k v).get? k' = d.get? k' := by
  refine Option.ext fun v' => ?_
  rw [get?_eq_some_iff, get?_eq_some_iff, mem_setItem_of_ne h]

/-- A key that is there has a value. -/
theorem isSome_get?_iff {d : OrderedDict κ ν} {k : κ} :
    (d.get? k).isSome ↔ k ∈ d.entries.map Prod.fst := by
  rw [Option.isSome_iff_exists, List.mem_map]
  constructor
  · rintro ⟨v, hv⟩
    exact ⟨(k, v), mem_of_get? hv, rfl⟩
  · rintro ⟨entry, hentry, rfl⟩
    exact ⟨entry.2, get?_of_mem hentry⟩

/-- What a write changes of a sum over the values. -/
theorem total_setItem [AddCommMonoid M] (d : OrderedDict κ ν) (k : κ) (zero new : ν) (f : ν → M)
    (x : M) (hzero : f zero = 0) (hnew : f new = f ((d.get? k).getD zero) + x) :
    totalOver (fun e => f e.2) (d.setItem k new).entries
      = totalOver (fun e => f e.2) d.entries + x := by
  by_cases hk : k ∈ d.entries.map Prod.fst
  · rcases List.mem_map.mp hk with ⟨⟨k', v⟩, hentry, rfl⟩
    rw [get?_of_mem hentry, Option.getD_some] at hnew
    rcases List.append_of_mem hentry with ⟨older, younger, hentries⟩
    have hnodup := d.nodup
    rw [hentries, List.map_append, List.nodup_append, List.map_cons, List.nodup_cons] at hnodup
    have holder : k' ∉ older.map Prod.fst := fun hmem =>
      hnodup.2.2 k' hmem k' List.mem_cons_self rfl
    rw [entries_setItem_of_mem new hk, hentries, replaceValue, List.map_append, List.map_cons,
      if_pos rfl, ← replaceValue, ← replaceValue, replaceValue_of_not_mem new holder,
      replaceValue_of_not_mem new hnodup.2.1.1]
    simp only [totalOver, List.map_append, List.map_cons, List.sum_append, List.sum_cons, hnew]
    abel
  · have hnone : d.get? k = none := by
      rw [← Option.not_isSome_iff_eq_none, isSome_get?_iff]
      exact hk
    rw [hnone, Option.getD_none, hzero, zero_add] at hnew
    rw [entries_setItem_of_not_mem new hk]
    simp [totalOver, hnew]

/-! ### The loop -/

section Tally

variable (key : ι → κ) (zero : ν) (add : ν → ι → ν)

/-- An item is added to the accumulator of its key. -/
def tally (d : OrderedDict κ ν) (x : ι) : OrderedDict κ ν :=
  d.setItem (key x) (add ((d.get? (key x)).getD zero) x)

def tallyAll (d : OrderedDict κ ν) (xs : List ι) : OrderedDict κ ν :=
  xs.foldl (tally key zero add) d

theorem tallyAll_cons (d : OrderedDict κ ν) (x : ι) (xs : List ι) :
    tallyAll key zero add d (x :: xs) = tallyAll key zero add (tally key zero add d x) xs := rfl

/-- A key has what its items add to what it had. -/
theorem getD_tallyAll (xs : List ι) (d : OrderedDict κ ν) (k : κ) :
    ((tallyAll key zero add d xs).get? k).getD zero
      = (xs.filter fun x => key x = k).foldl add ((d.get? k).getD zero) := by
  induction xs generalizing d with
  | nil => rfl
  | cons x xs ih =>
      rw [tallyAll_cons, ih]
      by_cases hk : key x = k
      · rw [List.filter_cons_of_pos (by simpa using hk), List.foldl_cons, tally, hk,
          get?_setItem_self, Option.getD_some]
      · rw [List.filter_cons_of_neg (by simpa using hk), tally, get?_setItem_of_ne (Ne.symm hk)]

/-- The keys there are, are those that were there and those of the items. -/
theorem isSome_tallyAll (xs : List ι) (d : OrderedDict κ ν) (k : κ) :
    ((tallyAll key zero add d xs).get? k).isSome ↔
      (d.get? k).isSome ∨ ∃ x ∈ xs, key x = k := by
  induction xs generalizing d with
  | nil => simp [tallyAll]
  | cons x xs ih =>
      rw [tallyAll_cons, ih]
      by_cases hk : key x = k
      · rw [tally, hk, get?_setItem_self]
        simp [hk]
      · rw [tally, get?_setItem_of_ne (Ne.symm hk)]
        simp [hk]

/-- What a key has after the loop, from nothing. -/
theorem get?_tallyAll (xs : List ι) (k : κ) : (tallyAll key zero add empty xs).get? k =
    if ∃ x ∈ xs, key x = k then some ((xs.filter fun x => key x = k).foldl add zero) else none := by
  have hvalue := getD_tallyAll key zero add xs empty k
  have hsome := isSome_tallyAll key zero add xs empty k
  have hempty : (empty : OrderedDict κ ν).get? k = none := rfl
  rw [hempty, Option.getD_none] at hvalue
  rw [hempty] at hsome
  cases hget : (tallyAll key zero add empty xs).get? k with
  | none =>
      rw [hget] at hsome
      rw [if_neg fun h => Bool.noConfusion (hsome.mpr (Or.inr h))]
  | some v =>
      rw [hget, Option.getD_some] at hvalue
      rw [hget] at hsome
      rw [if_pos ((hsome.mp rfl).resolve_left Bool.noConfusion), hvalue]

/-- Where additions commute, the order of the items does not matter. -/
theorem get?_tallyAll_perm (hadd : ∀ v x y, add (add v x) y = add (add v y) x) {xs ys : List ι}
    (h : xs.Perm ys) (k : κ) :
    (tallyAll key zero add empty xs).get? k = (tallyAll key zero add empty ys).get? k := by
  rw [get?_tallyAll, get?_tallyAll]
  have hfold : (xs.filter fun x => key x = k).foldl add zero
      = (ys.filter fun x => key x = k).foldl add zero :=
    (h.filter _).foldl_eq' (fun x _ y _ v => hadd v x y) zero
  have hkeys : (∃ x ∈ xs, key x = k) ↔ ∃ x ∈ ys, key x = k := by
    simp only [h.mem_iff]
  rw [hfold]
  exact if_congr hkeys rfl rfl

/-- The keys of the items, each with what its items add up to. -/
theorem entries_tallyAll_perm (xs : List ι) : (tallyAll key zero add empty xs).entries.Perm
    ((xs.map key).dedup.map fun k => (k, (xs.filter fun x => key x = k).foldl add zero)) := by
  have hkeys : (((xs.map key).dedup.map fun k =>
      (k, (xs.filter fun x => key x = k).foldl add zero)).map Prod.fst).Nodup := by
    rw [List.map_map]
    exact (List.nodup_dedup _).map fun _ _ heq => heq
  -- No entry is there twice, so it is enough that the same ones are there.
  refine (List.perm_ext_iff_of_nodup (OrderedDict.nodup _).of_map hkeys.of_map).mpr ?_
  rintro ⟨k, v⟩
  rw [← get?_eq_some_iff, get?_tallyAll, List.mem_map]
  constructor
  · intro h
    by_cases hk : ∃ x ∈ xs, key x = k
    · rw [if_pos hk] at h
      exact ⟨k, List.mem_dedup.mpr (List.mem_map.mpr hk),
        congrArg (Prod.mk k) (Option.some.inj h)⟩
    · rw [if_neg hk] at h
      cases h
  · rintro ⟨k', hk', heq⟩
    rcases Prod.mk.inj heq with ⟨rfl, rfl⟩
    rw [if_pos (List.mem_map.mp (List.mem_dedup.mp hk'))]

variable [AddCommMonoid M] (f : ν → M) (g : ι → M)

theorem total_tally (hzero : f zero = 0) (hadd : ∀ v x, f (add v x) = f v + g x)
    (d : OrderedDict κ ν) (x : ι) :
    totalOver (fun e => f e.2) (tally key zero add d x).entries
      = totalOver (fun e => f e.2) d.entries + g x :=
  total_setItem d (key x) zero _ f (g x) hzero (hadd _ x)

/-- A figure of all accumulators is that of all items. -/
theorem total_tallyAll (hzero : f zero = 0) (hadd : ∀ v x, f (add v x) = f v + g x) (xs : List ι) :
    totalOver (fun e => f e.2) (tallyAll key zero add empty xs).entries = totalOver g xs := by
  have hrun : ∀ d : OrderedDict κ ν, totalOver (fun e => f e.2) (tallyAll key zero add d xs).entries
      = totalOver (fun e => f e.2) d.entries + totalOver g xs := by
    induction xs with
    | nil =>
        intro d
        rw [totalOver_nil, add_zero]
        rfl
    | cons x xs ih =>
        intro d
        rw [tallyAll_cons, ih, total_tally key zero add f g hzero hadd, totalOver_cons, add_assoc]
  rw [hrun]
  exact zero_add _

end Tally

end OrderedDict

end MmrEngine
