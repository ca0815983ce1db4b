import MmrEngine.Lib.Paging
import Mathlib.Data.List.Nodup

/-!
# Pages of a Listing That Changes

A sorted listing, read page by page with an offset, while its rows come, go and
change between one page and the next.

A row stands at its place, the number of rows that come before it
(`getElem?_mergeSort_place`). As long as its place never falls, the pages catch
up with it: once a page is known to be the last one, one of the pages read has
shown the row (`page_of_places`). So a row that stayed in the listing and was
not shown has lost a row before it, and that row has left the listing or has
come to stand after it (`missed_row`).

## Main definitions

* `OrdersBy`: An order that tells any two rows of different names apart.
* `place`: How many rows come before one.

## Theorems

* `getElem?_mergeSort_place`: A row stands at its place.
* `page_of_places`: A place that never falls is on a page.
* `passed_of_place_lt`: Why a place falls.
* `missed_row`: Why a row is not shown.
-/

namespace MmrEngine

namespace Paging

variable {α ι : Type*}

/-- An order to sort rows by, in which only rows of one name are alike. -/
structure OrdersBy (le : α → α → Bool) (name : α → ι) : Prop where
  trans : ∀ x y z, le x y = true → le y z = true → le x z = true
  total : ∀ x y, (le x y || le y x) = true
  strict : ∀ x y, le x y = true → le y x = true → name x = name y

/-- How many rows come before `x`. -/
def place (le : α → α → Bool) (rows : List α) (x : α) : Nat :=
  (rows.filter fun y => !le x y).length

section Place

variable {le : α → α → Bool} {name : α → ι} {rows rows' : List α} {x x' : α}

/-- A row does not come before itself. -/
theorem OrdersBy.refl (h : OrdersBy le name) (x : α) : le x x = true := by
  have hself := h.total x x
  rw [Bool.or_self] at hself
  exact hself

/-- A row stands at its place. -/
theorem getElem?_mergeSort_place (h : OrdersBy le name) (hrows : (rows.map name).Nodup)
    (hx : x ∈ rows) : (rows.mergeSort le)[place le rows x]? = some x := by
  have hperm := List.mergeSort_perm rows le
  have hsorted := List.pairwise_mergeSort h.trans h.total rows
  have hnames : ((rows.mergeSort le).map name).Nodup := (hperm.map name).nodup_iff.mpr hrows
  rcases List.append_of_mem (hperm.mem_iff.mpr hx) with ⟨before, behind, hsplit⟩
  have hplace : place le rows x = ((rows.mergeSort le).filter fun y => !le x y).length :=
    (hperm.filter _).length_eq.symm
  rw [hsplit] at hplace hsorted hnames
  rw [List.map_append, List.map_cons, List.nodup_append] at hnames
  rw [List.pairwise_append] at hsorted
  -- What stands in front of the row comes before it, as the names differ.
  have hbefore : before.filter (fun y => !le x y) = before := by
    refine List.filter_eq_self.mpr fun y hy => ?_
    cases hxy : le x y with
    | false => rfl
    | true =>
        have hyx : le y x = true := hsorted.2.2 y hy x List.mem_cons_self
        have hne := hnames.2.2 (name y) (List.mem_map_of_mem hy) (name x) List.mem_cons_self
        exact absurd (h.strict y x hyx hxy) hne
  -- What stands behind it does not.
  have hbehind : (x :: behind).filter (fun y => !le x y) = [] := by
    refine List.filter_eq_nil_iff.mpr fun y hy => ?_
    have hxy : le x y = true := by
      rcases List.mem_cons.mp hy with rfl | htail
      · exact h.refl y
      · exact List.rel_of_pairwise_cons hsorted.2.1 htail
    rw [hxy]
    exact Bool.false_ne_true
  rw [hplace, List.filter_append, hbefore, hbehind, List.append_nil, hsplit,
    List.getElem?_append_right (Nat.le_refl _), Nat.sub_self]
  rfl

/-- The row of an index is in the stretch of the index. -/
theorem mem_stretch {xs : List α} {size k i : Nat} (hget : xs[i]? = some x)
    (hlow : k * size ≤ i) (hhigh : i < (k + 1) * size) : x ∈ stretch xs size k := by
  have hsize : (k + 1) * size = k * size + size := Nat.succ_mul k size
  have hindex : (stretch xs size k)[i - k * size]? = some x := by
    rw [stretch, List.getElem?_take_of_lt (by omega), List.getElem?_drop,
      Nat.add_sub_cancel' hlow]
    exact hget
  exact List.mem_of_getElem? hindex

/-- A place falls if a row that came before has left, or comes after now. -/
theorem passed_of_place_lt (hrows : (rows.map name).Nodup)
    (hlt : place le rows' x' < place le rows x) :
    ∃ y ∈ rows, le x y = false ∧ ∀ y' ∈ rows', name y' = name y → le x' y' = true := by
  by_contra hnone
  push Not at hnone
  have hsub : (rows.filter fun y => !le x y).map name
      ⊆ (rows'.filter fun y => !le x' y).map name := by
    intro n hn
    rcases List.mem_map.mp hn with ⟨y, hy, rfl⟩
    rcases List.mem_filter.mp hy with ⟨hmem, hbefore⟩
    rcases hnone y hmem (by simpa using hbefore) with ⟨y', hy', hname, hbefore'⟩
    exact List.mem_map.mpr ⟨y', List.mem_filter.mpr ⟨hy', by simp [hbefore']⟩, hname⟩
  have hnodup : ((rows.filter fun y => !le x y).map name).Nodup :=
    (List.filter_sublist.map name).nodup hrows
  have hle := hnodup.length_le_of_subset hsub
  rw [List.length_map, List.length_map] at hle
  exact absurd hlt (Nat.not_lt.mpr hle)

end Place

/-- A place that never falls is on one of the pages, if it is not beyond the
    last one. -/
theorem page_of_places {places : Nat → Nat} {size last : Nat}
    (hrise : ∀ k < last, places k ≤ places (k + 1)) (hlast : places last < (last + 1) * size) :
    ∃ k ≤ last, k * size ≤ places k ∧ places k < (k + 1) * size := by
  induction last with
  | zero => exact ⟨0, Nat.le_refl 0, by rw [Nat.zero_mul]; exact Nat.zero_le _, hlast⟩
  | succ n ih =>
      by_cases hreached : (n + 1) * size ≤ places (n + 1)
      · exact ⟨n + 1, Nat.le_refl _, hreached, hlast⟩
      · -- The row stands before the last page, so it did on the page before.
        have hstep := hrise n (Nat.lt_succ_self n)
        rcases ih (fun k hk => hrise k (by omega)) (by omega) with ⟨k, hk, hpage⟩
        exact ⟨k, by omega, hpage⟩

/-- A row that is in the listing whenever a page is read, and on no page up to
    the last one, has lost a row before it. -/
theorem missed_row {le : α → α → Bool} {name : α → ι} (h : OrdersBy le name)
    {rows : Nat → List α} {n : ι} {size last : Nat} (hrows : ∀ k, ((rows k).map name).Nodup)
    (hlisted : ∀ k ≤ last, n ∈ (rows k).map name)
    (hlast : (rows last).length ≤ (last + 1) * size)
    (hmissed : ∀ k ≤ last, n ∉ (stretch ((rows k).mergeSort le) size k).map name) :
    ∃ k < last, ∃ x ∈ rows k, ∃ x' ∈ rows (k + 1), name x = n ∧ name x' = n ∧
      ∃ y ∈ rows k, le x y = false ∧
        ∀ y' ∈ rows (k + 1), name y' = name y → le x' y' = true := by
  have hplace : ∀ k, ∃ p, k ≤ last → ∃ x ∈ rows k, name x = n ∧ place le (rows k) x = p := by
    intro k
    by_cases hk : k ≤ last
    · rcases List.mem_map.mp (hlisted k hk) with ⟨x, hx, hname⟩
      exact ⟨place le (rows k) x, fun _ => ⟨x, hx, hname, rfl⟩⟩
    · exact ⟨0, fun hc => absurd hc hk⟩
  choose places hplaces using hplace
  by_contra hnone
  have hrise : ∀ k < last, places k ≤ places (k + 1) := by
    intro k hk
    rcases hplaces k (by omega) with ⟨x, hx, hname, hp⟩
    rcases hplaces (k + 1) hk with ⟨x', hx', hname', hp'⟩
    refine Nat.le_of_not_lt fun hlt => hnone ?_
    rw [← hp, ← hp'] at hlt
    exact ⟨k, hk, x, hx, x', hx', hname, hname', passed_of_place_lt (hrows k) hlt⟩
  have hend : places last < (last + 1) * size := by
    rcases hplaces last (Nat.le_refl _) with ⟨x, hx, -, hp⟩
    have hget := getElem?_mergeSort_place h (hrows last) hx
    rcases List.getElem?_eq_some_iff.mp hget with ⟨hlt, -⟩
    rw [List.length_mergeSort, hp] at hlt
    exact Nat.lt_of_lt_of_le hlt hlast
  rcases page_of_places hrise hend with ⟨k, hk, hlow, hhigh⟩
  rcases hplaces k hk with ⟨x, hx, hname, hp⟩
  have hget := getElem?_mergeSort_place h (hrows k) hx
  rw [hp] at hget
  exact hmissed k hk (List.mem_map.mpr ⟨x, mem_stretch hget hlow hhigh, hname⟩)

end Paging

end MmrEngine
