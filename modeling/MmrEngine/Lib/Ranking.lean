import Mathlib.Data.List.Sort

/-!
# Rankings

Lists sorted by a key, and what the first two places say about everyone else.

`sorted(xs, key=f)` is stable, and so is insertion sort, so the two agree place
by place and not only up to a permutation. A decision that reads the first
place and compares it with the second is a decision about the whole list:
nobody behind the second place does better than it.

## Main definitions

* `ascending`: The list sorted by a key, smallest first.
* `descending`: The list sorted by a key, largest first.

## Theorems

* `mem_ascending`, `mem_descending`: Sorting keeps the members.
* `first_lt_of_no_tie`: A first place not tied with the second is strictly
  ahead of everyone.
* `le_runner_up`: Everyone behind the second place is at most as good.
* `keys_eq_of_perm`: Two rankings of one collection have the same keys in place.
* `first_eq_of_perm`: And the same first place, if it is strictly ahead.
* `ascending_eq_of_perm`: Where keys differ, there is one order.
-/

namespace MmrEngine

namespace Ranking

variable {ι κ : Type*} [LinearOrder κ] (key : ι → κ)

/-- `sorted(l, key=key)`. -/
def ascending (l : List ι) : List ι :=
  l.insertionSort (fun a b => key a ≤ key b)

/-- `sorted(l, key=key, reverse=True)`: equal members keep their order. -/
def descending (l : List ι) : List ι :=
  l.insertionSort (fun a b => key b ≤ key a)

@[simp] theorem mem_ascending {l : List ι} {x : ι} : x ∈ ascending key l ↔ x ∈ l :=
  List.mem_insertionSort _

@[simp] theorem mem_descending {l : List ι} {x : ι} : x ∈ descending key l ↔ x ∈ l :=
  List.mem_insertionSort _

theorem ascending_pairwise (l : List ι) :
    (ascending key l).Pairwise (fun a b => key a ≤ key b) := by
  have : Std.Total (fun a b : ι => key a ≤ key b) := ⟨fun a b => le_total _ _⟩
  have : IsTrans ι (fun a b : ι => key a ≤ key b) := ⟨fun _ _ _ h h' => le_trans h h'⟩
  exact List.pairwise_insertionSort _ l

theorem descending_pairwise (l : List ι) :
    (descending key l).Pairwise (fun a b => key b ≤ key a) := by
  have : Std.Total (fun a b : ι => key b ≤ key a) := ⟨fun a b => le_total _ _⟩
  have : IsTrans ι (fun a b : ι => key b ≤ key a) := ⟨fun _ _ _ h h' => le_trans h' h⟩
  exact List.pairwise_insertionSort _ l

variable {key}

/-- A first place that does not tie with the second is ahead of everyone. -/
theorem first_lt_of_no_tie {first : ι} {rest : List ι}
    (hsorted : (first :: rest).Pairwise (fun a b => key a ≤ key b))
    (htie : rest.head?.map key ≠ some (key first)) {x : ι} (hx : x ∈ rest) :
    key first < key x := by
  rcases List.pairwise_cons.mp hsorted with ⟨hfirst, hrest⟩
  cases rest with
  | nil => exact absurd hx List.not_mem_nil
  | cons second others =>
      have hne : key second ≠ key first :=
        fun h => htie (by rw [List.head?_cons, Option.map_some, h])
      have hlt : key first < key second :=
        lt_of_le_of_ne (hfirst second List.mem_cons_self) (Ne.symm hne)
      rcases List.mem_cons.mp hx with hxs | hxo
      · rw [hxs]
        exact hlt
      · exact lt_of_lt_of_le hlt ((List.pairwise_cons.mp hrest).1 x hxo)

/-- Nobody behind the runner-up of a descending ranking beats it. -/
theorem le_runner_up {first second : ι} {others : List ι}
    (hsorted : (first :: second :: others).Pairwise (fun a b => key b ≤ key a)) {x : ι}
    (hx : x ∈ second :: others) : key x ≤ key second := by
  rcases List.pairwise_cons.mp hsorted with ⟨_, hrest⟩
  rcases List.mem_cons.mp hx with hxs | hxo
  · rw [hxs]
  · exact (List.pairwise_cons.mp hrest).1 x hxo

theorem ascending_perm {l l' : List ι} (h : l.Perm l') :
    (ascending key l).Perm (ascending key l') :=
  ((List.perm_insertionSort _ l).trans h).trans (List.perm_insertionSort _ l').symm

theorem descending_perm {l l' : List ι} (h : l.Perm l') :
    (descending key l).Perm (descending key l') :=
  ((List.perm_insertionSort _ l).trans h).trans (List.perm_insertionSort _ l').symm

omit [LinearOrder κ] in
/-- Two rankings of one collection have the same keys, place by place. -/
theorem keys_eq_of_perm {r : κ → κ → Prop} [Std.Antisymm r] {l l' : List ι} (h : l.Perm l')
    (hl : l.Pairwise fun a b => r (key a) (key b))
    (hl' : l'.Pairwise fun a b => r (key a) (key b)) :
    l.map key = l'.map key :=
  List.Perm.eq_of_pairwise' (List.pairwise_map.mpr hl) (List.pairwise_map.mpr hl') (h.map key)

omit [LinearOrder κ] in
/-- A first place whose key nobody else has is the first place of every ranking
    of the collection. -/
theorem first_eq_of_perm {first first' : ι} {rest rest' : List ι}
    (h : (first :: rest).Perm (first' :: rest')) (hkey : key first = key first')
    (halone : ∀ x ∈ rest, key first ≠ key x) : first = first' := by
  have hmem : first' ∈ first :: rest := h.mem_iff.mpr List.mem_cons_self
  rcases List.mem_cons.mp hmem with heq | hrest
  · exact heq.symm
  · exact absurd hkey (halone first' hrest)

/-- Members whose keys differ have only one order. -/
theorem ascending_eq_of_perm {l l' : List ι} (h : l.Perm l')
    (hsorted : l'.Pairwise fun a b => key a ≤ key b)
    (hkey : ∀ a ∈ l', ∀ b ∈ l', key a = key b → a = b) : ascending key l = l' := by
  have hperm : (ascending key l).Perm l' := (List.perm_insertionSort _ l).trans h
  refine List.Perm.eq_of_pairwise ?_ (ascending_pairwise key l) hsorted hperm
  intro a b ha hb hab hba
  exact hkey a (hperm.mem_iff.mp ha) b hb (le_antisymm hab hba)

end Ranking

end MmrEngine
