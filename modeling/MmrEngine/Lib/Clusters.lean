import Mathlib.Data.List.NodupEquivFin
import Mathlib.Data.List.Pairwise
import Mathlib.Data.List.Sort
import Mathlib.Order.Fin.Basic

/-!
# Clusters

Whether some members of a list are close together, found by a window over the
sorted list.

Members are close when the first and the last of them are near each other, and
`near` may be any relation that holds between two members if it holds between
two others around them. A cluster that is spread over the sorted list then
leaves no window worse off: the window that begins where the cluster begins
ends no later than the cluster does.

## Main definitions

* `Cluster`: So many members that are near each other.
* `Window`: Neighbours in the list whose ends are near each other.

## Theorems

* `cluster_perm`: The order of the list does not matter.
* `window_iff_cluster`: A sorted list has one if and only if it has the other.
-/

namespace MmrEngine

namespace Clusters

variable {α : Type*}

/-- Some `n + 1` members, each near every other that is not before it. -/
def Cluster [LE α] (near : α → α → Prop) (n : Nat) (xs : List α) : Prop :=
  ∃ part : List α, part.Sublist xs ∧ part.length = n + 1 ∧ ∀ a ∈ part, ∀ b ∈ part, a ≤ b → near a b

/-- Some `n + 1` neighbours, the first near the last. -/
def Window (near : α → α → Prop) (n : Nat) (xs : List α) : Prop :=
  ∃ i, ∃ h : i + n < xs.length, near xs[i] xs[i + n]

/-- Members can be picked in any order. -/
theorem cluster_iff_subperm [LE α] (near : α → α → Prop) (n : Nat) (xs : List α) :
    Cluster near n xs ↔
      ∃ part : List α, part.Subperm xs ∧ part.length = n + 1 ∧
        ∀ a ∈ part, ∀ b ∈ part, a ≤ b → near a b := by
  constructor
  · rintro ⟨part, hsub, hlength, hnear⟩
    exact ⟨part, hsub.subperm, hlength, hnear⟩
  · rintro ⟨part, ⟨part', hperm, hsub⟩, hlength, hnear⟩
    refine ⟨part', hsub, hperm.length_eq.trans hlength, fun a ha b hb => ?_⟩
    exact hnear a (hperm.mem_iff.mp ha) b (hperm.mem_iff.mp hb)

theorem cluster_perm [LE α] (near : α → α → Prop) (n : Nat) {xs ys : List α} (h : xs.Perm ys) :
    Cluster near n xs ↔ Cluster near n ys := by
  rw [cluster_iff_subperm, cluster_iff_subperm]
  simp only [h.subperm_left]

/-- Places that only go up are at least as far apart as they are many. -/
theorem add_le_of_strictMono {n m : Nat} {f : Fin (n + 1) → Fin m} (hf : StrictMono f) :
    (f 0 : Nat) + n ≤ f (Fin.last n) := by
  have hsteps : ∀ k (hk : k < n + 1), (f 0 : Nat) + k ≤ f ⟨k, hk⟩ := by
    intro k
    induction k with
    | zero =>
        intro hk
        exact le_refl _
    | succ k ih =>
        intro hk
        have hlt : f ⟨k, by omega⟩ < f ⟨k + 1, hk⟩ := hf (Fin.mk_lt_mk.mpr (by omega))
        have hprev := ih (by omega)
        have hnat : (f ⟨k, by omega⟩ : Nat) < f ⟨k + 1, hk⟩ := hlt
        omega
  exact hsteps n (by omega)

section Sorted

variable [Preorder α] {near : α → α → Prop}

/-- The window that begins where a cluster does is within it. -/
theorem window_of_cluster (hnear : ∀ {a b c}, a ≤ b → b ≤ c → near a c → near a b) {n : Nat}
    {xs : List α} (hsorted : xs.Pairwise (· ≤ ·)) (h : Cluster near n xs) : Window near n xs := by
  rcases h with ⟨part, hsub, hlength, hpart⟩
  rcases List.sublist_iff_exists_fin_orderEmbedding_get_eq.mp hsub with ⟨f, hf⟩
  have hle : ∀ i j : Fin xs.length, i ≤ j → xs.get i ≤ xs.get j :=
    fun i j hij => hsorted.rel_get_of_le hij
  -- The places of the members, first and last.
  let place : Fin (n + 1) → Fin xs.length := fun k => f (Fin.cast hlength.symm k)
  have hplace : StrictMono place := fun i j hij => f.strictMono hij
  have hfar := add_le_of_strictMono hplace
  have hmem : ∀ k, xs.get (place k) ∈ part := fun k => by
    rw [← hf]
    exact List.get_mem _ _
  have hends : near (xs.get (place 0)) (xs.get (place (Fin.last n))) :=
    hpart _ (hmem _) _ (hmem _) (hle _ _ (hplace.monotone (Fin.zero_le _)))
  have hlast := (place (Fin.last n)).isLt
  refine ⟨place 0, by omega, ?_⟩
  refine hnear (hle (place 0) ⟨place 0 + n, by omega⟩ ?_)
    (hle ⟨place 0 + n, by omega⟩ (place (Fin.last n)) ?_) hends
  · exact Nat.le_add_right _ _
  · exact hfar

/-- The members of a window are a cluster. -/
theorem cluster_of_window
    (hnear : ∀ {a b c d}, a ≤ b → b ≤ c → c ≤ d → near a d → near b c) {n : Nat}
    {xs : List α} (hsorted : xs.Pairwise (· ≤ ·)) (h : Window near n xs) : Cluster near n xs := by
  rcases h with ⟨i, hi, hends⟩
  -- The window itself is the cluster.
  refine ⟨(xs.drop i).take (n + 1), (List.take_sublist _ _).trans (List.drop_sublist _ _), ?_, ?_⟩
  · rw [List.length_take, List.length_drop]
    omega
  · -- Each member is one of the places from the first to the last.
    have hplace : ∀ a ∈ (xs.drop i).take (n + 1), xs[i] ≤ a ∧ a ≤ xs[i + n] := by
      intro a ha
      rcases List.mem_iff_getElem.mp ha with ⟨k, hk, rfl⟩
      rw [List.length_take, List.length_drop] at hk
      rw [List.getElem_take, List.getElem_drop]
      constructor
      · exact hsorted.rel_get_of_le (a := ⟨i, by omega⟩) (b := ⟨i + k, by omega⟩)
          (Nat.le_add_right _ _)
      · refine hsorted.rel_get_of_le (a := ⟨i + k, by omega⟩) (b := ⟨i + n, hi⟩) ?_
        exact Nat.add_le_add_left (by omega) _
    intro a ha b hb hab
    exact hnear (hplace a ha).1 hab (hplace b hb).2 hends

theorem window_iff_cluster
    (hnear : ∀ {a b c d}, a ≤ b → b ≤ c → c ≤ d → near a d → near b c) {n : Nat}
    {xs : List α} (hsorted : xs.Pairwise (· ≤ ·)) : Window near n xs ↔ Cluster near n xs := by
  constructor
  · exact cluster_of_window hnear hsorted
  · exact window_of_cluster (fun hab hbc hac => hnear (le_refl _) hab hbc hac) hsorted

end Sorted

end Clusters

end MmrEngine
