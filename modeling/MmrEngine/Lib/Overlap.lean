import Mathlib.Algebra.Order.Field.Basic
import Mathlib.Algebra.Order.Ring.Rat
import Mathlib.Data.Finset.Card
import Mathlib.Tactic.Ring

/-!
# The Overlap of Two Sets

How alike two finite sets are: the Dice coefficient, except that a set of two
or more members that lies within the other counts as equal to it. Sets without
members are alike to nothing.

The coefficient only counts, so it does not see what the members are: an
injection takes two sets to two that are exactly as alike.

## Main definitions

* `coefficient`: The coefficient, with the exception, of three counts.
* `similarity`: The coefficient of two sets.

## Theorems

* `similarity_eq_none_iff`: Which sets have none.
* `similarity_comm`: It does not matter which set comes first.
* `similarity_mem`: It is between 0 and 1.
* `similarity_eq_zero_iff`: 0 means disjoint.
* `similarity_eq_one_iff`: 1 means equal, or contained in the exceptional way.
* `similarity_image`: Injections keep it.
-/

namespace MmrEngine

namespace Overlap

variable {α : Type*} [DecidableEq α]

/-- The coefficient of sets of so many members, so many of them common. -/
def coefficient (m n common : Nat) : Option ℚ :=
  if m = 0 ∨ n = 0 then none
  else if 2 ≤ min m n ∧ common = min m n then some 1
  else some (2 * common / (m + n))

/-- The similarity of two sets. -/
def similarity (A B : Finset α) : Option ℚ := coefficient A.card B.card (A ∩ B).card

variable {A B : Finset α} {x : ℚ}

theorem coefficient_comm (m n common : Nat) : coefficient m n common = coefficient n m common := by
  unfold coefficient
  rw [min_comm, add_comm (m : ℚ)]
  simp only [or_comm]

theorem coefficient_eq_none_iff {m n common : Nat} :
    coefficient m n common = none ↔ m = 0 ∨ n = 0 := by
  unfold coefficient
  by_cases h : m = 0 ∨ n = 0
  · rw [if_pos h]
    exact ⟨fun _ => h, fun _ => rfl⟩
  · rw [if_neg h]
    split <;> simp only [reduceCtorEq, h]

theorem similarity_eq_none_iff : similarity A B = none ↔ A = ∅ ∨ B = ∅ := by
  rw [similarity, coefficient_eq_none_iff, Finset.card_eq_zero, Finset.card_eq_zero]

theorem similarity_comm (A B : Finset α) : similarity A B = similarity B A := by
  rw [similarity, similarity, Finset.inter_comm, coefficient_comm]

/-- The two ways a similarity comes about. -/
theorem similarity_cases (h : similarity A B = some x) :
    A.Nonempty ∧ B.Nonempty ∧
      ((2 ≤ min A.card B.card ∧ (A ∩ B).card = min A.card B.card ∧ x = 1) ∨
        (¬ (2 ≤ min A.card B.card ∧ (A ∩ B).card = min A.card B.card) ∧
          x = 2 * (A ∩ B).card / (A.card + B.card))) := by
  unfold similarity coefficient at h
  by_cases hempty : A.card = 0 ∨ B.card = 0
  · rw [if_pos hempty] at h
    cases h
  · rw [if_neg hempty] at h
    rw [not_or] at hempty
    refine ⟨Finset.card_ne_zero.mp hempty.1, Finset.card_ne_zero.mp hempty.2, ?_⟩
    by_cases hin : 2 ≤ min A.card B.card ∧ (A ∩ B).card = min A.card B.card
    · rw [if_pos hin] at h
      exact Or.inl ⟨hin.1, hin.2, (Option.some.inj h).symm⟩
    · rw [if_neg hin] at h
      exact Or.inr ⟨hin, (Option.some.inj h).symm⟩

/-- The intersection has as many members as one of the sets exactly if that one
    is contained in the other. -/
theorem card_inter_eq_left_iff : (A ∩ B).card = A.card ↔ A ⊆ B := by
  constructor
  · intro h
    have heq : A ∩ B = A :=
      Finset.eq_of_subset_of_card_le Finset.inter_subset_left (le_of_eq h.symm)
    exact Finset.inter_eq_left.mp heq
  · intro h
    rw [Finset.inter_eq_left.mpr h]

theorem card_inter_eq_min_iff :
    (A ∩ B).card = min A.card B.card ↔ A ⊆ B ∨ B ⊆ A := by
  have hA : (A ∩ B).card ≤ A.card := Finset.card_le_card Finset.inter_subset_left
  have hB : (A ∩ B).card ≤ B.card := Finset.card_le_card Finset.inter_subset_right
  constructor
  · intro h
    rcases le_total A.card B.card with hle | hle
    · rw [min_eq_left hle] at h
      exact Or.inl (card_inter_eq_left_iff.mp h)
    · rw [min_eq_right hle, Finset.inter_comm] at h
      exact Or.inr (card_inter_eq_left_iff.mp h)
  · intro h
    rcases h with h | h
    · rw [card_inter_eq_left_iff.mpr h, min_eq_left (Finset.card_le_card h)]
    · rw [Finset.inter_comm, card_inter_eq_left_iff.mpr h, min_eq_right (Finset.card_le_card h)]

theorem similarity_mem (h : similarity A B = some x) : 0 ≤ x ∧ x ≤ 1 := by
  rcases similarity_cases h with ⟨hA, _, ⟨_, _, rfl⟩ | ⟨_, rfl⟩⟩
  · exact ⟨zero_le_one, le_refl 1⟩
  · have hAB : (A ∩ B).card ≤ A.card := Finset.card_le_card Finset.inter_subset_left
    have hBA : (A ∩ B).card ≤ B.card := Finset.card_le_card Finset.inter_subset_right
    have hpos : (0 : ℚ) < A.card + B.card := by
      exact_mod_cast Nat.add_pos_left hA.card_pos _
    have hle : (2 * (A ∩ B).card : ℚ) ≤ A.card + B.card := by
      exact_mod_cast (by omega : 2 * (A ∩ B).card ≤ A.card + B.card)
    constructor
    · exact div_nonneg (by exact_mod_cast Nat.zero_le _) (le_of_lt hpos)
    · rw [div_le_one hpos]
      exact hle

theorem similarity_eq_zero_iff (h : similarity A B = some x) : x = 0 ↔ Disjoint A B := by
  rw [Finset.disjoint_iff_inter_eq_empty, ← Finset.card_eq_zero]
  rcases similarity_cases h with ⟨hA, _, ⟨htwo, hcard, rfl⟩ | ⟨_, rfl⟩⟩
  · constructor
    · intro h1
      exact absurd h1 one_ne_zero
    · intro h0
      omega
  · have hpos : (0 : ℚ) < A.card + B.card := by
      exact_mod_cast Nat.add_pos_left hA.card_pos _
    rw [div_eq_zero_iff, or_iff_left (ne_of_gt hpos), mul_eq_zero,
      or_iff_right two_ne_zero, Nat.cast_eq_zero]

theorem similarity_eq_one_iff (h : similarity A B = some x) :
    x = 1 ↔ A = B ∨ (2 ≤ A.card ∧ A ⊆ B) ∨ (2 ≤ B.card ∧ B ⊆ A) := by
  have hAB : (A ∩ B).card ≤ A.card := Finset.card_le_card Finset.inter_subset_left
  have hBA : (A ∩ B).card ≤ B.card := Finset.card_le_card Finset.inter_subset_right
  rcases similarity_cases h with ⟨hA, _, ⟨htwo, hcard, rfl⟩ | ⟨hnot, rfl⟩⟩
  · refine ⟨fun _ => ?_, fun _ => rfl⟩
    rcases card_inter_eq_min_iff.mp hcard with hsub | hsub
    · exact Or.inr (Or.inl ⟨le_trans htwo (min_le_left _ _), hsub⟩)
    · exact Or.inr (Or.inr ⟨le_trans htwo (min_le_right _ _), hsub⟩)
  · have hpos : (0 : ℚ) < A.card + B.card := by
      exact_mod_cast Nat.add_pos_left hA.card_pos _
    rw [div_eq_one_iff_eq (ne_of_gt hpos)]
    constructor
    · intro heq
      have hcount : 2 * (A ∩ B).card = A.card + B.card := by exact_mod_cast heq
      -- No set has more members than the intersection.
      have hsub : A ⊆ B := card_inter_eq_left_iff.mp (by omega)
      exact Or.inl (Finset.eq_of_subset_of_card_le hsub (by omega))
    · intro hwithin
      rcases hwithin with rfl | ⟨htwo, hsub⟩ | ⟨htwo, hsub⟩
      · rw [Finset.inter_self]
        ring
      · have hle := Finset.card_le_card hsub
        exact absurd ⟨by rw [min_eq_left hle]; exact htwo,
          card_inter_eq_min_iff.mpr (Or.inl hsub)⟩ hnot
      · have hle := Finset.card_le_card hsub
        exact absurd ⟨by rw [min_eq_right hle]; exact htwo,
          card_inter_eq_min_iff.mpr (Or.inr hsub)⟩ hnot

/-- Only the numbers of members count. -/
theorem similarity_image {β : Type*} [DecidableEq β] {f : α → β}
    (hf : Set.InjOn f (A ∪ B : Finset α)) :
    similarity (A.image f) (B.image f) = similarity A B := by
  have hA : (A.image f).card = A.card :=
    Finset.card_image_of_injOn (hf.mono (Finset.coe_subset.mpr Finset.subset_union_left))
  have hB : (B.image f).card = B.card :=
    Finset.card_image_of_injOn (hf.mono (Finset.coe_subset.mpr Finset.subset_union_right))
  have hAB : (A.image f ∩ B.image f).card = (A ∩ B).card := by
    rw [← Finset.image_inter_of_injOn A B (by rw [← Finset.coe_union]; exact hf)]
    exact Finset.card_image_of_injOn (hf.mono (Finset.coe_subset.mpr
      (Finset.inter_subset_left.trans Finset.subset_union_left)))
  rw [similarity, similarity, hA, hB, hAB]

end Overlap

end MmrEngine
