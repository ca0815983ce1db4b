import Mathlib.Data.List.Basic

/-!
# Paging

A list read page by page, by a client that goes on until a page says it is the
last one or a limit of pages is reached.

`collect` is the loop. What it returns is known once each page is known to be
its stretch of a list, with the items the client keeps: as long as the pages
asked for can be had, the loop returns what is kept of the first stretches up
to the limit (`collect_of_pages`), and it fails as soon as one of them cannot
be had. Whether that is the whole list is a question about the list alone, and
`kept_take_eq_iff` answers it.

## Main definitions

* `collect`: The loop over pages.
* `stretch`: One page of a list.
* `Asked`: No page before this one said it was the last.

## Theorems

* `collect_of_pages`: What the loop returns, and when it fails.
* `kept_take_eq_iff`: When the first part of a selection holds all that counts.
-/

namespace MmrEngine

namespace Paging

variable {α ε : Type*}

/-- Read at most `n` pages from a page on; each says whether it is the last. -/
def collect (fetch : Nat → Except ε (List α × Bool)) :
    Nat → Nat → List α → Except ε (List α)
  | 0, _, results => .ok results
  | n + 1, page, results =>
    match fetch page with
    | .error e => .error e
    | .ok read =>
      if read.2 then .ok (results ++ read.1) else collect fetch n (page + 1) (results ++ read.1)

/-- The `k`-th page of a list, counted from zero. -/
def stretch (xs : List α) (size k : Nat) : List α := (xs.drop (k * size)).take size

theorem length_stretch (xs : List α) (size k : Nat) :
    (stretch xs size k).length = min size (xs.length - k * size) := by
  rw [stretch, List.length_take, List.length_drop]

/-- No page from the `k`-th up to the `j`-th is the last one. -/
def Asked (last : Nat → Bool) (k j : Nat) : Prop := ∀ i, k ≤ i → i < j → last i = false

/-- A stretch and the ones after it are one longer stretch. -/
theorem stretch_append_take (xs : List α) (size k n : Nat) :
    stretch xs size k ++ (xs.drop ((k + 1) * size)).take (n * size)
      = (xs.drop (k * size)).take ((n + 1) * size) := by
  have hdrop : (k + 1) * size = k * size + size := Nat.succ_mul k size
  have htake : (n + 1) * size = size + n * size := by
    rw [Nat.succ_mul, Nat.add_comm]
  rw [stretch, hdrop, htake, ← List.drop_drop, List.take_add]

section Collect

variable {fetch : Nat → Except ε (List α × Bool)} {xs : List α} {size : Nat} {keep : α → Bool}
  {last : Nat → Bool}

/-- Every page that can be had is its stretch of the list, as far as the client
    keeps it, and after the last one there is nothing. -/
structure Pages (fetch : Nat → Except ε (List α × Bool)) (xs : List α) (size : Nat)
    (keep : α → Bool) (last : Nat → Bool) : Prop where
  page : ∀ k, (∃ e, fetch (k + 1) = .error e) ∨
    fetch (k + 1) = .ok ((stretch xs size k).filter keep, last k)
  ended : ∀ k, last k = true → xs.length ≤ (k + 1) * size

/-- A page asked for that cannot be had, among the next `n`. -/
def Fails (fetch : Nat → Except ε (List α × Bool)) (last : Nat → Bool) (n k : Nat) : Prop :=
  ∃ j, k ≤ j ∧ j < k + n ∧ Asked last k j ∧ ∃ e, fetch (j + 1) = .error e

/-- Past a page that can be had and is not the last, the same pages are asked
    for. -/
theorem fails_succ {n k : Nat} (hread : ∀ e, fetch (k + 1) ≠ .error e) (hlast : last k = false) :
    Fails fetch last (n + 1) k ↔ Fails fetch last n (k + 1) := by
  constructor
  · intro h
    rcases h with ⟨j, hkj, hjn, hasked, e, he⟩
    have hne : j ≠ k := by
      intro hc
      rw [hc] at he
      exact hread e he
    exact ⟨j, by omega, by omega, fun i hi hij => hasked i (by omega) hij, e, he⟩
  · intro h
    rcases h with ⟨j, hkj, hjn, hasked, e, he⟩
    refine ⟨j, by omega, by omega, fun i hi hij => ?_, e, he⟩
    rcases Nat.eq_or_lt_of_le hi with heq | hlt
    · exact heq ▸ hlast
    · exact hasked i hlt hij

/-- The loop fails exactly where a page asked for cannot be had, and otherwise
    returns what is kept of the list up to the limit. -/
theorem collect_of_pages (h : Pages fetch xs size keep last) (n : Nat) :
    ∀ (k : Nat) (results : List α),
      (Fails fetch last n k ∧ ∃ e, collect fetch n (k + 1) results = .error e) ∨
        (¬ Fails fetch last n k ∧ collect fetch n (k + 1) results
          = .ok (results ++ ((xs.drop (k * size)).take (n * size)).filter keep)) := by
  induction n with
  | zero =>
      intro k results
      refine Or.inr ⟨?_, ?_⟩
      · rintro ⟨j, hkj, hjn, -⟩
        omega
      · rw [collect, Nat.zero_mul, List.take_zero, List.filter_nil, List.append_nil]
  | succ n ih =>
      intro k results
      rcases h.page k with ⟨e, he⟩ | hread
      · -- The page at hand cannot be had.
        refine Or.inl ⟨⟨k, Nat.le_refl _, by omega, fun i hi hik => absurd hik (by omega), e, he⟩,
          e, ?_⟩
        rw [collect, he]
      · have hok : ∀ e, fetch (k + 1) ≠ .error e := by
          intro e he
          rw [hread] at he
          cases he
        cases hlast : last k with
        | true =>
            refine Or.inr ⟨?_, ?_⟩
            · rintro ⟨j, hkj, -, hasked, e, he⟩
              rcases Nat.eq_or_lt_of_le hkj with heq | hlt
              · exact hok e (heq ▸ he)
              · rw [hasked k (Nat.le_refl _) hlt] at hlast
                cases hlast
            · -- Nothing comes after the last page.
              have hover : xs.drop ((k + 1) * size) = [] :=
                List.drop_eq_nil_of_le (h.ended k hlast)
              rw [collect, hread, ← stretch_append_take, hover, List.take_nil, List.append_nil]
              simp only [hlast, if_true]
        | false =>
            have hrest := ih (k + 1) (results ++ (stretch xs size k).filter keep)
            have hstep : collect fetch (n + 1) (k + 1) results
                = collect fetch n (k + 1 + 1) (results ++ (stretch xs size k).filter keep) := by
              rw [collect, hread]
              simp only [hlast, if_neg Bool.false_ne_true]
            rw [fails_succ hok hlast, hstep, ← stretch_append_take, List.filter_append,
              ← List.append_assoc]
            exact hrest

end Collect

/-- The first part of a selection holds everything that counts exactly when the
    selection leaves nothing of it out and nothing of it comes later. -/
theorem kept_take_eq_iff (xs : List α) (selects counts : α → Bool) (m : Nat) :
    ((xs.filter selects).take m).filter counts = xs.filter counts ↔
      (∀ x ∈ xs, counts x = true → selects x = true) ∧
        ∀ x ∈ (xs.filter selects).drop m, counts x = false := by
  have hsplit : ((xs.filter selects).take m).filter counts
      ++ ((xs.filter selects).drop m).filter counts = (xs.filter selects).filter counts := by
    rw [← List.filter_append, List.take_append_drop]
  have hboth : (xs.filter selects).filter counts = (xs.filter counts).filter selects := by
    rw [List.filter_filter, List.filter_filter]
    exact List.filter_congr fun x _ => Bool.and_comm _ _
  constructor
  · intro h
    -- What is selected and counts cannot be longer than what counts.
    have hshort : ((xs.filter counts).filter selects).length ≤ (xs.filter counts).length :=
      List.length_filter_le _ _
    have hlength := congrArg List.length hsplit
    rw [List.length_append, h, hboth] at hlength
    have hnone : ((xs.filter selects).drop m).filter counts = [] :=
      List.length_eq_zero_iff.mp (by omega)
    have hall : ((xs.filter counts).filter selects).length = (xs.filter counts).length := by omega
    refine ⟨fun x hx hcounts => ?_, fun x hx => ?_⟩
    · exact List.length_filter_eq_length_iff.mp hall x (List.mem_filter.mpr ⟨hx, hcounts⟩)
    · have hnot := List.filter_eq_nil_iff.mp hnone x hx
      simpa using hnot
  · rintro ⟨hselected, hlate⟩
    have hnone : ((xs.filter selects).drop m).filter counts = [] :=
      List.filter_eq_nil_iff.mpr fun x hx => by simp [hlate x hx]
    rw [hnone, List.append_nil] at hsplit
    rw [hsplit, hboth]
    refine List.filter_eq_self.mpr fun x hx => ?_
    rcases List.mem_filter.mp hx with ⟨hx, hcounts⟩
    exact hselected x hx hcounts

end Paging

end MmrEngine
