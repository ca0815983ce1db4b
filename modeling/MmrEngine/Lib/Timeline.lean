import Mathlib.Data.List.Sort
import Mathlib.Order.Basic

/-!
# Timelines

Values that replace each other over time, each valid from its own start until
the start of the next, the last one without an end.

In such a list every instant from the first start on is covered by exactly one
value, and it is the last one that had started by then
(`exists_covering`, `covering_unique`). The list stays gapless when a new value
is put at its end and ends what was open, if it starts later than that did
(`gapless_extend`).

Starts grow strictly, so the list is the only one of its values that is ordered
by start (`gapless_of_perm`).

## Main definitions

* `Gapless`: Each value ends where the next one starts, and the last is open.
* `Covers`: A value is valid at an instant.

## Theorems

* `gapless_extend`: A new value at the end.
* `gapless_sorted`: Starts grow strictly.
* `gapless_of_perm`: Any order by start is the order of the list.
* `exists_covering`, `covering_unique`: One value covers an instant.
* `open_eq_last`: The one open value is the last.
-/

namespace MmrEngine

namespace Timeline

variable {α τ : Type*} [LinearOrder τ] {start : α → τ} {stop : α → Option τ}

/-- Each value ends where the next one starts, and the last one is open. -/
def Gapless (start : α → τ) (stop : α → Option τ) : List α → Prop
  | [] => True
  | [a] => stop a = none
  | a :: b :: rest => stop a = some (start b) ∧ start a < start b ∧ Gapless start stop (b :: rest)

/-- The value is valid at the instant. -/
def Covers (start : α → τ) (stop : α → Option τ) (a : α) (t : τ) : Prop :=
  start a ≤ t ∧ ∀ u, stop a = some u → t < u

theorem gapless_tail {a : α} {l : List α} (h : Gapless start stop (a :: l)) :
    Gapless start stop l := by
  cases l with
  | nil => trivial
  | cons b l => exact h.2.2

theorem gapless_head_lt {a : α} {l : List α} (h : Gapless start stop (a :: l)) :
    ∀ b ∈ l, start a < start b := by
  induction l generalizing a with
  | nil => simp
  | cons b l ih =>
      intro c hc
      rcases List.mem_cons.mp hc with rfl | htail
      · exact h.2.1
      · exact h.2.1.trans (ih h.2.2 c htail)

/-- Starts grow strictly. -/
theorem gapless_sorted {l : List α} (h : Gapless start stop l) :
    l.Pairwise fun a b => start a < start b := by
  induction l with
  | nil => exact List.Pairwise.nil
  | cons a l ih => exact List.Pairwise.cons (gapless_head_lt h) (ih (gapless_tail h))

/-- A start is that of one value. -/
theorem eq_of_start {l : List α} (h : Gapless start stop l) {a b : α} (ha : a ∈ l) (hb : b ∈ l)
    (heq : start a = start b) : a = b := by
  induction l with
  | nil => cases ha
  | cons c l ih =>
      have hlt := gapless_head_lt h
      rcases List.mem_cons.mp ha with rfl | hatail
      · rcases List.mem_cons.mp hb with rfl | hbtail
        · rfl
        · exact absurd heq (ne_of_lt (hlt b hbtail))
      · rcases List.mem_cons.mp hb with rfl | hbtail
        · exact absurd heq.symm (ne_of_lt (hlt a hatail))
        · exact ih (gapless_tail h) hatail hbtail

/-- Another order of the values by start is the same order. -/
theorem gapless_of_perm {l l' : List α} (h : Gapless start stop l) (hperm : l'.Perm l)
    (hsorted : l'.Pairwise fun a b => start a ≤ start b) : l' = l := by
  refine hperm.eq_of_pairwise (fun a b ha hb hab hba => ?_) hsorted
    ((gapless_sorted h).imp fun hlt => hlt.le)
  exact eq_of_start h (hperm.mem_iff.mp ha) hb (le_antisymm hab hba)

/-- A new value at the end, which starts after what was open and ends it. -/
theorem gapless_extend {l : List α} (h : Gapless start stop l) {n : α} {f : α → α}
    (hstart : ∀ a ∈ l, start (f a) = start a)
    (hended : ∀ a ∈ l, ∀ u, stop a = some u → stop (f a) = some u)
    (hopen : ∀ a ∈ l, stop a = none → stop (f a) = some (start n) ∧ start a < start n)
    (hn : stop n = none) : Gapless start stop (l.map f ++ [n]) := by
  induction l with
  | nil => exact hn
  | cons a l ih =>
      have hrest := ih (gapless_tail h) (fun b hb => hstart b (List.mem_cons_of_mem _ hb))
        (fun b hb => hended b (List.mem_cons_of_mem _ hb))
        (fun b hb => hopen b (List.mem_cons_of_mem _ hb))
      cases l with
      | nil =>
          -- The one value there was is open.
          rcases hopen a List.mem_cons_self h with ⟨hstop, hlt⟩
          refine ⟨hstop, ?_, hn⟩
          rw [hstart a List.mem_cons_self]
          exact hlt
      | cons b l =>
          have hb := hstart b (List.mem_cons_of_mem _ List.mem_cons_self)
          refine ⟨?_, ?_, hrest⟩
          · rw [hb]
            exact hended a List.mem_cons_self _ h.1
          · rw [hb, hstart a List.mem_cons_self]
            exact h.2.1

/-- From the first start on every instant is covered, by the last value that has
    started. -/
theorem exists_covering {l : List α} (h : Gapless start stop l) {t : τ} {a : α} (ha : a ∈ l)
    (hstarted : start a ≤ t) :
    ∃ c ∈ l, Covers start stop c t ∧ ∀ b ∈ l, start b ≤ t → start b ≤ start c := by
  induction l generalizing a with
  | nil => cases ha
  | cons b l ih =>
      by_cases hlater : ∃ c ∈ l, start c ≤ t
      · rcases hlater with ⟨c, hc, hle⟩
        rcases ih (gapless_tail h) hc hle with ⟨d, hd, hcovers, hlast⟩
        refine ⟨d, List.mem_cons_of_mem _ hd, hcovers, fun x hx hxt => ?_⟩
        rcases List.mem_cons.mp hx with rfl | htail
        · exact (gapless_head_lt h d hd).le
        · exact hlast x htail hxt
      · -- Nothing after the first has started, so the first is the one.
        have hfirst : a = b := by
          rcases List.mem_cons.mp ha with rfl | htail
          · rfl
          · exact absurd ⟨a, htail, hstarted⟩ hlater
        rw [← hfirst] at h ⊢
        refine ⟨a, List.mem_cons_self, ⟨hstarted, fun u hu => ?_⟩, fun x hx hxt => ?_⟩
        · cases l with
          | nil =>
              rw [show stop a = none from h] at hu
              cases hu
          | cons c l =>
              rw [h.1, Option.some.injEq] at hu
              rw [← hu]
              exact lt_of_not_ge fun hle => hlater ⟨c, List.mem_cons_self, hle⟩
        · rcases List.mem_cons.mp hx with rfl | htail
          · exact le_refl _
          · exact absurd ⟨x, htail, hxt⟩ hlater

/-- A value that covers an instant is the last that has started. -/
theorem covering_last {l : List α} (h : Gapless start stop l) {t : τ} {c b : α} (hc : c ∈ l)
    (hb : b ∈ l) (hcovers : Covers start stop c t) (hstarted : start b ≤ t) :
    start b ≤ start c := by
  induction l with
  | nil => cases hc
  | cons a l ih =>
      rcases List.mem_cons.mp hc with rfl | hctail
      · rcases List.mem_cons.mp hb with rfl | hbtail
        · exact le_refl _
        · -- The next value starts where `c` ends, so nothing after it has started.
          cases l with
          | nil => cases hbtail
          | cons d l =>
              have hend := hcovers.2 (start d) h.1
              have hle : start d ≤ start b := by
                rcases List.mem_cons.mp hbtail with rfl | hmem
                · exact le_refl _
                · exact (gapless_head_lt h.2.2 b hmem).le
              exact absurd (hstarted.trans_lt hend) (not_lt.mpr hle)
      · rcases List.mem_cons.mp hb with rfl | hbtail
        · exact (gapless_head_lt h c hctail).le
        · exact ih (gapless_tail h) hctail hbtail

/-- No two values cover one instant. -/
theorem covering_unique {l : List α} (h : Gapless start stop l) {t : τ} {a b : α} (ha : a ∈ l)
    (hb : b ∈ l) (hca : Covers start stop a t) (hcb : Covers start stop b t) : a = b :=
  eq_of_start h ha hb
    (le_antisymm (covering_last h hb ha hcb hca.1) (covering_last h ha hb hca hcb.1))

/-- The open values are the last one, or none where there is none. -/
theorem open_eq_last {l : List α} (h : Gapless start stop l) :
    (l.filter fun a => (stop a).isNone) = l.getLast?.toList := by
  induction l with
  | nil => rfl
  | cons a l ih =>
      cases l with
      | nil => simp [show stop a = none from h]
      | cons b l =>
          have hrest := ih (gapless_tail h)
          rw [List.filter_cons_of_neg (by simp [h.1]), hrest, List.getLast?_cons_cons]

/-- The last value has started after all others. -/
theorem getLast?_latest {l : List α} (h : Gapless start stop l) {a : α} (ha : l.getLast? = some a) :
    ∀ b ∈ l, start b ≤ start a := by
  induction l with
  | nil => simp
  | cons c l ih =>
      intro b hb
      cases l with
      | nil =>
          simp only [List.getLast?_singleton, Option.some.injEq] at ha
          rw [List.mem_singleton.mp hb, ha]
      | cons d l =>
          rw [List.getLast?_cons_cons] at ha
          have hrest := ih (gapless_tail h) ha
          rcases List.mem_cons.mp hb with rfl | htail
          · exact h.2.1.le.trans (hrest d List.mem_cons_self)
          · exact hrest b htail

end Timeline

end MmrEngine
