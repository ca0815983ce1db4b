import Mathlib.Data.List.Basic

/-!
# Framing with a Separator

A text held between two others by a separator, and what the written form still
says about the three.

The two outer parts are free of the separator and the one in the middle need
not be, so cutting at every separator does not give the parts back. They are
found from the two ends instead: the head stops at the first separator
(`head_of_separator`), the tail begins after the last one
(`tail_of_separator`), and the middle is what is left. Neither lemma asks
anything of the other side of its separator, which is what lets the two be
applied one after the other.

Nothing here is about characters. The alphabet is any type.

## Main definitions

* `Framed`: Three parts, the outer ones free of the separator.
* `Framed.write`: The parts with a separator after each of the first two.

## Theorems

* `head_of_separator`, `tail_of_separator`: What stands before the first separator of a
  text, and after the last.
* `Framed.write_injective`: The written form determines the parts.
-/

namespace MmrEngine

namespace Framing

variable {α : Type*} {sep : α}

/-- A list determines what precedes its first separator. -/
theorem head_of_separator {p p' x x' : List α} (hp : sep ∉ p) (hp' : sep ∉ p')
    (h : p ++ sep :: x = p' ++ sep :: x') : p = p' ∧ x = x' := by
  induction p generalizing p' with
  | nil =>
      cases p' with
      | nil => exact ⟨rfl, by simpa only [List.nil_append, List.cons.injEq, true_and] using h⟩
      | cons c cs =>
          -- The first character would be the separator and a character of `p'`.
          simp only [List.nil_append, List.cons_append, List.cons.injEq] at h
          exact absurd (List.mem_cons.mpr (Or.inl h.1)) hp'
  | cons c cs ih =>
      cases p' with
      | nil =>
          simp only [List.nil_append, List.cons_append, List.cons.injEq] at h
          exact absurd (List.mem_cons.mpr (Or.inl h.1.symm)) hp
      | cons d ds =>
          simp only [List.cons_append, List.cons.injEq] at h
          have hcs : sep ∉ cs := fun hm => hp (List.mem_cons_of_mem _ hm)
          have hds : sep ∉ ds := fun hm => hp' (List.mem_cons_of_mem _ hm)
          rcases ih hcs hds h.2 with ⟨h1, h2⟩
          exact ⟨by rw [h.1, h1], h2⟩

/-- The last separator of a text determines what follows it. -/
theorem tail_of_separator {p p' x x' : List α} (hx : sep ∉ x) (hx' : sep ∉ x')
    (h : p ++ sep :: x = p' ++ sep :: x') : p = p' ∧ x = x' := by
  have hrev := congrArg List.reverse h
  simp only [List.reverse_append, List.reverse_cons, List.append_assoc, List.cons_append,
    List.nil_append] at hrev
  have hne : sep ∉ x.reverse := fun hm => hx (List.mem_reverse.mp hm)
  have hne' : sep ∉ x'.reverse := fun hm => hx' (List.mem_reverse.mp hm)
  rcases head_of_separator hne hne' hrev with ⟨h1, h2⟩
  exact ⟨List.reverse_injective h2, List.reverse_injective h1⟩

/-- Three parts to be written with a separator between them. -/
@[ext] structure Framed (sep : α) where
  head : List α
  body : List α
  tail : List α
  head_free : sep ∉ head
  tail_free : sep ∉ tail

def Framed.write (f : Framed sep) : List α := f.head ++ sep :: (f.body ++ sep :: f.tail)

/-- The parts can be told from what is written, however many separators the
    body brings. -/
theorem Framed.write_injective : Function.Injective (@Framed.write α sep) := by
  intro f g h
  rcases head_of_separator f.head_free g.head_free h with ⟨hhead, hrest⟩
  -- What follows the head ends with the tail, and only the tail is free of separators.
  rcases tail_of_separator f.tail_free g.tail_free hrest with ⟨hbody, htail⟩
  ext1
  · exact hhead
  · exact hbody
  · exact htail

end Framing

end MmrEngine
