import Mathlib.Data.List.Chain

/-!
# Journals of Status Changes

A record that keeps its current status and, beside it, the list of the changes
that led there. Each entry says which status it found and which it left;
finding none means that there was no record yet.

`replay` runs the entries from a status and fails where an entry did not find
what the entries before it left. A journal is right about its record when
replaying it from nothing ends in the record's status, and that one equation
is all a proof about a journal has to keep: the shape of the journal, link by
link, is read off it afterwards.

## Main definitions

* `replay`: The status a journal leads to, if its entries fit together.

## Theorems

* `replay_append`: A journal replays piece by piece.
* `replay_concat`: One more entry.
* `replay_head`: The first entry found what the replay started from.
* `replay_isChain`: Every entry found what the one before it left.
* `replay_getLast`: The last entry left what the journal leads to.
-/

namespace MmrEngine

namespace Journal

variable {ε σ : Type*} [DecidableEq σ] (source : ε → Option σ) (target : ε → σ)

/-- The status reached from `cur`; `none` where an entry does not fit. -/
def replay : Option σ → List ε → Option (Option σ)
  | cur, [] => some cur
  | cur, e :: es => if source e = cur then replay (some (target e)) es else none

theorem replay_append (cur : Option σ) (xs ys : List ε) :
    replay source target cur (xs ++ ys)
      = (replay source target cur xs).bind fun mid => replay source target mid ys := by
  induction xs generalizing cur with
  | nil => rfl
  | cons x xs ih =>
      simp only [List.cons_append, replay]
      by_cases hx : source x = cur
      · rw [if_pos hx, if_pos hx, ih]
      · rw [if_neg hx, if_neg hx, Option.bind_none]

variable {source target}

/-- An entry that finds what the journal leads to extends it. -/
theorem replay_concat {cur : Option σ} {xs : List ε} {e : ε}
    (h : replay source target cur xs = some (source e)) :
    replay source target cur (xs ++ [e]) = some (some (target e)) := by
  rw [replay_append, h, Option.bind_some]
  simp only [replay, if_true]

theorem replay_head {cur : Option σ} {e : ε} {es : List ε} {st : Option σ}
    (h : replay source target cur (e :: es) = some st) :
    source e = cur ∧ replay source target (some (target e)) es = some st := by
  simp only [replay] at h
  by_cases he : source e = cur
  · rw [if_pos he] at h
    exact ⟨he, h⟩
  · rw [if_neg he] at h
    cases h

theorem replay_isChain {cur : Option σ} {es : List ε} {st : Option σ}
    (h : replay source target cur es = some st) :
    es.IsChain (fun e e' => source e' = some (target e)) := by
  induction es generalizing cur with
  | nil => exact List.isChain_nil
  | cons e es ih =>
      rcases replay_head h with ⟨_, hrest⟩
      cases es with
      | nil => exact List.isChain_singleton e
      | cons e' es' => exact List.IsChain.cons_cons (replay_head hrest).1 (ih hrest)

theorem replay_getLast {cur : Option σ} {es : List ε} {st : σ} (hne : es ≠ [])
    (h : replay source target cur es = some (some st)) :
    ∃ e, es.getLast? = some e ∧ target e = st := by
  induction es generalizing cur with
  | nil => exact absurd rfl hne
  | cons e es ih =>
      rcases replay_head h with ⟨_, hrest⟩
      cases es with
      | nil =>
          refine ⟨e, rfl, ?_⟩
          exact Option.some.inj (Option.some.inj hrest)
      | cons e' es' =>
          rcases ih (List.cons_ne_nil e' es') hrest with ⟨last, hlast, ht⟩
          exact ⟨last, by rw [List.getLast?_cons_cons, hlast], ht⟩

end Journal

end MmrEngine
