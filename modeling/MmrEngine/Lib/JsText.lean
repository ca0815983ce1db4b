import Mathlib.Data.List.DropRight

/-!
# JavaScript Texts

Trimming, of texts of characters and of texts of UTF-16 code units.

The characters that are trimmed are all in the basic plane, so a text is trimmed
in the same way whichever it is made of; `space` says of its members which ones
go.

## Main definitions

* `whiteSpace`: What is trimmed, by code.
* `trim`: `String.prototype.trim`.

## Theorems

* `exists_trim`: What was around a trimmed text.
* `trim_append`: What is around a text without white space is all that goes.
* `dropWhile_of_prefix`: A trimmed front stays so when the end is cut.
-/

namespace MmrEngine

namespace JsText

/-- White space and line terminators, by code. -/
def whiteSpace (code : Nat) : Bool :=
  [9, 10, 11, 12, 13, 32, 160, 5760, 8192, 8193, 8194, 8195, 8196, 8197, 8198, 8199, 8200, 8201,
    8202, 8232, 8233, 8239, 8287, 12288, 65279].contains code

variable {α : Type*} {space : α → Bool}

/-- `String.prototype.trim`. -/
def trim (space : α → Bool) (text : List α) : List α := (text.dropWhile space).rdropWhile space

theorem exists_trim (space : α → Bool) (text : List α) :
    ∃ lead trail, text = lead ++ (trim space text ++ trail) ∧
    (∀ c ∈ lead, space c = true) ∧ ∀ c ∈ trail, space c = true := by
  refine ⟨text.takeWhile space, (text.dropWhile space).rtakeWhile space, ?_, ?_, ?_⟩
  · rw [trim, List.rdropWhile_append_rtakeWhile, List.takeWhile_append_dropWhile]
  · exact fun c hc => List.mem_takeWhile_imp hc
  · exact fun c hc => List.mem_rtakeWhile_imp hc

/-- Without white space in it a text is all that is left of it and white space
    around it. -/
theorem trim_append {lead text trail : List α} (hlead : ∀ c ∈ lead, space c = true)
    (htrail : ∀ c ∈ trail, space c = true) (htext : ∀ c ∈ text, space c = false)
    (hne : text ≠ []) : trim space (lead ++ (text ++ trail)) = text := by
  have hfirst : ∀ l : List α, l ≠ [] → (∀ c ∈ l, space c = false) → ∀ rest,
      (l ++ rest).dropWhile space = l ++ rest := by
    intro l hl hspace rest
    cases l with
    | nil => exact absurd rfl hl
    | cons c l => exact List.dropWhile_cons_of_neg (by simp [hspace c List.mem_cons_self])
  have hlast := hfirst text.reverse (by simpa using hne) (by simpa using htext) []
  rw [List.append_nil] at hlast
  rw [trim, List.dropWhile_append_of_pos hlead, hfirst text hne htext, List.rdropWhile,
    List.reverse_append, List.dropWhile_append_of_pos (by simpa using htrail), hlast,
    List.reverse_reverse]

/-- A trimmed front stays so when the end is cut. -/
theorem dropWhile_of_prefix {text cut : List α} (h : cut <+: text.dropWhile space) :
    cut.dropWhile space = cut := by
  rcases h with ⟨rest, hrest⟩
  cases cut with
  | nil => rfl
  | cons c cut =>
      by_cases hspace : space c = true
      · -- What is left by `dropWhile` does not begin with white space.
        have hidem := List.dropWhile_idempotent space text
        rw [← hrest, List.cons_append, List.dropWhile_cons_of_pos hspace] at hidem
        have hlength := (List.dropWhile_sublist space (l := cut ++ rest)).length_le
        rw [hidem, List.length_cons] at hlength
        omega
      · exact List.dropWhile_cons_of_neg hspace

end JsText

end MmrEngine
