import MmrEngine.Api.Search

/-!
# A Reference Query Is a Literal Prefix

What the pattern of `search` and of the explorer matches.

Escaping makes every character of the query stand for itself, the `%` behind it
matches any rest, and nothing is left for the escape character to dangle from.
So the pattern matches what starts with the query, whatever metacharacters the
query holds, and `ILIKE` what starts with it up to case.

## Theorems

* `toList_refPattern`: The pattern is an escaped text and `%`.
* `ilike_refPattern`: Matching it is comparing the start.
* `reference_query_literal`: What it is read as, and what it matches.
-/

namespace MmrEngine

namespace Search

open Like Transactions

theorem toList_refPattern (term : String) : (refPattern term).toList =
    likeCharacters.escape term.toList ++ [likeCharacters.many] := by
  simp only [refPattern, replaceChar, String.toList_append, String.toList_ofList]
  rfl

/-- The pattern, read: the characters of the query and a final wildcard. -/
theorem tokens_refPattern (term : String) : likeCharacters.tokens (refPattern term).toList =
    some (term.toList.map Token.lit ++ [Token.many]) := by
  rw [toList_refPattern, Metacharacters.tokens_escape_many]

theorem like_refPattern (term text : String) :
    like text (refPattern term) = some (term.toList.isPrefixOf text.toList) := by
  rw [like, toList_refPattern, Metacharacters.like_escape]

/-- Folded, it matches what starts with the query up to case. -/
theorem ilike_refPattern (f : CaseFold likeCharacters) (term text : String) :
    ilike f text (refPattern term) = some (ilikeStart (foldText f) term text) := by
  rw [ilike, toList_refPattern, f.fold_escape_many, Metacharacters.like_escape, ilikeStart,
    foldText, foldText, String.toList_ofList, String.toList_ofList]

/-- The pattern of a query has no wildcard but the one at its end and no
    dangling escape; `LIKE` matches the references that start with the query, and
    `ILIKE` those whose case fold starts with that of the query. -/
theorem reference_query_literal (p : String) :
    likeCharacters.tokens (refPattern p).toList
      = some (p.toList.map Token.lit ++ [Token.many]) ∧
    (∀ r, ∃ b, like r (refPattern p) = some b ∧ (b = true ↔ p.toList <+: r.toList)) ∧
    ∀ (f : CaseFold likeCharacters) (r : String), ∃ b, ilike f r (refPattern p) = some b ∧
      (b = true ↔ (foldText f p).toList <+: (foldText f r).toList) := by
  refine ⟨tokens_refPattern p, fun r => ⟨_, like_refPattern p r, ?_⟩,
    fun f r => ⟨_, ilike_refPattern f p r, ?_⟩⟩
  · exact List.isPrefixOf_iff_prefix
  · exact List.isPrefixOf_iff_prefix

/-- The three replacements one after another, on each metacharacter. -/
example : refPattern "a\\%_" = "a\\\\\\%\\_%" := by decide

end Search

end MmrEngine
