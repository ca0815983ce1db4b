import Mathlib.Data.List.Dedup
import Mathlib.Algebra.Order.Ring.Rat

/-!
# Name Tokens

How alike two counterparties' names are, compared through their keyed tokens.

A token stands for a word, so a list of them is read as a set. `None` and the
empty list both mean that the PSP sent no name.

## Main definitions

* `noName`: A side without a name.
* `nameTokenSimilarity`: The similarity of two token sets.
-/

namespace MmrEngine

namespace Pii

/-- `not tokens`. -/
def noName (tokens : Option (List String)) : Bool := (tokens.getD []).isEmpty

def nameTokenSimilarity (a b : Option (List String)) : Option ℚ :=
  if noName a || noName b then none
  else
    let setA := (a.getD []).dedup
    let setB := (b.getD []).dedup
    let overlap := (setA.filter (· ∈ setB)).length
    let shorter := min setA.length setB.length
    -- Banks drop middle names, so containment of two words or more is enough.
    if 2 ≤ shorter ∧ overlap = shorter then some 1
    else some (2 * overlap / (setA.length + setB.length))

end Pii

end MmrEngine
