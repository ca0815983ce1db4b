import MmrEngine.Api.Transactions
import MmrEngine.Lib.Like

/-!
# The Global Search

`search`, as far as it finds transactions, and the pattern in which it and the
explorer look for the start of a reference.

The pattern is built by three replacements in turn and matched by `ILIKE`,
which folds the cases of both sides and leaves the metacharacters alone
(`CaseFold`). How a query is read as an id is given, as for the explorer.

## Main definitions

* `refPattern`: The pattern of the references that start with a text.
* `like`, `ilike`: The operators of the database.
* `SearchQuery`: A query of a length the endpoint accepts.
* `selectTransactions`, `searchTransactions`: What `search` selects and shows.
-/

namespace MmrEngine

namespace Search

open Gold GoldCalls Like Query Reconciliation

/-- The metacharacters of `LIKE`, with the escape character it has by default. -/
def likeCharacters : Metacharacters Char where
  escapeChar := '\\'
  many := '%'
  one := '_'
  escapeChar_ne_many := by decide
  escapeChar_ne_one := by decide
  many_ne_one := by decide

/-- `text.replace(old, new)`, where `old` is one character. -/
def replaceChar (text : String) (old : Char) (new : String) : String :=
  String.ofList (Like.replace old new.toList text.toList)

/-- `prefix` of `search` and `ref_prefix` of `list_transactions`. -/
def refPattern (term : String) : String :=
  replaceChar (replaceChar (replaceChar term '\\' "\\\\") '%' "\\%") '_' "\\_" ++ "%"

/-- `text LIKE pattern`. -/
def like (text pattern : String) : Option Bool :=
  likeCharacters.like text.toList pattern.toList

/-- `text ILIKE pattern`: both sides are folded first. -/
def ilike (f : CaseFold likeCharacters) (text pattern : String) : Option Bool :=
  likeCharacters.like (f.fold text.toList) (f.fold pattern.toList)

/-- The fold of a text. -/
def foldText (f : CaseFold likeCharacters) (text : String) : String :=
  String.ofList (f.fold text.toList)

/-- `Query(..., min_length=3, max_length=200)`. -/
structure SearchQuery where
  text : String
  min_length : 3 ≤ text.length
  max_length : text.length ≤ 200

def SEARCH_LIMIT : Nat := 20

section Search

variable [PyText] {T P : Type} [DecidableEq T]

/-- The transactions that meet the `WHERE` clause: by their id, or by the start
    of their reference. -/
def selectTransactions (readUuid : String → Option T) (f : CaseFold likeCharacters)
    (columns : Columns T P) (q : SearchQuery) (s : Tables T) : List (SilverRow T) :=
  let term := strip q.text
  let exactId := readUuid term
  let start := refPattern term
  s.silver.rows.filter fun r =>
    (exactId.any fun id => decide (r.id = id)) ||
      ilike f (columns.pspTransactionRef r.id) start == some true

/-- The ids shown, the latest first. -/
def searchTransactions (readUuid : String → Option T) (f : CaseFold likeCharacters)
    (columns : Columns T P) (q : SearchQuery) (s : Tables T) : List T :=
  let rows := selectTransactions readUuid f columns q s
  ((rows.mergeSort fun r r' =>
    decide (columns.initiatedAt r'.id ≤ columns.initiatedAt r.id)).take SEARCH_LIMIT).map
      SilverRow.id

end Search

end Search

end MmrEngine
