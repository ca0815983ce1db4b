import MmrEngine.Core.Datetime
import MmrEngine.Engine.CanonicalRecord
import MmrEngine.Lib.Paging

/-!
# Polling the PSPs

The two API clients that list the successful transactions of a stretch of
time, as backfills and gap detection use them.

A response is whatever JSON the server sends, and the clients take it apart the
way Python does: a body that is no object has no `get`, `data` may be missing,
and `total_pages` may be anything. A request that raises, because the
connection failed, the status was an error or the body was no JSON, raises out
of the whole listing.

Paystack filters by the instants of the window and is asked until a page is
short. Flutterwave filters by its dates and says how many pages there are, and
the client trims the items to the window. Both give up after `maxPages` pages,
with a warning in the log.

## Main definitions

* `PollError`: What a listing raises.
* `Request`, `Api`: A request, and a server that answers or does not.
* `Paystack.listTransactions`, `Paystack.listAllSuccessful`.
* `Flutterwave.createdAt`, `Flutterwave.trim`, `Flutterwave.totalPages`,
  `Flutterwave.listAllSuccessful`.
-/

namespace MmrEngine

namespace Polling

open Paging Datetime

/-- What a listing raises. -/
inductive PollError where
  | request
  | raised (e : PyError)
  | valueError
  | overflowError
  deriving DecidableEq, Repr

/-- The parameters of a `GET` of transactions. -/
structure Request where
  status : String
  from_ : String
  to_ : String
  perPage : Option Nat
  page : Nat
  deriving DecidableEq, Repr

/-- What a request gets: a body, or something is raised. -/
abbrev Api := Request → Except PollError Json

/-- `MAX_PAGES`. -/
def maxPages : Nat := 200

/-- What iterating over a value yields; what has no length raises. -/
def iterate : Json → Except PollError (List Json)
  | .arr xs => .ok xs
  | .str s => .ok (s.toList.map fun c => .str (String.ofList [c]))
  | .obj fields => .ok (fields.map fun field => .str field.1)
  | _ => .error (.raised .typeError)

/-- `value.get(key)`. -/
def attr (value : Json) (key : String) : Except PollError Json :=
  (value.attr key).mapError .raised

namespace Paystack

/-- `list_transactions`, of successful transactions. -/
def listTransactions (api : Api) (fromDate toDate : String) (perPage page : Nat) :
    Except PollError (List Json) := do
  let data ← api { status := "success", from_ := fromDate, to_ := toDate,
                   perPage := some perPage, page := page }
  match data.asDict with
  | none => throw (.raised .attributeError)
  | some fields =>
    match fields.lookup "data" with
    | none => throw (.raised (.keyError "data"))
    | some batch => iterate batch

def pageSize : Nat := 100

/-- One page of `list_all_successful`: a short one is the last. -/
def readPage (api : Api) (since until_ : Datetime) (page : Nat) :
    Except PollError (List Json × Bool) := do
  let batch ← listTransactions api (strftimeSecond since) (strftimeSecond until_) pageSize page
  return (batch, batch.length < pageSize)

def listAllSuccessful (api : Api) (since until_ : Datetime) : Except PollError (List Json) :=
  collect (readPage api since until_) maxPages 1 []

end Paystack

/-- The library, with `int` of a text. -/
class PollingLibrary extends PyLibrary where
  intOf : String → Option ℤ

namespace Flutterwave

section Trim

variable [PyLibrary]

/-- The instant of `created_at`, if there is one: a value that is no timestamp
    with an offset raises. -/
def createdAt (tx : Json) : Except PollError (Option ℤ) := do
  let created ← attr tx "created_at"
  if created.truthy = false then return none
  else
    match PyLibrary.fromIsoFormat (Canonical.replaceZ created.toStr) with
    | none => throw .valueError
    | some ts =>
      match ts.utcOffset with
      | none => throw (.raised .typeError)
      | some offset => return some (ts.wallClock - offset)

/-- `since <= created_at <= until`. -/
def within (since until_ : Datetime) (t : ℤ) : Bool := since.instant ≤ t && t ≤ until_.instant

/-- The items that were created in the window. -/
def trim (since until_ : Datetime) : List Json → Except PollError (List Json)
  | [] => .ok []
  | tx :: rest => do
    let created ← createdAt tx
    let kept ← trim since until_ rest
    return if created.any (within since until_) then tx :: kept else kept

end Trim

variable [PollingLibrary]

/-- `int(value)`. -/
def pyInt : Json → Except PollError ℤ
  | .bool b => .ok (if b then 1 else 0)
  | .int n => .ok n
  | .float (.finite neg m e) =>
    let size : ℤ := if 0 ≤ e then m * 2 ^ e.toNat else m / 2 ^ (-e).toNat
    .ok (if neg then -size else size)
  | .float .nan => .error .valueError
  | .float (.inf _) => .error .overflowError
  | .str s =>
    match PollingLibrary.intOf s with
    | none => .error .valueError
    | some n => .ok n
  | _ => .error (.raised .typeError)

/-- `int(((body.get("meta") or {}).get("page_info") or {}).get("total_pages") or 1)`. -/
def totalPages (body : Json) : Except PollError ℤ := do
  let metadata ← attr body "meta"
  let pageInfo ← attr (metadata.orElse (.obj [])) "page_info"
  let total ← attr (pageInfo.orElse (.obj [])) "total_pages"
  pyInt (total.orElse (.int 1))

/-- One page of `list_all_successful`, trimmed to the window. -/
def readPage (api : Api) (since until_ : Datetime) (page : Nat) :
    Except PollError (List Json × Bool) := do
  let body ← api { status := "successful", from_ := strftimeDate since,
                   to_ := strftimeDate until_, perPage := none, page := page }
  let data ← attr body "data"
  let items ← iterate (data.orElse (.arr []))
  let kept ← trim since until_ items
  let total ← totalPages body
  return (kept, total ≤ page)

def listAllSuccessful (api : Api) (since until_ : Datetime) : Except PollError (List Json) :=
  collect (readPage api since until_) maxPages 1 []

end Flutterwave

end Polling

end MmrEngine
