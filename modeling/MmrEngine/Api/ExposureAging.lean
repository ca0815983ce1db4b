import MmrEngine.Api.Reconciliation
import MmrEngine.Lib.Tally

/-!
# The Age of the Open Exposure

`/exposure/aging`: the open exposure by the age of the discrepancies, overall
and by PSP.

The query groups by PSP and age; a loop then adds every group to the buckets of
its PSP and to the overall ones. Nothing is rounded before it is shown.

## Main definitions

* `AgeBucket`, `AGING_BUCKETS`: The buckets.
* `agingRows`: The groups of the query.
* `accumulate`: The loop.
* `getExposureAging`: The endpoint.
-/

namespace MmrEngine

namespace Reconciliation

open Discrepancy Gold GoldCalls Query

/-- The name of a bucket: `0-1d`, `1-3d`, `3-7d` or `7d+`. -/
inductive AgeBucket where
  | upToOneDay
  | oneToThreeDays
  | threeToSevenDays
  | sevenDaysOn
  deriving DecidableEq, Repr

def AgeBucket.name : AgeBucket → String
  | .upToOneDay => "0-1d"
  | .oneToThreeDays => "1-3d"
  | .threeToSevenDays => "3-7d"
  | .sevenDaysOn => "7d+"

def AGING_BUCKETS : List AgeBucket :=
  [.upToOneDay, .oneToThreeDays, .threeToSevenDays, .sevenDaysOn]

/-- The `CASE` of the query, on `NOW() - d.raised_at`. -/
def ageBucket (age : ℤ) : AgeBucket :=
  if age < hours 24 then .upToOneDay
  else if age < hours 72 then .oneToThreeDays
  else if age < hours 168 then .threeToSevenDays
  else .sevenDaysOn

/-- One row of the query. -/
structure AgingRow (P : Type) where
  pspName : P
  bucket : AgeBucket
  n : Nat
  exposure : ℚ

/-- One bucket, as it is added up. -/
structure Bucket where
  count : Nat
  exposure : ℚ

/-- A bucket for each name. -/
abbrev Buckets := AgeBucket → Bucket

/-- `empty()`. -/
def emptyBuckets : Buckets := fun _ => { count := 0, exposure := 0 }

/-- `target[bucket]["count"] += n; target[bucket]["exposure"] += exposure`. -/
def Buckets.add {P : Type} (target : Buckets) (r : AgingRow P) : Buckets :=
  Function.update target r.bucket
    { count := (target r.bucket).count + r.n
      exposure := (target r.bucket).exposure + r.exposure }

/-- A bucket, as it is shown. -/
structure RenderedBucket where
  bucket : String
  count : Nat
  exposureNgn : ℚ

def render (buckets : Buckets) : List RenderedBucket :=
  AGING_BUCKETS.map fun b =>
    { bucket := b.name
      count := (buckets b).count
      exposureNgn := money (buckets b).exposure }

/-- The accumulators of the loop. -/
structure Accumulated (P : Type) where
  overall : Buckets
  perPsp : OrderedDict P Buckets

structure ExposureAging (P : Type) where
  buckets : List RenderedBucket
  byPsp : List (P × List RenderedBucket)
  generatedAt : ℤ

section Aging

variable {T P : Type} [DecidableEq T]

/-- The groups of the query, by PSP and bucket. -/
def agingRows [DecidableEq P] (columns : Columns T P) (now : ℤ) (s : Tables T) :
    List (AgingRow P) :=
  let joined := innerJoin (fun d r => decide (d.2.transactionId = r.id)) s.discrepancies.rows
    s.silver.rows
  let openRows := joined.filter fun r => unresolved r.1.2.row.status
  let groups := groupBy
    (fun r => (columns.pspName r.2.id, ageBucket (now - columns.raisedAt r.1.1))) openRows
  groups.map fun g =>
    { pspName := g.1.1
      bucket := g.1.2
      n := g.2.length
      exposure := totalOver (fun r => r.1.2.row.estimatedExposureNgn) g.2 }

/-- The loop: each row is added to both targets, that of its PSP being
    `per_psp.setdefault(psp_name, empty())`. -/
def accumulate [DecidableEq P] (rows : List (AgingRow P)) : Accumulated P :=
  rows.foldl (fun acc r =>
    { overall := acc.overall.add r
      perPsp := OrderedDict.tally AgingRow.pspName emptyBuckets Buckets.add acc.perPsp r })
    { overall := emptyBuckets, perPsp := OrderedDict.empty }

def getExposureAging [LinearOrder P] (columns : Columns T P) (now : ℤ) (s : Tables T) :
    ExposureAging P :=
  let acc := accumulate (agingRows columns now s)
  { buckets := render acc.overall
    -- `sorted(per_psp.items())`: no two PSPs are the same, so the name decides.
    byPsp := (Ranking.ascending Prod.fst acc.perPsp.entries).map fun e => (e.1, render e.2)
    generatedAt := now }

end Aging

end Reconciliation

end MmrEngine
