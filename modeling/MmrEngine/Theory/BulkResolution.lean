import MmrEngine.Flows.GoldCalls

/-!
# Bulk Resolution, One by One

Closing many discrepancies with two array statements leaves what closing each
of them by its own call leaves, in whatever order.

Each side is a loop or a statement over a whole table, and what they have in
common is what becomes of one row: `closedView` closes an open discrepancy and
leaves a closed one alone. `view` is a row with its times and the ids of its
events left out, and the two halves of the argument say that either way of
closing takes the view of every id to the closed view, if the id is asked for,
and leaves it alone otherwise. The order of the calls does not matter because
a call changes no other view, and neither does an id asked for twice.

The report is a partition of the ids by what the table says of them before the
call, which is also what a single call answers by.

## Main definitions

* `timeless`, `view`: A row without its times and the ids of its events.
* `closedView`: What becomes of a row that is asked to be closed.
* `resolveEach`: A call of `resolve_discrepancy` for each id.

## Theorems

* `view_resolveDiscrepancy`, `view_resolveEach`: What single calls leave.
* `view_bulkResolveStatements`: What the statements leave.
* `bulkResolveStatements_eq`: In the order of the ids they are the call.
* `bulk_is_one_by_one`: Both ways leave the same, and report the same.
-/

namespace MmrEngine

namespace GoldCalls

open Discrepancy Gold

/-- An event without its id and its time. -/
def timelessEvent (e : DiscrepancyEvent) : DiscrepancyEvent := { e with id := 0, occurredAt := 0 }

/-- A row without its times and the ids of its events. -/
def timeless (d : DiscrepancyRow) : DiscrepancyRow :=
  { d with resolvedAt := d.resolvedAt.map fun _ => 0, events := d.events.map timelessEvent }

/-- A row after it was asked to be closed. -/
def closedView (req : Closing) (d : DiscrepancyRow) : DiscrepancyRow :=
  if d.status.closed then d else timeless (closeDiscrepancy req d.status 0 0 d)

/-- Neither the time nor the id of the event shows. -/
theorem timeless_closeDiscrepancy (req : Closing) (now : ℤ) (e : Nat) (d : DiscrepancyRow) :
    timeless (closeDiscrepancy req d.status e now d)
      = timeless (closeDiscrepancy req (timeless d).status 0 0 (timeless d)) := by
  simp [timeless, closeDiscrepancy, closingEvent, timelessEvent]

@[simp] theorem status_timeless (d : DiscrepancyRow) : (timeless d).status = d.status := rfl

theorem closedView_timeless_of_open {req : Closing} {d : DiscrepancyRow}
    (h : d.status.closed = false) (now : ℤ) (e : Nat) :
    closedView req (timeless d) = timeless (closeDiscrepancy req d.status e now d) := by
  rw [closedView, status_timeless, h, if_neg Bool.false_ne_true,
    timeless_closeDiscrepancy req now e d]
  rfl

theorem closedView_timeless_of_closed {req : Closing} {d : DiscrepancyRow}
    (h : d.status.closed = true) : closedView req (timeless d) = timeless d :=
  if_pos h

/-- Asking twice closes once. -/
theorem closedView_closedView (req : Closing) (d : DiscrepancyRow) :
    closedView req (closedView req d) = closedView req d := by
  by_cases h : d.status.closed = true
  · simp [closedView, h]
  · have hclosed : (closedView req d).status.closed = true := by
      rw [closedView, if_neg h]
      exact req.outcome.status_closed
    rw [closedView, if_pos hclosed]

section View

variable {T : Type}

/-- What an id gets, without times and the ids of events. -/
def view (s : Tables T) (id : Nat) : Option (DiscrepancyRecord T) :=
  (s.discrepancies.get? id).map (DiscrepancyRecord.update timeless)

/-- The status an id has, if it is there. -/
def statusOf (s : Tables T) (id : Nat) : Option DiscrepancyStatus :=
  (s.discrepancies.get? id).map fun d => d.row.status

theorem statusOf_eq_view (s : Tables T) (id : Nat) :
    statusOf s id = (view s id).map fun d => d.row.status := by
  rw [view, Option.map_map]
  rfl

/-- An answer of `resolve_discrepancy`, by the status it finds. -/
def answerFor (status : Option DiscrepancyStatus) (id : Nat) (req : Closing) :
    Except ResolveError (Nat × Outcome) :=
  match status with
  | none => .error .notFound
  | some status => if status.closed then .error (.alreadyClosed status) else .ok (id, req.outcome)

/-- A call of `resolve_discrepancy` for each id, each at its own time. -/
def resolveEach (req : Closing) (order : List (ℤ × Nat)) (s : Tables T) : Tables T :=
  order.foldl (fun s call => (resolveDiscrepancy call.1 call.2 req s).1) s

theorem resolveDiscrepancy_answer (now : ℤ) (id : Nat) (req : Closing) (s : Tables T) :
    (resolveDiscrepancy now id req s).2 = answerFor (statusOf s id) id req := by
  unfold resolveDiscrepancy statusOf answerFor
  cases s.discrepancies.get? id with
  | none => rfl
  | some d =>
      simp only [Option.map_some]
      split
      · rfl
      · rfl

theorem view_closeAt (now : ℤ) (req : Closing) (id : Nat) (s : Tables T) (i : Nat) :
    view (closeAt now req id s) i
      = if i = id then (s.discrepancies.get? i).map (DiscrepancyRecord.update fun d =>
          timeless (closeDiscrepancy req d.status s.nextEvent now d))
        else view s i := by
  have hget := SerialTable.get?_modifyAt s.discrepancies id
    (DiscrepancyRecord.update fun d => closeDiscrepancy req d.status s.nextEvent now d)
    (DiscrepancyRecord.key_update _) i
  rw [view, closeAt, hget]
  by_cases h : i = id
  · rw [if_pos h, if_pos h, Option.map_map]
    rfl
  · rw [if_neg h, if_neg h, view]

/-- A call closes its own discrepancy if it is open, and no other. -/
theorem view_resolveDiscrepancy (now : ℤ) (id : Nat) (req : Closing) (s : Tables T) (i : Nat) :
    view (resolveDiscrepancy now id req s).1 i
      = if i = id then (view s i).map (DiscrepancyRecord.update (closedView req))
        else view s i := by
  unfold resolveDiscrepancy
  cases hget : s.discrepancies.get? id with
  | none =>
      by_cases h : i = id
      · rw [if_pos h, view, h, hget]
        rfl
      · rw [if_neg h]
  | some d =>
      cases hclosed : d.row.status.closed with
      | true =>
          -- A 409 leaves the row as it is.
          simp only [hclosed, if_true]
          by_cases h : i = id
          · rw [if_pos h, view, h, hget]
            simp [DiscrepancyRecord.update, closedView_timeless_of_closed hclosed]
          · rw [if_neg h]
      | false =>
          simp only [hclosed, if_neg Bool.false_ne_true]
          rw [view_closeAt]
          by_cases h : i = id
          · rw [if_pos h, if_pos h, view, h, hget]
            simp [DiscrepancyRecord.update,
              closedView_timeless_of_open hclosed now s.nextEvent]
          · rw [if_neg h, if_neg h]

/-- What the calls leave: every id asked for closed, if it was there and open. -/
theorem view_resolveEach (req : Closing) (order : List (ℤ × Nat)) (s : Tables T) (i : Nat) :
    view (resolveEach req order s) i
      = if i ∈ order.map Prod.snd then
          (view s i).map (DiscrepancyRecord.update (closedView req))
        else view s i := by
  induction order generalizing s with
  | nil => rfl
  | cons call order ih =>
      have hfirst := view_resolveDiscrepancy call.1 call.2 req s i
      have hrest := ih (resolveDiscrepancy call.1 call.2 req s).1
      have hsplit : resolveEach req (call :: order) s
          = resolveEach req order (resolveDiscrepancy call.1 call.2 req s).1 := rfl
      rw [hsplit, hrest, hfirst, List.map_cons]
      by_cases hcall : i = call.2
      · by_cases hmore : i ∈ order.map Prod.snd
        · -- Asked for again: closed already.
          rw [if_pos hmore, if_pos hcall, if_pos (List.mem_cons_of_mem _ hmore), Option.map_map]
          congr 1
          funext d
          simp [DiscrepancyRecord.update, closedView_closedView]
        · rw [if_neg hmore, if_pos hcall, if_pos (List.mem_cons.mpr (Or.inl hcall))]
      · by_cases hmore : i ∈ order.map Prod.snd
        · rw [if_pos hmore, if_neg hcall, if_pos (List.mem_cons_of_mem _ hmore)]
        · have hnot : i ∉ call.2 :: order.map Prod.snd := by
            rw [List.mem_cons]
            exact fun h => h.elim hcall hmore
          rw [if_neg hmore, if_neg hcall, if_neg hnot]

/-! ### The statements -/

/-- The two statements close the rows of the ids and leave the others alone. -/
theorem get?_statements (now : ℤ) (req : Closing) (ids scan : List Nat) (s : Tables T) (i : Nat) :
    (closeRows now req ids (insertClosingEvents now req ids scan s)).discrepancies.get? i
      = (s.discrepancies.get? i).map (DiscrepancyRecord.update fun d =>
          if i ∈ ids then closeDiscrepancy req d.status (s.nextEvent + scan.idxOf i) now d
          else d) := by
  rw [closeRows, SerialTable.get?_modifyRows, insertClosingEvents, SerialTable.get?_modifyRows,
    Option.map_map]
  congr 1
  funext d
  by_cases h : i ∈ ids
  · simp [DiscrepancyRecord.update, closeDiscrepancy, h]
  · simp [DiscrepancyRecord.update, h]

/-- The ids that are there and not closed, as the first statement finds them. -/
def closableIds (ids : List Nat) (s : Tables T) : List Nat :=
  ids.dedup.mergeSort.filter fun id => (statusOf s id).any fun status => !status.closed

theorem mem_closableIds {ids : List Nat} {s : Tables T} {id : Nat} :
    id ∈ closableIds ids s ↔
      id ∈ ids ∧ ∃ status, statusOf s id = some status ∧ status.closed = false := by
  rw [closableIds, List.mem_filter, List.mem_mergeSort, List.mem_dedup]
  refine and_congr_right fun _ => ?_
  cases statusOf s id with
  | none => simp
  | some status => simp

theorem bulkResolveStatements_resolved (now : ℤ) (ids : List Nat) (req : Closing)
    (scan : List Nat) (s : Tables T) :
    (bulkResolveStatements now ids req scan s).2.1 = closableIds ids s := rfl

theorem mem_skipped {now : ℤ} {ids : List Nat} {req : Closing} {scan : List Nat} {s : Tables T}
    {entry : Nat × SkipReason} :
    entry ∈ (bulkResolveStatements now ids req scan s).2.2 ↔
      entry.1 ∈ ids ∧ entry.1 ∉ closableIds ids s ∧
        entry.2 = if statusOf s entry.1 = none then .notFound else .alreadyClosed := by
  have hskipped : (bulkResolveStatements now ids req scan s).2.2
      = (ids.dedup.mergeSort.filter fun id => id ∉ closableIds ids s).map fun id =>
          (id, if (statusOf s id).isNone then .notFound else .alreadyClosed) := rfl
  rw [hskipped, List.mem_map]
  constructor
  · intro h
    rcases h with ⟨id, hid, rfl⟩
    rw [List.mem_filter, List.mem_mergeSort, List.mem_dedup] at hid
    exact ⟨hid.1, by simpa using hid.2, by simp⟩
  · intro h
    rcases h with ⟨hids, hopen, hreason⟩
    refine ⟨entry.1, ?_, Prod.ext rfl ?_⟩
    · rw [List.mem_filter, List.mem_mergeSort, List.mem_dedup]
      exact ⟨hids, by simpa using hopen⟩
    · rw [hreason]
      simp

/-- What the statements leave: every id asked for closed, if it was there and
    open. -/
theorem view_bulkResolveStatements (now : ℤ) (ids : List Nat) (req : Closing) (scan : List Nat)
    (s : Tables T) (i : Nat) :
    view (bulkResolveStatements now ids req scan s).1 i
      = if i ∈ ids then (view s i).map (DiscrepancyRecord.update (closedView req))
        else view s i := by
  have htables : view (bulkResolveStatements now ids req scan s).1 i
      = view (closeRows now req (closableIds ids s)
          (insertClosingEvents now req (closableIds ids s) scan s)) i := by
    have hfst : (bulkResolveStatements now ids req scan s).1
        = if closableIds ids s = [] then s
          else closeRows now req (closableIds ids s)
            (insertClosingEvents now req (closableIds ids s) scan s) := rfl
    rw [hfst]
    by_cases hnone : closableIds ids s = []
    · -- Without an id the statements would change nothing.
      rw [if_pos hnone, hnone, view, view, get?_statements, Option.map_map]
      congr 1
    · rw [if_neg hnone]
  rw [htables, view, get?_statements, Option.map_map, view, Option.map_map]
  cases hget : s.discrepancies.get? i with
  | none => simp
  | some d =>
      have hstatus : statusOf s i = some d.row.status := by
        rw [statusOf, hget]
        rfl
      by_cases hids : i ∈ ids
      · rw [if_pos hids]
        cases hclosed : d.row.status.closed with
        | true =>
            have hnot : i ∉ closableIds ids s := by
              simp [mem_closableIds, hstatus, hclosed]
            simp [DiscrepancyRecord.update, hnot, closedView_timeless_of_closed hclosed]
        | false =>
            have hin : i ∈ closableIds ids s := mem_closableIds.mpr ⟨hids, _, hstatus, hclosed⟩
            simp [DiscrepancyRecord.update, hin,
              closedView_timeless_of_open hclosed now (s.nextEvent + scan.idxOf i)]
      · have hnot : i ∉ closableIds ids s := fun h => hids (mem_closableIds.mp h).1
        simp [DiscrepancyRecord.update, hids, hnot]

/-! ### The call -/

/-- Closing ids one after another numbers their events in this order. -/
theorem closeAll_rows (now : ℤ) (req : Closing) (ids : List Nat) :
    ∀ s : Tables T, ids.Nodup →
      (closeAll now req ids s).discrepancies.rows
        = s.discrepancies.rows.map fun r => (r.1, r.2.update fun d =>
            if r.1 ∈ ids then closeDiscrepancy req d.status (s.nextEvent + ids.idxOf r.1) now d
            else d) := by
  induction ids with
  | nil =>
      intro s _
      exact (List.map_id _).symm
  | cons id ids ih =>
      intro s hnodup
      rw [List.nodup_cons] at hnodup
      have hsplit : closeAll now req (id :: ids) s
          = closeAll now req ids (closeAt now req id s) := rfl
      have hfirst : (closeAt now req id s).discrepancies.rows
          = s.discrepancies.rows.map fun r => if r.1 = id then
              (r.1, r.2.update fun d => closeDiscrepancy req d.status s.nextEvent now d) else r :=
        rfl
      rw [hsplit, ih _ hnodup.2, hfirst, List.map_map]
      refine List.map_congr_left fun r _ => ?_
      rw [Function.comp_apply]
      by_cases h : r.1 = id
      · -- The first id is not among the others.
        have hnot : r.1 ∉ ids := h ▸ hnodup.1
        have hin : r.1 ∈ id :: ids := List.mem_cons.mpr (Or.inl h)
        have hidx : (id :: ids).idxOf r.1 = 0 := by
          rw [h]
          exact List.idxOf_cons_self
        simp only [if_pos h, DiscrepancyRecord.update, if_neg hnot, if_pos hin, hidx, Nat.add_zero]
      · have hidx : (id :: ids).idxOf r.1 = ids.idxOf r.1 + 1 :=
          List.idxOf_cons_ne _ fun hc => h hc.symm
        have hnext : (closeAt now req id s).nextEvent + ids.idxOf r.1
            = s.nextEvent + (ids.idxOf r.1 + 1) := by
          rw [closeAt]
          simp only []
          omega
        have hiff : r.1 ∈ id :: ids ↔ r.1 ∈ ids := by simp [h]
        simp only [if_neg h, DiscrepancyRecord.update, hnext, hidx, hiff]

theorem closeAll_next (now : ℤ) (req : Closing) (ids : List Nat) (s : Tables T) :
    (closeAll now req ids s).silver = s.silver ∧ (closeAll now req ids s).pairs = s.pairs ∧
      (closeAll now req ids s).matched = s.matched ∧
      (closeAll now req ids s).discrepancies.next = s.discrepancies.next ∧
      (closeAll now req ids s).nextEvent = s.nextEvent + ids.length := by
  induction ids generalizing s with
  | nil => exact ⟨rfl, rfl, rfl, rfl, rfl⟩
  | cons id ids ih =>
      rcases ih (closeAt now req id s) with ⟨hsilver, hpairs, hmatched, hnext, hevent⟩
      refine ⟨hsilver, hpairs, hmatched, hnext, hevent.trans ?_⟩
      rw [List.length_cons, closeAt]
      simp only []
      omega

/-- In the order of the ids the statements are the closings one after another. -/
theorem statements_eq_closeAll (now : ℤ) (req : Closing) {ids : List Nat} (hnodup : ids.Nodup)
    (s : Tables T) :
    closeRows now req ids (insertClosingEvents now req ids ids s) = closeAll now req ids s := by
  rcases closeAll_next now req ids s with ⟨hsilver, hpairs, hmatched, hnext, hevent⟩
  -- An event is appended first and the row closed by the other statement.
  have hrows : (closeRows now req ids
      (insertClosingEvents now req ids ids s)).discrepancies.rows
        = (closeAll now req ids s).discrepancies.rows := by
    have htwice : (closeRows now req ids
        (insertClosingEvents now req ids ids s)).discrepancies.rows
          = (insertClosingEvents now req ids ids s).discrepancies.rows.map _ := rfl
    have honce : (insertClosingEvents now req ids ids s).discrepancies.rows
        = s.discrepancies.rows.map _ := rfl
    rw [closeAll_rows now req ids s hnodup, htwice, honce, List.map_map]
    refine List.map_congr_left fun r _ => ?_
    by_cases h : r.1 ∈ ids
    · simp [DiscrepancyRecord.update, closeDiscrepancy, h]
    · simp [DiscrepancyRecord.update, h]
  have hdiscrepancies : (closeRows now req ids
      (insertClosingEvents now req ids ids s)).discrepancies
        = (closeAll now req ids s).discrepancies := SerialTable.ext_rows hrows hnext.symm
  -- The other tables and the event counter end the same.
  cases hfinal : closeAll now req ids s with
  | mk silver pairs matched discrepancies nextEvent =>
      rw [hfinal] at hsilver hpairs hmatched hevent hdiscrepancies
      simp only at hsilver hpairs hmatched hevent hdiscrepancies
      rw [hsilver, hpairs, hmatched, hevent, ← hdiscrepancies]
      rfl

theorem closable_eq (s : Tables T) (id : Nat) :
    closable s id = (statusOf s id).any fun status => !status.closed := by
  unfold closable statusOf
  cases s.discrepancies.get? id with
  | none => rfl
  | some d => rfl

theorem closableIds_nodup (ids : List Nat) (s : Tables T) : (closableIds ids s).Nodup :=
  ((List.mergeSort_perm _ _).nodup_iff.mpr (List.nodup_dedup ids)).filter _

/-- The statements, with the rows coming out in the order of the ids, are the
    call. -/
theorem bulkResolveStatements_eq (now : ℤ) (ids : List Nat) (req : Closing) (s : Tables T) :
    bulkResolveStatements now ids req (closableIds ids s) s
      = bulkResolveDiscrepancies now ids req s := by
  have hids : closableIds ids s = ids.dedup.mergeSort.filter fun id => closable s id :=
    List.filter_congr fun id _ => (closable_eq s id).symm
  -- The statements are not issued for an empty list.
  have htables : (bulkResolveStatements now ids req (closableIds ids s) s).1
      = closeAll now req (closableIds ids s) s := by
    have hfst : (bulkResolveStatements now ids req (closableIds ids s) s).1
        = if closableIds ids s = [] then s
          else closeRows now req (closableIds ids s)
            (insertClosingEvents now req (closableIds ids s) (closableIds ids s) s) := rfl
    rw [hfst, statements_eq_closeAll now req (closableIds_nodup ids s)]
    split
    · next hnone =>
        rw [hnone]
        rfl
    · rfl
  -- The ids that are left are looked up one by one, as the call does.
  have hskipped : (bulkResolveStatements now ids req (closableIds ids s) s).2.2
      = (bulkResolveDiscrepancies now ids req s).2.2 := by
    have hleft : (bulkResolveStatements now ids req (closableIds ids s) s).2.2
        = (ids.dedup.mergeSort.filter fun id => id ∉ closableIds ids s).map fun id =>
            (id, if (statusOf s id).isNone then .notFound else .alreadyClosed) := rfl
    rw [hleft, hids]
    refine List.map_congr_left fun id _ => ?_
    rw [statusOf, Option.isNone_map]
  refine Prod.ext ?_ (Prod.ext ?_ hskipped)
  · rw [htables, hids]
    rfl
  · rw [bulkResolveStatements_resolved, hids]
    rfl

/-- The answer to a call is not changed by calls for other ids before it. -/
theorem answer_after (req : Closing) {before : List (ℤ × Nat)} {call : ℤ × Nat}
    (hnew : call.2 ∉ before.map Prod.snd) (s : Tables T) :
    (resolveDiscrepancy call.1 call.2 req (resolveEach req before s)).2
      = answerFor (statusOf s call.2) call.2 req := by
  rw [resolveDiscrepancy_answer, statusOf_eq_view, view_resolveEach, if_neg hnew,
    ← statusOf_eq_view]

theorem answerFor_eq_notFound {status : Option DiscrepancyStatus} {id : Nat} {req : Closing} :
    answerFor status id req = .error .notFound ↔ status = none := by
  cases status with
  | none => exact iff_of_true rfl rfl
  | some status =>
      unfold answerFor
      cases h : status.closed with
      | true => simp [h]
      | false => simp [h]

theorem answerFor_eq_alreadyClosed {status : Option DiscrepancyStatus} {id : Nat}
    {req : Closing} :
    (∃ found, answerFor status id req = .error (.alreadyClosed found)) ↔
      ∃ found, status = some found ∧ found.closed = true := by
  cases status with
  | none => simp [answerFor]
  | some status =>
      unfold answerFor
      cases h : status.closed with
      | true => simp [h]
      | false => simp [h]

/-- An id is skipped for the reason a single call would be refused for. -/
theorem skipped_iff {now : ℤ} {ids : List Nat} {req : Closing} {scan : List Nat} {s : Tables T}
    {id : Nat} (hid : id ∈ ids) :
    ((id, .notFound) ∈ (bulkResolveStatements now ids req scan s).2.2 ↔
        answerFor (statusOf s id) id req = .error .notFound) ∧
      ((id, .alreadyClosed) ∈ (bulkResolveStatements now ids req scan s).2.2 ↔
        ∃ status, answerFor (statusOf s id) id req = .error (.alreadyClosed status)) := by
  rw [mem_skipped, mem_skipped, answerFor_eq_notFound, answerFor_eq_alreadyClosed,
    mem_closableIds]
  cases hstatus : statusOf s id with
  | none => simp [hid]
  | some status => simp [hid]

/-- The report: no id twice, and each id asked for either resolved or skipped. -/
theorem report_partition (now : ℤ) (ids : List Nat) (req : Closing) (scan : List Nat)
    (s : Tables T) :
    (bulkResolveStatements now ids req scan s).2.1.Nodup ∧
      ((bulkResolveStatements now ids req scan s).2.2.map Prod.fst).Nodup ∧
      (bulkResolveStatements now ids req scan s).2.1.Disjoint
        ((bulkResolveStatements now ids req scan s).2.2.map Prod.fst) ∧
      ∀ id, id ∈ (bulkResolveStatements now ids req scan s).2.1 ∨
        id ∈ (bulkResolveStatements now ids req scan s).2.2.map Prod.fst ↔ id ∈ ids := by
  -- What is skipped is what is not closed.
  have hskipped : (bulkResolveStatements now ids req scan s).2.2.map Prod.fst
      = ids.dedup.mergeSort.filter fun id => id ∉ closableIds ids s := by
    have hmap : (bulkResolveStatements now ids req scan s).2.2
        = (ids.dedup.mergeSort.filter fun id => id ∉ closableIds ids s).map fun id =>
            (id, if (statusOf s id).isNone then .notFound else .alreadyClosed) := rfl
    rw [hmap, List.map_map]
    exact List.map_id _
  have hsorted : ids.dedup.mergeSort.Nodup :=
    (List.mergeSort_perm _ _).nodup_iff.mpr (List.nodup_dedup ids)
  rw [bulkResolveStatements_resolved, hskipped]
  refine ⟨closableIds_nodup ids s, hsorted.filter _, fun id hclosed hskip => ?_, fun id => ?_⟩
  · exact of_decide_eq_true (List.mem_filter.mp hskip).2 hclosed
  · rw [List.mem_filter, List.mem_mergeSort, List.mem_dedup]
    constructor
    · intro h
      rcases h with hclosed | hskip
      · exact (mem_closableIds.mp hclosed).1
      · exact hskip.1
    · intro hid
      by_cases hclosed : id ∈ closableIds ids s
      · exact Or.inl hclosed
      · exact Or.inr ⟨hid, decide_eq_true hclosed⟩

/-- Any state of the tables, any ids and any closing: the bulk statements leave
    every discrepancy, times and event ids aside, as the calls for the distinct
    ids do, in any order and each at its own time. What is resolved and what is
    skipped are without repetition, have nothing in common and together are the
    ids; and an id is skipped as unknown or as closed exactly where its call,
    at its turn, answers 404 or 409. -/
theorem bulk_is_one_by_one (s : Tables T) (now : ℤ) (ids : List Nat) (req : Closing)
    (scan : List Nat) (order : List (ℤ × Nat)) (hnodup : (order.map Prod.snd).Nodup)
    (hsame : ∀ id, id ∈ order.map Prod.snd ↔ id ∈ ids) :
    (∀ id, view (bulkResolveStatements now ids req scan s).1 id
        = view (resolveEach req order s) id) ∧
      ((bulkResolveStatements now ids req scan s).2.1.Nodup ∧
        ((bulkResolveStatements now ids req scan s).2.2.map Prod.fst).Nodup ∧
        (bulkResolveStatements now ids req scan s).2.1.Disjoint
          ((bulkResolveStatements now ids req scan s).2.2.map Prod.fst) ∧
        ∀ id, id ∈ (bulkResolveStatements now ids req scan s).2.1 ∨
          id ∈ (bulkResolveStatements now ids req scan s).2.2.map Prod.fst ↔ id ∈ ids) ∧
      ∀ before call after, order = before ++ call :: after →
        ((call.2, .notFound) ∈ (bulkResolveStatements now ids req scan s).2.2 ↔
          (resolveDiscrepancy call.1 call.2 req (resolveEach req before s)).2
            = .error .notFound) ∧
        ((call.2, .alreadyClosed) ∈ (bulkResolveStatements now ids req scan s).2.2 ↔
          ∃ status, (resolveDiscrepancy call.1 call.2 req (resolveEach req before s)).2
            = .error (.alreadyClosed status)) := by
  refine ⟨fun id => ?_, report_partition now ids req scan s, fun before call after horder => ?_⟩
  · -- Both ways close the rows of the ids and no other.
    rw [view_bulkResolveStatements, view_resolveEach]
    simp only [hsame]
  · have hid : call.2 ∈ ids := by
      rw [← hsame, horder]
      simp
    -- An id is asked for once, so the calls before it were for other rows.
    have hnew : call.2 ∉ before.map Prod.snd := by
      rw [horder, List.map_append, List.map_cons, List.nodup_append] at hnodup
      exact fun h => hnodup.2.2 _ h _ List.mem_cons_self rfl
    rw [answer_after req hnew]
    exact skipped_iff hid

/-- An open discrepancy and a closed one. -/
def mixedTables : Tables Nat where
  silver := UniqueTable.empty _
  pairs := SerialTable.empty _
  matched := UniqueTable.empty _
  discrepancies := {
    rows := [(0, ⟨10, .missingSettlement, newDiscrepancy none ⟨.missingSettlement, .high, 5,
        .overdue 0 1 5⟩ 0 1⟩),
      (1, ⟨11, .missingSettlement, closeDiscrepancy ⟨.falsePositive, "ops", "a test payment"⟩
        .open_ 2 3 (newDiscrepancy none ⟨.missingSettlement, .high, 7, .overdue 0 1 7⟩ 1 1)⟩)]
    unique := by decide
    next := 2
    below := by decide
    serial := by decide }
  nextEvent := 3

/-- The open one twice, the closed one, and one that does not exist. -/
theorem bulk_is_one_by_one_mixed :
    (∀ id, view (bulkResolveStatements 5 [2, 0, 1, 0] ⟨.resolved, "ada", "settled by hand"⟩ [0]
        mixedTables).1 id
      = view (resolveEach ⟨.resolved, "ada", "settled by hand"⟩ [(7, 1), (9, 2), (8, 0)]
        mixedTables) id) ∧
    (resolveDiscrepancy 9 2 ⟨.resolved, "ada", "settled by hand"⟩
      (resolveEach ⟨.resolved, "ada", "settled by hand"⟩ [(7, 1)] mixedTables)).2
        = .error .notFound := by
  have h := bulk_is_one_by_one mixedTables 5 [2, 0, 1, 0] ⟨.resolved, "ada", "settled by hand"⟩
    [0] [(7, 1), (9, 2), (8, 0)] (by decide) (by intro id; simp; tauto)
  refine ⟨h.1, (h.2.2 [(7, 1)] (9, 2) [(8, 0)] rfl).1.mp ?_⟩
  refine mem_skipped.mpr ⟨by decide, fun hin => ?_, by decide⟩
  rcases (mem_closableIds.mp hin).2 with ⟨status, hstatus, -⟩
  have hnone : statusOf mixedTables 2 = none := by decide
  rw [hnone] at hstatus
  cases hstatus

end View

end GoldCalls

end MmrEngine
