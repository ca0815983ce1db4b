import MmrEngine.Theory.GoldHistory

/-!
# The Life of a Missing Settlement

What a history of matching runs, resolutions and pairs leaves of the
missing-settlement records, where the runs come at clock readings that never
go back.

A record raised by a run carries the severity its delay prescribed at some run
so far (`Graded`); as Silver rows do not change, a later run can only find the
delay longer, so severities only grow. A record raised by a pair belongs to a
matched transaction, which no run selects again.

Right after a run every selected transaction has its record, and an open one
is graded right (`Settled`). Nothing but new Silver rows can undo that before
the clock moves on, so a second run finds nothing to write.

## Main definitions

* `sweepTimes`: The clock readings of the runs in a history.
* `Graded`, `Settled`: The two invariants.
* `Later`: What is kept of a record.
* `closingActions`: The closing event a status goes with.
* `severityRuns`: How many runs changed the severity of a record.

## Theorems

* `graded_exec`, `later_exec`: What one call preserves.
* `graded_after`, `later_after`: What a history preserves.
* `trail_after`: The events of a record.
* `settled_sweep`, `sweep_of_settled`: A run settles, and a settled table is
  left alone.
* `missing_settlement_lifecycle`: All of it.
-/

namespace MmrEngine

namespace GoldCalls

open Discrepancy Gold

/-- The clock reading of a run of `raise_missing_settlements`. -/
def Call.sweepTime {T : Type} : Call T → Option ℤ
  | .raiseMissingSettlements now => some now
  | _ => none

/-- The clock readings of the runs, in order. -/
def sweepTimes {T : Type} (calls : List (Call T)) : List ℤ := calls.filterMap Call.sweepTime

/-- The closing event a status goes with. -/
def closingActions : DiscrepancyStatus → List EventAction
  | .resolved => [.resolved]
  | .falsePositive => [.markedFalsePositive]
  | _ => []

theorem closingActions_of_open {status : DiscrepancyStatus} (h : status.closed = false) :
    closingActions status = [] := by
  cases status with
  | resolved => cases h
  | falsePositive => cases h
  | _ => rfl

theorem closingActions_outcome (o : Outcome) : closingActions o.status = [o.action] := by
  cases o with
  | resolved => rfl
  | falsePositive => rfl

section Lifecycle

variable {T : Type} [DecidableEq T] {s : Tables T} {c : Call T} {x : T}

theorem after_cons (s : Tables T) (c : Call T) (calls : List (Call T)) :
    after s (c :: calls) = after (c.exec s) calls := rfl

theorem after_append (s : Tables T) (calls calls' : List (Call T)) :
    after s (calls ++ calls') = after (after s calls) calls' := List.foldl_append

/-! ### Severities -/

/-- Every record has the severity some run so far prescribed, or its
    transaction has been matched. -/
def Graded (times : List ℤ) (s : Tables T) : Prop :=
  ∀ x i d, s.missing x = some (i, d) → s.isMatched x = true ∨
    ∃ r ∈ s.silver.rows, r.id = x ∧ ∃ expected, r.expectedSettlementAt = some expected ∧
      ∃ n ∈ times, d.row.severity = prescribedSeverity expected n

/-- A record keeps its id, its severity only grows, and once it is closed it
    stays as it is. -/
def Later (x : T) (s s' : Tables T) : Prop :=
  ∀ i d, s.missing x = some (i, d) → ∃ d', s'.missing x = some (i, d') ∧
    d.row.severity.rank ≤ d'.row.severity.rank ∧ (d.row.status.closed = true → d' = d)

theorem later_refl (x : T) (s : Tables T) : Later x s s :=
  fun _ d hd => ⟨d, hd, le_refl _, fun _ => rfl⟩

theorem later_trans {s' s'' : Tables T} (h : Later x s s') (h' : Later x s' s'') :
    Later x s s'' := by
  intro i d hd
  rcases h i d hd with ⟨d', hd', hrank, hclosed⟩
  rcases h' i d' hd' with ⟨d'', hd'', hrank', hclosed'⟩
  refine ⟨d'', hd'', hrank.trans hrank', fun hc => ?_⟩
  have heq := hclosed hc
  rw [heq] at hclosed'
  exact hclosed' hc

/-- What a selected transaction says about itself. -/
theorem overdue_source {now : ℤ} {o : Overdue T}
    (ho : o ∈ overdue s.silver.rows s.isMatched now) :
    ∃ r ∈ s.silver.rows, r.id = o.transactionId ∧ s.isMatched o.transactionId = false ∧
      ∃ expected, r.expectedSettlementAt = some expected ∧
        o.finding.severity = prescribedSeverity expected now := by
  rcases mem_overdue.mp ho with ⟨r, hr, hrow⟩
  rcases overdueRow_eq_some hrow with ⟨hid, hmatched, hexpected⟩
  refine ⟨r, hr, hid.symm, ?_, hexpected⟩
  rw [hid]
  exact hmatched

theorem graded_exec {times : List ℤ} (hgraded : Graded times s) (c : Call T) :
    Graded (times ++ c.sweepTime.toList) (c.exec s) := by
  intro x i d hd
  have hold : ∀ i d, s.missing x = some (i, d) → (c.exec s).isMatched x = true ∨
      ∃ r ∈ (c.exec s).silver.rows, r.id = x ∧ ∃ expected,
        r.expectedSettlementAt = some expected ∧ ∃ n ∈ times ++ c.sweepTime.toList,
          d.row.severity = prescribedSeverity expected n := by
    intro i d hd
    rcases hgraded x i d hd with hmatched | ⟨r, hr, hid, expected, hexpected, n, hn, hseverity⟩
    · exact Or.inl (exec_isMatched c hmatched)
    · exact Or.inr ⟨r, exec_silver c hr, hid, expected, hexpected, n,
        List.mem_append_left _ hn, hseverity⟩
  -- What the run itself has prescribed.
  have hnew : ∀ now o, c = .raiseMissingSettlements now →
      o ∈ overdue s.silver.rows s.isMatched now → o.transactionId = x →
      ∃ r ∈ (c.exec s).silver.rows, r.id = x ∧ ∃ expected,
        r.expectedSettlementAt = some expected ∧ ∃ n ∈ times ++ c.sweepTime.toList,
          o.finding.severity = prescribedSeverity expected n := by
    intro now o hc ho hx
    rcases overdue_source ho with ⟨r, hr, hid, _, expected, hexpected, hseverity⟩
    refine ⟨r, exec_silver c hr, hid.trans hx, expected, hexpected, now, ?_, hseverity⟩
    rw [hc]
    exact List.mem_append_right _ List.mem_cons_self
  cases exec_moved (s := s) c x with
  | kept h =>
      rw [h] at hd
      exact hold i d hd
  | raised j pair f e now hnone h hsource =>
      rw [h] at hd
      rcases Prod.mk.inj (Option.some.inj hd) with ⟨_, rfl⟩
      rcases hsource with hmatched | ⟨o, now', hc, ho, hx, rfl⟩
      · exact Or.inl hmatched
      · exact Or.inr (hnew now' o hc ho hx)
  | regraded j d' o e now hc ho hx hd' hopen hne h =>
      rw [h] at hd
      rcases Prod.mk.inj (Option.some.inj hd) with ⟨_, rfl⟩
      exact Or.inr (hnew now o hc ho hx)
  | closed j d' req e now hd' hopen h =>
      rw [h] at hd
      rcases Prod.mk.inj (Option.some.inj hd) with ⟨_, rfl⟩
      exact hold j d' hd'

/-- The run finds a delay no shorter than any before. -/
theorem later_exec {times : List ℤ} (hgraded : Graded times s)
    (hclock : ∀ n ∈ times, ∀ m, c.sweepTime = some m → n ≤ m) : Later x s (c.exec s) := by
  intro i d hd
  cases exec_moved (s := s) c x with
  | kept h => exact ⟨d, h.trans hd, le_refl _, fun _ => rfl⟩
  | raised j pair f e now hnone h hsource =>
      rw [hd] at hnone
      cases hnone
  | regraded j d' o e now hc ho hx hd' hopen hne h =>
      rw [hd] at hd'
      rcases Prod.mk.inj (Option.some.inj hd') with ⟨rfl, rfl⟩
      refine ⟨_, h, ?_, fun hclosed => ?_⟩
      · rcases overdue_source ho with ⟨r, hr, hid, hunmatched, expected, hexpected, hseverity⟩
        rw [hx] at hunmatched hid
        rcases hgraded x i d hd with hmatched | ⟨r', hr', hid', expected', hexpected', n, hn, hold⟩
        · rw [hunmatched] at hmatched
          cases hmatched
        · -- It is the same Silver row, due at the same time.
          have hrow := UniqueTable.find?_eq_some_iff.mpr ⟨hr, hid⟩
          rw [UniqueTable.find?_eq_some_iff.mpr ⟨hr', hid'⟩, Option.some.injEq] at hrow
          rw [hrow, hexpected, Option.some.injEq] at hexpected'
          have hle := hclock n hn now (by rw [hc]; rfl)
          have hmono := prescribedSeverity_mono expected hle
          rw [← hseverity, hexpected', ← hold] at hmono
          exact hmono
      · rw [hopen] at hclosed
        cases hclosed
  | closed j d' req e now hd' hopen h =>
      rw [hd] at hd'
      rcases Prod.mk.inj (Option.some.inj hd') with ⟨rfl, rfl⟩
      refine ⟨_, h, le_refl _, fun hclosed => ?_⟩
      rw [hopen] at hclosed
      cases hclosed

omit [DecidableEq T] in
theorem sweepTimes_cons (c : Call T) (calls : List (Call T)) :
    sweepTimes (c :: calls) = c.sweepTime.toList ++ sweepTimes calls := by
  unfold sweepTimes
  cases hc : c.sweepTime with
  | none => exact List.filterMap_cons_none hc
  | some now => exact List.filterMap_cons_some hc

theorem graded_after {times : List ℤ} (hgraded : Graded times s) (calls : List (Call T)) :
    Graded (times ++ sweepTimes calls) (after s calls) := by
  induction calls generalizing s times with
  | nil =>
      rw [sweepTimes, List.filterMap_nil, List.append_nil]
      exact hgraded
  | cons c calls ih =>
      rw [sweepTimes_cons, ← List.append_assoc]
      exact ih (graded_exec hgraded c)

theorem later_after {times : List ℤ} (hgraded : Graded times s) {calls : List (Call T)}
    (hclock : (times ++ sweepTimes calls).Pairwise (· ≤ ·)) : Later x s (after s calls) := by
  induction calls generalizing s times with
  | nil => exact later_refl x s
  | cons c calls ih =>
      rw [sweepTimes_cons, ← List.append_assoc] at hclock
      refine later_trans (later_exec hgraded fun n hn m hm => ?_)
        (ih (graded_exec hgraded c) hclock)
      have hfirst := (List.pairwise_append.mp hclock).1
      refine (List.pairwise_append.mp hfirst).2.2 n hn m ?_
      rw [hm]
      exact List.mem_cons_self

theorem graded_initial (silver : UniqueTable (SilverRow.id (T := T))) :
    Graded [] (initial silver) := by
  intro x i d hd
  cases hd

/-! ### Events -/

/-- The severity of the record is another one afterwards. -/
def severityChanged (x : T) (s s' : Tables T) : Bool :=
  match s.missing x, s'.missing x with
  | some r, some r' => decide (r.2.row.severity ≠ r'.2.row.severity)
  | _, _ => false

/-- How many runs among the calls changed the severity of the record. -/
def severityRuns (x : T) : Tables T → List (Call T) → Nat
  | _, [] => 0
  | s, c :: calls =>
    (if c.sweepTime.isSome && severityChanged x s (c.exec s) then 1 else 0)
      + severityRuns x (c.exec s) calls

/-- Raised once, regraded `n` times, and closed if it is closed. -/
def Trail (n : Nat) (d : DiscrepancyRow) : Prop :=
  d.events.map DiscrepancyEvent.action
    = .raised :: (List.replicate n .severityChanged ++ closingActions d.status)

theorem trail_new (pair : Option Nat) (f : Finding) (e : Nat) (now : ℤ) :
    Trail 0 (newDiscrepancy pair f e now) := rfl

theorem trail_changeSeverity {n : Nat} {d : DiscrepancyRow} (h : Trail n d)
    (hopen : d.status = .open_) (f : Finding) (e : Nat) (now : ℤ) :
    Trail (n + 1) (changeSeverity f e now d) := by
  unfold Trail at h ⊢
  rw [hopen] at h
  simp [changeSeverity, severityChangedEvent, h, hopen, closingActions, List.replicate_succ']

theorem trail_close {n : Nat} {d : DiscrepancyRow} (h : Trail n d)
    (hopen : d.status.closed = false) (req : Closing) (e : Nat) (now : ℤ) :
    Trail n (closeDiscrepancy req d.status e now d) := by
  unfold Trail at h ⊢
  rw [closingActions_of_open hopen] at h
  simp [closeDiscrepancy, closingEvent, h, closingActions_outcome]

/-- The record, if it is there, has a trail of `n` changes; a transaction
    without one has had none. -/
def Trailed (x : T) (n : Nat) (s : Tables T) : Prop :=
  match s.missing x with
  | none => n = 0
  | some r => Trail n r.2.row

/-- Where the severity stays, no event is due. -/
theorem trailed_of_same {n : Nat} {s' : Tables T} (c : Call T)
    (hsame : severityChanged x s s' = false) (h : Trailed x n s') :
    Trailed x (n + if c.sweepTime.isSome && severityChanged x s s' then 1 else 0) s' := by
  simp only [hsame, Bool.and_false, Bool.false_eq_true, if_false, Nat.add_zero]
  exact h

/-- A call adds an event for a change of severity exactly where it is a run
    that changes it. -/
theorem trailed_exec {n : Nat} (h : Trailed x n s) (c : Call T) :
    Trailed x (n + if c.sweepTime.isSome && severityChanged x s (c.exec s) then 1 else 0)
      (c.exec s) := by
  cases exec_moved (s := s) c x with
  | kept hkept =>
      refine trailed_of_same c ?_ ?_
      · unfold severityChanged
        rw [hkept]
        cases s.missing x with
        | none => rfl
        | some r => simp
      · unfold Trailed at h ⊢
        rw [hkept]
        exact h
  | raised i pair f e now hnone hnew hsource =>
      refine trailed_of_same c (by simp [severityChanged, hnone]) ?_
      unfold Trailed at h ⊢
      rw [hnone] at h
      rw [hnew, show n = 0 from h]
      exact trail_new pair f e now
  | regraded i d o e now hc ho hx hd hopen hne hnew =>
      have hchanged : severityChanged x s (c.exec s) = true := by
        unfold severityChanged
        rw [hd, hnew]
        exact decide_eq_true hne
      have hrun : c.sweepTime.isSome = true := by
        rw [hc]
        rfl
      unfold Trailed at h ⊢
      rw [hd] at h
      simp only [hchanged, hrun, Bool.and_true, if_true, hnew]
      exact trail_changeSeverity h hopen o.finding e now
  | closed i d req e now hd hopen hnew =>
      refine trailed_of_same c ?_ ?_
      · -- Closing leaves the severity as it is.
        unfold severityChanged
        rw [hd, hnew]
        exact decide_eq_false (not_not.mpr rfl)
      · unfold Trailed at h ⊢
        rw [hd] at h
        rw [hnew]
        exact trail_close h hopen req e now

theorem trailed_after {n : Nat} (h : Trailed x n s) (calls : List (Call T)) :
    Trailed x (n + severityRuns x s calls) (after s calls) := by
  induction calls generalizing s n with
  | nil => exact h
  | cons c calls ih =>
      have hrest := ih (trailed_exec h c)
      rw [Nat.add_assoc] at hrest
      exact hrest

/-! ### Runs at one clock reading -/

/-- Everything overdue at `now` has its record, and an open one has the
    severity this prescribes. -/
def Settled (now : ℤ) (s : Tables T) : Prop :=
  ∀ o ∈ overdue s.silver.rows s.isMatched now, ∃ i d,
    s.missing o.transactionId = some (i, d) ∧
      (d.row.status = .open_ → d.row.severity = o.finding.severity)

theorem isMatched_of_matched {s s' : Tables T} (h : s'.matched = s.matched) :
    s'.isMatched = s.isMatched := by
  funext x
  rw [Tables.isMatched, Tables.isMatched, h]

/-- A run settles what it selects. -/
theorem settled_sweep (now : ℤ) (s : Tables T) :
    Settled now ((Call.raiseMissingSettlements now).exec s) := by
  intro o ho
  rcases upsertAll_frame now (overdue s.silver.rows s.isMatched now) s with
    ⟨hsilver, hmatched⟩
  have hselected : o ∈ overdue s.silver.rows s.isMatched now := by
    simp only [Call.exec, raiseMissingSettlements, hsilver, isMatched_of_matched hmatched] at ho
    exact ho
  rcases upsertAll_missing_of_mem now (overdue_nodup s.silver s.isMatched now) hselected s
    with ⟨e, i, h⟩
  cases hd : s.missing o.transactionId with
  | none =>
      rw [hd] at h
      exact ⟨i, _, h, fun _ => rfl⟩
  | some r =>
      rcases r with ⟨j, d⟩
      rw [hd, swept] at h
      split at h
      · exact ⟨j, _, h, fun _ => rfl⟩
      · next hcond =>
          refine ⟨j, d, h, fun hopen => ?_⟩
          exact not_not.mp fun hne => hcond ⟨hopen, hne⟩

theorem upsertAll_of_settled {now : ℤ} {os : List (Overdue T)} (h : ∀ o ∈ os, ∃ i d,
    s.missing o.transactionId = some (i, d) ∧
      (d.row.status = .open_ → d.row.severity = o.finding.severity)) :
    upsertAll now os s = (s, []) := by
  induction os with
  | nil => rfl
  | cons o os ih =>
      rcases h o List.mem_cons_self with ⟨i, d, hd, hseverity⟩
      have hone : upsertOverdue now o s = (s, none) := by
        unfold upsertOverdue
        split
        · next hnone =>
            rw [Tables.missing, hnone] at hd
            cases hd
        · next id d' hfind =>
            rw [Tables.missing, hfind] at hd
            rcases Prod.mk.inj (Option.some.inj hd) with ⟨rfl, rfl⟩
            exact if_neg fun hcond => hcond.2 (hseverity hcond.1)
      have hrest := ih fun o' ho' => h o' (List.mem_cons_of_mem _ ho')
      simp [upsertAll, hone, hrest]

/-- A run over a settled table writes nothing. -/
theorem sweep_of_settled {now : ℤ} (h : Settled now s) :
    (Call.raiseMissingSettlements now).exec s = s := by
  simp [Call.exec, raiseMissingSettlements, upsertAll_of_settled h]

/-- Until a new transaction lands or the clock moves on, settled tables stay
    settled. -/
theorem settled_exec {now : ℤ} (h : Settled now s) (hland : ∀ row, c ≠ .land row)
    (hclock : ∀ m, c.sweepTime = some m → m = now) : Settled now (c.exec s) := by
  cases htime : c.sweepTime with
  | some m =>
      cases c with
      | raiseMissingSettlements now' =>
          rw [hclock now' rfl]
          exact settled_sweep now s
      | _ => cases htime
  | none =>
      intro o ho
      -- Nothing is overdue now that was not before.
      have hbefore : o ∈ overdue s.silver.rows s.isMatched now := by
        rw [exec_silver_of_not_land hland] at ho
        rcases mem_overdue.mp ho with ⟨r, hr, hrow⟩
        refine mem_overdue.mpr ⟨r, hr, overdueRow_of_unmatched hrow ?_⟩
        have hunmatched := (overdueRow_eq_some hrow).2.1
        cases hm : s.isMatched r.id with
        | false => rfl
        | true =>
            rw [exec_isMatched c hm] at hunmatched
            cases hunmatched
      rcases h o hbefore with ⟨i, d, hd, hseverity⟩
      cases exec_moved (s := s) c o.transactionId with
      | kept hkept => exact ⟨i, d, hkept.trans hd, hseverity⟩
      | raised j pair f e now' hnone hnew hsource =>
          rw [hd] at hnone
          cases hnone
      | regraded j d' o' e now' hc ho' hx hd' hopen hne hnew =>
          rw [hc] at htime
          cases htime
      | closed j d' req e now' hd' hopen hnew =>
          refine ⟨j, _, hnew, fun hc => ?_⟩
          have hclosed := Outcome.status_closed req.outcome
          rw [show req.outcome.status = .open_ from hc] at hclosed
          cases hclosed

theorem settled_after {now : ℤ} {calls : List (Call T)} (h : Settled now s)
    (hland : ∀ c ∈ calls, ∀ row, c ≠ .land row)
    (hclock : ∀ c ∈ calls, ∀ m, c.sweepTime = some m → m = now) :
    Settled now (after s calls) := by
  induction calls generalizing s with
  | nil => exact h
  | cons c calls ih =>
      refine ih (settled_exec h (hland c List.mem_cons_self) (hclock c List.mem_cons_self)) ?_ ?_
      · exact fun c' hc' => hland c' (List.mem_cons_of_mem _ hc')
      · exact fun c' hc' => hclock c' (List.mem_cons_of_mem _ hc')

/-! ### The whole history -/

/-- A transaction the run's query would select. -/
theorem mem_overdue_of_due {r : SilverRow T} {now expected : ℤ} (hr : r ∈ s.silver.rows)
    (htype : r.transactionType = .credit ∨ r.transactionType = .debit)
    (hpending : r.settlementStatus = .pending)
    (hexpected : r.expectedSettlementAt = some expected) (hdue : expected < now)
    (hunmatched : s.isMatched r.id = false) :
    ∃ o ∈ overdue s.silver.rows s.isMatched now, o.transactionId = r.id ∧
      o.finding.severity = prescribedSeverity expected now := by
  have hrow := overdueRow_of_due htype hpending hexpected hdue hunmatched
  exact ⟨_, mem_overdue.mpr ⟨r, hr, hrow⟩, rfl, rfl⟩

/-- A history of runs at clock readings that never go back, with pairs,
    resolutions and new transactions in between: a transaction has at most one
    missing-settlement record, which keeps its id, gets no less severe and is
    final once it is closed; its events are one `raised`, one
    `severity_changed` for each run that changed it, and the closing; after a
    run everything overdue has its record, graded right if it is open; and
    another run at the same reading changes nothing. -/
theorem missing_settlement_lifecycle (silver : UniqueTable (SilverRow.id (T := T)))
    (calls : List (Call T)) (hclock : (sweepTimes calls).Pairwise (· ≤ ·)) :
    (∀ x : T, ((after (initial silver) calls).discrepancies.rows.filter fun r =>
        r.2.key = (x, .missingSettlement)).length ≤ 1) ∧
    (∀ earlier later, calls = earlier ++ later → ∀ (x : T) i d,
      (after (initial silver) earlier).missing x = some (i, d) →
        ∃ d', (after (initial silver) calls).missing x = some (i, d') ∧
          d.row.severity.rank ≤ d'.row.severity.rank ∧
          (d.row.status.closed = true → d' = d)) ∧
    (∀ (x : T) i d, (after (initial silver) calls).missing x = some (i, d) →
      d.row.events.map DiscrepancyEvent.action
        = .raised :: (List.replicate (severityRuns x (initial silver) calls) .severityChanged
            ++ closingActions d.row.status)) ∧
    (∀ earlier now, calls = earlier ++ [.raiseMissingSettlements now] →
      ∀ r ∈ (after (initial silver) calls).silver.rows,
        (r.transactionType = .credit ∨ r.transactionType = .debit) →
        r.settlementStatus = .pending →
        ∀ expected, r.expectedSettlementAt = some expected → expected < now →
          (after (initial silver) calls).isMatched r.id = false →
            ∃ i d, (after (initial silver) calls).missing r.id = some (i, d) ∧
              (d.row.status = .open_ → d.row.severity = prescribedSeverity expected now)) ∧
    ∀ earlier now between, calls = earlier ++ .raiseMissingSettlements now :: between →
      (∀ c ∈ between, ∀ row, c ≠ .land row) →
      (∀ c ∈ between, ∀ m, c.sweepTime = some m → m = now) →
        (Call.raiseMissingSettlements now).exec (after (initial silver) calls)
          = after (initial silver) calls := by
  refine ⟨fun x => UniqueTable.count_le_one _ _, ?_, ?_, ?_, ?_⟩
  · rintro earlier later rfl x i d hd
    have hgraded := graded_after (graded_initial silver) earlier
    have hsplit : sweepTimes (earlier ++ later) = sweepTimes earlier ++ sweepTimes later :=
      List.filterMap_append
    rw [hsplit] at hclock
    rw [after_append]
    exact later_after hgraded hclock i d hd
  · intro x i d hd
    have htrailed := trailed_after (x := x) (n := 0) (s := initial silver) rfl calls
    rw [Nat.zero_add, Trailed, hd] at htrailed
    exact htrailed
  · rintro earlier now rfl r hr htype hpending expected hexpected hdue hunmatched
    rw [after_append] at hr hunmatched ⊢
    rcases mem_overdue_of_due hr htype hpending hexpected hdue hunmatched with
      ⟨o, ho, hid, hseverity⟩
    rcases settled_sweep now (after (initial silver) earlier) o ho with ⟨i, d, hd, hopen⟩
    rw [hid] at hd
    exact ⟨i, d, hd, fun h => (hopen h).trans hseverity⟩
  · rintro earlier now between rfl hland hsame
    rw [after_append, after_cons]
    exact sweep_of_settled (settled_after (settled_sweep now _) hland hsame)

end Lifecycle

section Exhibit

/-- A sale of 100, due at 0 and never settled. -/
def unsettledSale : SilverRow Nat where
  id := 7
  transactionType := .credit
  settlementStatus := .pending
  amountNgn := 100
  fxRateApplied := none
  expectedSettlementAt := some 0

/-- It lands, is raised after an hour, found again after a day and a half, and
    closed. -/
def twoDays : List (Call Nat) :=
  [.land unsettledSale, .raiseMissingSettlements (hours 1), .raiseMissingSettlements (hours 36),
    .resolveDiscrepancy (hours 40) 0
      { outcome := .resolved, actor := "analyst", note := "settled by bank transfer" }]

theorem missing_settlement_lifecycle_twoDays :
    (sweepTimes twoDays).Pairwise (· ≤ ·) ∧
      ∃ i d, (after (initial (UniqueTable.empty _)) twoDays).missing 7 = some (i, d) ∧
        d.row.events.map DiscrepancyEvent.action
          = [.raised, .severityChanged, .resolved] := by
  have hclock : (sweepTimes twoDays).Pairwise (· ≤ ·) := by decide
  have hstatus : ((after (initial (UniqueTable.empty _)) twoDays).missing 7).map
      (fun r => r.2.row.status) = some .resolved := by decide +kernel
  have hruns : severityRuns 7 (initial (UniqueTable.empty _)) twoDays = 1 := by decide +kernel
  rcases Option.map_eq_some_iff.mp hstatus with ⟨⟨i, d⟩, hd, hresolved⟩
  have hevents := (missing_settlement_lifecycle (UniqueTable.empty _) twoDays hclock).2.2.1 7 i d hd
  rw [hruns, show d.row.status = .resolved from hresolved] at hevents
  exact ⟨hclock, i, d, hd, hevents⟩

end Exhibit

end GoldCalls

end MmrEngine
