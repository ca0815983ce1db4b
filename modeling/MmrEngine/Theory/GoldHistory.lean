import MmrEngine.Flows.GoldCalls

/-!
# What a Call Does to a Discrepancy

A call may write many rows, but for the missing-settlement record of one
transaction it does one of four things: nothing, raise it, give it another
severity, or close it (`Moved`). A pair can raise it too, where the second
amount is zero; then the transaction is matched from there on.

The loops of a call are taken apart here, so that what holds over a whole
history can be read off the four cases. The matching run selects a transaction
once, as Silver has it once, and a bulk resolution closes an id once, as the
ids are a set; that is why one call does not do two of these things.

## Main definitions

* `Tables.missing`: The missing-settlement record of a transaction.
* `swept`: What the run makes of the record of an overdue transaction.
* `Moved`: What a call makes of a record.

## Theorems

* `upsertAll_missing_of_mem`: The run handles each overdue transaction once.
* `closeAll_missing`: A bulk resolution closes each id once.
* `exec_moved`: Every call does one of the four things.
* `exec_isMatched`, `exec_silver`: Matches and Silver rows stay.
-/

namespace MmrEngine

namespace GoldCalls

open Discrepancy Gold

section History

variable {T : Type} [DecidableEq T] {s s' : Tables T} {now : ℤ}

/-- The missing-settlement record of a transaction, with its id. -/
def Tables.missing (s : Tables T) (x : T) : Option (Nat × DiscrepancyRecord T) :=
  s.discrepancies.find? (x, .missingSettlement)

theorem closable_missing {x : T} {i : Nat} {d : DiscrepancyRecord T}
    (h : s.missing x = some (i, d)) : closable s i = !d.row.status.closed := by
  have hget : s.discrepancies.get? i = some d := SerialTable.get?_of_find? h
  simp [closable, hget]

/-! ### The overdue transactions -/

/-- What the severity of a settlement is, given when it was due. -/
def prescribedSeverity (expected now : ℤ) : DiscrepancySeverity :=
  overdueSeverity (totalSeconds (now - expected) / 3600)

theorem prescribedSeverity_mono (expected : ℤ) {n m : ℤ} (h : n ≤ m) :
    (prescribedSeverity expected n).rank ≤ (prescribedSeverity expected m).rank := by
  refine overdueSeverity_mono ?_
  have hle : totalSeconds (n - expected) ≤ totalSeconds (m - expected) := by
    unfold totalSeconds
    have hcast : ((n - expected : ℤ) : ℚ) ≤ ((m - expected : ℤ) : ℚ) := by
      exact_mod_cast (by omega : n - expected ≤ m - expected)
    linarith
  linarith

omit [DecidableEq T] in
theorem overdueRow_eq_some {matched : T → Bool} {r : SilverRow T} {o : Overdue T}
    (h : overdueRow matched now r = some o) :
    o.transactionId = r.id ∧ matched r.id = false ∧
      ∃ expected, r.expectedSettlementAt = some expected ∧
        o.finding.severity = prescribedSeverity expected now := by
  unfold overdueRow at h
  split at h
  · cases h
  · next expected hexpected =>
      split at h
      · next hcond =>
          rw [← Option.some.inj h]
          exact ⟨rfl, hcond.2.2.2, expected, hexpected, rfl⟩
      · cases h

omit [DecidableEq T] in
/-- What the query makes of a pending transaction past due. -/
theorem overdueRow_of_due {matched : T → Bool} {r : SilverRow T} {expected : ℤ}
    (htype : r.transactionType = .credit ∨ r.transactionType = .debit)
    (hpending : r.settlementStatus = .pending)
    (hexpected : r.expectedSettlementAt = some expected) (hdue : expected < now)
    (hunmatched : matched r.id = false) :
    overdueRow matched now r = some
      { transactionId := r.id
        amountNgn := r.amountNgn
        expectedSettlementAt := expected
        overdueHours := totalSeconds (now - expected) / 3600 } := by
  unfold overdueRow
  rw [hexpected]
  exact if_pos ⟨htype, hpending, hdue, hunmatched⟩

omit [DecidableEq T] in
/-- What a row says of a transaction does not depend on the other matches. -/
theorem overdueRow_of_unmatched {matched matched' : T → Bool} {r : SilverRow T} {o : Overdue T}
    (h : overdueRow matched' now r = some o) (hr : matched r.id = false) :
    overdueRow matched now r = some o := by
  have hr' := (overdueRow_eq_some h).2.1
  unfold overdueRow at h ⊢
  simp only [hr'] at h
  simp only [hr]
  exact h

omit [DecidableEq T] in
/-- The run selects a transaction at most once. -/
theorem overdue_nodup (silver : UniqueTable (SilverRow.id (T := T))) (matched : T → Bool)
    (now : ℤ) : ((overdue silver.rows matched now).map Overdue.transactionId).Nodup := by
  have hsub : ∀ rows : List (SilverRow T),
      ((overdue rows matched now).map Overdue.transactionId).Sublist (rows.map SilverRow.id) := by
    intro rows
    induction rows with
    | nil => exact List.Sublist.refl _
    | cons r rows ih =>
        unfold overdue at ih ⊢
        cases hr : overdueRow matched now r with
        | none =>
            rw [List.filterMap_cons_none hr, List.map_cons]
            exact ih.cons _
        | some o =>
            rw [List.filterMap_cons_some hr, List.map_cons, List.map_cons,
              (overdueRow_eq_some hr).1]
            exact ih.cons_cons _
  exact (hsub silver.rows).nodup silver.unique

omit [DecidableEq T] in
theorem mem_overdue {silver : List (SilverRow T)} {matched : T → Bool} {o : Overdue T} :
    o ∈ overdue silver matched now ↔ ∃ r ∈ silver, overdueRow matched now r = some o :=
  List.mem_filterMap

/-! ### The upsert -/

/-- What the run makes of the record of an overdue transaction: `i` is the id
    it gets if it is new, `e` that of the event. -/
def swept (now : ℤ) (o : Overdue T) (e i : Nat) :
    Option (Nat × DiscrepancyRecord T) → Nat × DiscrepancyRecord T
  | none =>
    (i, { transactionId := o.transactionId
          classification := .missingSettlement
          row := newDiscrepancy none o.finding e now })
  | some (j, d) =>
    if d.row.status = .open_ ∧ d.row.severity ≠ o.finding.severity then
      (j, d.update (changeSeverity o.finding e now))
    else (j, d)

theorem upsertOverdue_missing (now : ℤ) (o : Overdue T) (s : Tables T) (x : T) :
    (upsertOverdue now o s).1.missing x
      = if x = o.transactionId then
          some (swept now o s.nextEvent s.discrepancies.next (s.missing x))
        else s.missing x := by
  unfold upsertOverdue
  split
  · next hnone =>
      -- Nothing raised yet: a row is inserted.
      refine (SerialTable.find?_insert s.discrepancies
        { transactionId := o.transactionId
          classification := .missingSettlement
          row := newDiscrepancy none o.finding s.nextEvent now } hnone _).trans ?_
      by_cases hx : x = o.transactionId
      · have hmissing : s.missing x = none := by
          rw [hx]
          exact hnone
        rw [if_pos hx, hmissing, hx]
        exact if_pos rfl
      · rw [if_neg hx]
        exact if_neg fun hc => hx (Prod.mk.inj hc).1
  · next id d hfind =>
      -- Raised before: the row is regraded, or stays as it is.
      have hmissing : s.missing o.transactionId = some (id, d) := hfind
      split
      · next hcond =>
          refine (SerialTable.find?_modifyAt_of_find? hfind _
            (DiscrepancyRecord.key_update _) _).trans ?_
          by_cases hx : x = o.transactionId
          · rw [hx, if_pos rfl, if_pos rfl, hmissing, swept, if_pos hcond]
          · rw [if_neg hx]
            exact if_neg fun hc => hx (Prod.mk.inj hc).1
      · next hcond =>
          by_cases hx : x = o.transactionId
          · rw [hx, if_pos rfl, hmissing, swept, if_neg hcond]
          · rw [if_neg hx]

theorem upsertOverdue_frame (now : ℤ) (o : Overdue T) (s : Tables T) :
    (upsertOverdue now o s).1.silver = s.silver ∧
      (upsertOverdue now o s).1.matched = s.matched := by
  unfold upsertOverdue
  split
  · exact ⟨rfl, rfl⟩
  · split
    · exact ⟨rfl, rfl⟩
    · exact ⟨rfl, rfl⟩

theorem upsertAll_frame (now : ℤ) (os : List (Overdue T)) (s : Tables T) :
    (upsertAll now os s).1.silver = s.silver ∧ (upsertAll now os s).1.matched = s.matched := by
  induction os generalizing s with
  | nil => exact ⟨rfl, rfl⟩
  | cons o os ih =>
      have hone := upsertOverdue_frame now o s
      have hrest := ih (upsertOverdue now o s).1
      exact ⟨hrest.1.trans hone.1, hrest.2.trans hone.2⟩

theorem upsertAll_missing_of_notMem {os : List (Overdue T)} {x : T}
    (h : ∀ o ∈ os, o.transactionId ≠ x) (s : Tables T) :
    (upsertAll now os s).1.missing x = s.missing x := by
  induction os generalizing s with
  | nil => rfl
  | cons o os ih =>
      have hne : x ≠ o.transactionId := fun hc => h o List.mem_cons_self hc.symm
      have hrest := ih (fun o' ho' => h o' (List.mem_cons_of_mem _ ho')) (upsertOverdue now o s).1
      rw [upsertOverdue_missing, if_neg hne] at hrest
      exact hrest

/-- The run handles each overdue transaction once. -/
theorem upsertAll_missing_of_mem (now : ℤ) {os : List (Overdue T)}
    (hnodup : (os.map Overdue.transactionId).Nodup) {o : Overdue T} (ho : o ∈ os) (s : Tables T) :
    ∃ e i, (upsertAll now os s).1.missing o.transactionId
      = some (swept now o e i (s.missing o.transactionId)) := by
  induction os generalizing s with
  | nil => cases ho
  | cons o' os ih =>
      rw [List.map_cons, List.nodup_cons] at hnodup
      have hone := upsertOverdue_missing now o' s o.transactionId
      rcases List.mem_cons.mp ho with rfl | htail
      · -- The others are about other transactions.
        have hothers : ∀ o'' ∈ os, o''.transactionId ≠ o.transactionId := by
          intro o'' ho'' hc
          exact hnodup.1 (hc ▸ List.mem_map_of_mem ho'')
        rw [if_pos rfl] at hone
        refine ⟨s.nextEvent, s.discrepancies.next, ?_⟩
        rw [← hone]
        exact upsertAll_missing_of_notMem hothers _
      · have hne : o.transactionId ≠ o'.transactionId := by
          intro hc
          exact hnodup.1 (hc ▸ List.mem_map_of_mem htail)
        rw [if_neg hne] at hone
        rw [← hone]
        exact ih hnodup.2 htail (upsertOverdue now o' s).1

/-! ### The pairs -/

/-- A pair that is inserted has both its transactions matched, and touches no
    discrepancy. -/
theorem insertPair_eq_some {t : Nat} {p : PairPlan T} (h : insertPair t p s = some s') :
    s'.silver = s.silver ∧ s'.discrepancies = s.discrepancies ∧ s'.isMatched p.a = true ∧
      ∀ x, s.isMatched x = true → s'.isMatched x = true := by
  unfold insertPair at h
  split at h
  · rcases Option.bind_eq_some_iff.mp h with ⟨pairs, _, h⟩
    rcases Option.bind_eq_some_iff.mp h with ⟨matched₁, h₁, h⟩
    rcases Option.map_eq_some_iff.mp h with ⟨matched₂, h₂, rfl⟩
    have hfind : ∀ x, matched₂.find? x
        = if x = p.b then some { transactionId := p.b, pairId := s.pairs.next }
          else if x = p.a then some { transactionId := p.a, pairId := s.pairs.next }
          else s.matched.find? x := by
      intro x
      rw [UniqueTable.find?_of_insert? h₂, UniqueTable.find?_of_insert? h₁]
    refine ⟨rfl, rfl, ?_, fun x hx => ?_⟩
    · simp only [Tables.isMatched, hfind]
      split
      · rfl
      · simp
    · simp only [Tables.isMatched, hfind]
      split
      · rfl
      · split
        · rfl
        · exact hx
  · cases h

theorem raiseAmountDiscrepancy_frame (now : ℤ) (pairId : Nat) (p : PairPlan T) (s : Tables T) :
    (raiseAmountDiscrepancy now pairId p s).1.silver = s.silver ∧
      (raiseAmountDiscrepancy now pairId p s).1.matched = s.matched := by
  unfold raiseAmountDiscrepancy
  split
  · exact ⟨rfl, rfl⟩
  · split
    · exact ⟨rfl, rfl⟩
    · exact ⟨rfl, rfl⟩

/-- A pair raises the record of its first transaction, or none. -/
theorem raiseAmountDiscrepancy_missing (now : ℤ) (pairId : Nat) (p : PairPlan T) (s : Tables T)
    (x : T) :
    (raiseAmountDiscrepancy now pairId p s).1.missing x = s.missing x ∨
      (x = p.a ∧ s.missing x = none ∧ ∃ i f e,
        (raiseAmountDiscrepancy now pairId p s).1.missing x
          = some (i, { transactionId := x
                       classification := .missingSettlement
                       row := newDiscrepancy (some pairId) f e now })) := by
  unfold raiseAmountDiscrepancy
  split
  · exact Or.inl rfl
  · next f _ =>
      split
      · exact Or.inl rfl
      · next discrepancies hinsert =>
          rcases SerialTable.insert?_eq_some hinsert with ⟨hfree, rfl⟩
          simp only [Tables.missing, SerialTable.find?_insert]
          by_cases hk : (x, DiscrepancyType.missingSettlement) = (p.a, f.classification)
          · rcases Prod.mk.inj hk with ⟨rfl, hclass⟩
            refine Or.inr ⟨rfl, ?_, s.discrepancies.next, f, s.nextEvent, ?_⟩
            · rw [hk]
              exact hfree
            · rw [← hclass]
              exact if_pos rfl
          · exact Or.inl (if_neg hk)

theorem persistPairs_frame (now : ℤ) (t : Nat) (plans : List (PairPlan T)) (s : Tables T) :
    (persistPairs t now plans s).1.silver = s.silver ∧
      ∀ x, s.isMatched x = true → (persistPairs t now plans s).1.isMatched x = true := by
  induction plans generalizing s with
  | nil => exact ⟨rfl, fun _ hx => hx⟩
  | cons p plans ih =>
      unfold persistPairs
      cases hinsert : insertPair t p s with
      | none => exact ih s
      | some s' =>
          have hpair := insertPair_eq_some hinsert
          have hraise := raiseAmountDiscrepancy_frame now s.pairs.next p s'
          have hrest := ih (raiseAmountDiscrepancy now s.pairs.next p s').1
          refine ⟨hrest.1.trans (hraise.1.trans hpair.1), fun x hx => hrest.2 x ?_⟩
          rw [Tables.isMatched, hraise.2]
          exact hpair.2.2.2 x hx

/-- What the pairs of a run do to one record: they raise it or they do not. -/
theorem persistPairs_missing (now : ℤ) (t : Nat) (plans : List (PairPlan T)) (s : Tables T)
    (x : T) :
    (persistPairs t now plans s).1.missing x = s.missing x ∨
      (s.missing x = none ∧ (persistPairs t now plans s).1.isMatched x = true ∧ ∃ i pair f e,
        (persistPairs t now plans s).1.missing x
          = some (i, { transactionId := x
                       classification := .missingSettlement
                       row := newDiscrepancy pair f e now })) := by
  induction plans generalizing s with
  | nil => exact Or.inl rfl
  | cons p plans ih =>
      unfold persistPairs
      cases hinsert : insertPair t p s with
      | none => exact ih s
      | some s' =>
          rcases insertPair_eq_some hinsert with ⟨_, hdiscrepancies, hmatched, _⟩
          have hsame : s'.missing x = s.missing x := by rw [Tables.missing, hdiscrepancies]; rfl
          have hrest := ih (raiseAmountDiscrepancy now s.pairs.next p s').1
          rcases raiseAmountDiscrepancy_missing now s.pairs.next p s' x with
            hkept | ⟨rfl, hnone, i, f, e, hnew⟩
          · -- Not raised by this pair, so it depends on the others.
            rw [hkept, hsame] at hrest
            exact hrest
          · -- Raised by this pair: the transaction is matched, and the others find the row.
            rcases hrest with hkept | ⟨hnone', _⟩
            · refine Or.inr ⟨hsame.symm.trans hnone, ?_, i, some s.pairs.next, f, e,
                hkept.trans hnew⟩
              refine (persistPairs_frame now t plans _).2 _ ?_
              rw [Tables.isMatched, (raiseAmountDiscrepancy_frame now s.pairs.next p s').2]
              exact hmatched
            · rw [hnew] at hnone'
              cases hnone'

/-! ### Closing -/

theorem closeAt_missing (req : Closing) (id : Nat) (s : Tables T) (x : T) :
    (closeAt now req id s).missing x = (s.missing x).map fun r =>
      if r.1 = id then
        (r.1, r.2.update fun d => closeDiscrepancy req d.status s.nextEvent now d)
      else r :=
  SerialTable.find?_modifyAt s.discrepancies id _ (DiscrepancyRecord.key_update _) _

theorem closeAt_missing_of_ne {req : Closing} {id : Nat} {x : T}
    (h : ∀ r, s.missing x = some r → r.1 ≠ id) :
    (closeAt now req id s).missing x = s.missing x := by
  rw [closeAt_missing]
  cases hr : s.missing x with
  | none => rfl
  | some r => simp [h r hr]

omit [DecidableEq T] in
theorem closeAll_frame (req : Closing) (ids : List Nat) (s : Tables T) :
    (closeAll now req ids s).silver = s.silver ∧
      (closeAll now req ids s).matched = s.matched := by
  induction ids generalizing s with
  | nil => exact ⟨rfl, rfl⟩
  | cons id ids ih => exact ih (closeAt now req id s)

theorem closeAll_missing_of_notMem {ids : List Nat} {req : Closing} {x : T}
    (h : ∀ r, s.missing x = some r → r.1 ∉ ids) :
    (closeAll now req ids s).missing x = s.missing x := by
  induction ids generalizing s with
  | nil => rfl
  | cons id ids ih =>
      have hone : (closeAt now req id s).missing x = s.missing x :=
        closeAt_missing_of_ne fun r hr hc => h r hr (hc ▸ List.mem_cons_self)
      have hrest : (closeAll now req ids (closeAt now req id s)).missing x
          = (closeAt now req id s).missing x := by
        refine ih fun r hr hmem => ?_
        rw [hone] at hr
        exact h r hr (List.mem_cons_of_mem _ hmem)
      exact hrest.trans hone

/-- Each id is closed once. -/
theorem closeAll_missing (now : ℤ) (req : Closing) {ids : List Nat} (hnodup : ids.Nodup) {x : T}
    {i : Nat} {d : DiscrepancyRecord T} (hd : s.missing x = some (i, d)) (hi : i ∈ ids) :
    ∃ e, (closeAll now req ids s).missing x
      = some (i, d.update fun r => closeDiscrepancy req r.status e now r) := by
  induction ids generalizing s with
  | nil => cases hi
  | cons id ids ih =>
      rw [List.nodup_cons] at hnodup
      rcases List.mem_cons.mp hi with rfl | htail
      · -- Closed now, and left alone by the ids that follow.
        have hone : (closeAt now req i s).missing x
            = some (i, d.update fun r => closeDiscrepancy req r.status s.nextEvent now r) := by
          rw [closeAt_missing, hd]
          simp
        have hrest : (closeAll now req ids (closeAt now req i s)).missing x
            = (closeAt now req i s).missing x := by
          refine closeAll_missing_of_notMem (fun r hr => ?_)
          rw [hone] at hr
          rw [← Option.some.inj hr]
          exact hnodup.1
        exact ⟨s.nextEvent, hrest.trans hone⟩
      · have hne : i ≠ id := fun hc => hnodup.1 (hc ▸ htail)
        have hone : (closeAt now req id s).missing x = some (i, d) := by
          rw [closeAt_missing, hd]
          simp [hne]
        exact ih hnodup.2 hone htail

/-! ### A whole call -/

/-- Only `land` writes Silver. -/
theorem exec_silver_of_not_land {c : Call T} (h : ∀ row, c ≠ .land row) :
    (c.exec s).silver = s.silver := by
  cases c with
  | land row => exact absurd rfl (h row)
  | persistPairs t now plans => exact (persistPairs_frame now t plans s).1
  | raiseMissingSettlements now => exact (upsertAll_frame now _ s).1
  | resolveDiscrepancy now id req =>
      simp only [Call.exec, resolveDiscrepancy]
      split
      · rfl
      · split
        · rfl
        · rfl
  | bulkResolveDiscrepancies now ids req => exact (closeAll_frame req _ s).1
  | rolledBack events => rfl

/-- Silver rows stay. -/
theorem exec_silver (c : Call T) {r : SilverRow T} (hr : r ∈ s.silver.rows) :
    r ∈ (c.exec s).silver.rows := by
  cases c with
  | land row => exact UniqueTable.insertOrFind_subset s.silver row hr
  | _ =>
      rw [exec_silver_of_not_land (by simp)]
      exact hr

/-- Matches stay. -/
theorem exec_isMatched (c : Call T) {x : T} (hx : s.isMatched x = true) :
    (c.exec s).isMatched x = true := by
  cases c with
  | land row => exact hx
  | persistPairs t now plans => exact (persistPairs_frame now t plans s).2 x hx
  | raiseMissingSettlements now =>
      have hmatched := (upsertAll_frame now (overdue s.silver.rows s.isMatched now) s).2
      simp only [Call.exec, raiseMissingSettlements, Tables.isMatched, hmatched]
      exact hx
  | resolveDiscrepancy now id req =>
      simp only [Call.exec, resolveDiscrepancy]
      split
      · exact hx
      · split
        · exact hx
        · exact hx
  | bulkResolveDiscrepancies now ids req =>
      simp only [Call.exec, bulkResolveDiscrepancies, Tables.isMatched, (closeAll_frame req _ s).2]
      exact hx
  | rolledBack events => exact hx

/-- What a call makes of the missing-settlement record of `x`. -/
inductive Moved (s : Tables T) (c : Call T) (x : T) : Prop
  | kept (h : (c.exec s).missing x = s.missing x)
  | raised (i : Nat) (pair : Option Nat) (f : Finding) (e : Nat) (now : ℤ)
      (hnone : s.missing x = none)
      (h : (c.exec s).missing x = some (i, { transactionId := x
                                             classification := .missingSettlement
                                             row := newDiscrepancy pair f e now }))
      (hsource : (c.exec s).isMatched x = true ∨ ∃ o now', c = .raiseMissingSettlements now' ∧
        o ∈ overdue s.silver.rows s.isMatched now' ∧ o.transactionId = x ∧ f = o.finding)
  | regraded (i : Nat) (d : DiscrepancyRecord T) (o : Overdue T) (e : Nat) (now : ℤ)
      (hc : c = .raiseMissingSettlements now) (ho : o ∈ overdue s.silver.rows s.isMatched now)
      (hx : o.transactionId = x) (hd : s.missing x = some (i, d)) (hopen : d.row.status = .open_)
      (hne : d.row.severity ≠ o.finding.severity)
      (h : (c.exec s).missing x = some (i, d.update (changeSeverity o.finding e now)))
  | closed (i : Nat) (d : DiscrepancyRecord T) (req : Closing) (e : Nat) (now : ℤ)
      (hd : s.missing x = some (i, d)) (hopen : d.row.status.closed = false)
      (h : (c.exec s).missing x
        = some (i, d.update fun r => closeDiscrepancy req r.status e now r))

theorem sweep_moved (now : ℤ) (x : T) : Moved s (.raiseMissingSettlements now) x := by
  by_cases hover : ∃ o ∈ overdue s.silver.rows s.isMatched now, o.transactionId = x
  · rcases hover with ⟨o, ho, rfl⟩
    rcases upsertAll_missing_of_mem now (overdue_nodup s.silver s.isMatched now) ho s with
      ⟨e, i, h⟩
    cases hd : s.missing o.transactionId with
    | none =>
        rw [hd] at h
        exact .raised i none o.finding e now hd h (Or.inr ⟨o, now, rfl, ho, rfl, rfl⟩)
    | some r =>
        rcases r with ⟨j, d⟩
        rw [hd, swept] at h
        split at h
        · next hcond => exact .regraded j d o e now rfl ho rfl hd hcond.1 hcond.2 h
        · exact .kept (h.trans hd.symm)
  · refine .kept (upsertAll_missing_of_notMem (fun o ho hx => ?_) s)
    exact hover ⟨o, ho, hx⟩

/-- Closing some of the discrepancies that can be closed. -/
theorem closeAll_moved (now : ℤ) (req : Closing) {c : Call T} {ids : List Nat}
    (hexec : c.exec s = closeAll now req (ids.filter fun id => closable s id) s)
    (hnodup : ids.Nodup) (x : T) : Moved s c x := by
  cases hd : s.missing x with
  | none =>
      refine .kept ?_
      rw [hexec]
      refine closeAll_missing_of_notMem (fun r hr => ?_)
      rw [hd] at hr
      cases hr
  | some r =>
      rcases r with ⟨i, d⟩
      by_cases hi : i ∈ ids.filter fun id => closable s id
      · rcases closeAll_missing now req (hnodup.filter _) hd hi with ⟨e, h⟩
        rw [← hexec] at h
        have hclosable := (List.mem_filter.mp hi).2
        rw [closable_missing hd, Bool.not_eq_true'] at hclosable
        exact .closed i d req e now hd hclosable h
      · refine .kept ?_
        rw [hexec]
        refine closeAll_missing_of_notMem (fun r hr => ?_)
        rw [hd] at hr
        rw [← Option.some.inj hr]
        exact hi

omit [DecidableEq T] in
/-- Resolving one closes it if that is still possible. -/
theorem resolveDiscrepancy_closeAll (now : ℤ) (id : Nat) (req : Closing) (s : Tables T) :
    (resolveDiscrepancy now id req s).1
      = closeAll now req ([id].filter fun id => closable s id) s := by
  unfold resolveDiscrepancy
  cases hget : s.discrepancies.get? id with
  | none =>
      have hclosable : closable s id = false := by simp [closable, hget]
      simp [hclosable, closeAll]
  | some d =>
      have hclosable : closable s id = !d.row.status.closed := by simp [closable, hget]
      cases hclosed : d.row.status.closed with
      | true => simp [hclosable, hclosed, closeAll]
      | false => simp [hclosable, hclosed, closeAll]

/-- Every call does one of the four things. -/
theorem exec_moved (c : Call T) (x : T) : Moved s c x := by
  cases c with
  | land row => exact .kept rfl
  | persistPairs t now plans =>
      rcases persistPairs_missing now t plans s x with
        hkept | ⟨hnone, hmatched, i, pair, f, e, hnew⟩
      · exact .kept hkept
      · exact .raised i pair f e now hnone hnew (Or.inl hmatched)
  | raiseMissingSettlements now => exact sweep_moved now x
  | resolveDiscrepancy now id req =>
      exact closeAll_moved now req (c := .resolveDiscrepancy now id req)
        (resolveDiscrepancy_closeAll now id req s) (List.nodup_singleton id) x
  | bulkResolveDiscrepancies now ids req =>
      refine closeAll_moved now req (c := .bulkResolveDiscrepancies now ids req) rfl ?_ x
      exact (List.mergeSort_perm _ _).nodup_iff.mpr (List.nodup_dedup ids)
  | rolledBack events => exact .kept rfl

end History

end GoldCalls

end MmrEngine
