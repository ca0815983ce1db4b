import MmrEngine.Engine.Fx
import MmrEngine.Lib.Timeline

/-!
# The Chain of FX Snapshots

Whatever captures run beside each other and whatever their clocks say, the
committed snapshots of a pair are a gapless timeline.

Two facts carry this. Of each pair at most one row is being inserted, it comes
after all others of the pair (`last`), and its transaction has also ended every
current row of the pair (`ended`): the unique index lets nobody in before. And
a transaction that has ended a row has inserted the next one by the time it
commits (`replaced`). So a commit either leaves a pair alone or extends its
timeline by one snapshot. The check constraint makes the new one start later.

## Main definitions

* `FxInv`: What holds of the table and the captures in every state.

## Theorems

* `snapshotsOf_of_commit`: A commit leaves a pair alone, or extends its timeline.
* `fxInv_step`, `fxInv_of_reachable`: The invariant.
* `getFxRateAt_eq`, `getCurrentRate_eq`: What the lookups find in a timeline.
* `fx_snapshot_chain`: All of it.
-/

namespace MmrEngine

namespace Fx

open Timeline

section Chain

variable {τ : Type} [DecidableEq τ] {s s' : FxDb τ} {t : τ} {r : StoredRow τ}

/-! ### Rows -/

theorem endedBy_eq_some {until_ : ℤ} : r.endedBy t = some until_ ↔ r.expiry = some (t, until_) := by
  unfold StoredRow.endedBy
  cases r.expiry with
  | none => simp
  | some e =>
      rcases e with ⟨t', u⟩
      by_cases ht : t' = t
      · simp [ht]
      · simp [ht]

theorem endedBy_eq_none : r.endedBy t = none ↔ ∀ u, r.expiry ≠ some (t, u) := by
  rw [Option.eq_none_iff_forall_ne_some]
  exact forall_congr' fun u => not_congr endedBy_eq_some

/-- What `t` has not ended it sees as everybody does. -/
theorem value_of_not_ended (h : ∀ u, r.expiry ≠ some (t, u)) : r.value t = r.row := by
  rw [StoredRow.value, endedBy_eq_none.mpr h]
  rfl

@[simp] theorem commit_row : (r.commit t).row = r.value t := rfl

@[simp] theorem rollback_row : (r.rollback t).row = r.row := rfl

@[simp] theorem rollback_insertedBy : (r.rollback t).insertedBy = r.insertedBy := rfl

omit [DecidableEq τ] in
theorem committed_eq_some {v : Snapshot} :
    r.committed = some v ↔ r.insertedBy = none ∧ r.row = v := by
  unfold StoredRow.committed
  cases r.insertedBy with
  | none => simp
  | some t => simp

/-- What is not of `t` stays after its commit. -/
theorem commit_insertedBy {t' : τ} : (r.commit t).insertedBy = some t' ↔
    r.insertedBy = some t' ∧ t' ≠ t := by
  unfold StoredRow.commit
  by_cases ht : r.insertedBy = some t
  · simp only [ht, if_true, reduceCtorEq, Option.some.injEq, false_iff]
    rintro ⟨rfl, hne⟩
    exact hne rfl
  · simp only [ht, if_false]
    constructor
    · intro h
      refine ⟨h, ?_⟩
      rintro rfl
      exact ht h
    · exact And.left

theorem expiry_kept {t' : τ} {u : ℤ} :
    (if (r.endedBy t).isSome then none else r.expiry) = some (t', u) ↔
      r.expiry = some (t', u) ∧ t' ≠ t := by
  by_cases ht : (r.endedBy t).isSome = true
  · rcases Option.isSome_iff_exists.mp ht with ⟨v, hv⟩
    rw [if_pos ht, endedBy_eq_some.mp hv]
    simp only [reduceCtorEq, Option.some.injEq, Prod.mk.injEq, false_iff]
    rintro ⟨⟨rfl, _⟩, hne⟩
    exact hne rfl
  · rw [if_neg ht]
    constructor
    · intro h
      refine ⟨h, ?_⟩
      rintro rfl
      rw [endedBy_eq_some.mpr h] at ht
      exact ht rfl
    · exact And.left

/-! ### The invariant -/

/-- What holds of the table and the captures in every state. -/
structure FxInv (s : FxDb τ) : Prop where
  gapless : ∀ pair, Gapless Snapshot.validFrom Snapshot.validUntil (s.snapshotsOf pair)
  stamped : ∀ r ∈ s.rows, r.row.validFrom = r.row.capturedAt
  expiring : ∀ r ∈ s.rows, ∀ t u, r.expiry = some (t, u) → r.insertedBy = none ∧
    r.row.validUntil = none ∧ r.row.validFrom < u ∧ ∃ c, s.captures t = some c ∧ c.now = u
  inserting : ∀ r ∈ s.rows, ∀ t, r.insertedBy = some t → r.row.validUntil = none ∧
    ∃ c, s.captures t = some c ∧ c.now = r.row.validFrom
  last : s.rows.Pairwise fun a b => a.insertedBy ≠ none → a.row.currencyPair ≠ b.row.currencyPair
  ended : ∀ n ∈ s.rows, ∀ t, n.insertedBy = some t → ∀ r ∈ s.rows, r.insertedBy = none →
    r.row.currencyPair = n.row.currencyPair → r.row.validUntil = none →
      ∃ u, r.expiry = some (t, u)
  replaced : ∀ r ∈ s.rows, ∀ t u, r.expiry = some (t, u) → ∀ c, s.captures t = some c →
    c.phase.pair = some r.row.currencyPair ∨
      ∃ n ∈ s.rows, n.insertedBy = some t ∧ n.row.currencyPair = r.row.currencyPair

omit [DecidableEq τ] in
theorem fxInv_initial (h : Initial s) : FxInv s := by
  have hnone : ∀ pair, s.snapshotsOf pair = [] := by
    intro pair
    simp [FxDb.snapshotsOf, FxDb.committed, h.1]
  constructor
  case gapless =>
    intro pair
    rw [hnone]
    trivial
  case last =>
    rw [h.1]
    exact List.Pairwise.nil
  all_goals simp [h.1]

omit [DecidableEq τ] in
/-- Only one row of a pair is being inserted. -/
theorem inserted_unique (h : FxInv s) {a b : StoredRow τ} (ha : a ∈ s.rows) (hb : b ∈ s.rows)
    (hpair : a.row.currencyPair = b.row.currencyPair) (hia : a.insertedBy ≠ none)
    (hib : b.insertedBy ≠ none) : a = b := by
  have hlast := h.last
  generalize s.rows = rows at ha hb hlast
  induction rows with
  | nil => cases ha
  | cons c rows ih =>
      rw [List.pairwise_cons] at hlast
      rcases List.mem_cons.mp ha with rfl | hatail
      · rcases List.mem_cons.mp hb with rfl | hbtail
        · rfl
        · exact absurd hpair (hlast.1 b hbtail hia)
      · rcases List.mem_cons.mp hb with rfl | hbtail
        · exact absurd hpair.symm (hlast.1 a hatail hib)
        · exact ih hatail hbtail hlast.2

/-! ### Steps of one capture -/

theorem goto_captures_of_ne {c : Option Capture} {t' : τ} (h : t' ≠ t) :
    (s.goto t c).captures t' = s.captures t' := Function.update_of_ne h _ _

@[simp] theorem goto_captures (s : FxDb τ) (t : τ) (c : Option Capture) :
    (s.goto t c).captures t = c := by simp [FxDb.goto]

/-- Whoever has something under way keeps its clock when the capture of `t` goes on. -/
theorem captures_goto {c c' : Capture} (hc : s.captures t = some c) (hnow : c'.now = c.now)
    {t' : τ} {u : ℤ} (h : ∃ d, s.captures t' = some d ∧ d.now = u) :
    ∃ d, (s.goto t (some c')).captures t' = some d ∧ d.now = u := by
  rcases h with ⟨d, hd, rfl⟩
  by_cases ht : t' = t
  · rw [ht, hc, Option.some.injEq] at hd
    exact ⟨c', by rw [ht, goto_captures], by rw [hnow, hd]⟩
  · exact ⟨d, by rw [goto_captures_of_ne ht, hd], rfl⟩

/-- A capture goes on without writing, on the pair it was at. -/
theorem fxInv_goto (h : FxInv s) {c c' : Capture} (hc : s.captures t = some c)
    (hnow : c'.now = c.now) (hpair : ∀ p, c.phase.pair = some p → c'.phase.pair = some p) :
    FxInv (s.goto t (some c')) := by
  refine ⟨h.gapless, h.stamped, ?_, ?_, h.last, h.ended, ?_⟩
  · intro r hr t' u hexpiry
    rcases h.expiring r hr t' u hexpiry with ⟨hcommitted, hcurrent, hlt, hcapture⟩
    exact ⟨hcommitted, hcurrent, hlt, captures_goto hc hnow hcapture⟩
  · intro r hr t' hinserted
    rcases h.inserting r hr t' hinserted with ⟨hcurrent, hcapture⟩
    exact ⟨hcurrent, captures_goto hc hnow hcapture⟩
  · intro r hr t' u hexpiry d hd
    by_cases ht : t' = t
    · rw [ht, goto_captures, Option.some.injEq] at hd
      rw [ht] at hexpiry
      rw [← hd, ht]
      exact (h.replaced r hr t u hexpiry c hc).imp_left (hpair _)
    · rw [goto_captures_of_ne ht] at hd
      exact h.replaced r hr t' u hexpiry d hd

/-- A transaction that begins has nothing under way. -/
theorem fxInv_begin (h : FxInv s) (hnone : s.captures t = none) (c : Capture) :
    FxInv (s.goto t (some c)) := by
  have hother : ∀ t', (∃ d, s.captures t' = some d) → t' ≠ t := by
    rintro t' ⟨d, hd⟩ rfl
    rw [hnone] at hd
    cases hd
  refine ⟨h.gapless, h.stamped, ?_, ?_, h.last, h.ended, ?_⟩
  · intro r hr t' u hexpiry
    rcases h.expiring r hr t' u hexpiry with ⟨hcommitted, hcurrent, hlt, d, hd, hnow⟩
    refine ⟨hcommitted, hcurrent, hlt, d, ?_, hnow⟩
    rw [goto_captures_of_ne (hother t' ⟨d, hd⟩), hd]
  · intro r hr t' hinserted
    rcases h.inserting r hr t' hinserted with ⟨hcurrent, d, hd, hnow⟩
    refine ⟨hcurrent, d, ?_, hnow⟩
    rw [goto_captures_of_ne (hother t' ⟨d, hd⟩), hd]
  · intro r hr t' u hexpiry d hd
    rcases h.expiring r hr t' u hexpiry with ⟨_, _, _, d', hd', _⟩
    rw [goto_captures_of_ne (hother t' ⟨d', hd'⟩)] at hd
    exact h.replaced r hr t' u hexpiry d hd

omit [DecidableEq τ] in
/-- Only whether and where a committed row is decides what others read. -/
theorem snapshotsOf_eq (s : FxDb τ) (pair : String) : s.snapshotsOf pair
    = (s.rows.filter fun r => r.row.currencyPair = pair).filterMap StoredRow.committed := by
  unfold FxDb.snapshotsOf FxDb.committed
  induction s.rows with
  | nil => rfl
  | cons r rows ih =>
      cases hr : r.committed with
      | none =>
          rw [List.filterMap_cons_none hr, ih]
          by_cases hp : r.row.currencyPair = pair
          · rw [List.filter_cons_of_pos (by simpa using hp), List.filterMap_cons_none hr]
          · rw [List.filter_cons_of_neg (by simpa using hp)]
      | some v =>
          rw [List.filterMap_cons_some hr, ← (committed_eq_some.mp hr).2]
          by_cases hp : r.row.currencyPair = pair
          · rw [List.filter_cons_of_pos (by simpa using hp),
              List.filter_cons_of_pos (by simpa using hp), List.filterMap_cons_some hr, ih,
              (committed_eq_some.mp hr).2]
          · rw [List.filter_cons_of_neg (by simpa using hp),
              List.filter_cons_of_neg (by simpa using hp), ih]

/-! ### Ending a row -/

omit [DecidableEq τ] in
/-- Replacing one row leaves the others. -/
theorem mem_of_replaced {pre post : List (StoredRow τ)} {r' x : StoredRow τ}
    (hx : x ∈ pre ++ r' :: post) : x = r' ∨ x ∈ pre ++ r :: post := by
  rcases List.mem_append.mp hx with hpre | hpost
  · exact Or.inr (List.mem_append_left _ hpre)
  · rcases List.mem_cons.mp hpost with heq | hpost
    · exact Or.inl heq
    · exact Or.inr (List.mem_append_right _ (List.mem_cons_of_mem _ hpost))

theorem fxInv_expire (h : FxInv s) {c : Capture} {pair : String} {rate : ℚ} {id : Nat}
    {found : List Nat} {pre post : List (StoredRow τ)} (hc : s.captures t = some c)
    (hphase : c.phase = .expiring pair rate (id :: found)) (hrows : s.rows = pre ++ r :: post)
    (hcommitted : r.insertedBy = none) (hfree : r.expiry = none)
    (hpair : r.row.currencyPair = pair) (hcurrent : r.row.validUntil = none)
    (hcheck : r.row.validFrom < c.now) :
    FxInv { s.goto t (some { c with phase := .expiring pair rate found }) with
      rows := pre ++ { r with expiry := some (t, c.now) } :: post } := by
  have hgoto : FxInv (s.goto t (some { c with phase := .expiring pair rate found })) := by
    refine fxInv_goto h hc rfl fun p hp => ?_
    rw [hphase] at hp
    exact hp
  have hr : r ∈ s.rows := by
    rw [hrows]
    exact List.mem_append_right _ List.mem_cons_self
  -- A row is the one that is ended, or was there as it is.
  have hmem : ∀ x, x ∈ pre ++ { r with expiry := some (t, c.now) } :: post →
      x = { r with expiry := some (t, c.now) } ∨ x ∈ s.rows := by
    intro x hx
    rw [hrows]
    exact mem_of_replaced hx
  -- Rows being inserted are not the one, so they are still there.
  have hkept : ∀ n ∈ s.rows, n.insertedBy ≠ none →
      n ∈ pre ++ { r with expiry := some (t, c.now) } :: post := by
    intro n hn hinserted
    rw [hrows] at hn
    rcases mem_of_replaced hn with rfl | hkept
    · exact absurd hcommitted hinserted
    · exact hkept
  refine ⟨fun p => ?_, ?_, ?_, ?_, ?_, ?_, ?_⟩
  · -- Others still read the row as it was.
    have hsame : FxDb.snapshotsOf { s.goto t (some { c with phase := .expiring pair rate found })
        with rows := pre ++ { r with expiry := some (t, c.now) } :: post } p = s.snapshotsOf p := by
      have hvalue : StoredRow.committed { r with expiry := some (t, c.now) } = r.committed := rfl
      simp only [FxDb.snapshotsOf, FxDb.committed, hrows, List.filterMap_append,
        List.filterMap_cons, hvalue]
    rw [hsame]
    exact h.gapless p
  · intro x hx
    rcases hmem x hx with rfl | hold
    · exact h.stamped r hr
    · exact h.stamped x hold
  · -- The check constraint puts the end of the row after its start.
    intro x hx t' u hexpiry
    rcases hmem x hx with rfl | hold
    · simp only [Option.some.injEq, Prod.mk.injEq] at hexpiry
      rcases hexpiry with ⟨rfl, rfl⟩
      exact ⟨hcommitted, hcurrent, hcheck, _, goto_captures s t _, rfl⟩
    · exact hgoto.expiring x hold t' u hexpiry
  · intro x hx t' hinserted
    rcases hmem x hx with rfl | hold
    · rw [hcommitted] at hinserted
      cases hinserted
    · exact hgoto.inserting x hold t' hinserted
  · have hlast := h.last
    rw [hrows] at hlast
    -- The ended row stands where it stood.
    have hmap : (pre ++ { r with expiry := some (t, c.now) } :: post).map
        (fun x => (x.insertedBy, x.row.currencyPair))
        = (pre ++ r :: post).map fun x => (x.insertedBy, x.row.currencyPair) := by
      simp only [List.map_append, List.map_cons]
    have hpairs : ((pre ++ r :: post).map fun x => (x.insertedBy, x.row.currencyPair)).Pairwise
        fun a b => a.1 ≠ none → a.2 ≠ b.2 := List.pairwise_map.mpr hlast
    rw [← hmap] at hpairs
    exact List.pairwise_map.mp hpairs
  · intro n hn t' hinserted x hx hxcommitted hxpair hxcurrent
    have hnold : n ∈ s.rows := by
      rcases hmem n hn with rfl | hold
      · rw [hcommitted] at hinserted
        cases hinserted
      · exact hold
    rcases hmem x hx with rfl | hold
    · -- Nobody inserts beside a row that is not ended.
      rcases h.ended n hnold t' hinserted r hr hcommitted hxpair hcurrent with ⟨u, hu⟩
      rw [hfree] at hu
      cases hu
    · exact h.ended n hnold t' hinserted x hold hxcommitted hxpair hxcurrent
  · -- The capture is still at the pair it has ended a row of.
    intro x hx t' u hexpiry d hd
    rcases hmem x hx with rfl | hold
    · simp only [Option.some.injEq, Prod.mk.injEq] at hexpiry
      rw [← hexpiry.1] at hd
      have hd' := (goto_captures s t _).symm.trans hd
      rw [← Option.some.inj hd']
      left
      rw [hpair]
      rfl
    · rcases hgoto.replaced x hold t' u hexpiry d hd with hat | ⟨n, hn, hinserted, hsame⟩
      · exact Or.inl hat
      · refine Or.inr ⟨n, hkept n hn ?_, hinserted, hsame⟩
        rw [hinserted]
        simp

/-! ### Inserting a row -/

theorem fxInv_insert (h : FxInv s) {c : Capture} {pair : String} {rate : ℚ}
    (hc : s.captures t = some c) (hphase : c.phase = .inserting pair rate)
    (hunique : ∀ r ∈ s.rows, r.row.currencyPair = pair → r.row.validUntil = none →
      ∃ u, r.expiry = some (t, u)) :
    FxInv { s.goto t (some { c with phase := .fetching }) with
      rows := s.rows ++ [{ row := newSnapshot s.nextId pair rate c.now
                           insertedBy := some t
                           expiry := none }]
      nextId := s.nextId + 1 } := by
  have hclock : ∀ t' u, (∃ d, s.captures t' = some d ∧ d.now = u) →
      ∃ d, (s.goto t (some { c with phase := .fetching })).captures t' = some d ∧ d.now = u :=
    fun _ _ => captures_goto hc (by rfl)
  have hmem : ∀ x, x ∈ s.rows ++ [{ row := newSnapshot s.nextId pair rate c.now
                                    insertedBy := some t
                                    expiry := none }] →
      x ∈ s.rows ∨ x = { row := newSnapshot s.nextId pair rate c.now
                         insertedBy := some t
                         expiry := none } := by
    intro x hx
    rcases List.mem_append.mp hx with hold | hnew
    · exact Or.inl hold
    · exact Or.inr (List.mem_singleton.mp hnew)
  refine ⟨fun p => ?_, ?_, ?_, ?_, ?_, ?_, ?_⟩
  · -- Nobody else reads the new row.
    have hsame : FxDb.snapshotsOf { s.goto t (some { c with phase := .fetching }) with
        rows := s.rows ++ [{ row := newSnapshot s.nextId pair rate c.now
                             insertedBy := some t
                             expiry := none }]
        nextId := s.nextId + 1 } p = s.snapshotsOf p := by
      simp [FxDb.snapshotsOf, FxDb.committed, StoredRow.committed]
    rw [hsame]
    exact h.gapless p
  · intro x hx
    rcases hmem x hx with hold | rfl
    · exact h.stamped x hold
    · rfl
  · intro x hx t' u hexpiry
    rcases hmem x hx with hold | rfl
    · rcases h.expiring x hold t' u hexpiry with ⟨hcommitted, hcurrent, hlt, hcapture⟩
      exact ⟨hcommitted, hcurrent, hlt, hclock _ _ hcapture⟩
    · cases hexpiry
  · intro x hx t' hinserted
    rcases hmem x hx with hold | rfl
    · rcases h.inserting x hold t' hinserted with ⟨hcurrent, hcapture⟩
      exact ⟨hcurrent, hclock _ _ hcapture⟩
    · rw [← Option.some.inj hinserted]
      exact ⟨rfl, _, goto_captures s t _, rfl⟩
  · refine List.pairwise_append.mpr ⟨h.last, List.pairwise_singleton _ _, fun a ha b hb hia => ?_⟩
    rw [List.mem_singleton.mp hb]
    intro hpair
    rcases Option.ne_none_iff_exists'.mp hia with ⟨t', ht'⟩
    -- A row of the pair being inserted is current, and nobody can have ended it.
    rcases hunique a ha hpair (h.inserting a ha t' ht').1 with ⟨u, hu⟩
    rw [(h.expiring a ha t u hu).1] at ht'
    cases ht'
  · -- The unique index lets the row in only once every current one is ended.
    intro n hn t' hinserted x hx hxcommitted hxpair hxcurrent
    rcases hmem x hx with hold | rfl
    · rcases hmem n hn with hnold | rfl
      · exact h.ended n hnold t' hinserted x hold hxcommitted hxpair hxcurrent
      · rw [← Option.some.inj hinserted]
        exact hunique x hold hxpair hxcurrent
    · cases hxcommitted
  · -- What the capture has ended of the pair is replaced now.
    intro x hx t' u hexpiry d hd
    rcases hmem x hx with hold | rfl
    · by_cases ht : t' = t
      · right
        rw [ht] at hexpiry ⊢
        rcases h.replaced x hold t u hexpiry c hc with hat | ⟨n, hn, hinserted, hsame⟩
        · rw [hphase] at hat
          exact ⟨_, List.mem_append_right _ List.mem_cons_self, rfl, Option.some.inj hat⟩
        · exact ⟨n, List.mem_append_left _ hn, hinserted, hsame⟩
      · have hd' := (goto_captures_of_ne ht).symm.trans hd
        rcases h.replaced x hold t' u hexpiry d hd' with hat | ⟨n, hn, hinserted, hsame⟩
        · exact Or.inl hat
        · exact Or.inr ⟨n, List.mem_append_left _ hn, hinserted, hsame⟩
    · cases hexpiry

/-! ### Committing -/

omit [DecidableEq τ] in
/-- The rows of a pair of which one is being inserted: it is the last of them,
    and the only one. -/
theorem rows_of_pair (h : FxInv s) {n : StoredRow τ} (hn : n ∈ s.rows)
    (hinserted : n.insertedBy ≠ none) :
    ∃ l, (s.rows.filter fun r => decide (r.row.currencyPair = n.row.currencyPair)) = l ++ [n] ∧
      ∀ a ∈ l, a.insertedBy = none := by
  have hlast := h.last.filter fun r => decide (r.row.currencyPair = n.row.currencyPair)
  have hmem : n ∈ s.rows.filter fun r => decide (r.row.currencyPair = n.row.currencyPair) :=
    List.mem_filter.mpr ⟨hn, decide_eq_true rfl⟩
  have hpair : ∀ a ∈ s.rows.filter fun r => decide (r.row.currencyPair = n.row.currencyPair),
      a.row.currencyPair = n.row.currencyPair := by
    intro a ha
    exact of_decide_eq_true (List.mem_filter.mp ha).2
  rcases List.append_of_mem hmem with ⟨l, post, hsplit⟩
  rw [hsplit] at hlast hpair ⊢
  rcases List.pairwise_append.mp hlast with ⟨_, hfrom, hbefore⟩
  refine ⟨l, ?_, fun a ha => ?_⟩
  · cases post with
    | nil => rfl
    | cons b post =>
        have hne := (List.pairwise_cons.mp hfrom).1 b List.mem_cons_self hinserted
        have hb : b ∈ l ++ n :: b :: post := by simp
        exact absurd (hpair b hb).symm hne
  · by_contra hia
    exact hbefore a ha n List.mem_cons_self hia (hpair a (List.mem_append_left _ ha))

theorem filter_map_commit (rows : List (StoredRow τ)) (pair : String) :
    (rows.map (StoredRow.commit t)).filter (fun r => decide (r.row.currencyPair = pair))
      = (rows.filter fun r => decide (r.row.currencyPair = pair)).map (StoredRow.commit t) := by
  rw [List.filter_map]
  rfl

/-- The value of a row that was committed before, after the commit of the
    transaction that inserts the next one. -/
theorem value_of_ended (h : FxInv s) {n : StoredRow τ} (hn : n ∈ s.rows)
    (hinserted : n.insertedBy = some t) (hr : r ∈ s.rows) (hcommitted : r.insertedBy = none)
    (hpair : r.row.currencyPair = n.row.currencyPair) :
    (r.row.validUntil = none → r.value t = { r.row with validUntil := some n.row.validFrom } ∧
      r.row.validFrom < n.row.validFrom) ∧
    (r.row.validUntil ≠ none → r.value t = r.row) := by
  constructor
  · intro hcurrent
    rcases h.ended n hn t hinserted r hr hcommitted hpair hcurrent with ⟨u, hu⟩
    rcases h.expiring r hr t u hu with ⟨_, _, hlt, d, hd, hnow⟩
    rcases (h.inserting n hn t hinserted).2 with ⟨d', hd', hnow'⟩
    rw [hd, Option.some.injEq] at hd'
    -- Both statements have used the one clock reading.
    have hclock : u = n.row.validFrom := by
      rw [← hnow, ← hnow', hd']
    rw [StoredRow.value, endedBy_eq_some.mpr hu, hclock]
    rw [hclock] at hlt
    exact ⟨rfl, hlt⟩
  · intro hended
    exact value_of_not_ended fun u hu => hended (h.expiring r hr t u hu).2.1

/-- The rows of a pair of which `t` inserts one: before its commit those that
    were committed, after it the same, the current one ended, and the new one. -/
theorem snapshotsOf_commit_inserted (h : FxInv s) {n : StoredRow τ} (hn : n ∈ s.rows)
    (hinserted : n.insertedBy = some t) :
    ∃ l : List (StoredRow τ),
      (∀ a ∈ l, a ∈ s.rows ∧ a.insertedBy = none ∧
        a.row.currencyPair = n.row.currencyPair) ∧
      s.snapshotsOf n.row.currencyPair = l.map StoredRow.row ∧
      FxDb.snapshotsOf { s.goto t none with rows := s.rows.map (StoredRow.commit t) }
        n.row.currencyPair = l.map (StoredRow.value t) ++ [n.row] := by
  have hne : n.insertedBy ≠ none := by simp [hinserted]
  rcases rows_of_pair h hn hne with ⟨l, hrows, hcommitted⟩
  have hvalue : n.value t = n.row :=
    value_of_not_ended fun u hu => hne (h.expiring n hn t u hu).1
  refine ⟨l, fun a ha => ?_, ?_, ?_⟩
  · have hmem : a ∈ s.rows.filter fun r => decide (r.row.currencyPair = n.row.currencyPair) := by
      rw [hrows]
      exact List.mem_append_left _ ha
    exact ⟨(List.mem_filter.mp hmem).1, hcommitted a ha,
      of_decide_eq_true (List.mem_filter.mp hmem).2⟩
  · rw [snapshotsOf_eq, hrows, List.filterMap_append]
    have hlast : [n].filterMap StoredRow.committed = [] := by
      simp [StoredRow.committed, hinserted]
    rw [hlast, List.append_nil]
    refine (List.filterMap_congr fun a ha => ?_).trans (congrFun List.filterMap_eq_map' l)
    exact committed_eq_some.mpr ⟨hcommitted a ha, rfl⟩
  · rw [snapshotsOf_eq, filter_map_commit, hrows, List.map_append, List.filterMap_append,
      List.filterMap_map]
    have hlast : ([n].map (StoredRow.commit t)).filterMap StoredRow.committed = [n.row] := by
      simp [StoredRow.committed, StoredRow.commit, hinserted, hvalue]
    rw [hlast]
    congr 1
    refine (List.filterMap_congr fun a ha => ?_).trans (congrFun List.filterMap_eq_map' l)
    refine committed_eq_some.mpr ⟨?_, rfl⟩
    simp [StoredRow.commit, hcommitted a ha]

/-- A pair of which `t` inserts nothing has nothing ended by it either. -/
theorem snapshotsOf_commit_untouched (h : FxInv s) {c : Capture} (hc : s.captures t = some c)
    (hphase : c.phase = .fetching) {pair : String}
    (hnone : ∀ n ∈ s.rows, n.insertedBy = some t → n.row.currencyPair ≠ pair) :
    FxDb.snapshotsOf { s.goto t none with rows := s.rows.map (StoredRow.commit t) } pair
      = s.snapshotsOf pair := by
  rw [snapshotsOf_eq, snapshotsOf_eq, filter_map_commit, List.filterMap_map]
  refine List.filterMap_congr fun a ha => ?_
  rcases List.mem_filter.mp ha with ⟨hmem, hpair⟩
  have hnot : a.insertedBy ≠ some t := fun hinserted =>
    hnone a hmem hinserted (of_decide_eq_true hpair)
  have hend : ∀ u, a.expiry ≠ some (t, u) := by
    intro u hu
    rcases h.replaced a hmem t u hu c hc with hat | ⟨n, hn, hin, hsame⟩
    · rw [hphase] at hat
      cases hat
    · exact hnone n hn hin (hsame.trans (of_decide_eq_true hpair))
  simp [StoredRow.committed, StoredRow.commit, hnot, value_of_not_ended hend]

/-- A commit leaves the snapshots of a pair alone, or ends the open one and puts
    a later one after it. -/
theorem snapshotsOf_of_commit (h : FxInv s) {c : Capture} (hc : s.captures t = some c)
    (hphase : c.phase = .fetching) (pair : String) :
    FxDb.snapshotsOf { s.goto t none with rows := s.rows.map (StoredRow.commit t) } pair
        = s.snapshotsOf pair ∨
      ∃ (n : Snapshot) (f : Snapshot → Snapshot), n.validUntil = none ∧
        FxDb.snapshotsOf { s.goto t none with rows := s.rows.map (StoredRow.commit t) } pair
          = (s.snapshotsOf pair).map f ++ [n] ∧
        ∀ v ∈ s.snapshotsOf pair,
          (v.validUntil = none → f v = { v with validUntil := some n.validFrom } ∧
            v.validFrom < n.validFrom) ∧ (v.validUntil ≠ none → f v = v) := by
  by_cases hnew : ∃ n ∈ s.rows, n.insertedBy = some t ∧ n.row.currencyPair = pair
  · right
    rcases hnew with ⟨n, hn, hinserted, rfl⟩
    rcases snapshotsOf_commit_inserted h hn hinserted with ⟨l, hl, hbefore, hafter⟩
    -- The committed rows as `t` sees them: the current one ended where the new one starts.
    have hended : ∀ a ∈ l,
        (a.row.validUntil = none → a.value t = { a.row with validUntil := some n.row.validFrom } ∧
          a.row.validFrom < n.row.validFrom) ∧ (a.row.validUntil ≠ none → a.value t = a.row) :=
      fun a ha => value_of_ended h hn hinserted (hl a ha).1 (hl a ha).2.1 (hl a ha).2.2
    refine ⟨n.row, fun v => if v.validUntil = none then
      { v with validUntil := some n.row.validFrom } else v,
      (h.inserting n hn t hinserted).1, ?_, ?_⟩
    · rw [hafter, hbefore, List.map_map]
      congr 1
      refine List.map_congr_left fun a ha => ?_
      by_cases hcurrent : a.row.validUntil = none
      · rw [((hended a ha).1 hcurrent).1]
        exact (if_pos hcurrent).symm
      · rw [(hended a ha).2 hcurrent]
        exact (if_neg hcurrent).symm
    · intro v hv
      rw [hbefore] at hv
      rcases List.mem_map.mp hv with ⟨a, ha, rfl⟩
      exact ⟨fun hcurrent => ⟨if_pos hcurrent, ((hended a ha).1 hcurrent).2⟩,
        fun hcurrent => if_neg hcurrent⟩
  · left
    exact snapshotsOf_commit_untouched h hc hphase fun n hn hinserted hpair =>
      hnew ⟨n, hn, hinserted, hpair⟩

theorem gapless_commit (h : FxInv s) {c : Capture} (hc : s.captures t = some c)
    (hphase : c.phase = .fetching) (pair : String) : Gapless Snapshot.validFrom Snapshot.validUntil
      (FxDb.snapshotsOf { s.goto t none with rows := s.rows.map (StoredRow.commit t) } pair) := by
  rcases snapshotsOf_of_commit h hc hphase pair with hsame | ⟨n, f, hn, hnew, hf⟩
  · rw [hsame]
    exact h.gapless pair
  · rw [hnew]
    refine gapless_extend (h.gapless pair) (fun v hv => ?_) (fun v hv u hu => ?_)
      (fun v hv hcurrent => ?_) hn
    · by_cases hcurrent : v.validUntil = none
      · rw [((hf v hv).1 hcurrent).1]
      · rw [(hf v hv).2 hcurrent]
    · have hended : v.validUntil ≠ none := by simp [hu]
      rw [(hf v hv).2 hended]
      exact hu
    · rcases (hf v hv).1 hcurrent with ⟨hvalue, hlt⟩
      rw [hvalue]
      exact ⟨rfl, hlt⟩

/-- Other transactions keep what they have under way when `t` ends. -/
theorem captures_kept {t' : τ} {u : ℤ} (h : ∃ d, s.captures t' = some d ∧ d.now = u)
    (hne : t' ≠ t) : ∃ d, (s.goto t none).captures t' = some d ∧ d.now = u := by
  rcases h with ⟨d, hd, hnow⟩
  exact ⟨d, by rw [goto_captures_of_ne hne, hd], hnow⟩

theorem fxInv_commit (h : FxInv s) {c : Capture} (hc : s.captures t = some c)
    (hphase : c.phase = .fetching) :
    FxInv { s.goto t none with rows := s.rows.map (StoredRow.commit t) } := by
  -- Of a row with an expiry left, or still being inserted, nothing has changed.
  have hexpiry : ∀ a : StoredRow τ, ∀ t' u, (a.commit t).expiry = some (t', u) →
      a.expiry = some (t', u) ∧ t' ≠ t ∧ a.value t = a.row := by
    intro a t' u hu
    rcases expiry_kept.mp hu with ⟨hold, hne⟩
    refine ⟨hold, hne, value_of_not_ended fun v hv => ?_⟩
    rw [hold, Option.some.injEq, Prod.mk.injEq] at hv
    exact hne hv.1
  have hinserted : ∀ a ∈ s.rows, ∀ t', (a.commit t).insertedBy = some t' →
      a.insertedBy = some t' ∧ t' ≠ t ∧ a.value t = a.row := by
    intro a ha t' hin
    rcases commit_insertedBy.mp hin with ⟨hold, hne⟩
    refine ⟨hold, hne, value_of_not_ended fun v hv => ?_⟩
    rw [(h.expiring a ha t v hv).1] at hold
    cases hold
  refine ⟨gapless_commit h hc hphase, ?_, ?_, ?_, ?_, ?_, ?_⟩
  · intro x hx
    rcases List.mem_map.mp hx with ⟨a, ha, rfl⟩
    exact h.stamped a ha
  · intro x hx t' u hu
    rcases List.mem_map.mp hx with ⟨a, ha, rfl⟩
    rcases hexpiry a t' u hu with ⟨hold, hne, hvalue⟩
    rcases h.expiring a ha t' u hold with ⟨hcommitted, hcurrent, hlt, hcapture⟩
    rw [commit_row, hvalue]
    refine ⟨?_, hcurrent, hlt, captures_kept hcapture hne⟩
    simp [StoredRow.commit, hcommitted]
  · intro x hx t' hin
    rcases List.mem_map.mp hx with ⟨a, ha, rfl⟩
    rcases hinserted a ha t' hin with ⟨hold, hne, hvalue⟩
    rcases h.inserting a ha t' hold with ⟨hcurrent, hcapture⟩
    rw [commit_row, hvalue]
    exact ⟨hcurrent, captures_kept hcapture hne⟩
  · refine List.pairwise_map.mpr (h.last.imp fun {a b} hab hin => ?_)
    rcases Option.ne_none_iff_exists'.mp hin with ⟨t', ht'⟩
    refine hab ?_
    rw [(commit_insertedBy.mp ht').1]
    simp
  · intro n hn t' hin x hx hxcommitted hxpair hxcurrent
    rcases List.mem_map.mp hn with ⟨n', hn', rfl⟩
    rcases List.mem_map.mp hx with ⟨a, ha, rfl⟩
    rcases hinserted n' hn' t' hin with ⟨hold, hne, _⟩
    -- A row `t` has just inserted is of another pair.
    have hcommitted : a.insertedBy = none := by
      cases hia : a.insertedBy with
      | none => rfl
      | some t'' =>
          have heq : a = n' := inserted_unique h ha hn' hxpair (by simp [hia]) (by simp [hold])
          rw [← heq] at hin
          rw [hin] at hxcommitted
          cases hxcommitted
    have hend : ∀ u, a.expiry ≠ some (t, u) := by
      intro u hu
      rw [commit_row, StoredRow.value, endedBy_eq_some.mpr hu] at hxcurrent
      cases hxcurrent
    rw [commit_row, value_of_not_ended hend] at hxcurrent
    rcases h.ended n' hn' t' hold a ha hcommitted hxpair hxcurrent with ⟨u, hu⟩
    exact ⟨u, expiry_kept.mpr ⟨hu, hne⟩⟩
  · -- A row that is being inserted stays so; only rows of `t` are published.
    intro x hx t' u hu d hd
    rcases List.mem_map.mp hx with ⟨a, ha, rfl⟩
    rcases hexpiry a t' u hu with ⟨hold, hne, _⟩
    have hd' := (goto_captures_of_ne hne).symm.trans hd
    rcases h.replaced a ha t' u hold d hd' with hat | ⟨n, hn, hin, hsame⟩
    · exact Or.inl hat
    · exact Or.inr ⟨n.commit t, List.mem_map_of_mem hn, commit_insertedBy.mpr ⟨hin, hne⟩, hsame⟩

/-! ### Rolling back -/

theorem fxInv_rollback (h : FxInv s) :
    FxInv { s.goto t none with
      rows := (s.rows.filter fun r => decide (r.insertedBy ≠ some t)).map
        (StoredRow.rollback t) } := by
  have hmem : ∀ x, x ∈ (s.rows.filter fun r => decide (r.insertedBy ≠ some t)).map
      (StoredRow.rollback t) ↔ ∃ a ∈ s.rows, a.insertedBy ≠ some t ∧ a.rollback t = x := by
    intro x
    simp [and_assoc]
  refine ⟨fun p => ?_, ?_, ?_, ?_, ?_, ?_, ?_⟩
  · -- What `t` has written was never read by others.
    have hsame : FxDb.committed { s.goto t none with
        rows := (s.rows.filter fun r => decide (r.insertedBy ≠ some t)).map
          (StoredRow.rollback t) } = s.committed := by
      unfold FxDb.committed
      rw [List.filterMap_map, List.filterMap_filter]
      refine List.filterMap_congr fun a _ => ?_
      -- A row that goes was not committed.
      by_cases hin : a.insertedBy = some t
      · simp [hin, StoredRow.committed]
      · simp [hin, StoredRow.committed]
    rw [FxDb.snapshotsOf, hsame]
    exact h.gapless p
  · intro x hx
    rcases (hmem x).mp hx with ⟨a, ha, _, rfl⟩
    exact h.stamped a ha
  · intro x hx t' u hu
    rcases (hmem x).mp hx with ⟨a, ha, _, rfl⟩
    rcases expiry_kept.mp hu with ⟨hold, hne⟩
    rcases h.expiring a ha t' u hold with ⟨hcommitted, hcurrent, hlt, hcapture⟩
    exact ⟨hcommitted, hcurrent, hlt, captures_kept hcapture hne⟩
  · intro x hx t' hin
    rcases (hmem x).mp hx with ⟨a, ha, hnot, rfl⟩
    rcases h.inserting a ha t' hin with ⟨hcurrent, hcapture⟩
    refine ⟨hcurrent, captures_kept hcapture ?_⟩
    rintro rfl
    exact hnot hin
  · exact List.pairwise_map.mpr (h.last.filter _)
  · intro n hn t' hin x hx hxcommitted hxpair hxcurrent
    rcases (hmem n).mp hn with ⟨n', hn', hnot, rfl⟩
    rcases (hmem x).mp hx with ⟨a, ha, _, rfl⟩
    rcases h.ended n' hn' t' hin a ha hxcommitted hxpair hxcurrent with ⟨u, hu⟩
    refine ⟨u, expiry_kept.mpr ⟨hu, ?_⟩⟩
    rintro rfl
    exact hnot hin
  · -- The row that replaces it is of the same transaction, so it stays too.
    intro x hx t' u hu d hd
    rcases (hmem x).mp hx with ⟨a, ha, _, rfl⟩
    rcases expiry_kept.mp hu with ⟨hold, hne⟩
    have hd' := (goto_captures_of_ne hne).symm.trans hd
    rcases h.replaced a ha t' u hold d hd' with hat | ⟨n, hn, hin, hsame⟩
    · exact Or.inl hat
    · refine Or.inr ⟨n.rollback t, (hmem _).mpr ⟨n, hn, ?_, rfl⟩, hin, hsame⟩
      rw [hin]
      exact fun heq => hne (Option.some.inj heq)

/-! ### Every step -/

theorem fxInv_step (h : FxInv s) (hstep : Step s s') : FxInv s' := by
  cases hstep with
  | begin t now hnone => exact fxInv_begin h hnone _
  | fetchFailed t c pair rest hc hphase hpairs => exact fxInv_goto h hc rfl fun p hp => hp
  | fetched t c pair rest rate hc hphase hpairs hrate =>
      refine fxInv_goto h hc rfl fun p hp => ?_
      rw [hphase] at hp
      cases hp
  | expire t c pair rate id found pre r post hc hphase hrows hid hcommitted hfree hpair hcurrent
      hcheck =>
      exact fxInv_expire h hc hphase hrows hcommitted hfree hpair hcurrent hcheck
  | passOver t c pair rate id found r hc hphase hr hid hcommitted hfree hended =>
      refine fxInv_goto h hc rfl fun p hp => ?_
      rw [hphase] at hp
      exact hp
  | expired t c pair rate hc hphase =>
      refine fxInv_goto h hc rfl fun p hp => ?_
      rw [hphase] at hp
      exact hp
  | insert t c pair rate hc hphase hunique hpositive hrange =>
      exact fxInv_insert h hc hphase hunique
  | commit t c hc hphase hpairs => exact fxInv_commit h hc hphase
  | rollback t c hc => exact fxInv_rollback h

theorem fxInv_of_reachable (h : Transition.Reachable Initial Step s) : FxInv s :=
  Transition.invariant_of_step (I := FxInv) (fun _ h => fxInv_initial h)
    (fun _ _ h hstep => fxInv_step h hstep) h

end Chain

section Lookups

variable {rows : List Snapshot} {pair : String}

/-- The latest of some rows is one that none of them is later than. -/
theorem latest_spec (hne : rows ≠ []) :
    ∃ m ∈ rows, latest rows = [m] ∧ ∀ b ∈ rows, b.capturedAt ≤ m.capturedAt := by
  have hperm := List.mergeSort_perm rows fun a b => decide (b.capturedAt ≤ a.capturedAt)
  have hsorted : (rows.mergeSort fun a b => decide (b.capturedAt ≤ a.capturedAt)).Pairwise
      fun a b => decide (b.capturedAt ≤ a.capturedAt) = true :=
    List.pairwise_mergeSort (fun a b c hab hbc => by simp only [decide_eq_true_eq] at *; omega)
      (fun a b => by simp only [Bool.or_eq_true, decide_eq_true_eq]; omega) rows
  unfold latest
  cases hl : rows.mergeSort fun a b => decide (b.capturedAt ≤ a.capturedAt) with
  | nil =>
      rw [hl] at hperm
      exact absurd hperm.symm.eq_nil hne
  | cons m rest =>
      rw [hl] at hperm hsorted
      refine ⟨m, hperm.mem_iff.mp List.mem_cons_self, rfl, fun b hb => ?_⟩
      rcases List.mem_cons.mp (hperm.mem_iff.mpr hb) with rfl | htail
      · exact le_refl _
      · exact of_decide_eq_true ((List.pairwise_cons.mp hsorted).1 b htail)

/-- A snapshot at or before the time is preferred to one after it. -/
theorem getFxRateAt_of_before {atTime : ℤ} {m : Snapshot}
    (h : latest (rows.filter fun r =>
      decide (r.currencyPair = pair ∧ r.capturedAt ≤ atTime)) = [m]) :
    getFxRateAt rows pair atTime = some (m.id, m.rate) := by
  unfold getFxRateAt
  simp only [h, List.map_cons, List.map_nil, List.cons_append, List.nil_append]
  rw [List.mergeSort_of_pairwise]
  · rfl
  · refine List.pairwise_cons.mpr ⟨fun b _ => ?_, ?_⟩
    · exact decide_eq_true (Nat.zero_le _)
    · -- There is one later candidate at most; all have the same preference anyway.
      refine List.pairwise_map.mpr (List.Pairwise.imp (fun _ => ?_) (List.pairwise_of_forall
        (R := fun _ _ => True) fun _ _ => trivial))
      exact decide_eq_true (le_refl 1)

/-- In a timeline the lookup finds the one snapshot in force. -/
theorem getFxRateAt_eq (hgapless : Gapless Snapshot.validFrom Snapshot.validUntil
      (rows.filter fun r => decide (r.currencyPair = pair)))
    (hstamped : ∀ r ∈ rows, r.validFrom = r.capturedAt) {atTime : ℤ} {a : Snapshot}
    (ha : a ∈ rows.filter fun r => decide (r.currencyPair = pair))
    (hbefore : a.capturedAt ≤ atTime) :
    ∃ m ∈ rows.filter fun r => decide (r.currencyPair = pair),
      getFxRateAt rows pair atTime = some (m.id, m.rate) ∧
      Covers Snapshot.validFrom Snapshot.validUntil m atTime := by
  have hstart : ∀ r ∈ rows.filter (fun r => decide (r.currencyPair = pair)),
      r.validFrom = r.capturedAt := fun r hr => hstamped r (List.mem_filter.mp hr).1
  have hmem : ∀ r, r ∈ (rows.filter fun r =>
      decide (r.currencyPair = pair ∧ r.capturedAt ≤ atTime)) ↔
        r ∈ rows.filter (fun r => decide (r.currencyPair = pair)) ∧ r.capturedAt ≤ atTime := by
    intro r
    simp [and_assoc]
  rcases latest_spec (List.ne_nil_of_mem ((hmem a).mpr ⟨ha, hbefore⟩)) with ⟨m, hm, hlatest, hmax⟩
  rcases (hmem m).mp hm with ⟨hml, hmbefore⟩
  rcases exists_covering (t := atTime) hgapless ha (by rw [hstart a ha]; exact hbefore) with
    ⟨c, hc, hcovers, hlast⟩
  -- The snapshot in force is the last that has started, and so is the one found.
  have hcbefore : c.capturedAt ≤ atTime := by
    rw [← hstart c hc]
    exact hcovers.1
  have hle : c.capturedAt ≤ m.capturedAt := hmax c ((hmem c).mpr ⟨hc, hcbefore⟩)
  have hge : m.validFrom ≤ c.validFrom := hlast m hml (by rw [hstart m hml]; exact hmbefore)
  have heq : m = c := by
    refine eq_of_start hgapless hml hc (le_antisymm hge ?_)
    rw [hstart c hc, hstart m hml]
    exact hle
  refine ⟨m, hml, getFxRateAt_of_before hlatest, ?_⟩
  rw [heq]
  exact hcovers

/-- In a timeline the current row is the last one. -/
theorem getCurrentRate_eq (hgapless : Gapless Snapshot.validFrom Snapshot.validUntil
      (rows.filter fun r => decide (r.currencyPair = pair))) :
    getCurrentRate rows pair
      = .ok ((rows.filter fun r => decide (r.currencyPair = pair)).getLast?.map
          fun r => (r.id, r.rate)) := by
  have hcurrent : (rows.filter fun r => decide (r.currencyPair = pair ∧ r.validUntil = none))
      = (rows.filter fun r => decide (r.currencyPair = pair)).getLast?.toList := by
    rw [← open_eq_last hgapless, List.filter_filter]
    refine List.filter_congr fun r _ => ?_
    cases hu : r.validUntil with
    | none => simp
    | some u => simp
  unfold getCurrentRate
  rw [hcurrent]
  cases (rows.filter fun r => decide (r.currencyPair = pair)).getLast? with
  | none => rfl
  | some r => rfl

end Lookups

section Result

variable {τ : Type} [DecidableEq τ] {s : FxDb τ}

/-- Whatever captures have run, beside each other and with whatever clocks: the
    committed snapshots of a pair, in order of `captured_at`, are valid from
    there, each until the next one and the last without an end; the lookup at a
    time finds the one snapshot in force then, if one was captured by then; and
    the current rate is that of the latest. -/
theorem fx_snapshot_chain (h : Transition.Reachable Initial Step s) (pair : String) :
    (∀ l, l.Perm (s.snapshotsOf pair) → l.Pairwise (fun a b => a.capturedAt ≤ b.capturedAt) →
      (∀ r ∈ l, r.validFrom = r.capturedAt) ∧
        Gapless Snapshot.validFrom Snapshot.validUntil l) ∧
    (∀ atTime, (∃ r ∈ s.snapshotsOf pair, r.capturedAt ≤ atTime) →
      ∃ r ∈ s.snapshotsOf pair, getFxRateAt s.committed pair atTime = some (r.id, r.rate) ∧
        Covers Snapshot.validFrom Snapshot.validUntil r atTime ∧
        ∀ r' ∈ s.snapshotsOf pair,
          Covers Snapshot.validFrom Snapshot.validUntil r' atTime → r' = r) ∧
    (s.snapshotsOf pair = [] → getCurrentRate s.committed pair = .ok none) ∧
    (∀ r ∈ s.snapshotsOf pair, (∀ r' ∈ s.snapshotsOf pair, r'.capturedAt ≤ r.capturedAt) →
      getCurrentRate s.committed pair = .ok (some (r.id, r.rate))) := by
  have hinv := fxInv_of_reachable h
  have hgapless := hinv.gapless pair
  have hstamped : ∀ r ∈ s.committed, r.validFrom = r.capturedAt := by
    intro r hr
    rcases List.mem_filterMap.mp hr with ⟨a, ha, hcommitted⟩
    rw [← (committed_eq_some.mp hcommitted).2]
    exact hinv.stamped a ha
  have hstart : ∀ r ∈ s.snapshotsOf pair, r.validFrom = r.capturedAt :=
    fun r hr => hstamped r (List.mem_filter.mp hr).1
  refine ⟨fun l hperm hsorted => ?_, ?_, fun hnone => ?_, fun r hr hlatest => ?_⟩
  · have hl : ∀ r ∈ l, r.validFrom = r.capturedAt := fun r hr => hstart r (hperm.mem_iff.mp hr)
    have heq : l = s.snapshotsOf pair := by
      refine gapless_of_perm hgapless hperm (hsorted.imp_of_mem fun ha hb hab => ?_)
      rw [hl _ ha, hl _ hb]
      exact hab
    refine ⟨hl, ?_⟩
    rw [heq]
    exact hgapless
  · rintro atTime ⟨a, ha, hbefore⟩
    rcases getFxRateAt_eq hgapless hstamped ha hbefore with ⟨m, hm, hfound, hcovers⟩
    exact ⟨m, hm, hfound, hcovers, fun r' hr' hcovers' =>
      covering_unique hgapless hr' hm hcovers' hcovers⟩
  · rw [getCurrentRate_eq hgapless]
    rw [FxDb.snapshotsOf] at hnone
    rw [hnone]
    rfl
  · rw [getCurrentRate_eq hgapless]
    cases hlast : (s.snapshotsOf pair).getLast? with
    | none =>
        rw [List.getLast?_eq_none_iff.mp hlast] at hr
        cases hr
    | some m =>
        have hm := List.mem_of_getLast? hlast
        have heq : m = r := by
          refine eq_of_start hgapless hm hr (le_antisymm ?_ (getLast?_latest hgapless hlast r hr))
          rw [hstart m hm, hstart r hr]
          exact hlatest m hm
        rw [FxDb.snapshotsOf] at hlast
        rw [hlast, heq]
        rfl

end Result

section Exhibit

/-- The rate of the exhibit. -/
def thousandth : ℚ := 1 / 1000

def emptyDb : FxDb Nat where
  rows := []
  nextId := 0
  captures _ := none

/-- The snapshots of two captures an hour apart. -/
def firstSnapshot : Snapshot :=
  { newSnapshot 0 "NGN/USD" thousandth 0 with validUntil := some (hours 1) }

def secondSnapshot : Snapshot := newSnapshot 1 "NGN/USD" thousandth (hours 1)

/-- Each capture gets a rate for dollars only. Just before the second the first
    is in force. -/
theorem fx_snapshot_chain_twice : ∃ s : FxDb Nat, Transition.Reachable Initial Step s ∧
    s.snapshotsOf "NGN/USD" = [firstSnapshot, secondSnapshot] ∧
    getFxRateAt s.committed "NGN/USD" (hours 1 - 1)
      = some (firstSnapshot.id, firstSnapshot.rate) ∧
    getCurrentRate s.committed "NGN/USD"
      = .ok (some (secondSnapshot.id, secondSnapshot.rate)) := by
  have h0 : Transition.Reachable Initial Step emptyDb :=
    Transition.reachable_of_init ⟨rfl, fun _ => rfl⟩
  have h1 := Transition.reachable_step h0 (Step.begin _ 0 0 rfl)
  have h2 := Transition.reachable_step h1
    (Step.fetched _ 0 _ "NGN/USD" ["NGN/GBP", "NGN/EUR"] thousandth rfl rfl rfl (by decide +kernel))
  have h3 := Transition.reachable_step h2 (Step.expired _ 0 _ "NGN/USD" thousandth rfl rfl)
  have h4 := Transition.reachable_step h3 (Step.insert _ 0 _ "NGN/USD" thousandth rfl rfl
    (fun r hr => by cases hr) (by decide +kernel) (by decide +kernel))
  have h5 := Transition.reachable_step h4
    (Step.fetchFailed _ 0 _ "NGN/GBP" ["NGN/EUR"] rfl rfl rfl)
  have h6 := Transition.reachable_step h5 (Step.fetchFailed _ 0 _ "NGN/EUR" [] rfl rfl rfl)
  have h7 := Transition.reachable_step h6 (Step.commit _ 0 _ rfl rfl rfl)
  have h8 := Transition.reachable_step h7 (Step.begin _ 1 (hours 1) rfl)
  have h9 := Transition.reachable_step h8
    (Step.fetched _ 1 _ "NGN/USD" ["NGN/GBP", "NGN/EUR"] thousandth rfl rfl rfl (by decide +kernel))
  have h10 := Transition.reachable_step h9 (Step.expire _ 1 _ "NGN/USD" thousandth 0 [] [] _ []
    rfl rfl rfl rfl rfl rfl rfl rfl (by decide))
  have h11 := Transition.reachable_step h10 (Step.expired _ 1 _ "NGN/USD" thousandth rfl rfl)
  have h12 := Transition.reachable_step h11 (Step.insert _ 1 _ "NGN/USD" thousandth rfl rfl
    (fun r hr _ _ => ⟨hours 1, by rw [List.mem_singleton.mp hr]⟩) (by decide +kernel)
    (by decide +kernel))
  have h13 := Transition.reachable_step h12
    (Step.fetchFailed _ 1 _ "NGN/GBP" ["NGN/EUR"] rfl rfl rfl)
  have h14 := Transition.reachable_step h13 (Step.fetchFailed _ 1 _ "NGN/EUR" [] rfl rfl rfl)
  have h15 := Transition.reachable_step h14 (Step.commit _ 1 _ rfl rfl rfl)
  rcases fx_snapshot_chain h15 "NGN/USD" with ⟨_, hat, _, hcurrent⟩
  refine ⟨_, h15, rfl, ?_, hcurrent secondSnapshot (List.mem_cons_of_mem _ List.mem_cons_self) ?_⟩
  · rcases hat (hours 1 - 1) ⟨firstSnapshot, List.mem_cons_self, by decide⟩ with
      ⟨m, hm, hfound, hcovers, _⟩
    rcases List.mem_cons.mp hm with rfl | hm
    · exact hfound
    · -- The second has not started yet.
      rw [List.mem_singleton.mp hm] at hcovers
      exact absurd hcovers.1 (by decide)
  · intro r hr
    rcases List.mem_cons.mp hr with rfl | hr
    · decide
    · rw [List.mem_singleton.mp hr]
      exact le_refl _

end Exhibit

end Fx

end MmrEngine
