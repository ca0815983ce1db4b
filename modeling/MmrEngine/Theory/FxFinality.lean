import MmrEngine.Theory.FxChain

/-!
# Final Rates

From when on the rate at a point in time is settled.

A capture commits a snapshot that is later than all there were (`extends_step`).
So as soon as one is there that was captured at a time or after it, no snapshot
can come that the lookup at that time would prefer: neither one before the time,
nor an earlier one after it. A message that is processed again, however late,
is converted at the rate it was converted at.

The lookup is written with two sorts; what it finds is said by `Answer` without
any, and by that it can be compared between two states.

## Main definitions

* `Answer`: What the lookup at a time may find.
* `Extends`: Later snapshots have come.

## Theorems

* `answer_lookup`, `answer_unique`: The lookup finds the answer, the only one.
* `extends_step`: What a step does to the snapshots of a pair.
* `fx_rate_final`: The rate at a time does not change any more.
-/

namespace MmrEngine

namespace Fx

open Timeline

section Answers

variable {rows l l' : List Snapshot} {pair : String} {atTime : ℤ} {a b : Option (Nat × ℚ)}

/-- The snapshot in force, or the first one if it was captured shortly after, or
    none. -/
inductive Answer (l : List Snapshot) (atTime : ℤ) : Option (Nat × ℚ) → Prop
  | before (m : Snapshot) (hm : m ∈ l) (hbefore : m.capturedAt ≤ atTime)
      (hlatest : ∀ r ∈ l, r.capturedAt ≤ atTime → r.capturedAt ≤ m.capturedAt) :
      Answer l atTime (some (m.id, m.rate))
  | shortlyAfter (m : Snapshot) (hm : m ∈ l) (hafter : atTime < m.capturedAt)
      (htolerance : m.capturedAt ≤ atTime + forwardRateTolerance)
      (hfirst : ∀ r ∈ l, m.capturedAt ≤ r.capturedAt) : Answer l atTime (some (m.id, m.rate))
  | none (hlate : ∀ r ∈ l, atTime + forwardRateTolerance < r.capturedAt) : Answer l atTime none

/-- The earliest of some rows is one that none of them is before. -/
theorem earliest_spec (hne : rows ≠ []) :
    ∃ m ∈ rows, earliest rows = [m] ∧ ∀ b ∈ rows, m.capturedAt ≤ b.capturedAt := by
  have hperm := List.mergeSort_perm rows fun a b => decide (a.capturedAt ≤ b.capturedAt)
  have hsorted : (rows.mergeSort fun a b => decide (a.capturedAt ≤ b.capturedAt)).Pairwise
      fun a b => decide (a.capturedAt ≤ b.capturedAt) = true :=
    List.pairwise_mergeSort (fun a b c hab hbc => by simp only [decide_eq_true_eq] at *; omega)
      (fun a b => by simp only [Bool.or_eq_true, decide_eq_true_eq]; omega) rows
  unfold earliest
  cases hl : rows.mergeSort fun a b => decide (a.capturedAt ≤ b.capturedAt) with
  | nil =>
      rw [hl] at hperm
      exact absurd hperm.symm.eq_nil hne
  | cons m rest =>
      rw [hl] at hperm hsorted
      refine ⟨m, hperm.mem_iff.mp List.mem_cons_self, rfl, fun b hb => ?_⟩
      rcases List.mem_cons.mp (hperm.mem_iff.mpr hb) with rfl | htail
      · exact le_refl _
      · exact of_decide_eq_true ((List.pairwise_cons.mp hsorted).1 b htail)

/-- What the lookup finds is an answer. -/
theorem answer_lookup (rows : List Snapshot) (pair : String) (atTime : ℤ) :
    Answer (rows.filter fun r => decide (r.currencyPair = pair)) atTime
      (getFxRateAt rows pair atTime) := by
  have hmem : ∀ r, r ∈ rows.filter (fun r => decide (r.currencyPair = pair)) ↔
      r ∈ rows ∧ r.currencyPair = pair := by
    intro r
    rw [List.mem_filter, decide_eq_true_eq]
  by_cases hbefore : (rows.filter fun r =>
      decide (r.currencyPair = pair ∧ r.capturedAt ≤ atTime)) = []
  · have hnobody : ∀ r ∈ rows.filter (fun r => decide (r.currencyPair = pair)),
        atTime < r.capturedAt := by
      intro r hr
      have hnot := List.filter_eq_nil_iff.mp hbefore r ((hmem r).mp hr).1
      simp only [decide_eq_true_eq, ((hmem r).mp hr).2, true_and] at hnot
      omega
    by_cases hafter : (rows.filter fun r => decide (r.currencyPair = pair ∧
        atTime < r.capturedAt ∧ r.capturedAt ≤ atTime + forwardRateTolerance)) = []
    · have hfound : getFxRateAt rows pair atTime = none := by
        rw [getFxRateAt, hbefore, hafter]
        simp only [latest, earliest, List.mergeSort_nil, List.take_nil, List.map_nil,
          List.append_nil, List.head?_nil, Option.map_none]
      rw [hfound]
      refine .none fun r hr => ?_
      have hnot := List.filter_eq_nil_iff.mp hafter r ((hmem r).mp hr).1
      simp only [decide_eq_true_eq, ((hmem r).mp hr).2, hnobody r hr, true_and] at hnot
      omega
    · rcases earliest_spec hafter with ⟨m, hm, hearliest, hmin⟩
      rcases List.mem_filter.mp hm with ⟨hmrows, hmpair⟩
      rw [decide_eq_true_eq] at hmpair
      have hfound : getFxRateAt rows pair atTime = some (m.id, m.rate) := by
        rw [getFxRateAt, hbefore, hearliest]
        simp only [latest, List.mergeSort_nil, List.take_nil, List.map_nil, List.nil_append,
          List.map_cons, List.mergeSort_singleton, List.head?_cons, Option.map_some]
      rw [hfound]
      refine .shortlyAfter m ((hmem m).mpr ⟨hmrows, hmpair.1⟩) hmpair.2.1 hmpair.2.2
        fun r hr => ?_
      -- A row that is not among the candidates is later than all of them.
      by_cases hwithin : r.capturedAt ≤ atTime + forwardRateTolerance
      · exact hmin r (List.mem_filter.mpr ⟨((hmem r).mp hr).1,
          decide_eq_true ⟨((hmem r).mp hr).2, hnobody r hr, hwithin⟩⟩)
      · have := hmpair.2.2
        omega
  · rcases latest_spec hbefore with ⟨m, hm, hlatest, hmax⟩
    rcases List.mem_filter.mp hm with ⟨hmrows, hmpair⟩
    rw [decide_eq_true_eq] at hmpair
    rw [getFxRateAt_of_before hlatest]
    exact .before m ((hmem m).mpr ⟨hmrows, hmpair.1⟩) hmpair.2 fun r hr hle =>
      hmax r (List.mem_filter.mpr ⟨((hmem r).mp hr).1, decide_eq_true ⟨((hmem r).mp hr).2, hle⟩⟩)

/-- Where no two snapshots were captured at one time there is one answer. -/
theorem answer_unique
    (hdistinct : ∀ r ∈ l, ∀ r' ∈ l, r.capturedAt = r'.capturedAt → r = r')
    (ha : Answer l atTime a) (hb : Answer l atTime b) : a = b := by
  cases ha with
  | before m hm hbefore hlatest =>
      cases hb with
      | before m' hm' hbefore' hlatest' =>
          have h₁ := hlatest m' hm' hbefore'
          have h₂ := hlatest' m hm hbefore
          rw [hdistinct m hm m' hm' (by omega)]
      | shortlyAfter m' hm' hafter' htolerance' hfirst' =>
          have := hfirst' m hm
          omega
      | none hlate' =>
          have := hlate' m hm
          unfold forwardRateTolerance hours at this
          omega
  | shortlyAfter m hm hafter htolerance hfirst =>
      cases hb with
      | before m' hm' hbefore' hlatest' =>
          have := hfirst m' hm'
          omega
      | shortlyAfter m' hm' hafter' htolerance' hfirst' =>
          have h₁ := hfirst m' hm'
          have h₂ := hfirst' m hm
          rw [hdistinct m hm m' hm' (by omega)]
      | none hlate' =>
          have := hlate' m hm
          omega
  | none hlate =>
      cases hb with
      | before m' hm' hbefore' hlatest' =>
          have := hlate m' hm'
          unfold forwardRateTolerance hours at this
          omega
      | shortlyAfter m' hm' hafter' htolerance' hfirst' =>
          have := hlate m' hm'
          omega
      | none hlate' => rfl

/-- The columns the lookup reads. -/
def lookupColumns (r : Snapshot) : Nat × ℚ × ℤ := (r.id, r.rate, r.capturedAt)

/-- The snapshots there were are still there, and the others came later. -/
def Extends (l l' : List Snapshot) : Prop :=
  (∀ r ∈ l, ∃ r' ∈ l', lookupColumns r' = lookupColumns r) ∧
    ∀ r' ∈ l', (∃ r ∈ l, lookupColumns r = lookupColumns r') ∨
      ∀ r ∈ l, r.capturedAt < r'.capturedAt

theorem extends_refl (l : List Snapshot) : Extends l l :=
  ⟨fun r hr => ⟨r, hr, rfl⟩, fun r hr => Or.inl ⟨r, hr, rfl⟩⟩

theorem capturedAt_of_columns {r r' : Snapshot} (h : lookupColumns r = lookupColumns r') :
    r.capturedAt = r'.capturedAt := (Prod.mk.inj (Prod.mk.inj h).2).2

theorem found_of_columns {r r' : Snapshot} (h : lookupColumns r = lookupColumns r') :
    (r.id, r.rate) = (r'.id, r'.rate) := by
  rcases Prod.mk.inj h with ⟨hid, hrest⟩
  rw [hid, (Prod.mk.inj hrest).1]

theorem extends_trans {l'' : List Snapshot} (h : Extends l l') (h' : Extends l' l'') :
    Extends l l'' := by
  refine ⟨fun r hr => ?_, fun r'' hr'' => ?_⟩
  · rcases h.1 r hr with ⟨r', hr', hsame⟩
    rcases h'.1 r' hr' with ⟨r'', hr'', hsame'⟩
    exact ⟨r'', hr'', hsame'.trans hsame⟩
  · rcases h'.2 r'' hr'' with ⟨r', hr', hsame'⟩ | hlater
    · rcases h.2 r' hr' with ⟨r, hr, hsame⟩ | hlater
      · exact Or.inl ⟨r, hr, hsame.trans hsame'⟩
      · refine Or.inr fun r hr => ?_
        rw [← capturedAt_of_columns hsame']
        exact hlater r hr
    · refine Or.inr fun r hr => ?_
      rcases h.1 r hr with ⟨r', hr', hsame⟩
      rw [← capturedAt_of_columns hsame]
      exact hlater r' hr'

/-- Once a snapshot at or after the time is there, the answer stays. -/
theorem answer_extends (h : Extends l l') (hsettled : ∃ v ∈ l, atTime ≤ v.capturedAt)
    (ha : Answer l atTime a) : Answer l' atTime a := by
  rcases hsettled with ⟨v, hv, hle⟩
  cases ha with
  | before m hm hbefore hlatest =>
      rcases h.1 m hm with ⟨m', hm', hsame⟩
      have htime := capturedAt_of_columns hsame
      rw [← found_of_columns hsame]
      refine .before m' hm' (by omega) fun r' hr' hr'before => ?_
      rcases h.2 r' hr' with ⟨r, hr, hsame'⟩ | hlater
      · have := capturedAt_of_columns hsame'
        have := hlatest r hr (by omega)
        omega
      · -- A new one is later than `v`, so it can at most be at the time itself.
        have := hlater v hv
        omega
  | shortlyAfter m hm hafter htolerance hfirst =>
      rcases h.1 m hm with ⟨m', hm', hsame⟩
      have htime := capturedAt_of_columns hsame
      rw [← found_of_columns hsame]
      refine .shortlyAfter m' hm' (by omega) (by omega) fun r' hr' => ?_
      rcases h.2 r' hr' with ⟨r, hr, hsame'⟩ | hlater
      · have := capturedAt_of_columns hsame'
        have := hfirst r hr
        omega
      · have := hlater m hm
        omega
  | none hlate =>
      refine .none fun r' hr' => ?_
      rcases h.2 r' hr' with ⟨r, hr, hsame'⟩ | hlater
      · have := capturedAt_of_columns hsame'
        have := hlate r hr
        omega
      · have := hlater v hv
        have := hlate v hv
        omega

end Answers

section Runs

variable {τ : Type} [DecidableEq τ] {s s' : FxDb τ}

/-- What is not committed is not seen. -/
theorem committed_rollback (rows : List (StoredRow τ)) (t : τ) :
    ((rows.filter fun r => decide (r.insertedBy ≠ some t)).map
      (StoredRow.rollback t)).filterMap StoredRow.committed
        = rows.filterMap StoredRow.committed := by
  induction rows with
  | nil => rfl
  | cons r rows ih =>
      by_cases hown : r.insertedBy = some t
      · have hhidden : r.committed = none := by
          rw [StoredRow.committed, hown]
        rw [List.filter_cons_of_neg (by simp [hown]), ih, List.filterMap_cons_none hhidden]
      · have hsame : (r.rollback t).committed = r.committed := rfl
        rw [List.filter_cons_of_pos (by simp [hown]), List.map_cons, List.filterMap_cons,
          List.filterMap_cons, ih, hsame]

/-- Only a commit changes what others read. -/
theorem committed_step (h : Step s s') : s'.committed = s.committed ∨
    ∃ t c, s.captures t = some c ∧ c.phase = .fetching ∧
      s' = { s.goto t none with rows := s.rows.map (StoredRow.commit t) } := by
  cases h with
  | expire t c pair rate id found pre r post hc hphase hrows hid hcommitted hfree hpair hcurrent
      hcheck =>
      left
      have hsame : (StoredRow.committed { r with expiry := some (t, c.now) }) = r.committed := rfl
      rw [FxDb.committed, FxDb.committed, hrows, List.filterMap_append,
        List.filterMap_append, List.filterMap_cons, List.filterMap_cons, hsame]
  | insert t c pair rate hc hphase hunique hpositive hrange =>
      left
      rw [FxDb.committed, List.filterMap_append]
      exact List.append_nil _
  | commit t c hc hphase hpairs => exact Or.inr ⟨t, c, hc, hphase, rfl⟩
  | rollback t c hc => exact Or.inl (committed_rollback s.rows t)
  | _ => exact Or.inl rfl

omit [DecidableEq τ] in
theorem captured_at_start (hinv : FxInv s) (pair : String) :
    ∀ r ∈ s.snapshotsOf pair, r.validFrom = r.capturedAt := by
  intro r hr
  rcases List.mem_filterMap.mp (List.mem_filter.mp hr).1 with ⟨a, ha, hcommitted⟩
  rw [← (committed_eq_some.mp hcommitted).2]
  exact hinv.stamped a ha

omit [DecidableEq τ] in
/-- No two snapshots of a pair were captured at one time. -/
theorem snapshots_distinct (hinv : FxInv s) (pair : String) :
    ∀ r ∈ s.snapshotsOf pair, ∀ r' ∈ s.snapshotsOf pair, r.capturedAt = r'.capturedAt →
      r = r' := by
  intro r hr r' hr' htime
  refine eq_of_start (hinv.gapless pair) hr hr' ?_
  rw [captured_at_start hinv pair r hr, captured_at_start hinv pair r' hr', htime]

/-- A commit puts a later snapshot after those there were, or none. -/
theorem extends_step (hinv : FxInv s) (h : Step s s') (pair : String) :
    Extends (s.snapshotsOf pair) (s'.snapshotsOf pair) := by
  have hinv' := fxInv_step hinv h
  rcases committed_step h with hsame | ⟨t, c, hc, hphase, rfl⟩
  · rw [FxDb.snapshotsOf, FxDb.snapshotsOf, hsame]
    exact extends_refl _
  · rcases snapshotsOf_of_commit hinv hc hphase pair with hsame | ⟨n, f, -, hnew, hf⟩
    · rw [hsame]
      exact extends_refl _
    · have hcolumns : ∀ v ∈ s.snapshotsOf pair, lookupColumns (f v) = lookupColumns v := by
        intro v hv
        by_cases hcurrent : v.validUntil = none
        · rw [((hf v hv).1 hcurrent).1]
          rfl
        · rw [(hf v hv).2 hcurrent]
      have hsorted := gapless_sorted (hinv'.gapless pair)
      have hstart := captured_at_start hinv' pair
      rw [hnew] at hsorted hstart ⊢
      refine ⟨fun v hv => ⟨f v, List.mem_append_left _ (List.mem_map_of_mem hv), hcolumns v hv⟩,
        fun r' hr' => ?_⟩
      rcases List.mem_append.mp hr' with hold | hlast
      · rcases List.mem_map.mp hold with ⟨v, hv, rfl⟩
        exact Or.inl ⟨v, hv, (hcolumns v hv).symm⟩
      · refine Or.inr fun v hv => ?_
        have hfv := List.mem_map_of_mem (f := f) hv
        have hlt := (List.pairwise_append.mp hsorted).2.2 (f v) hfv r' hlast
        rw [hstart (f v) (List.mem_append_left _ hfv), hstart r' hr',
          capturedAt_of_columns (hcolumns v hv)] at hlt
        exact hlt

/-- Whatever captures run on, beside each other and with whatever clocks: once a
    snapshot of the pair is committed that was captured at a time or after it,
    the lookup at that time finds the same from then on. -/
theorem fx_rate_final (h : Transition.Reachable Initial Step s)
    (hrun : Relation.ReflTransGen Step s s') {pair : String} {atTime : ℤ}
    (hsettled : ∃ r ∈ s.snapshotsOf pair, atTime ≤ r.capturedAt) :
    getFxRateAt s'.committed pair atTime = getFxRateAt s.committed pair atTime := by
  have hinv := fxInv_of_reachable h
  have hinv' : FxInv s' := by
    rcases h with ⟨s₀, hinit, hrun₀⟩
    exact fxInv_of_reachable ⟨s₀, hinit, hrun₀.trans hrun⟩
  have hextends : Extends (s.snapshotsOf pair) (s'.snapshotsOf pair) :=
    Transition.runs_rel (I := FxInv)
      (R := fun s s' => Extends (s.snapshotsOf pair) (s'.snapshotsOf pair))
      (fun _ => extends_refl _) (fun _ _ _ => extends_trans)
      (fun _ _ hinv hstep => ⟨fxInv_step hinv hstep, extends_step hinv hstep pair⟩) hinv hrun
  exact answer_unique (snapshots_distinct hinv' pair) (answer_lookup _ _ _)
    (answer_extends hextends hsettled (answer_lookup _ _ _))

end Runs

section Exhibit

/-- The row of the first capture, once it has committed. -/
def firstRow : StoredRow Nat where
  row := newSnapshot 0 "NGN/USD" thousandth 0
  insertedBy := none
  expiry := none

theorem first_capture : ∃ s : FxDb Nat, Transition.Reachable Initial Step s ∧
    s.rows = [firstRow] ∧ s.nextId = 1 ∧ s.captures 1 = none := by
  have h0 : Transition.Reachable Initial Step emptyDb :=
    Transition.reachable_of_init ⟨rfl, fun _ => rfl⟩
  have h1 := Transition.reachable_step h0 (Step.begin _ 0 0 rfl)
  have h2 := Transition.reachable_step h1
    (Step.fetched _ 0 _ "NGN/USD" ["NGN/GBP", "NGN/EUR"] thousandth rfl rfl rfl (by decide +kernel))
  have h3 := Transition.reachable_step h2 (Step.expired _ 0 _ "NGN/USD" thousandth rfl rfl)
  have h4 := Transition.reachable_step h3 (Step.insert _ 0 _ "NGN/USD" thousandth rfl rfl
    (fun r hr => by cases hr) (by decide +kernel) (by decide +kernel))
  have h5 := Transition.reachable_step h4
    (Step.fetchFailed _ 0 _ "NGN/GBP" ["NGN/EUR"] rfl rfl rfl)
  have h6 := Transition.reachable_step h5 (Step.fetchFailed _ 0 _ "NGN/EUR" [] rfl rfl rfl)
  have h7 := Transition.reachable_step h6 (Step.commit _ 0 _ rfl rfl rfl)
  exact ⟨_, h7, rfl, rfl, rfl⟩

theorem second_capture {captures : Nat → Option Capture} (hidle : captures 1 = none) :
    ∃ s', Relation.ReflTransGen Step { rows := [firstRow], nextId := 1, captures := captures } s' ∧
      s'.snapshotsOf "NGN/USD" = [firstSnapshot, secondSnapshot] := by
  have r0 : Relation.ReflTransGen Step
      { rows := [firstRow], nextId := 1, captures := captures } _ := .refl
  have r1 := r0.tail (Step.begin _ 1 (hours 1) hidle)
  have r2 := r1.tail (Step.fetched _ 1 _ "NGN/USD" ["NGN/GBP", "NGN/EUR"] thousandth rfl rfl rfl
    (by decide +kernel))
  have r3 := r2.tail (Step.expire _ 1 _ "NGN/USD" thousandth 0 [] [] firstRow [] rfl rfl rfl rfl rfl
    rfl rfl rfl (show (0 : ℤ) < hours 1 by decide))
  have r4 := r3.tail (Step.expired _ 1 _ "NGN/USD" thousandth rfl rfl)
  have r5 := r4.tail (Step.insert _ 1 _ "NGN/USD" thousandth rfl rfl
    (fun r hr _ _ => ⟨hours 1, by rw [List.mem_singleton.mp hr]⟩) (by decide +kernel)
    (by decide +kernel))
  have r6 := r5.tail (Step.fetchFailed _ 1 _ "NGN/GBP" ["NGN/EUR"] rfl rfl rfl)
  have r7 := r6.tail (Step.fetchFailed _ 1 _ "NGN/EUR" [] rfl rfl rfl)
  exact ⟨_, r7.tail (Step.commit _ 1 _ rfl rfl rfl), rfl⟩

/-- The rate of the first capture, asked for before and after the second. -/
theorem fx_rate_final_dollars : ∃ s s' : FxDb Nat, Transition.Reachable Initial Step s ∧
    Relation.ReflTransGen Step s s' ∧ s'.snapshotsOf "NGN/USD" = [firstSnapshot, secondSnapshot] ∧
    getFxRateAt s'.committed "NGN/USD" 0 = getFxRateAt s.committed "NGN/USD" 0 := by
  rcases first_capture with ⟨⟨rows, nextId, captures⟩, hreach, rfl, rfl, hidle⟩
  rcases second_capture hidle with ⟨s', hrun, hafter⟩
  refine ⟨_, s', hreach, hrun, hafter, fx_rate_final hreach hrun ?_⟩
  exact ⟨firstRow.row, List.mem_cons_self, le_refl _⟩

end Exhibit

end Fx

end MmrEngine
