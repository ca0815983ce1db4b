import MmrEngine.Flows.Alerts
import MmrEngine.Lib.Transition

/-!
# One Alert per Discrepancy

What the marks and the events of alerting say about each other, and when a
discrepancy is alerted twice.

The mark and the event of a successful post are written in one transaction, and
nothing else writes either, so the mark says there is an event. That holds in
every reachable state and needs of a run only that what it selected is in the
table.

That there is one event only needs more. A run that records a success does not
look at the mark again, so the number of events grows whether or not another
run has been there since the selection. `Timely` says the mark is still false
when a success is recorded; from timely steps there is at most one event, and
the first step that is not timely makes a second one (`second_of_untimely`).
Where no run starts before the others are finished, every step is timely
(`timely_of_serial`).

## Main definitions

* `flagged`, `sentCount`: The mark and the events of a discrepancy.
* `Timely`: A success is recorded where none has been.
* `AlertInv`, `SerialInv`: What holds of every run, and of runs one at a time.

## Theorems

* `step_cases`: A step records an attempt, or touches neither mark nor event.
* `alertInv_step`: The mark says there is an event.
* `second_of_untimely`: A success recorded again is a second event.
* `timely_of_serial`: Runs that do not overlap are timely.
* `one_alert_per_discrepancy`: The three of them, over whole runs.
-/

namespace MmrEngine

namespace Alerts

open Discrepancy Gold

theorem failure_ne_empty (outcome : PostOutcome) : outcome.failure ≠ some "" := by
  cases outcome with
  | responded statusCode =>
      intro h
      by_cases hcode : statusCode = 200
      · simp [PostOutcome.failure, hcode] at h
      · simp [PostOutcome.failure, hcode] at h
  | raised errorType named =>
      intro h
      exact named (Option.some.inj h)

section Run

variable {D : Type} [DecidableEq D]

/-- `has_alert_sent` of a discrepancy. -/
def flagged (s : System D) (x : D) : Bool := (s.discrepancies.find? x).any AlertRow.hasAlertSent

/-- The event says a message about the discrepancy was sent. -/
def saysSent (x : D) (e : AlertEvent D) : Bool := e.discrepancyId = x && e.status = .sent

/-- How many do. -/
def sentCount (s : System D) (x : D) : Nat := s.events.countP (saysSent x)

/-- The rows a run still has to record. -/
def RunStage.rows : RunStage D → List (AlertRow D)
  | .idle => []
  | .posting rows => rows
  | .recording row _ rest => row :: rest

/-- What the stage is about to record as sent is not marked. -/
def RunStage.Unsent (s : System D) : RunStage D → Prop
  | .recording row outcome _ => outcome.failure = none → flagged s row.id = false
  | _ => True

instance (s : System D) : ∀ stage : RunStage D, Decidable (stage.Unsent s)
  | .recording row outcome _ =>
    inferInstanceAs (Decidable (outcome.failure = none → flagged s row.id = false))
  | .idle => inferInstanceAs (Decidable True)
  | .posting _ => inferInstanceAs (Decidable True)

/-- A success is recorded only where none has been: the mark is still false. -/
def Timely (s : System D) : Action D → Prop
  | .record run _ => (s.runs run).Unsent s
  | _ => True

instance (s : System D) : ∀ a : Action D, Decidable (Timely s a)
  | .record run _ => inferInstanceAs (Decidable ((s.runs run).Unsent s))
  | .start _ _ _ _ => inferInstanceAs (Decidable True)
  | .post _ _ => inferInstanceAs (Decidable True)
  | .finish _ => inferInstanceAs (Decidable True)
  | .raise _ _ _ _ => inferInstanceAs (Decidable True)
  | .regrade _ _ => inferInstanceAs (Decidable True)
  | .resolve _ _ => inferInstanceAs (Decidable True)

/-- A step the system can take. -/
def Next (s s' : System D) : Prop := ∃ a, s.step a = some s'

/-- A timely one. -/
def TimelyNext (s s' : System D) : Prop := ∃ a, Timely s a ∧ s.step a = some s'

omit [DecidableEq D] in
/-- An attempt is recorded as sent if nothing failed. -/
theorem status_attemptEvent (row : AlertRow D) (outcome : PostOutcome) (now : ℤ) :
    (attemptEvent row outcome.failure now).status = .sent ↔ outcome.failure = none := by
  unfold attemptEvent
  cases h : outcome.failure with
  | none => simp
  | some reason =>
      have hne : reason ≠ "" := fun hc => failure_ne_empty outcome (by rw [h, hc])
      simp [hne]

theorem sentCount_recordAttempt (s : System D) (row : AlertRow D) (outcome : PostOutcome)
    (now : ℤ) (x : D) :
    sentCount (s.recordAttempt row outcome now) x
      = sentCount s x + if row.id = x ∧ outcome.failure = none then 1 else 0 := by
  have hstatus := status_attemptEvent row outcome now
  have hsays : saysSent x (attemptEvent row outcome.failure now) = true ↔
      row.id = x ∧ outcome.failure = none := by
    rw [saysSent, Bool.and_eq_true, decide_eq_true_eq, decide_eq_true_eq, hstatus]
    rfl
  rw [sentCount, System.recordAttempt, List.countP_append, List.countP_singleton, sentCount]
  congr 1
  exact if_congr hsays rfl rfl

/-- Recording a success marks the discrepancy, if it is there, and no other. -/
theorem flagged_recordAttempt (s : System D) (row : AlertRow D) (outcome : PostOutcome) (now : ℤ)
    (x : D) :
    flagged (s.recordAttempt row outcome now) x
      = if row.id = x ∧ outcome.failure = none then (s.discrepancies.find? x).isSome
        else flagged s x := by
  unfold flagged System.recordAttempt
  by_cases hfailure : outcome.failure = none
  · simp only [if_pos hfailure, UniqueTable.find?_modify]
    cases hfind : s.discrepancies.find? x with
    | none => simp
    | some d =>
        have hid : d.id = x := (UniqueTable.find?_some hfind).2
        by_cases hx : row.id = x
        · simp [markAlerted, hid, hx, hfailure]
        · have hne : ¬ d.id = row.id := fun hc => hx (hc.symm.trans hid)
          simp [markAlerted, hne, hx]
  · simp [hfailure]

theorem find?_recordAttempt (s : System D) (row : AlertRow D) (outcome : PostOutcome) (now : ℤ)
    (x : D) :
    ((s.recordAttempt row outcome now).discrepancies.find? x).isSome
      = (s.discrepancies.find? x).isSome := by
  unfold System.recordAttempt
  by_cases hfailure : outcome.failure = none
  · simp only [if_pos hfailure, UniqueTable.find?_modify, Option.isSome_map]
  · simp only [if_neg hfailure]

/-- An update that keeps the marks. -/
theorem flagged_modify (s : System D) {f : AlertRow D → AlertRow D} (hf : ∀ d, (f d).id = d.id)
    (hmark : ∀ d, (f d).hasAlertSent = d.hasAlertSent) (x : D) :
    flagged { s with discrepancies := s.discrepancies.modify f hf } x = flagged s x := by
  simp only [flagged, UniqueTable.find?_modify]
  cases s.discrepancies.find? x with
  | none => rfl
  | some d => exact hmark d

/-- A step that neither records an attempt nor starts a run: events, marks and
    what the runs still have to do stay, and no discrepancy goes away. -/
structure Quiet (s s' : System D) : Prop where
  events : s'.events = s.events
  marks : ∀ x, flagged s' x = flagged s x
  there : ∀ x, (s.discrepancies.find? x).isSome → (s'.discrepancies.find? x).isSome
  rows : ∀ i, (s'.runs i).rows = (s.runs i).rows

theorem quiet_setRun (s : System D) (run : Nat) {stage : RunStage D}
    (hrows : stage.rows = (s.runs run).rows) : Quiet s (s.setRun run stage) := by
  refine ⟨rfl, fun _ => rfl, fun _ h => h, fun i => ?_⟩
  by_cases hi : i = run
  · rw [hi, System.runs_setRun]
    exact hrows
  · rw [System.runs_setRun_of_ne s hi]

theorem quiet_modify (s : System D) {f : AlertRow D → AlertRow D} (hf : ∀ d, (f d).id = d.id)
    (hmark : ∀ d, (f d).hasAlertSent = d.hasAlertSent) :
    Quiet s { s with discrepancies := s.discrepancies.modify f hf } := by
  refine ⟨rfl, flagged_modify s hf hmark, fun x h => ?_, fun _ => rfl⟩
  simp only [UniqueTable.find?_modify, Option.isSome_map]
  exact h

omit [DecidableEq D] in
theorem mem_pendingAlerts {threshold : ℚ} {scan : List (AlertRow D)} {row : AlertRow D}
    (h : row ∈ pendingAlerts threshold scan) : row ∈ scan ∧ qualifies threshold row = true := by
  have hsorted := List.mem_of_mem_take h
  rw [List.mem_insertionSort] at hsorted
  exact List.mem_filter.mp hsorted

/-- A step records an attempt, starts a run, or does neither. -/
theorem step_cases {s s' : System D} {a : Action D} (h : s.step a = some s') :
    (∃ run now row outcome rest, a = .record run now ∧
        s.runs run = .recording row outcome rest ∧
        s' = (s.recordAttempt row outcome now).setRun run (.posting rest)) ∨
      (∃ run threshold scan, a = .start run true threshold scan ∧ s.runs run = .idle ∧
        scan.Perm s.discrepancies.rows ∧
        s' = s.setRun run (.posting (pendingAlerts threshold scan))) ∨
      (Timely s a ∧ Quiet s s') := by
  cases a with
  | start run configured threshold scan =>
      simp only [System.step] at h
      split at h
      · next hidle =>
          cases configured with
          | true =>
              exact Or.inr (Or.inl ⟨run, threshold, scan, rfl, hidle.1, hidle.2,
                (Option.some.inj h).symm⟩)
          | false =>
              rw [← Option.some.inj h]
              exact Or.inr (Or.inr ⟨trivial, rfl, fun _ => rfl, fun _ h => h, fun _ => rfl⟩)
      · cases h
  | post run outcome =>
      simp only [System.step] at h
      split at h
      · next row rest hstage =>
          rw [← Option.some.inj h]
          exact Or.inr (Or.inr ⟨trivial, quiet_setRun s run (by rw [hstage]; rfl)⟩)
      · cases h
  | record run now =>
      simp only [System.step] at h
      split at h
      · next row outcome rest hstage =>
          exact Or.inl ⟨run, now, row, outcome, rest, rfl, hstage, (Option.some.inj h).symm⟩
      · cases h
  | finish run =>
      simp only [System.step] at h
      split at h
      · next hstage =>
          rw [← Option.some.inj h]
          exact Or.inr (Or.inr ⟨trivial, quiet_setRun s run (by rw [hstage]; rfl)⟩)
      · cases h
  | raise id classification severity exposure =>
      refine Or.inr (Or.inr ⟨trivial, ?_⟩)
      simp only [System.step] at h
      rcases Option.map_eq_some_iff.mp h with ⟨rows, hinsert, rfl⟩
      have hfind := UniqueTable.find?_of_insert? hinsert
      rcases UniqueTable.insert?_eq_some hinsert with ⟨hfree, -⟩
      refine ⟨rfl, fun x => ?_, fun x hx => ?_, fun _ => rfl⟩
      · -- The new row is not marked, and nothing was there before.
        simp only [flagged, hfind]
        split
        · next hx =>
            rw [hx, hfree]
            rfl
        · rfl
      · simp only [hfind]
        split
        · rfl
        · exact hx
  | regrade id severity =>
      rw [← Option.some.inj h]
      exact Or.inr (Or.inr ⟨trivial, quiet_modify s _ fun d => (regraded_keeps id severity d).2⟩)
  | resolve id outcome =>
      rw [← Option.some.inj h]
      exact Or.inr (Or.inr ⟨trivial, quiet_modify s _ fun d => (resolved_keeps id outcome d).2⟩)

/-! ### The mark says there is an event -/

/-- The mark of a discrepancy says that there is an event, and what the runs
    have selected is there. -/
structure AlertInv (s : System D) : Prop where
  marked : ∀ x, flagged s x = true ↔ 0 < sentCount s x
  known : ∀ i, ∀ row ∈ (s.runs i).rows, (s.discrepancies.find? row.id).isSome

theorem find?_isSome_of_mem {s : System D} {row : AlertRow D} (h : row ∈ s.discrepancies.rows) :
    (s.discrepancies.find? row.id).isSome := by
  rw [UniqueTable.find?_eq_some_iff.mpr ⟨h, rfl⟩]
  rfl

theorem alertInv_init {s : System D} (h : Init s) : AlertInv s := by
  rcases h with ⟨hevents, hmarks, hruns⟩
  refine ⟨fun x => ?_, fun i row hrow => ?_⟩
  · have hunmarked : flagged s x = false := by
      unfold flagged
      cases hfind : s.discrepancies.find? x with
      | none => rfl
      | some d => exact hmarks d (UniqueTable.find?_some hfind).1
    rw [hunmarked, sentCount, hevents]
    simp
  · rw [hruns i] at hrow
    cases hrow

theorem alertInv_quiet {s s' : System D} (hinv : AlertInv s) (h : Quiet s s') : AlertInv s' := by
  refine ⟨fun x => ?_, fun i row hrow => ?_⟩
  · rw [h.marks, sentCount, h.events]
    exact hinv.marked x
  · rw [h.rows] at hrow
    exact h.there _ (hinv.known i row hrow)

theorem alertInv_start {s : System D} (hinv : AlertInv s) (run : Nat) (threshold : ℚ)
    {scan : List (AlertRow D)} (hscan : scan.Perm s.discrepancies.rows) :
    AlertInv (s.setRun run (.posting (pendingAlerts threshold scan))) := by
  refine ⟨hinv.marked, fun i row hrow => ?_⟩
  by_cases hi : i = run
  · rw [hi, System.runs_setRun] at hrow
    exact find?_isSome_of_mem (hscan.subset (mem_pendingAlerts hrow).1)
  · rw [System.runs_setRun_of_ne s hi] at hrow
    exact hinv.known i row hrow

/-- What recording an attempt leaves a run with it had before. -/
theorem rows_recorded {s : System D} {run : Nat} {row : AlertRow D} {outcome : PostOutcome}
    {rest : List (AlertRow D)} (hstage : s.runs run = .recording row outcome rest) (now : ℤ)
    (i : Nat) : ∀ other ∈ (((s.recordAttempt row outcome now).setRun run
      (.posting rest)).runs i).rows, other ∈ (s.runs i).rows := by
  intro other hother
  by_cases hi : i = run
  · rw [hi, System.runs_setRun] at hother
    rw [hi, hstage]
    exact List.mem_cons_of_mem _ hother
  · rw [System.runs_setRun_of_ne _ hi] at hother
    exact hother

theorem alertInv_record {s : System D} (hinv : AlertInv s) {run : Nat} {row : AlertRow D}
    {outcome : PostOutcome} {rest : List (AlertRow D)}
    (hstage : s.runs run = .recording row outcome rest) (now : ℤ) :
    AlertInv ((s.recordAttempt row outcome now).setRun run (.posting rest)) := by
  refine ⟨fun x => ?_, fun i other hother => ?_⟩
  · have hmark := flagged_recordAttempt s row outcome now x
    have hcount := sentCount_recordAttempt s row outcome now x
    have hgoal : flagged (s.recordAttempt row outcome now) x = true ↔
        0 < sentCount (s.recordAttempt row outcome now) x := by
      rw [hmark, hcount]
      by_cases hsent : row.id = x ∧ outcome.failure = none
      · -- The row is there, so the mark is set with the event.
        have hthere : (s.discrepancies.find? x).isSome = true := by
          rw [← hsent.1]
          exact hinv.known run row (by rw [hstage]; exact List.mem_cons_self)
        rw [if_pos hsent, if_pos hsent]
        exact iff_of_true hthere (by omega)
      · rw [if_neg hsent, if_neg hsent, Nat.add_zero]
        exact hinv.marked x
    exact hgoal
  · have hthere := find?_recordAttempt s row outcome now other.id
    have hbefore := hinv.known i other (rows_recorded hstage now i other hother)
    exact hthere.trans hbefore

theorem alertInv_step {s s' : System D} (hinv : AlertInv s) (h : Next s s') : AlertInv s' := by
  rcases h with ⟨a, ha⟩
  rcases step_cases ha with ⟨run, now, row, outcome, rest, -, hstage, rfl⟩ |
    ⟨run, threshold, scan, -, -, hscan, rfl⟩ | ⟨-, hquiet⟩
  · exact alertInv_record hinv hstage now
  · exact alertInv_start hinv run threshold hscan
  · exact alertInv_quiet hinv hquiet

/-! ### One event -/

/-- From timely steps there is at most one event. -/
theorem sentCount_step {s s' : System D} (hinv : AlertInv s) (hone : ∀ x, sentCount s x ≤ 1)
    (h : TimelyNext s s') (x : D) : sentCount s' x ≤ 1 := by
  rcases h with ⟨a, htimely, ha⟩
  rcases step_cases ha with ⟨run, now, row, outcome, rest, rfl, hstage, rfl⟩ |
    ⟨run, threshold, scan, -, -, -, rfl⟩ | ⟨-, hquiet⟩
  · have hcount := sentCount_recordAttempt s row outcome now x
    refine hcount.le.trans ?_
    by_cases hsent : row.id = x ∧ outcome.failure = none
    · -- No mark yet, so no event either.
      have hunmarked : flagged s x = false := by
        rw [Timely, hstage] at htimely
        exact hsent.1 ▸ htimely hsent.2
      have hnone : ¬ 0 < sentCount s x := by
        rw [← hinv.marked x, hunmarked]
        exact Bool.false_ne_true
      rw [if_pos hsent]
      omega
    · rw [if_neg hsent, Nat.add_zero]
      exact hone x
  · exact hone x
  · rw [sentCount, hquiet.events]
    exact hone x

/-- A success recorded where one has been is a second event. -/
theorem second_of_untimely {s s' : System D} (hinv : AlertInv s) {a : Action D}
    (ha : s.step a = some s') (hlate : ¬ Timely s a) : ∃ x, 2 ≤ sentCount s' x := by
  rcases step_cases ha with ⟨run, now, row, outcome, rest, rfl, hstage, rfl⟩ |
    ⟨run, threshold, scan, rfl, -, -, rfl⟩ | ⟨htimely, -⟩
  · rw [Timely, hstage, RunStage.Unsent, Classical.not_imp, Bool.not_eq_false] at hlate
    have hsome := (hinv.marked row.id).mp hlate.2
    have hcount := sentCount_recordAttempt s row outcome now row.id
    rw [if_pos ⟨rfl, hlate.1⟩] at hcount
    refine ⟨row.id, ?_⟩
    have htwo : 2 ≤ sentCount (s.recordAttempt row outcome now) row.id := by omega
    exact htwo
  · exact absurd trivial hlate
  · exact absurd htimely hlate

/-! ### Runs one at a time -/

/-- A run starts only when no other is under way. -/
def Alone (s : System D) : Action D → Prop
  | .start _ _ _ _ => ∀ i, s.runs i = .idle
  | _ => True

/-- A step of runs one at a time. -/
def SerialNext (s s' : System D) : Prop := ∃ a, Alone s a ∧ s.step a = some s'

/-- At most one run has anything to do, it has nothing to do twice, and nothing
    it has to do is marked. -/
structure SerialInv (s : System D) : Prop where
  single : ∀ i j, (s.runs i).rows ≠ [] → (s.runs j).rows ≠ [] → i = j
  distinct : ∀ i, ((s.runs i).rows.map AlertRow.id).Nodup
  fresh : ∀ i, ∀ row ∈ (s.runs i).rows, flagged s row.id = false

theorem serialInv_init {s : System D} (h : Init s) : SerialInv s := by
  have hnone : ∀ i, (s.runs i).rows = [] := fun i => by
    rw [h.2.2 i]
    rfl
  refine ⟨fun i j hi => absurd (hnone i) hi, fun i => ?_, fun i row hrow => ?_⟩
  · rw [hnone i]
    exact List.nodup_nil
  · rw [hnone i] at hrow
    cases hrow

/-- What a run selects is not marked, and no row is selected twice. -/
theorem pendingAlerts_fresh {s : System D} (threshold : ℚ) {scan : List (AlertRow D)}
    (hscan : scan.Perm s.discrepancies.rows) :
    ((pendingAlerts threshold scan).map AlertRow.id).Nodup ∧
      ∀ row ∈ pendingAlerts threshold scan, flagged s row.id = false := by
  constructor
  · have hids : (scan.map AlertRow.id).Nodup :=
      (hscan.map AlertRow.id).nodup_iff.mpr s.discrepancies.unique
    have hfiltered := hids.sublist ((List.filter_sublist (p := qualifies threshold)).map _)
    have hsorted := ((List.perm_insertionSort (fun a b : AlertRow D =>
      b.estimatedExposureNgn ≤ a.estimatedExposureNgn) (scan.filter (qualifies threshold))).map
        AlertRow.id).nodup_iff.mpr hfiltered
    exact hsorted.sublist ((List.take_sublist _ _).map _)
  · intro row hrow
    rcases mem_pendingAlerts hrow with ⟨hmem, hqualifies⟩
    have hfind : s.discrepancies.find? row.id = some row :=
      UniqueTable.find?_eq_some_iff.mpr ⟨hscan.subset hmem, rfl⟩
    have hmark : row.hasAlertSent = false := by
      simp only [qualifies, Bool.and_eq_true, decide_eq_true_eq] at hqualifies
      exact hqualifies.1.2
    rw [flagged, hfind]
    exact hmark

theorem timely_of_serial {s : System D} (hinv : SerialInv s) (a : Action D) : Timely s a := by
  cases a with
  | record run now =>
      cases hstage : s.runs run with
      | recording row outcome rest =>
          rw [Timely, hstage]
          exact fun _ => hinv.fresh run row (by rw [hstage]; exact List.mem_cons_self)
      | idle =>
          rw [Timely, hstage]
          exact trivial
      | posting rows =>
          rw [Timely, hstage]
          exact trivial
  | start run configured threshold scan => exact trivial
  | post run outcome => exact trivial
  | finish run => exact trivial
  | raise id classification severity exposure => exact trivial
  | regrade id severity => exact trivial
  | resolve id outcome => exact trivial

/-- Recording an attempt marks none of the rows still to be recorded. -/
theorem serialInv_record {s : System D} (hinv : SerialInv s) {run : Nat} {row : AlertRow D}
    {outcome : PostOutcome} {rest : List (AlertRow D)}
    (hstage : s.runs run = .recording row outcome rest) (now : ℤ) :
    SerialInv ((s.recordAttempt row outcome now).setRun run (.posting rest)) := by
  have hrows : (s.runs run).rows = row :: rest := by
    rw [hstage]
    rfl
  have hleft := rows_recorded hstage now
  have hbusy : ∀ i, (((s.recordAttempt row outcome now).setRun run (.posting rest)).runs i).rows
      ≠ [] → (s.runs i).rows ≠ [] := by
    intro i hi hempty
    rcases List.exists_mem_of_ne_nil _ hi with ⟨other, hother⟩
    have hold := hleft i other hother
    rw [hempty] at hold
    cases hold
  have hids := hinv.distinct run
  rw [hrows, List.map_cons, List.nodup_cons] at hids
  refine ⟨fun i j hi hj => hinv.single i j (hbusy i hi) (hbusy j hj), fun i => ?_,
    fun i other hother => ?_⟩
  · by_cases hi : i = run
    · rw [hi, System.runs_setRun]
      exact hids.2
    · rw [System.runs_setRun_of_ne _ hi]
      exact hinv.distinct i
  · -- The other row belongs to the same run, and to another discrepancy.
    have hold := hleft i other hother
    have hi : i = run := by
      refine hinv.single i run (List.ne_nil_of_mem hold) ?_
      rw [hrows]
      exact List.cons_ne_nil _ _
    have hmem : other ∈ rest := by
      rw [hi, System.runs_setRun] at hother
      exact hother
    have hne : ¬ (row.id = other.id ∧ outcome.failure = none) := by
      intro hc
      exact hids.1 (hc.1 ▸ List.mem_map_of_mem hmem)
    have hmark := flagged_recordAttempt s row outcome now other.id
    rw [if_neg hne] at hmark
    exact hmark.trans (hinv.fresh i other hold)

theorem serialInv_step {s s' : System D} (hinv : SerialInv s) (h : SerialNext s s') :
    SerialInv s' := by
  rcases h with ⟨a, halone, ha⟩
  rcases step_cases ha with ⟨run, now, row, outcome, rest, -, hstage, rfl⟩ |
    ⟨run, threshold, scan, rfl, -, hscan, rfl⟩ | ⟨-, hquiet⟩
  · exact serialInv_record hinv hstage now
  · -- The new run is the only one.
    have hothers : ∀ i, i ≠ run →
        ((s.setRun run (.posting (pendingAlerts threshold scan))).runs i).rows = [] := by
      intro i hi
      rw [System.runs_setRun_of_ne s hi, halone i]
      rfl
    have hnew : ((s.setRun run (.posting (pendingAlerts threshold scan))).runs run).rows
        = pendingAlerts threshold scan := by
      rw [System.runs_setRun]
      rfl
    rcases pendingAlerts_fresh threshold hscan with ⟨hdistinct, hfresh⟩
    refine ⟨fun i j hi hj => ?_, fun i => ?_, fun i row hrow => ?_⟩
    · have hi' : i = run := not_not.mp fun hne => hi (hothers i hne)
      have hj' : j = run := not_not.mp fun hne => hj (hothers j hne)
      rw [hi', hj']
    · by_cases hi : i = run
      · rw [hi, hnew]
        exact hdistinct
      · rw [hothers i hi]
        exact List.nodup_nil
    · by_cases hi : i = run
      · rw [hi, hnew] at hrow
        exact hfresh row hrow
      · rw [hothers i hi] at hrow
        cases hrow
  · refine ⟨fun i j hi hj => ?_, fun i => ?_, fun i row hrow => ?_⟩
    · rw [hquiet.rows] at hi hj
      exact hinv.single i j hi hj
    · rw [hquiet.rows]
      exact hinv.distinct i
    · rw [hquiet.rows] at hrow
      rw [hquiet.marks]
      exact hinv.fresh i row hrow

/-! ### Whole runs -/

open Transition

theorem alertInv_of_reachable {s : System D} (h : Reachable Init Next s) : AlertInv s :=
  invariant_of_step (I := AlertInv) (fun _ h₀ => alertInv_init h₀)
    (fun _ _ hinv hstep => alertInv_step hinv hstep) h

theorem sentCount_of_timely {s : System D} (h : Reachable Init TimelyNext s) :
    AlertInv s ∧ ∀ x, sentCount s x ≤ 1 := by
  refine invariant_of_step (I := fun s => AlertInv s ∧ ∀ x, sentCount s x ≤ 1)
    (fun s hs => ⟨alertInv_init hs, fun x => ?_⟩)
    (fun s s' hinv hstep => ⟨?_, sentCount_step hinv.1 hinv.2 hstep⟩) h
  · simp [sentCount, hs.1]
  · rcases hstep with ⟨a, -, ha⟩
    exact alertInv_step hinv.1 ⟨a, ha⟩

/-- Runs one at a time take timely steps only. -/
theorem timely_of_serial_run {s : System D} (h : Reachable Init SerialNext s) :
    Reachable Init TimelyNext s ∧ SerialInv s := by
  refine invariant_of_step (I := fun s => Reachable Init TimelyNext s ∧ SerialInv s)
    (fun s hs => ⟨reachable_of_init hs, serialInv_init hs⟩)
    (fun s s' hinv hstep => ⟨?_, serialInv_step hinv.2 hstep⟩) h
  rcases hstep with ⟨a, -, ha⟩
  exact reachable_step hinv.1 ⟨a, timely_of_serial hinv.2 a, ha⟩

/-- What a run of actions leads to is reachable. -/
theorem reachable_of_runAll (actions : List (Action D)) :
    ∀ {s s' : System D}, Reachable Init Next s → s.runAll actions = some s' →
      Reachable Init Next s' := by
  induction actions with
  | nil =>
      intro s s' hs h
      rw [← Option.some.inj h]
      exact hs
  | cons a actions ih =>
      intro s s' hs h
      rcases Option.bind_eq_some_iff.mp h with ⟨s₁, ha, hrest⟩
      exact ih (reachable_step hs ⟨a, ha⟩) hrest

/-- A run of actions that stops before one that is not timely. -/
def System.runTimely (s : System D) : List (Action D) → Option (System D)
  | [] => some s
  | a :: actions =>
    if Timely s a then (s.step a).bind fun s' => s'.runTimely actions else none

theorem reachable_of_runTimely (actions : List (Action D)) :
    ∀ {s s' : System D}, Reachable Init TimelyNext s → s.runTimely actions = some s' →
      Reachable Init TimelyNext s' := by
  induction actions with
  | nil =>
      intro s s' hs h
      rw [← Option.some.inj h]
      exact hs
  | cons a actions ih =>
      intro s s' hs h
      unfold System.runTimely at h
      split at h
      · next htimely =>
          rcases Option.bind_eq_some_iff.mp h with ⟨s₁, ha, hrest⟩
          exact ih (reachable_step hs ⟨a, htimely, ha⟩) hrest
      · cases h

end Run

open Transition

/-- Any runs of alerting, with any outcomes of their posts and anything raised,
    regraded and resolved in between. In every state, a discrepancy is marked
    exactly if there is an event that a message about it was sent. In every run
    that records a success only where the mark is still false there is at most
    one such event for a discrepancy, and recording one elsewhere makes a second
    one. Runs that do not overlap are of the first kind. -/
theorem one_alert_per_discrepancy {D : Type} [DecidableEq D] :
    (∀ s : System D, Reachable Init Next s → ∀ x,
      flagged s x = true ↔ ∃ e ∈ s.events, e.discrepancyId = x ∧ e.status = .sent) ∧
    (∀ s : System D, Reachable Init TimelyNext s → ∀ x, sentCount s x ≤ 1) ∧
    (∀ (s s' : System D) (a : Action D), Reachable Init Next s → s.step a = some s' →
      ¬ Timely s a → ∃ x, 2 ≤ sentCount s' x) ∧
    ∀ s : System D, Reachable Init SerialNext s → ∀ x, sentCount s x ≤ 1 := by
  refine ⟨fun s hs x => ?_, fun s hs => (sentCount_of_timely hs).2,
    fun s s' a hs ha hlate => second_of_untimely (alertInv_of_reachable hs) ha hlate,
    fun s hs => (sentCount_of_timely (timely_of_serial_run hs).1).2⟩
  rw [(alertInv_of_reachable hs).marked x, sentCount, List.countP_pos_iff]
  simp [saysSent]

/-- One critical discrepancy, and nothing sent. -/
def oneOpen : System Nat where
  discrepancies := {
    rows := [raisedRow 7 .missingSettlement .critical 50000]
    unique := by decide }
  events := []
  runs _ := .idle

theorem oneOpen_init : Init oneOpen := ⟨rfl, by decide, fun _ => rfl⟩

/-- A failed post, and a second run that succeeds. -/
def retried : List (Action Nat) :=
  [.start 0 true 0 oneOpen.discrepancies.rows, .post 0 (.responded 500), .record 0 1, .finish 0,
    .start 1 true 0 oneOpen.discrepancies.rows, .post 1 (.responded 200), .record 1 2]

theorem one_alert_per_discrepancy_retried :
    ∃ s, oneOpen.runTimely retried = some s ∧ sentCount s 7 ≤ 1 ∧ flagged s 7 = true := by
  have hflag : (oneOpen.runTimely retried).map (fun s => flagged s 7) = some true := by
    decide
  rcases Option.map_eq_some_iff.mp hflag with ⟨s, hs, hmark⟩
  have hreach := reachable_of_runTimely retried (reachable_of_init oneOpen_init) hs
  exact ⟨s, hs, one_alert_per_discrepancy.2.1 s hreach 7, hmark⟩

/-- Two runs that overlap select, post and record the same discrepancy. -/
def overlapping : List (Action Nat) :=
  [.start 0 true 0 oneOpen.discrepancies.rows, .start 1 true 0 oneOpen.discrepancies.rows,
    .post 0 (.responded 200), .post 1 (.responded 200), .record 0 1, .record 1 2]

/-- It is alerted twice. -/
theorem overlapping_runs_alert_twice : ∃ s, Reachable Init Next s ∧ sentCount s 7 = 2 := by
  have htwice : (oneOpen.runAll overlapping).map (fun s => sentCount s 7) = some 2 := by
    decide
  rcases Option.map_eq_some_iff.mp htwice with ⟨s, hs, hcount⟩
  exact ⟨s, reachable_of_runAll overlapping (reachable_of_init oneOpen_init) hs, hcount⟩

end Alerts

end MmrEngine
