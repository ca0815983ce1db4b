import MmrEngine.Flows.GoldSteps
import MmrEngine.Lib.Journal

/-!
# The Audit Trail Replays

In every committed state, the events of a discrepancy lead, link by link, from
nothing to the status the row has, and a closed row is never touched again.

The four programs interleave at will, but a row changes in four ways only
(`RowChange`): it is locked, raised, given another severity while it is open,
or closed while it is not. `step_act` says that every step of every session
acts on the discrepancies through lawful changes of single rows, so what these
preserve holds throughout the store, committed or not (`RowStore.act_sound`),
and interleavings play no further part.

Closing is the one change that relies on something read earlier. A resolver
reads the status when it locks the row and writes it into the event later; a
bulk resolution first locks every row and then closes those that were open.
`Holds` is what a session may assume about the rows it has locked. It survives
whatever the others do, because nobody writes a row somebody else has locked
(`RowStore.act_foreign`).

## Main definitions

* `RowChange`: The ways a discrepancy row changes.
* `Replays`: The events lead from nothing to the row's status.
* `RowLe`: Events are only appended, and a closed row stays as it is.
* `Holds`: What a session knows about the rows it has locked.
* `AuditInv`: The invariant.

## Theorems

* `rowChange_replays`: Lawful changes keep the trail replaying.
* `step_act`: What a step does to the discrepancies.
* `auditInv_step`: A step keeps the invariant.
* `discrepancy_history_replays`: The committed trail replays, and closed is
  closed.
-/

namespace MmrEngine

namespace Gold

open Discrepancy

section Rows

/-- How a row of `gold_discrepancies` changes: it is locked, raised, given
    another severity, or closed. New events get ids from `n` on, below `n'`. -/
inductive RowChange (n n' : Nat) : Option DiscrepancyRow → Option DiscrepancyRow → Prop
  | same (v : Option DiscrepancyRow) : RowChange n n' v v
  | raise (pairId : Option Nat) (f : Finding) (now : ℤ) (hn : n < n') :
      RowChange n n' none (some (newDiscrepancy pairId f n now))
  | severity (f : Finding) (now : ℤ) (d : DiscrepancyRow) (hopen : d.status = .open_)
      (hn : n < n') : RowChange n n' (some d) (some (changeSeverity f n now d))
  | close (req : Closing) (now : ℤ) (d : DiscrepancyRow) (hopen : d.status.closed = false)
      (hn : n < n') : RowChange n n' (some d) (some (closeDiscrepancy req d.status n now d))

/-- The events of a row lead from nothing to its status; only the first one
    raises, at most one closes, and their ids, all below `n`, go up. -/
structure Replays (n : Nat) (d : DiscrepancyRow) : Prop where
  replay : Journal.replay DiscrepancyEvent.fromStatus DiscrepancyEvent.toStatus none d.events
    = some (some d.status)
  raised : ∃ e rest, d.events = e :: rest ∧ e.action = .raised ∧ e.toStatus = .open_ ∧
    ∀ e' ∈ rest, e'.action ≠ .raised
  quiet : d.status.closed = false → ∀ e ∈ d.events, e.action.closing = false
  closing : (d.events.filter fun e => e.action.closing).length ≤ 1
  ordered : d.events.Pairwise fun e e' => e.id < e'.id
  issued : ∀ e ∈ d.events, e.id < n

/-- Every committed or uncommitted row replays. -/
def RowOk (n : Nat) (v : Option DiscrepancyRow) : Prop := ∀ d, v = some d → Replays n d

/-- Events are only appended, and a closed row stays as it is. -/
def RowLe (v v' : Option DiscrepancyRow) : Prop :=
  ∀ d, v = some d → ∃ d', v' = some d' ∧ d.events <+: d'.events ∧
    (d.status.closed = true → d' = d)

theorem rowLe_refl (v : Option DiscrepancyRow) : RowLe v v := by
  intro d hd
  exact ⟨d, hd, List.prefix_refl _, fun _ => rfl⟩

theorem rowLe_trans {v w x : Option DiscrepancyRow} (h : RowLe v w) (h' : RowLe w x) :
    RowLe v x := by
  intro d hd
  rcases h d hd with ⟨d', hd', hpre, hclosed⟩
  rcases h' d' hd' with ⟨d'', hd'', hpre', hclosed'⟩
  refine ⟨d'', hd'', hpre.trans hpre', fun hc => ?_⟩
  have heq := hclosed hc
  rw [heq] at hclosed'
  exact hclosed' hc

theorem replays_mono {n n' : Nat} (hn : n ≤ n') {d : DiscrepancyRow} (h : Replays n d) :
    Replays n' d :=
  { h with issued := fun e he => lt_of_lt_of_le (h.issued e he) hn }

theorem replays_new (pairId : Option Nat) (f : Finding) {n n' : Nat} (now : ℤ) (hn : n < n') :
    Replays n' (newDiscrepancy pairId f n now) where
  replay := rfl
  raised := ⟨raisedEvent n now, [], rfl, rfl, rfl, fun e he => absurd he List.not_mem_nil⟩
  quiet _ e he := by
    rw [List.mem_singleton.mp he]
    rfl
  closing := List.length_filter_le _ [raisedEvent n now]
  ordered := List.pairwise_singleton _ _
  issued e he := by
    rw [List.mem_singleton.mp he]
    exact hn

/-- A row that is not closed can be given one more event, which finds its
    status and leaves the new one. -/
theorem replays_append {n n' : Nat} {d d' : DiscrepancyRow} {e : DiscrepancyEvent}
    (h : Replays n d) (hevents : d'.events = d.events ++ [e]) (hstatus : d'.status = e.toStatus)
    (hfrom : e.fromStatus = some d.status) (hopen : d.status.closed = false)
    (haction : e.action ≠ .raised) (hclosing : e.toStatus.closed = false → e.action.closing = false)
    (hid : e.id = n) (hn : n < n') : Replays n' d' where
  replay := by
    rw [hevents, hstatus]
    apply Journal.replay_concat
    rw [h.replay, hfrom]
  raised := by
    rcases h.raised with ⟨e₀, rest, hd, hraised, hto, hrest⟩
    refine ⟨e₀, rest ++ [e], by rw [hevents, hd, List.cons_append], hraised, hto, ?_⟩
    intro e' he'
    rcases List.mem_append.mp he' with hmem | hmem
    · exact hrest e' hmem
    · rw [List.mem_singleton.mp hmem]
      exact haction
  quiet hnew := by
    rw [hstatus] at hnew
    rw [hevents]
    intro e' he'
    rcases List.mem_append.mp he' with hmem | hmem
    · exact h.quiet hopen e' hmem
    · rw [List.mem_singleton.mp hmem]
      exact hclosing hnew
  closing := by
    -- Nothing before the new event closes: the row was not closed.
    have hnone : d.events.filter (fun e => e.action.closing) = [] := by
      rw [List.filter_eq_nil_iff]
      intro e' he'
      rw [h.quiet hopen e' he']
      exact Bool.false_ne_true
    rw [hevents, List.filter_append, hnone, List.nil_append]
    exact List.length_filter_le _ [e]
  ordered := by
    rw [hevents, List.pairwise_append]
    refine ⟨h.ordered, List.pairwise_singleton _ _, fun e' he' e'' he'' => ?_⟩
    rw [List.mem_singleton.mp he'', hid]
    exact h.issued e' he'
  issued := by
    rw [hevents]
    intro e' he'
    rcases List.mem_append.mp he' with hmem | hmem
    · exact lt_trans (h.issued e' hmem) hn
    · rw [List.mem_singleton.mp hmem, hid]
      exact hn

/-- Lawful changes keep the trail replaying and only append to it. -/
theorem rowChange_replays {n n' : Nat} (hn : n ≤ n') {v v' : Option DiscrepancyRow}
    (hok : RowOk n v) (h : RowChange n n' v v') : RowOk n' v' ∧ RowLe v v' := by
  cases h with
  | same =>
      exact ⟨fun d hd => replays_mono hn (hok d hd), rowLe_refl v⟩
  | raise pairId f now hlt =>
      constructor
      · intro d hd
        rw [← Option.some.inj hd]
        exact replays_new pairId f now hlt
      · intro d hd
        cases hd
  | severity f now d hopen hlt =>
      -- An open row with one more event, and open as before.
      have hd := hok d rfl
      have hnot : d.status.closed = false := by rw [hopen]; rfl
      constructor
      · intro d' hd'
        rw [← Option.some.inj hd']
        have haction : (severityChangedEvent n now).action ≠ .raised := by
          intro hc
          cases hc
        exact replays_append hd rfl hopen (by rw [hopen]; rfl) hnot haction (fun _ => rfl) rfl hlt
      · intro d₀ hd₀
        rw [← Option.some.inj hd₀]
        refine ⟨_, rfl, List.prefix_append _ _, fun hc => ?_⟩
        rw [hnot] at hc
        exact absurd hc Bool.false_ne_true
  | close req now d hopen hlt =>
      -- The one event that closes; the row was not closed before.
      have hd := hok d rfl
      constructor
      · intro d' hd'
        rw [← Option.some.inj hd']
        refine replays_append hd rfl rfl rfl hopen ?_ ?_ rfl hlt
        · cases hreq : req.outcome <;> simp only [closingEvent, hreq, Outcome.action] <;> decide
        · intro hstill
          have hc : req.outcome.status.closed = true := Outcome.status_closed _
          have hstill' : req.outcome.status.closed = false := hstill
          rw [hc] at hstill'
          exact absurd hstill'.symm Bool.false_ne_true
      · intro d₀ hd₀
        rw [← Option.some.inj hd₀]
        refine ⟨_, rfl, List.prefix_append _ _, fun hc => ?_⟩
        rw [hopen] at hc
        exact absurd hc Bool.false_ne_true

/-- The upsert is a lawful change. -/
theorem rowChange_upsert (f : Finding) {n n' : Nat} (hn : n < n') (now : ℤ)
    (v : Option DiscrepancyRow) : RowChange n n' v (upsertMissingSettlement f n now v) := by
  cases v with
  | none => exact RowChange.raise none f now hn
  | some d =>
      unfold upsertMissingSettlement
      by_cases h : d.status = .open_ ∧ d.severity ≠ f.severity
      · simp only [if_pos h]
        exact RowChange.severity f now d h.1 hn
      · simp only [if_neg h]
        exact RowChange.same _

end Rows

section Sessions

variable {T : Type} [DecidableEq T]

/-- Session `t` has row `k` locked, with the status it read there. -/
def Locked (cells : RowStore.Store (Key T) Nat (Option DiscrepancyRow)) (t : Nat) (k : Key T)
    (status : DiscrepancyStatus) : Prop :=
  ∃ d, (cells k).writer = some (t, some d) ∧ d.status = status

/-- The discrepancy a run has raised in its open savepoint is the one it wrote
    there. -/
def Raised (cells : RowStore.Store (Key T) Nat (Option DiscrepancyRow)) (t : Nat)
    (run : PersistRun T) : Prop :=
  ∀ pid c, run.position = .discrepancyRaised pid c → ∃ p rest d, run.todo = p :: rest ∧
    (cells (p.a, c)).writer = some (t, some d) ∧ d.reconciliationPairId = some pid

/-- What a session knows about the rows it has locked. -/
def Holds (cells : RowStore.Store (Key T) Nat (Option DiscrepancyRow)) (t : Nat) :
    Session T → Prop
  | .active _ (.persisting run) => Raised cells t run
  | .active _ (.closing k _ status) => Locked cells t k status ∧ status.closed = false
  | .active _ (.bulkLocking ids _ found _) =>
      ids.Nodup ∧ ∀ k status, (k, status) ∈ found → Locked cells t k status
  | .active _ (.bulkClosing todo _ _ _) =>
      todo.Nodup ∧ ∀ k ∈ todo, ∃ status, Locked cells t k status ∧ status.closed = false
  | _ => True

omit [DecidableEq T] in
/-- No savepoint is open, or nothing has been raised in it yet. -/
theorem nothing_raised {cells : RowStore.Store (Key T) Nat (Option DiscrepancyRow)} {t : Nat}
    {run : PersistRun T} (h : ∀ pid c, run.position ≠ .discrepancyRaised pid c) :
    Raised cells t run := by
  intro pid c hpos
  exact absurd hpos (h pid c)

/-- Every row replays, and every session is right about what it has locked. -/
structure AuditInv (s : GoldDb T) : Prop where
  sound : RowStore.Sound (fun _ => RowOk s.nextEvent) (fun _ => RowLe) s.discrepancies
  holds : ∀ t, Holds s.discrepancies t (s.sessions t)

omit [DecidableEq T] in
theorem locked_visible {cells : RowStore.Store (Key T) Nat (Option DiscrepancyRow)} {t : Nat}
    {k : Key T} {status : DiscrepancyStatus} (h : Locked cells t k status) :
    RowStore.Free t (cells k) ∧
      ∃ d, RowStore.visible t (cells k) = some d ∧ d.status = status := by
  rcases h with ⟨d, hw, hstatus⟩
  constructor
  · intro t' v hv
    rw [hw] at hv
    exact (Prod.mk.inj (Option.some.inj hv)).1.symm
  · refine ⟨d, ?_, hstatus⟩
    simp only [RowStore.visible, hw, if_true]

/-- What others do leaves a locked row locked. -/
theorem locked_foreign {L : Key T → Option DiscrepancyRow → Option DiscrepancyRow → Prop}
    {cells cells' : RowStore.Store (Key T) Nat (Option DiscrepancyRow)} {t t' : Nat} (hne : t' ≠ t)
    (hact : RowStore.Act L t cells cells') {k : Key T} {status : DiscrepancyStatus}
    (h : Locked cells t' k status) : Locked cells' t' k status := by
  rcases h with ⟨d, hw, hstatus⟩
  exact ⟨d, by rw [RowStore.act_foreign hne hact hw, hw], hstatus⟩

theorem holds_foreign {L : Key T → Option DiscrepancyRow → Option DiscrepancyRow → Prop}
    {cells cells' : RowStore.Store (Key T) Nat (Option DiscrepancyRow)} {t t' : Nat} (hne : t' ≠ t)
    (hact : RowStore.Act L t cells cells') {session : Session T} (h : Holds cells t' session) :
    Holds cells' t' session := by
  cases session with
  | active now work =>
      cases work with
      | persisting run =>
          intro pid c hpos
          rcases h pid c hpos with ⟨p, rest, d, htodo, hw, hd⟩
          refine ⟨p, rest, d, htodo, ?_, hd⟩
          rw [RowStore.act_foreign hne hact hw, hw]
      | closing k req status => exact ⟨locked_foreign hne hact h.1, h.2⟩
      | bulkLocking ids todo found req =>
          exact ⟨h.1, fun k status hk => locked_foreign hne hact (h.2 k status hk)⟩
      | bulkClosing todo req resolved skipped =>
          refine ⟨h.1, fun k hk => ?_⟩
          rcases h.2 k hk with ⟨status, hlock, hopen⟩
          exact ⟨status, locked_foreign hne hact hlock, hopen⟩
      | _ => trivial
  | _ => trivial

/-- Locking a committed row. -/
theorem locked_of_lock {cells : RowStore.Store (Key T) Nat (Option DiscrepancyRow)} {t : Nat}
    {k : Key T} {d : DiscrepancyRow} (hd : cells k = { committed := some d, writer := none }) :
    Locked (RowStore.write t k id cells) t k d.status := by
  refine ⟨d, ?_, rfl⟩
  rw [RowStore.write_self, hd]
  rfl

/-- Writing another row leaves a locked one locked. -/
theorem locked_of_write_other {cells : RowStore.Store (Key T) Nat (Option DiscrepancyRow)}
    {t : Nat} {k k' : Key T} (f : Option DiscrepancyRow → Option DiscrepancyRow)
    {status : DiscrepancyStatus} (hne : k' ≠ k) (h : Locked cells t k' status) :
    Locked (RowStore.write t k f cells) t k' status := by
  rcases h with ⟨d, hw, hstatus⟩
  exact ⟨d, by rw [RowStore.write_other t k k' f cells hne, hw], hstatus⟩

theorem free_of_unlocked {c : RowStore.Cell Nat (Option DiscrepancyRow)}
    {v : Option DiscrepancyRow} (h : c = { committed := v, writer := none }) (t : Nat) :
    RowStore.Free t c ∧ RowStore.visible t c = v := by
  subst h
  refine ⟨fun t' w hw => ?_, rfl⟩
  cases hw

theorem mem_closable {ids : List (Key T)} {found : List (Key T × DiscrepancyStatus)} {k : Key T}
    (h : k ∈ closable ids found) : ∃ status, (k, status) ∈ found ∧ status.closed = false := by
  unfold closable at h
  have hk := (List.mem_filter.mp h).2
  cases hl : found.lookup k with
  | none =>
      rw [hl] at hk
      exact absurd hk Bool.false_ne_true
  | some status =>
      rw [hl] at hk
      have hopen : status.closed = false := by simpa only [Bool.not_eq_true'] using hk
      rcases List.lookup_eq_some_iff.mp hl with ⟨l₁, l₂, hsplit, _⟩
      exact ⟨status, hsplit ▸ List.mem_append_right _ List.mem_cons_self, hopen⟩

/-- One session acts on the discrepancies through lawful changes, knows what it
    has locked afterwards, and the other sessions stay where they are. -/
def Acts (s s' : GoldDb T) : Prop :=
  ∃ t, RowStore.Act (fun _ => RowChange s.nextEvent s'.nextEvent) t s.discrepancies
      s'.discrepancies ∧
    s.nextEvent ≤ s'.nextEvent ∧ (∀ t', t' ≠ t → s'.sessions t' = s.sessions t') ∧
    Holds s'.discrepancies t (s'.sessions t)

theorem acts_of_act {s s' : GoldDb T} {t : Nat} {session : Session T}
    (hsess : s'.sessions = Function.update s.sessions t session)
    (hact : RowStore.Act (fun _ => RowChange s.nextEvent s'.nextEvent) t s.discrepancies
      s'.discrepancies)
    (hn : s.nextEvent ≤ s'.nextEvent) (hholds : Holds s'.discrepancies t session) : Acts s s' := by
  refine ⟨t, hact, hn, fun t' ht' => ?_, ?_⟩
  · rw [hsess, Function.update_of_ne ht']
  · rw [hsess, Function.update_self]
    exact hholds

/-- A step that leaves the discrepancies alone. -/
theorem acts_of_quiet {s s' : GoldDb T} {t : Nat} {session : Session T}
    (hsess : s'.sessions = Function.update s.sessions t session)
    (hd : s'.discrepancies = s.discrepancies) (hn : s'.nextEvent = s.nextEvent)
    (hholds : Holds s.discrepancies t session) : Acts s s' := by
  refine acts_of_act hsess ?_ (le_of_eq hn.symm) (by rw [hd]; exact hholds)
  rw [hd]
  exact RowStore.Act.skip

/-- A step of the world around the sessions. -/
theorem acts_of_world {s s' : GoldDb T} (hholds : ∀ t, Holds s.discrepancies t (s.sessions t))
    (hsess : s'.sessions = s.sessions) (hd : s'.discrepancies = s.discrepancies)
    (hn : s'.nextEvent = s.nextEvent) : Acts s s' := by
  refine ⟨0, ?_, le_of_eq hn.symm, fun t' _ => by rw [hsess], ?_⟩
  · rw [hd]
    exact RowStore.Act.skip
  · rw [hd, hsess]
    exact hholds 0

/-- What a step does to the discrepancies. -/
theorem step_act {s s' : GoldDb T} (hholds : ∀ t, Holds s.discrepancies t (s.sessions t))
    (h : Step s s') : Acts s s' := by
  cases h with
  | arrive row hnew => exact acts_of_world hholds rfl rfl rfl
  | tick now hlater => exact acts_of_world hholds rfl rfl rfl
  | beginPersist t plans hidle =>
      exact acts_of_quiet rfl rfl rfl (nothing_raised fun _ _ hc => by cases hc)
  | insertPair t now run p rest hs htodo hpos hdiff hunique =>
      exact acts_of_quiet rfl rfl rfl (nothing_raised fun _ _ hc => by cases hc)
  | refusePair t now run p rest hs htodo hpos =>
      refine acts_of_quiet rfl rfl rfl (nothing_raised fun pid c hc => ?_)
      have hposition : run.position = .discrepancyRaised pid c := hc
      rw [hpos] at hposition
      cases hposition
  | recordFirst t now run p rest pid hs htodo hpos hfree =>
      exact acts_of_quiet rfl rfl rfl (nothing_raised fun _ _ hc => by cases hc)
  | recordSecond t now run p rest pid hs htodo hpos hfree =>
      exact acts_of_quiet rfl rfl rfl (nothing_raised fun _ _ hc => by cases hc)
  | raiseDiscrepancy t now run p rest pid f hs htodo hpos hf hnone =>
      -- Nobody has a row of the key, so the `INSERT` goes through.
      rcases free_of_unlocked hnone t with ⟨hfree, hvisible⟩
      have hact : RowStore.Act (fun _ => RowChange s.nextEvent (s.nextEvent + 1)) t s.discrepancies
          (RowStore.write t (p.a, f.classification)
            (fun _ => some (newDiscrepancy (some pid) f s.nextEvent now)) s.discrepancies) := by
        refine RowStore.Act.write _ _ hfree ?_
        rw [hvisible]
        exact RowChange.raise (some pid) f now (Nat.lt_succ_self _)
      refine acts_of_act rfl hact (Nat.le_succ _) fun pid' c hc => ?_
      rcases Position.discrepancyRaised.inj hc with ⟨hpid, hclass⟩
      rw [← hpid, ← hclass]
      exact ⟨p, rest, _, htodo, congrArg RowStore.Cell.writer (RowStore.write_self _ _ _ _), rfl⟩
  | releasePair t now run p rest pid hs htodo hpos hquiet =>
      exact acts_of_quiet rfl rfl rfl (nothing_raised fun _ _ hc => by cases hc)
  | releaseRaised t now run p rest pid c hs htodo hpos =>
      exact acts_of_quiet rfl rfl rfl (nothing_raised fun _ _ hc => by cases hc)
  | conflict t now run p rest pid hs htodo hpos =>
      cases hposition : run.position with
      | discrepancyRaised pid' c =>
          exact acts_of_act rfl (RowStore.Act.undo (p.a, c)) (le_refl _)
            (nothing_raised fun _ _ hc => by cases hc)
      | _ => exact acts_of_quiet rfl rfl rfl (nothing_raised fun _ _ hc => by cases hc)
  | persistDone t now run hs htodo hpos => exact acts_of_quiet rfl rfl rfl trivial
  | beginSweep t hidle => exact acts_of_quiet rfl rfl rfl trivial
  | selectOverdue t now hs => exact acts_of_quiet rfl rfl rfl trivial
  | sweepRow t now o rest raised hs hfree =>
      refine acts_of_act rfl (RowStore.Act.write _ _ hfree ?_) (Nat.le_succ _) trivial
      exact rowChange_upsert o.finding (Nat.lt_succ_self _) now _
  | sweepDone t now raised hs => exact acts_of_quiet rfl rfl rfl trivial
  | beginResolve t k req hidle => exact acts_of_quiet rfl rfl rfl trivial
  | resolveUnknown t now k req hs hnone => exact acts_of_quiet rfl rfl rfl trivial
  | resolveClosed t now k req d hs hd hclosed => exact acts_of_quiet rfl rfl rfl trivial
  | resolveLock t now k req d hs hd hopen =>
      rcases free_of_unlocked hd t with ⟨hfree, hvisible⟩
      refine acts_of_act rfl (RowStore.Act.write k id hfree (RowChange.same _)) (le_refl _) ?_
      exact ⟨locked_of_lock hd, hopen⟩
  | resolveClose t now k req status hs =>
      have hlocked := hholds t
      rw [hs] at hlocked
      rcases locked_visible hlocked.1 with ⟨hfree, d, hvisible, hstatus⟩
      refine acts_of_act rfl (RowStore.Act.write k _ hfree ?_) (Nat.le_succ _) trivial
      -- The status read at the lock is the one the row still has.
      rw [hvisible, ← hstatus]
      refine RowChange.close req now d ?_ (Nat.lt_succ_self _)
      rw [hstatus]
      exact hlocked.2
  | beginBulk t ids req hids hidle =>
      refine acts_of_quiet rfl rfl rfl ⟨hids, fun k status hk => ?_⟩
      exact absurd hk List.not_mem_nil
  | bulkUnknown t now ids k rest found req hs hnone =>
      have hlocked := hholds t
      rw [hs] at hlocked
      exact acts_of_quiet rfl rfl rfl hlocked
  | bulkLock t now ids k rest found req d hs hd =>
      have hlocked := hholds t
      rw [hs] at hlocked
      rcases free_of_unlocked hd t with ⟨hfree, hvisible⟩
      refine acts_of_act rfl (RowStore.Act.write k id hfree (RowChange.same _)) (le_refl _) ?_
      refine ⟨hlocked.1, fun k' status hk' => ?_⟩
      rcases List.mem_append.mp hk' with hold | hnew
      · -- A row locked earlier is another one: this one was not locked.
        have hlock := hlocked.2 k' status hold
        refine locked_of_write_other id ?_ hlock
        intro heq
        rcases hlock with ⟨d', hw, _⟩
        rw [heq, hd] at hw
        cases hw
      · have heq := List.mem_singleton.mp hnew
        rw [(Prod.mk.inj heq).1, (Prod.mk.inj heq).2]
        exact locked_of_lock hd
  | bulkSelect t now ids found req hs =>
      have hlocked := hholds t
      rw [hs] at hlocked
      refine acts_of_quiet rfl rfl rfl ⟨hlocked.1.filter _, fun k hk => ?_⟩
      rcases mem_closable hk with ⟨status, hmem, hopen⟩
      exact ⟨status, hlocked.2 k status hmem, hopen⟩
  | bulkClose t now k rest req resolved skipped hs =>
      have hlocked := hholds t
      rw [hs] at hlocked
      rcases List.nodup_cons.mp hlocked.1 with ⟨hnotin, hnodup⟩
      rcases hlocked.2 k List.mem_cons_self with ⟨status, hlock, hopen⟩
      rcases locked_visible hlock with ⟨hfree, d, hvisible, hstatus⟩
      refine acts_of_act rfl (RowStore.Act.write k _ hfree ?_) (Nat.le_succ _) ?_
      · rw [hvisible]
        refine RowChange.close req now d ?_ (Nat.lt_succ_self _)
        rw [hstatus]
        exact hopen
      · -- The other ids are of other rows, which stay locked.
        refine ⟨hnodup, fun k' hk' => ?_⟩
        rcases hlocked.2 k' (List.mem_cons_of_mem _ hk') with ⟨status', hlock', hopen'⟩
        have hne : k' ≠ k := fun heq => hnotin (heq ▸ hk')
        exact ⟨status', locked_of_write_other _ hne hlock', hopen'⟩
  | bulkDone t now req resolved skipped hs => exact acts_of_quiet rfl rfl rfl trivial
  | commit t now reply hs => exact acts_of_act rfl RowStore.Act.commit (le_refl _) trivial
  | abort t now work hs => exact acts_of_act rfl RowStore.Act.rollback (le_refl _) trivial

omit [DecidableEq T] in
theorem auditInv_initial {s : GoldDb T} (h : Initial s) : AuditInv s := by
  rcases h with ⟨_, _, hd, hsess⟩
  constructor
  · rw [hd]
    refine RowStore.sound_blank (fun k d hdd => ?_)
    cases hdd
  · intro t
    rw [hsess t]
    trivial

/-- Every committed discrepancy of `s` is one of `s'`, as `RowLe` says. -/
def RowsLe (s s' : GoldDb T) : Prop :=
  ∀ k, RowLe (s.discrepancies k).committed (s'.discrepancies k).committed

/-- A step keeps the invariant and moves every committed row forward. -/
theorem auditInv_step {s s' : GoldDb T} (hinv : AuditInv s) (h : Step s s') :
    AuditInv s' ∧ RowsLe s s' := by
  rcases step_act hinv.holds h with ⟨t, hact, hn, hothers, hholds⟩
  refine ⟨⟨?_, fun t' => ?_⟩, fun k => ?_⟩
  · refine RowStore.act_sound (fun _ => rowLe_refl) (fun _ _ _ _ => rowLe_trans) ?_ ?_ hinv.sound
      hact
    · exact fun _ v hv d hd => replays_mono hn (hv d hd)
    · exact fun _ v v' hv hchange => rowChange_replays hn hv hchange
  · by_cases ht : t' = t
    · rw [ht]
      exact hholds
    · rw [hothers t' ht]
      exact holds_foreign ht hact (hinv.holds t')
  · exact RowStore.act_committed (fun _ => rowLe_refl) hinv.sound hact k

theorem auditInv_of_reachable {s : GoldDb T} (h : Transition.Reachable Initial Step s) :
    AuditInv s := by
  refine Transition.invariant_of_step ?_ ?_ h
  · intro s₀ hinit
    exact auditInv_initial hinit
  · intro a b hinv hstep
    exact (auditInv_step hinv hstep).1

/-- Committed rows only move forward along a run. -/
theorem rowsLe_of_run {s s' : GoldDb T} (hinv : AuditInv s)
    (hrun : Relation.ReflTransGen Step s s') : RowsLe s s' := by
  refine Transition.runs_rel ?_ ?_ ?_ hinv hrun
  · intro a k
    exact rowLe_refl _
  · intro a b c hab hbc k
    exact rowLe_trans (hab k) (hbc k)
  · intro a b hi hstep
    exact auditInv_step hi hstep

/-- In every committed state the events of a discrepancy, in the order of their
    ids, begin with the one that raised it, each finding the status the one
    before it left; the last leaves the status of the row, and at most one
    closes it. And once closed, the row is the same in every later state. -/
theorem discrepancy_history_replays {s : GoldDb T} (h : Transition.Reachable Initial Step s)
    (k : Key T) (d : DiscrepancyRow) (hd : (s.discrepancies k).committed = some d) :
    (d.events.Pairwise fun e e' => e.id < e'.id) ∧
    (∃ first rest, d.events = first :: rest ∧ first.action = .raised ∧
      first.fromStatus = none ∧ first.toStatus = .open_ ∧ ∀ e ∈ rest, e.action ≠ .raised) ∧
    d.events.IsChain (fun e e' => e'.fromStatus = some e.toStatus) ∧
    (∃ last, d.events.getLast? = some last ∧ last.toStatus = d.status) ∧
    (d.events.filter fun e => e.action.closing).length ≤ 1 ∧
    (d.status.closed = true → ∀ s', Relation.ReflTransGen Step s s' →
      (s'.discrepancies k).committed = some d) := by
  have hinv := auditInv_of_reachable h
  have hrow : Replays s.nextEvent d := (hinv.sound k).1 d hd
  rcases hrow.raised with ⟨first, rest, hevents, hraised, hto, hrest⟩
  have hreplay := hrow.replay
  refine ⟨hrow.ordered, ⟨first, rest, hevents, hraised, ?_, hto, hrest⟩,
    Journal.replay_isChain hreplay, Journal.replay_getLast ?_ hreplay, hrow.closing,
    fun hclosed s' hrun => ?_⟩
  · rw [hevents] at hreplay
    exact (Journal.replay_head hreplay).1
  · rw [hevents]
    exact List.cons_ne_nil _ _
  · rcases rowsLe_of_run hinv hrun k d hd with ⟨d', hd', _, hsame⟩
    rw [hd', hsame hclosed]

section Exhibit

/-- A credit that should have settled at time 0. -/
def pendingCredit : SilverRow Nat where
  id := 1
  transactionType := .credit
  settlementStatus := .pending
  amountNgn := 5000
  fxRateApplied := none
  expectedSettlementAt := some 0

/-- Empty Gold tables three hours later. -/
def freshDb : GoldDb Nat where
  silver := [pendingCredit]
  pairs := OwnedTable.empty
  matched := OwnedTable.empty
  discrepancies := RowStore.blank none
  sessions := fun _ => .idle
  nextPair := 0
  nextEvent := 0
  clock := hours 3

/-- A missing settlement is raised by one transaction and resolved by
    another. -/
theorem discrepancy_history_replays_resolved :
    ∃ s : GoldDb Nat, ∃ d, Transition.Reachable Initial Step s ∧
      (s.discrepancies (1, .missingSettlement)).committed = some d ∧ d.status = .resolved ∧
      (d.events.Pairwise fun e e' => e.id < e'.id) ∧
      (∃ first rest, d.events = first :: rest ∧ first.action = .raised ∧
        first.fromStatus = none ∧ first.toStatus = .open_ ∧ ∀ e ∈ rest, e.action ≠ .raised) ∧
      d.events.IsChain (fun e e' => e'.fromStatus = some e.toStatus) ∧
      (∃ last, d.events.getLast? = some last ∧ last.toStatus = d.status) ∧
      (d.events.filter fun e => e.action.closing).length ≤ 1 ∧
      (d.status.closed = true → ∀ s', Relation.ReflTransGen Step s s' →
        (s'.discrepancies (1, .missingSettlement)).committed = some d) := by
  have h0 : Transition.Reachable Initial Step freshDb :=
    Transition.reachable_of_init ⟨rfl, rfl, rfl, fun _ => rfl⟩
  -- The matching flow raises it.
  have h1 := Transition.reachable_step h0 (Step.beginSweep freshDb 0 rfl)
  have h2 := Transition.reachable_step h1 (Step.selectOverdue _ 0 (hours 3) rfl)
  have h3 := Transition.reachable_step h2
    (Step.sweepRow _ 0 (hours 3) _ [] 0 rfl (fun _ _ h => by cases h))
  have h4 := Transition.reachable_step h3 (Step.sweepDone _ 0 (hours 3) _ rfl)
  have h5 := Transition.reachable_step h4 (Step.commit _ 0 (hours 3) _ rfl)
  -- An analyst resolves it.
  have h6 := Transition.reachable_step h5 (Step.beginResolve _ 1 (1, .missingSettlement)
    { outcome := .resolved, actor := "ops", note := "settled by bank letter" } rfl)
  have h7 := Transition.reachable_step h6 (Step.resolveLock _ 1 (hours 3) _ _ _ rfl rfl rfl)
  have h8 := Transition.reachable_step h7 (Step.resolveClose _ 1 (hours 3) _ _ _ rfl)
  have h9 := Transition.reachable_step h8 (Step.commit _ 1 (hours 3) _ rfl)
  exact ⟨_, _, h9, rfl, rfl, discrepancy_history_replays h9 _ _ rfl⟩

end Exhibit

end Sessions

end Gold

end MmrEngine
