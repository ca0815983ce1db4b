import MmrEngine.Api.Reconciliation
import MmrEngine.Theory.AuditTrail

/-!
# The Displayed Audit Trail

`discrepancy_history_replays` is about the events in the order of their ids,
which is the order in which the transactions had the row locked. An auditor is
shown another order, that of `occurred_at`, and this is when a transaction
began: one that began early and got the lock late is shown too far up.

What is shown replays exactly if the transaction that raised the discrepancy
began first of all, and the one that closed it last (`trail_replays_iff`). What
lies between only changes the severity of an open row, and such events may
change places.

So a run goes well as long as no transaction writes into a row whose events it
is too old for (`Timely`). Nothing enforces that: see `late_lock_breaks_trail`.

## Main definitions

* `TrailReplays`: The shown events lead to the status of the row.
* `Shape`: Raised, regraded while open, closed or not.
* `Timed`: The first transaction began first, and the last one last.
* `Timely`, `TimelyStep`: A step into a row the transaction is not too old for.
* `Appends`: What a timely step adds to a row.

## Theorems

* `shape_of_reachable`: Every committed row has the shape.
* `trail_replays_iff`: What is shown replays exactly if the row is timed.
* `step_appends`: What a timely step adds.
* `timed_of_reachable`: Timely steps keep every row timed.
* `displayed_trail_replays`: The displayed trail of a timely run replays.
-/

namespace MmrEngine

namespace Gold

open Discrepancy Reconciliation

section Shown

/-- The events begin with the one that raised the discrepancy, each finds what
    the one before it left, one that closes is the last, and the last leaves
    the status. -/
structure TrailReplays (trail : List EventView) (status : DiscrepancyStatus) : Prop where
  raised : ∃ first rest, trail = first :: rest ∧ first.action = .raised
  links : trail.IsChain fun e e' => e'.fromStatus = some e.toStatus
  closing : ∀ e ∈ trail.dropLast, e.action.closing = false
  final : ∃ last, trail.getLast? = some last ∧ last.toStatus = status

/-- The event changes the severity of an open row. -/
def Regrades (e : DiscrepancyEvent) : Prop :=
  e.action = .severityChanged ∧ e.fromStatus = some .open_ ∧ e.toStatus = .open_

/-- What follows the regradings: nothing on an open row, the closing event on a
    closed one. -/
def Ending (status : DiscrepancyStatus) (ending : List DiscrepancyEvent) : Prop :=
  (status = .open_ ∧ ending = []) ∨ ∃ last, ending = [last] ∧ status.closed = true ∧
    last.action.closing = true ∧ last.fromStatus = some .open_ ∧ last.toStatus = status

/-- The events of a row: raised, regraded any number of times, closed or not. -/
def Shape (d : DiscrepancyRow) : Prop :=
  ∃ first middle ending, d.events = first :: (middle ++ ending) ∧ first.action = .raised ∧
    first.toStatus = .open_ ∧ (∀ e ∈ middle, Regrades e) ∧ Ending d.status ending

/-- The transaction that raised the row began before all others, the one that
    closed it after them. -/
structure Timed (d : DiscrepancyRow) : Prop where
  raised : ∀ r ∈ d.events, r.action = .raised → ∀ e ∈ d.events, r.occurredAt ≤ e.occurredAt
  closing : ∀ c ∈ d.events, c.action.closing = true → ∀ e ∈ d.events, e.occurredAt ≤ c.occurredAt

theorem eventOrder_le_iff {e e' : DiscrepancyEvent} :
    eventOrder e ≤ eventOrder e' ↔
      e.occurredAt < e'.occurredAt ∨ (e.occurredAt = e'.occurredAt ∧ e.id ≤ e'.id) :=
  Prod.Lex.toLex_le_toLex

theorem eventOrder_le {e e' : DiscrepancyEvent} (ht : e.occurredAt ≤ e'.occurredAt)
    (hid : e.id ≤ e'.id) : eventOrder e ≤ eventOrder e' := by
  rw [eventOrder_le_iff]
  omega

theorem occurredAt_le {e e' : DiscrepancyEvent} (h : eventOrder e ≤ eventOrder e') :
    e.occurredAt ≤ e'.occurredAt := by
  rw [eventOrder_le_iff] at h
  omega

/-- Regradings link up in any order, between what leaves the row open and what
    finds it open. -/
theorem isChain_regrades {ending : List DiscrepancyEvent}
    (hending : ∀ e ∈ ending, e.fromStatus = some .open_) (hshort : ending.length ≤ 1) :
    ∀ (middle : List DiscrepancyEvent) (first : DiscrepancyEvent), first.toStatus = .open_ →
      (∀ e ∈ middle, Regrades e) →
      (first :: (middle ++ ending)).IsChain fun e e' => e'.fromStatus = some e.toStatus := by
  intro middle
  induction middle with
  | nil =>
      intro first hfirst _
      -- With no regradings between them, the closing event follows the raising one.
      cases ending with
      | nil => exact List.isChain_singleton first
      | cons last rest =>
          have hrest : rest = [] := by
            rw [List.length_cons] at hshort
            exact List.eq_nil_of_length_eq_zero (by omega)
          rw [hrest]
          refine List.IsChain.cons_cons ?_ (List.isChain_singleton last)
          rw [hfirst]
          exact hending last List.mem_cons_self
  | cons m rest ih =>
      intro first hfirst hmiddle
      -- A regrading finds the row open and leaves it so, as the raising event did.
      have hm := hmiddle m List.mem_cons_self
      refine List.IsChain.cons_cons ?_
        (ih m hm.2.2 fun e he => hmiddle e (List.mem_cons_of_mem _ he))
      rw [hfirst]
      exact hm.2.1

/-- The order in which a timed row is shown: the raising event stays first, the
    closing one last. -/
theorem ascending_of_timed {d : DiscrepancyRow} {first : DiscrepancyEvent}
    {middle ending : List DiscrepancyEvent} (hevents : d.events = first :: (middle ++ ending))
    (hids : d.events.Pairwise fun e e' => e.id < e'.id) (hraised : first.action = .raised)
    (hending : Ending d.status ending) (htimed : Timed d) :
    Ranking.ascending eventOrder d.events =
      first :: (Ranking.ascending eventOrder middle ++ ending) := by
  have hperm : d.events.Perm (first :: (Ranking.ascending eventOrder middle ++ ending)) := by
    rw [hevents]
    exact ((List.perm_insertionSort _ middle).symm.append_right ending).cons first
  have hmem : ∀ e, e ∈ first :: (Ranking.ascending eventOrder middle ++ ending) → e ∈ d.events :=
    fun e he => hperm.mem_iff.mpr he
  have hids' := hids
  rw [hevents, List.pairwise_cons, List.pairwise_append] at hids'
  refine Ranking.ascending_eq_of_perm hperm ?_ ?_
  · rw [List.pairwise_cons, List.pairwise_append]
    refine ⟨fun e he => ?_, Ranking.ascending_pairwise eventOrder middle, ?_, fun e he c hc => ?_⟩
    · have hle := htimed.raised first (hmem first List.mem_cons_self) hraised e
        (hmem e (List.mem_cons_of_mem _ he))
      refine eventOrder_le hle (le_of_lt (hids'.1 e ?_))
      rw [List.mem_append, Ranking.mem_ascending] at he
      exact List.mem_append.mpr he
    · rcases hending with ⟨_, hnil⟩ | ⟨last, hlast, _⟩
      · rw [hnil]
        exact List.Pairwise.nil
      · rw [hlast]
        exact List.pairwise_singleton _ _
    · rw [Ranking.mem_ascending] at he
      have hid := hids'.2.2.2 e he c hc
      rcases hending with ⟨_, hnil⟩ | ⟨last, hlast, _, hclosing, _⟩
      · rw [hnil] at hc
        cases hc
      · have heq : c = last := List.mem_singleton.mp (hlast ▸ hc)
        refine eventOrder_le (htimed.closing c ?_ (heq ▸ hclosing) e ?_) (le_of_lt hid)
        · exact hmem c (List.mem_cons_of_mem _ (List.mem_append_right _ hc))
        · exact hmem e (List.mem_cons_of_mem _
            (List.mem_append_left _ ((Ranking.mem_ascending eventOrder).mpr he)))
  · -- Events of one key have one id, and ids differ.
    intro a ha b hb hkey
    have hid : a.id = b.id := congrArg (fun k => (ofLex k).2) hkey
    have hnodup : (d.events.map DiscrepancyEvent.id).Nodup :=
      (List.pairwise_map.mpr hids).imp fun hlt => Nat.ne_of_lt hlt
    exact List.inj_on_of_nodup_map hnodup (hmem a ha) (hmem b hb) hid

/-- What comes before the ending neither closes the row nor leaves it closed. -/
theorem open_before_ending {first : DiscrepancyEvent} {middle : List DiscrepancyEvent}
    (hraised : first.action = .raised) (hopen : first.toStatus = .open_)
    (hmiddle : ∀ e ∈ middle, Regrades e) :
    ∀ e ∈ first :: middle, e.action.closing = false ∧ e.toStatus = .open_ := by
  intro e he
  rcases List.mem_cons.mp he with rfl | hm
  · rw [hraised]
    exact ⟨rfl, hopen⟩
  · rw [(hmiddle e hm).1]
    exact ⟨rfl, (hmiddle e hm).2.2⟩

theorem getDiscrepancyEvents_some (d : DiscrepancyRow) :
    getDiscrepancyEvents (some d) = (Ranking.ascending eventOrder d.events).map eventView := rfl

/-- A timed row is shown as it happened. -/
theorem replays_of_timed {d : DiscrepancyRow}
    (hids : d.events.Pairwise fun e e' => e.id < e'.id) (hshape : Shape d) (htimed : Timed d) :
    TrailReplays (getDiscrepancyEvents (some d)) d.status := by
  rcases hshape with ⟨first, middle, ending, hevents, hraised, hopen, hmiddle, hending⟩
  have hshown := ascending_of_timed hevents hids hraised hending htimed
  have hregrades : ∀ e ∈ Ranking.ascending eventOrder middle, Regrades e :=
    fun e he => hmiddle e ((Ranking.mem_ascending eventOrder).mp he)
  have hbefore := open_before_ending hraised hopen hregrades
  rw [getDiscrepancyEvents_some, hshown]
  -- The regradings may be shown in another order than they were made in.
  have hlinks : (first :: (Ranking.ascending eventOrder middle ++ ending)).IsChain
      fun e e' => e'.fromStatus = some e.toStatus := by
    refine isChain_regrades ?_ ?_ _ first hopen hregrades
    · intro e he
      rcases hending with ⟨_, hnil⟩ | ⟨last, hlast, _, _, hfrom, _⟩
      · rw [hnil] at he
        cases he
      · rw [hlast, List.mem_singleton] at he
        rw [he]
        exact hfrom
    · rcases hending with ⟨_, hnil⟩ | ⟨last, hlast, _⟩
      · rw [hnil]
        exact Nat.zero_le 1
      · rw [hlast]
        exact Nat.le_refl 1
  -- Nothing but a closing event leaves the row other than open.
  refine ⟨⟨eventView first, _, rfl, hraised⟩, (List.isChain_map _).mpr hlinks, ?_, ?_⟩
  · intro v hv
    rw [← List.map_dropLast] at hv
    rcases List.mem_map.mp hv with ⟨e, he, rfl⟩
    rcases hending with ⟨_, hnil⟩ | ⟨last, hlast, _⟩
    · rw [hnil, List.append_nil] at he
      exact (hbefore e ((List.dropLast_sublist _).subset he)).1
    · rw [hlast, ← List.cons_append, List.dropLast_concat] at he
      exact (hbefore e he).1
  · -- The last event shown is the closing one, or leaves the row open.
    rw [List.getLast?_map]
    rcases hending with ⟨hstatus, hnil⟩ | ⟨last, hlast, _, _, _, hto⟩
    · rw [hnil, List.append_nil, List.getLast?_eq_some_getLast (List.cons_ne_nil _ _)]
      refine ⟨_, rfl, ?_⟩
      rw [hstatus]
      exact (hbefore _ (List.getLast_mem _)).2
    · rw [hlast, ← List.cons_append, List.getLast?_concat]
      exact ⟨_, rfl, hto⟩

/-- And only a timed row is. -/
theorem timed_of_replays {d : DiscrepancyRow} (hshape : Shape d)
    (h : TrailReplays (getDiscrepancyEvents (some d)) d.status) : Timed d := by
  rcases hshape with ⟨first, middle, ending, hevents, hraised, hopen, hmiddle, hending⟩
  have hsorted := Ranking.ascending_pairwise eventOrder d.events
  have hmem : ∀ e, e ∈ d.events ↔ e ∈ Ranking.ascending eventOrder d.events :=
    fun e => (Ranking.mem_ascending eventOrder).symm
  -- Only one event raises.
  have hfirst : ∀ e ∈ d.events, e.action = .raised → e = first := by
    intro e he haction
    rw [hevents] at he
    rcases List.mem_cons.mp he with rfl | hrest
    · rfl
    · rcases List.mem_append.mp hrest with hm | hlast
      · rw [(hmiddle e hm).1] at haction
        cases haction
      · rcases hending with ⟨_, hnil⟩ | ⟨last, hone, _, hclosing, _⟩
        · rw [hnil] at hlast
          cases hlast
        · rw [hone, List.mem_singleton] at hlast
          rw [← hlast, haction] at hclosing
          cases hclosing
  rw [getDiscrepancyEvents_some] at h
  generalize hl : Ranking.ascending eventOrder d.events = shown at h hsorted hmem
  constructor
  · intro r hr haction e he
    rcases h.raised with ⟨v, views, hshown, hv⟩
    cases shown with
    | nil => cases hshown
    | cons x xs =>
        have hx : x.action = .raised := by
          rw [List.map_cons, List.cons.injEq] at hshown
          rw [← hshown.1] at hv
          exact hv
        have hrx : r = x := by
          rw [hfirst r hr haction, hfirst x ((hmem x).mpr List.mem_cons_self) hx]
        rcases List.mem_cons.mp ((hmem e).mp he) with rfl | hxs
        · rw [hrx]
        · rw [hrx]
          exact occurredAt_le ((List.pairwise_cons.mp hsorted).1 e hxs)
  · intro c hc hclosing e he
    have hne : shown ≠ [] := List.ne_nil_of_mem ((hmem c).mp hc)
    have hsplit := List.dropLast_append_getLast hne
    have hcl : c = shown.getLast hne := by
      have hc' := (hmem c).mp hc
      rw [← hsplit, List.mem_append, List.mem_singleton] at hc'
      rcases hc' with hdrop | hlast
      · have hfalse := h.closing (eventView c)
          (List.map_dropLast ▸ List.mem_map_of_mem hdrop)
        rw [show (eventView c).action = c.action from rfl, hclosing] at hfalse
        cases hfalse
      · exact hlast
    have he' := (hmem e).mp he
    rw [← hsplit, List.mem_append, List.mem_singleton] at he'
    rw [← hsplit, List.pairwise_append] at hsorted
    rcases he' with hdrop | hlast
    · rw [hcl]
      exact occurredAt_le (hsorted.2.2 e hdrop _ List.mem_cons_self)
    · rw [hcl, hlast]

end Shown

section Changes

/-- What is added to a row: nothing, or an event of a transaction that is not
    too old for it. -/
def Appends (v v' : Option DiscrepancyRow) : Prop :=
  ∀ d d', v = some d → v' = some d' → d'.events = d.events ∨
    ∃ e, d'.events = d.events ++ [e] ∧ e.action ≠ .raised ∧
      (∀ r ∈ d.events, r.action = .raised → r.occurredAt ≤ e.occurredAt) ∧
      (e.action.closing = true → ∀ x ∈ d.events, x.occurredAt ≤ e.occurredAt)

theorem appends_refl (v : Option DiscrepancyRow) : Appends v v := by
  intro d d' hd hd'
  rw [hd] at hd'
  rw [Option.some.inj hd']
  exact Or.inl rfl

def ShapeOk (v : Option DiscrepancyRow) : Prop := ∀ d, v = some d → Shape d

def TimedOk (v : Option DiscrepancyRow) : Prop := ∀ d, v = some d → Timed d

theorem shape_new (pairId : Option Nat) (f : Finding) (n : Nat) (now : ℤ) :
    Shape (newDiscrepancy pairId f n now) :=
  ⟨raisedEvent n now, [], [], rfl, rfl, rfl, fun _ he => absurd he List.not_mem_nil,
    Or.inl ⟨rfl, rfl⟩⟩

theorem shape_changeSeverity (f : Finding) (n : Nat) (now : ℤ) {d : DiscrepancyRow}
    (hopen : d.status = .open_) (h : Shape d) : Shape (changeSeverity f n now d) := by
  rcases h with ⟨first, middle, ending, hevents, hraised, hto, hmiddle, hending⟩
  have hnil : ending = [] := by
    rcases hending with ⟨_, hnil⟩ | ⟨_, _, hclosed, _⟩
    · exact hnil
    · rw [hopen] at hclosed
      cases hclosed
  refine ⟨first, middle ++ [severityChangedEvent n now], [], ?_, hraised, hto, fun e he => ?_,
    Or.inl ⟨hopen, rfl⟩⟩
  · simp only [changeSeverity, hevents, hnil, List.append_nil, List.cons_append]
  · rcases List.mem_append.mp he with hm | hnew
    · exact hmiddle e hm
    · rw [List.mem_singleton.mp hnew]
      exact ⟨rfl, rfl, rfl⟩

theorem shape_closeDiscrepancy (req : Closing) (n : Nat) (now : ℤ) {d : DiscrepancyRow}
    (hopen : d.status.closed = false) (h : Shape d) :
    Shape (closeDiscrepancy req d.status n now d) := by
  rcases h with ⟨first, middle, ending, hevents, hraised, hto, hmiddle, hending⟩
  rcases hending with ⟨hstatus, hnil⟩ | ⟨_, _, hclosed, _⟩
  · refine ⟨first, middle, [closingEvent req d.status n now], ?_, hraised, hto, hmiddle,
      Or.inr ⟨_, rfl, Outcome.status_closed _, ?_, ?_, rfl⟩⟩
    · simp only [closeDiscrepancy, hevents, hnil, List.append_nil, List.cons_append]
    · cases hreq : req.outcome with
      | _ => simp only [closingEvent, hreq, Outcome.action, EventAction.closing]
    · rw [hstatus]
      rfl
  · rw [hopen] at hclosed
    cases hclosed

theorem shape_change {n n' : Nat} {v v' : Option DiscrepancyRow} (hok : ShapeOk v)
    (h : RowChange n n' v v') : ShapeOk v' := by
  intro d' hd'
  cases h with
  | same => exact hok d' hd'
  | raise pairId f now hn =>
      rw [← Option.some.inj hd']
      exact shape_new pairId f n now
  | severity f now d hopen hn =>
      rw [← Option.some.inj hd']
      exact shape_changeSeverity f n now hopen (hok d rfl)
  | close req now d hopen hn =>
      rw [← Option.some.inj hd']
      exact shape_closeDiscrepancy req n now hopen (hok d rfl)

theorem timed_new (pairId : Option Nat) (f : Finding) (n : Nat) (now : ℤ) :
    Timed (newDiscrepancy pairId f n now) := by
  constructor
  · intro r hr _ e he
    rw [List.mem_singleton.mp hr, List.mem_singleton.mp he]
  · intro c hc _ e he
    rw [List.mem_singleton.mp hc, List.mem_singleton.mp he]

/-- One more event on a row that nothing has closed. -/
theorem timed_append {d d' : DiscrepancyRow} (hquiet : ∀ e ∈ d.events, e.action.closing = false)
    (h : Timed d) (happends : Appends (some d) (some d')) : Timed d' := by
  rcases happends d d' rfl rfl with hsame | ⟨e, hevents, hnot, hraised, hclosing⟩
  · exact ⟨by rw [hsame]; exact h.raised, by rw [hsame]; exact h.closing⟩
  · constructor
    · intro r hr haction x hx
      rw [hevents, List.mem_append, List.mem_singleton] at hr hx
      rcases hr with hr | rfl
      · rcases hx with hx | rfl
        · exact h.raised r hr haction x hx
        · exact hraised r hr haction
      · exact absurd haction hnot
    · intro c hc haction x hx
      rw [hevents, List.mem_append, List.mem_singleton] at hc hx
      rcases hc with hc | rfl
      · rw [hquiet c hc] at haction
        cases haction
      · rcases hx with hx | rfl
        · exact hclosing haction x hx
        · exact le_refl _

theorem timed_change {n n' : Nat} {v v' : Option DiscrepancyRow} (hrow : RowOk n v)
    (hok : TimedOk v) (h : RowChange n n' v v') (happends : Appends v v') : TimedOk v' := by
  intro d' hd'
  cases h with
  | same => exact hok d' hd'
  | raise pairId f now hn =>
      rw [← Option.some.inj hd']
      exact timed_new pairId f n now
  | severity f now d hopen hn =>
      have hquiet := (hrow d rfl).quiet (by rw [hopen]; rfl)
      rw [← Option.some.inj hd']
      exact timed_append hquiet (hok d rfl) happends
  | close req now d hopen hn =>
      have hquiet := (hrow d rfl).quiet hopen
      rw [← Option.some.inj hd']
      exact timed_append hquiet (hok d rfl) happends

end Changes

section Runs

variable {T : Type} [DecidableEq T]

/-- What holds of every row, committed or not. -/
def EveryRow (J : Option DiscrepancyRow → Prop) (s : GoldDb T) : Prop :=
  RowStore.Sound (fun _ v => J v) (fun _ _ _ => True) s.discrepancies

/-- What the changes of rows keep, the steps keep. -/
theorem everyRow_step {J : Option DiscrepancyRow → Prop}
    {L : Option DiscrepancyRow → Option DiscrepancyRow → Prop} {s s' : GoldDb T}
    (hinv : AuditInv s) (hJ : EveryRow J s) (hstep : Step s s')
    (hwrites : ∀ k t v, (s'.discrepancies k).writer = some (t, v) →
      L (RowStore.visible t (s.discrepancies k)) v)
    (hkeep : ∀ v v', RowOk s.nextEvent v → J v → RowChange s.nextEvent s'.nextEvent v v' →
      L v v' → J v') : EveryRow J s' := by
  rcases step_act hinv.holds hstep with ⟨t, hact, _, _, _⟩
  have hact' : RowStore.Act (fun _ v v' => RowChange s.nextEvent s'.nextEvent v v' ∧ L v v') t
      s.discrepancies s'.discrepancies := RowStore.act_and hact fun k v hw => hwrites k t v hw
  refine RowStore.act_sound (I := fun _ v => RowOk s.nextEvent v ∧ J v) (fun _ _ => trivial)
    (fun _ _ _ _ _ _ => trivial) (fun _ _ h => h.2) ?_ (RowStore.sound_and hinv.sound hJ) hact'
  intro k v v' hv hchange
  exact ⟨hkeep v v' hv.1 hv.2 hchange.1 hchange.2, trivial⟩

omit [DecidableEq T] in
theorem everyRow_initial {J : Option DiscrepancyRow → Prop} (hnone : J none) {s : GoldDb T}
    (h : Initial s) : EveryRow J s := by
  rcases h with ⟨_, _, hd, _⟩
  unfold EveryRow
  rw [hd]
  exact RowStore.sound_blank fun _ => hnone

/-- Every row is raised, regraded while it is open, and closed or not. -/
theorem shape_of_reachable {s : GoldDb T} (h : Transition.Reachable Initial Step s) :
    EveryRow ShapeOk s := by
  have hboth : AuditInv s ∧ EveryRow ShapeOk s := by
    refine Transition.invariant_of_step (I := fun s => AuditInv s ∧ EveryRow ShapeOk s) ?_ ?_ h
    · intro s₀ hinit
      exact ⟨auditInv_initial hinit, everyRow_initial (fun _ hd => by cases hd) hinit⟩
    · intro a b hinv hstep
      refine ⟨(auditInv_step hinv.1 hstep).1, ?_⟩
      exact everyRow_step (L := fun _ _ => True) hinv.1 hinv.2 hstep (fun _ _ _ _ => trivial)
        fun v v' _ hok hchange _ => shape_change hok hchange
  exact hboth.2

/-- What an auditor is shown replays exactly if the transaction that raised the
    row began first and the one that closed it last. -/
theorem trail_replays_iff {s : GoldDb T} (h : Transition.Reachable Initial Step s) {k : Key T}
    {d : DiscrepancyRow} (hd : (s.discrepancies k).committed = some d) :
    TrailReplays (getDiscrepancyEvents (some d)) d.status ↔ Timed d := by
  have hrow : Replays s.nextEvent d := ((auditInv_of_reachable h).sound k).1 d hd
  have hshape : Shape d := (shape_of_reachable h k).1 d hd
  constructor
  · exact timed_of_replays hshape
  · exact replays_of_timed hrow.ordered hshape

/-- The transaction of session `t` is not too old for the row its next step
    writes an event of. -/
def Timely (s : GoldDb T) (t : Nat) : Prop :=
  match s.sessions t with
  | .active now (.sweeping (o :: _) _) =>
    ∀ d, RowStore.visible t (s.discrepancies (o.transactionId, .missingSettlement)) = some d →
      d.status = .open_ → d.severity ≠ o.finding.severity →
        ∀ e ∈ d.events, e.action = .raised → e.occurredAt ≤ now
  | .active now (.closing k _ _) =>
    ∀ d, RowStore.visible t (s.discrepancies k) = some d → ∀ e ∈ d.events, e.occurredAt ≤ now
  | .active now (.bulkClosing (k :: _) _ _ _) =>
    ∀ d, RowStore.visible t (s.discrepancies k) = some d → ∀ e ∈ d.events, e.occurredAt ≤ now
  | _ => True

/-- A step whose session, if it goes on, goes on in time. -/
def TimelyStep (s s' : GoldDb T) : Prop :=
  Step s s' ∧ ∀ t now work, s'.sessions t = .active now work → s.sessions t ≠ s'.sessions t →
    Timely s t

omit [DecidableEq T] in
/-- A session that goes on to other work is timely. -/
theorem timely_of_goes_on {s s' : GoldDb T}
    (h : ∀ t now work, s'.sessions t = .active now work → s.sessions t ≠ s'.sessions t →
      Timely s t)
    {t : Nat} {now : ℤ} {work work' : Work T} (hs : s.sessions t = .active now work)
    (hs' : s'.sessions t = .active now work') (hne : work ≠ work') : Timely s t := by
  refine h t now work' hs' fun heq => hne ?_
  rw [hs, hs'] at heq
  exact (Session.active.inj heq).2

omit [DecidableEq T] in
theorem appends_layer {cells : RowStore.Store (Key T) Nat (Option DiscrepancyRow)} {k : Key T}
    {t : Nat} {v : Option DiscrepancyRow} (h : RowStore.Layer (cells k) (some t) v) :
    Appends (RowStore.visible t (cells k)) v := by
  have hvisible : RowStore.visible t (cells k) = v := by
    have hw : (cells k).writer = some (t, v) := h
    simp only [RowStore.visible, hw, if_true]
  rw [hvisible]
  exact appends_refl v

theorem appends_write {cells : RowStore.Store (Key T) Nat (Option DiscrepancyRow)} {k k' : Key T}
    {t t' : Nat} {f : Option DiscrepancyRow → Option DiscrepancyRow} {v : Option DiscrepancyRow}
    (h : (RowStore.write t k f cells k').writer = some (t', v))
    (hf : Appends (RowStore.visible t (cells k)) (f (RowStore.visible t (cells k)))) :
    Appends (RowStore.visible t' (cells k')) v := by
  rcases RowStore.layer_write (o := some t') h with hold | ⟨rfl, ht, rfl⟩
  · exact appends_layer hold
  · rw [Option.some.inj ht]
    exact hf

/-- Closing a row that has no later event. -/
theorem appends_close {v : Option DiscrepancyRow} {req : Closing}
    {status : DiscrepancyRow → DiscrepancyStatus} {n : Nat} {now : ℤ}
    (htimely : ∀ d, v = some d → ∀ e ∈ d.events, e.occurredAt ≤ now) :
    Appends v (v.map fun d => closeDiscrepancy req (status d) n now d) := by
  intro d d' hd hd'
  rw [hd, Option.map_some] at hd'
  rw [← Option.some.inj hd']
  refine Or.inr ⟨closingEvent req (status d) n now, rfl, ?_, fun r hr _ => htimely d hd r hr,
    fun _ => htimely d hd⟩
  intro hc
  cases hreq : req.outcome <;> simp [closingEvent, hreq, Outcome.action] at hc

/-- Raising or regrading a row that was not raised later. -/
theorem appends_upsert {v : Option DiscrepancyRow} {f : Finding} {n : Nat} {now : ℤ}
    (htimely : ∀ d, v = some d → d.status = .open_ → d.severity ≠ f.severity →
      ∀ e ∈ d.events, e.action = .raised → e.occurredAt ≤ now) :
    Appends v (upsertMissingSettlement f n now v) := by
  intro d d' hd hd'
  rw [hd] at hd'
  unfold upsertMissingSettlement at hd'
  by_cases h : d.status = .open_ ∧ d.severity ≠ f.severity
  · simp only [if_pos h] at hd'
    rw [← Option.some.inj hd']
    refine Or.inr ⟨severityChangedEvent n now, rfl, fun hc => ?_, htimely d hd h.1 h.2,
      fun hc => ?_⟩
    · cases hc
    · cases hc
  · simp only [if_neg h] at hd'
    rw [Option.some.inj hd']
    exact Or.inl rfl

/-- What a timely step adds to the rows. -/
theorem step_appends {s s' : GoldDb T} (h : TimelyStep s s') (k : Key T) (t : Nat)
    (v : Option DiscrepancyRow) (hw : (s'.discrepancies k).writer = some (t, v)) :
    Appends (RowStore.visible t (s.discrepancies k)) v := by
  rcases h with ⟨hstep, htimely⟩
  cases hstep with
  | raiseDiscrepancy u now run p rest pid f hs htodo hpos hf hnone =>
      refine appends_write hw ?_
      rw [(free_of_unlocked hnone u).2]
      intro d d' hd
      cases hd
  | sweepRow u now o rest raised hs hfree =>
      refine appends_write hw (appends_upsert ?_)
      have hu := timely_of_goes_on htimely hs (Function.update_self _ _ _)
        fun hc => List.cons_ne_self o rest (Work.sweeping.inj hc).1
      simp only [Timely, hs] at hu
      exact hu
  | resolveLock u now k' req d hs hd hopen => exact appends_write hw (appends_refl _)
  | resolveClose u now k' req status hs =>
      have hu := timely_of_goes_on htimely hs (Function.update_self _ _ _) fun hc => by cases hc
      simp only [Timely, hs] at hu
      exact appends_write hw (appends_close hu)
  | bulkLock u now ids k' rest found req d hs hd => exact appends_write hw (appends_refl _)
  | bulkClose u now k' rest req resolved skipped hs =>
      have hu := timely_of_goes_on htimely hs (Function.update_self _ _ _)
        fun hc => List.cons_ne_self k' rest (Work.bulkClosing.inj hc).1
      simp only [Timely, hs] at hu
      exact appends_write hw (appends_close hu)
  | conflict u now run p rest pid hs htodo hpos =>
      -- Rolled back to the savepoint, the row is as it was, or not locked any more.
      cases hposition : run.position with
      | discrepancyRaised pid' c =>
          rw [hposition] at hw
          have hundone : RowStore.Layer (RowStore.undo u (p.a, c) s.discrepancies k) (some t) v :=
            hw
          exact appends_layer (RowStore.layer_undo hundone).1
      | _ =>
          rw [hposition] at hw
          exact appends_layer hw
  | commit u now reply hs =>
      rcases RowStore.layer_commit (o := some t) hw with ⟨hold, _⟩ | ⟨hnone, _⟩
      · exact appends_layer hold
      · cases hnone
  | abort u now work hs => exact appends_layer (RowStore.layer_rollback (o := some t) hw).1
  | _ => exact appends_layer hw

/-- Timely steps keep every row timed. -/
theorem timed_of_reachable {s : GoldDb T} (h : Transition.Reachable Initial TimelyStep s) :
    EveryRow TimedOk s := by
  have hboth : AuditInv s ∧ EveryRow TimedOk s := by
    refine Transition.invariant_of_step (I := fun s => AuditInv s ∧ EveryRow TimedOk s) ?_ ?_ h
    · intro s₀ hinit
      exact ⟨auditInv_initial hinit, everyRow_initial (fun _ hd => by cases hd) hinit⟩
    · intro a b hinv hstep
      refine ⟨(auditInv_step hinv.1 hstep.1).1, ?_⟩
      exact everyRow_step hinv.1 hinv.2 hstep.1 (step_appends hstep)
        fun v v' hrow hok hchange happends => timed_change hrow hok hchange happends
  exact hboth.2

/-- In a run whose transactions write in time, what an auditor is shown of any
    committed discrepancy starts with the event that raised it, links up, has
    the closing event last, and ends in the status of the row. -/
theorem displayed_trail_replays {s : GoldDb T} (h : Transition.Reachable Initial TimelyStep s)
    (k : Key T) (d : DiscrepancyRow) (hd : (s.discrepancies k).committed = some d) :
    TrailReplays (getDiscrepancyEvents (s.discrepancies k).committed) d.status := by
  have hsteps : Transition.Reachable Initial Step s :=
    Transition.reachable_mono (fun _ _ hstep => hstep.1) h
  rw [hd]
  exact (trail_replays_iff hsteps hd).mpr ((timed_of_reachable h k).1 d hd)

omit [DecidableEq T] in
/-- A step of one session that is timely. -/
theorem timelyStep_of [DecidableEq T] {s s' : GoldDb T} {u : Nat} (hstep : Step s s')
    (hothers : ∀ t, t ≠ u → s'.sessions t = s.sessions t) (hu : Timely s u) : TimelyStep s s' := by
  refine ⟨hstep, fun t now work _ hmoved => ?_⟩
  by_cases ht : t = u
  · rw [ht]
    exact hu
  · exact absurd (hothers t ht).symm hmoved

end Runs

section Exhibit

def bankLetter : Closing where
  outcome := .resolved
  actor := "ops"
  note := "settled by bank letter"

/-- The pending credit as a sweep selects it. -/
def pendingDue (now : ℤ) : Overdue Nat where
  transactionId := 1
  amountNgn := 5000
  expectedSettlementAt := 0
  overdueHours := totalSeconds (now - 0) / 3600

/-- As the sweep after three hours raises it. -/
def raisedRow : DiscrepancyRow := newDiscrepancy none (pendingDue (hours 3)).finding 0 (hours 3)

/-- The sweep after a day finds it overdue by more than a day. -/
theorem regraded_next_day :
    upsertMissingSettlement (pendingDue (hours 25 + seconds 1)).finding 1 (hours 25 + seconds 1)
      (some raisedRow) =
        some (changeSeverity (pendingDue (hours 25 + seconds 1)).finding 1
          (hours 25 + seconds 1) raisedRow) := by
  have hworse : raisedRow.severity ≠ (pendingDue (hours 25 + seconds 1)).finding.severity := by
    decide +kernel
  exact if_pos ⟨rfl, hworse⟩

/-- The settlement is raised by one transaction and resolved by a later one. -/
theorem displayed_trail_replays_resolved :
    ∃ s : GoldDb Nat, ∃ d, Transition.Reachable Initial TimelyStep s ∧
      (s.discrepancies (1, .missingSettlement)).committed = some d ∧ d.status = .resolved ∧
      TrailReplays (getDiscrepancyEvents (s.discrepancies (1, .missingSettlement)).committed)
        d.status := by
  have h0 : Transition.Reachable Initial TimelyStep freshDb :=
    Transition.reachable_of_init ⟨rfl, rfl, rfl, fun _ => rfl⟩
  have hother {session : Session Nat} {f : Nat → Session Nat} {u t : Nat} (ht : t ≠ u) :
      Function.update f u session t = f t := Function.update_of_ne ht _ _
  have h1 := Transition.reachable_step h0
    (timelyStep_of (Step.beginSweep freshDb 0 rfl) (fun _ => hother) trivial)
  have h2 := Transition.reachable_step h1
    (timelyStep_of (Step.selectOverdue _ 0 (hours 3) rfl) (fun _ => hother) trivial)
  have h3 := Transition.reachable_step h2 (timelyStep_of
    (Step.sweepRow _ 0 (hours 3) _ [] 0 rfl (fun _ _ h => by cases h)) (fun _ => hother)
    (fun _ hd => by cases hd))
  have h4 := Transition.reachable_step h3
    (timelyStep_of (Step.sweepDone _ 0 (hours 3) _ rfl) (fun _ => hother) trivial)
  have h5 := Transition.reachable_step h4
    (timelyStep_of (Step.commit _ 0 (hours 3) _ rfl) (fun _ => hother) trivial)
  have h6 := Transition.reachable_step h5 (timelyStep_of (Step.beginResolve _ 1
    (1, .missingSettlement) bankLetter rfl) (fun _ => hother) trivial)
  have h7 := Transition.reachable_step h6 (timelyStep_of
    (Step.resolveLock _ 1 (hours 3) _ _ _ rfl rfl rfl) (fun _ => hother) trivial)
  have h8 := Transition.reachable_step h7 (timelyStep_of
    (Step.resolveClose _ 1 (hours 3) _ _ _ rfl) (fun _ => hother) (fun d hd e he => by
      rw [← Option.some.inj hd] at he
      rw [List.mem_singleton.mp he]
      exact le_refl _))
  have h9 := Transition.reachable_step h8
    (timelyStep_of (Step.commit _ 1 (hours 3) _ rfl) (fun _ => hother) trivial)
  exact ⟨_, _, h9, rfl, rfl, displayed_trail_replays h9 _ _ rfl⟩

/-- The row as the sweep of the next day leaves it. -/
def regradedRow : DiscrepancyRow :=
  changeSeverity (pendingDue (hours 25 + seconds 1)).finding 1 (hours 25 + seconds 1) raisedRow

/-- A resolution that began a second before a sweep is still waiting when the
    sweep has changed the severity. -/
theorem exists_late_resolution :
    ∃ s : GoldDb Nat, Transition.Reachable Initial Step s ∧
      s.sessions 1 = .active (hours 25) (.resolving (1, .missingSettlement) bankLetter) ∧
      s.discrepancies (1, .missingSettlement) = { committed := some regradedRow, writer := none } ∧
      s.nextEvent = 2 := by
  have h0 : Transition.Reachable Initial Step freshDb :=
    Transition.reachable_of_init ⟨rfl, rfl, rfl, fun _ => rfl⟩
  -- The matching flow raises the discrepancy, three hours after it was due.
  have h1 := Transition.reachable_step h0 (Step.beginSweep freshDb 0 rfl)
  have h2 := Transition.reachable_step h1 (Step.selectOverdue _ 0 (hours 3) rfl)
  have h3 := Transition.reachable_step h2
    (Step.sweepRow _ 0 (hours 3) _ [] 0 rfl (fun _ _ h => by cases h))
  have h4 := Transition.reachable_step h3 (Step.sweepDone _ 0 (hours 3) _ rfl)
  have h5 := Transition.reachable_step h4 (Step.commit _ 0 (hours 3) _ rfl)
  -- The day after, an analyst's transaction begins.
  have h6 := Transition.reachable_step h5 (Step.tick _ (hours 25) (by decide))
  have h7 := Transition.reachable_step h6
    (Step.beginResolve _ 1 (1, .missingSettlement) bankLetter rfl)
  -- A sweep begins a second later and is first to lock the row.
  have h8 := Transition.reachable_step h7 (Step.tick _ (hours 25 + seconds 1) (by decide))
  have h9 := Transition.reachable_step h8 (Step.beginSweep _ 2 rfl)
  have h10 := Transition.reachable_step h9 (Step.selectOverdue _ 2 (hours 25 + seconds 1) rfl)
  have h11 := Transition.reachable_step h10
    (Step.sweepRow _ 2 (hours 25 + seconds 1) _ [] 0 rfl (fun _ _ h => by cases h))
  have h12 := Transition.reachable_step h11 (Step.sweepDone _ 2 (hours 25 + seconds 1) _ rfl)
  have h13 := Transition.reachable_step h12 (Step.commit _ 2 (hours 25 + seconds 1) _ rfl)
  exact ⟨_, h13, rfl, congrArg (fun v => RowStore.Cell.mk v none) regraded_next_day, rfl⟩

/-- Then it gets the lock, and its closing event is shown before the change of
    severity. -/
theorem late_lock_breaks_trail :
    ∃ s : GoldDb Nat, ∃ d, Transition.Reachable Initial Step s ∧
      (s.discrepancies (1, .missingSettlement)).committed = some d ∧
      ¬ TrailReplays (getDiscrepancyEvents (s.discrepancies (1, .missingSettlement)).committed)
        d.status := by
  rcases exists_late_resolution with ⟨s, h, hs, hrow, hn⟩
  have h1 := Transition.reachable_step h (Step.resolveLock s 1 (hours 25) _ bankLetter
    regradedRow hs hrow rfl)
  have h2 := Transition.reachable_step h1 (Step.resolveClose _ 1 (hours 25) _ _ _ rfl)
  have h3 := Transition.reachable_step h2 (Step.commit _ 1 (hours 25) _ rfl)
  have hcommitted : RowStore.commit 1 (RowStore.write 1 (1, .missingSettlement)
      (Option.map (closeDiscrepancy bankLetter .open_ s.nextEvent (hours 25)))
      (RowStore.write 1 (1, .missingSettlement) id s.discrepancies)) (1, .missingSettlement) =
        { committed := some (closeDiscrepancy bankLetter .open_ 2 (hours 25) regradedRow)
          writer := none } := by
    simp [RowStore.commit, RowStore.publish, RowStore.write_self, RowStore.visible, hrow, hn]
  have hd := congrArg RowStore.Cell.committed hcommitted
  refine ⟨_, _, h3, hd, fun hreplays => ?_⟩
  have htimed := (trail_replays_iff h3 hd).mp
    ((congrArg (fun row => TrailReplays (getDiscrepancyEvents row) _) hd).mp hreplays)
  have hlate := htimed.closing (closingEvent bankLetter .open_ 2 (hours 25))
    (List.mem_cons_of_mem _ (List.mem_cons_of_mem _ List.mem_cons_self)) rfl
    (severityChangedEvent 1 (hours 25 + seconds 1)) (List.mem_cons_of_mem _ List.mem_cons_self)
  exact absurd hlate (by decide)

end Exhibit

end Gold

end MmrEngine
