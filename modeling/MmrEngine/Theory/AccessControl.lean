import MmrEngine.Api.Access
import MmrEngine.Lib.Transition
import MmrEngine.Theory.GoldHistory

/-!
# Who Closes a Discrepancy

Every handler that requires a role has been run for a key that had it, and
every discrepancy that is closed has an event in its trail whose actor is the
name of a key that was allowed to close it.

The middleware can be talked out of asking for a key: by the method, or by a
`Host` header that makes the path look public. What holds is the second line.
A request gets a role only with a key that was found active and not expired, or
where authentication is disabled, and without a role `require_role` refuses it.
So the invariant is about the states of the requests under way (`Justified`),
each with the key it came with, and it says nothing of their paths.

The trails are written by the two closing handlers and by the flows, and the
events of the flows close nothing.

## Main definitions

* `TrailOf`: The closing events of a row are of a kind, and a closed row has one.
* `Justified`: Where the state of a request comes from.
* `MayClose`: Who may have written a closing event.

## Theorems

* `trails_exec`: What a call of the pipeline does to the trails.
* `grantOf_eq_some`, `dispatch_ok`: What the middleware lets through.
* `accessInv_step`: A step keeps the invariant.
* `guarded_handlers_authenticated`: Who the handlers are run for.
* `closing_events_authentic`: Who closes discrepancies.
-/

namespace MmrEngine

namespace GoldCalls

open Discrepancy Gold

/-- The closing events of a row satisfy `P`, and if the row is closed it has
    one, with what the row says of it. -/
structure TrailOf (P : DiscrepancyEvent → Prop) (d : DiscrepancyRow) : Prop where
  events : ∀ e ∈ d.events, e.action.closing = true → P e
  closed : d.status.closed = true → ∃ e ∈ d.events, e.action.closing = true ∧
    d.resolvedBy = some e.actor ∧ d.resolutionNote = e.note

variable {P Q : DiscrepancyEvent → Prop} {T : Type}

theorem trailOf_mono (h : ∀ e, P e → Q e) {d : DiscrepancyRow} (hd : TrailOf P d) : TrailOf Q d :=
  ⟨fun e he hclosing => h e (hd.events e he hclosing), hd.closed⟩

/-- A discrepancy is raised open. -/
theorem trailOf_new (pairId : Option Nat) (f : Finding) (eventId : Nat) (now : ℤ) :
    TrailOf P (newDiscrepancy pairId f eventId now) := by
  refine ⟨fun e he hclosing => ?_, fun hclosed => by cases hclosed⟩
  rw [List.mem_singleton.mp he] at hclosing
  cases hclosing

/-- A change of severity closes nothing. -/
theorem trailOf_changeSeverity {d : DiscrepancyRow} (hd : TrailOf P d) (f : Finding) (eventId : Nat)
    (now : ℤ) : TrailOf P (changeSeverity f eventId now d) := by
  refine ⟨fun e he hclosing => ?_, fun hclosed => ?_⟩
  · rcases List.mem_append.mp he with hold | hnew
    · exact hd.events e hold hclosing
    · rw [List.mem_singleton.mp hnew] at hclosing
      cases hclosing
  · rcases hd.closed hclosed with ⟨e, he, hrest⟩
    exact ⟨e, List.mem_append_left _ he, hrest⟩

/-- Closing writes the event the row then has. -/
theorem trailOf_close {d : DiscrepancyRow} (hd : TrailOf P d) {req : Closing} {eventId : Nat}
    {now : ℤ} (hP : P (closingEvent req d.status eventId now)) :
    TrailOf P (closeDiscrepancy req d.status eventId now d) := by
  refine ⟨fun e he hclosing => ?_, fun _ => ?_⟩
  · rcases List.mem_append.mp he with hold | hnew
    · exact hd.events e hold hclosing
    · rw [List.mem_singleton.mp hnew]
      exact hP
  · refine ⟨_, List.mem_append_right _ List.mem_cons_self, ?_, rfl, rfl⟩
    show req.outcome.action.closing = true
    cases req.outcome with
    | _ => rfl

/-- Every row has such a trail. -/
def Trails (P : DiscrepancyEvent → Prop) (s : Tables T) : Prop :=
  ∀ id d, s.discrepancies.get? id = some d → TrailOf P d.row

theorem trails_mono (h : ∀ e, P e → Q e) {s : Tables T} (hs : Trails P s) : Trails Q s :=
  fun id d hd => trailOf_mono h (hs id d hd)

section Calls

variable [DecidableEq T] {s : Tables T}

omit [DecidableEq T] in
/-- A row is updated. -/
theorem trails_modifyAt {s' : Tables T} {id : Nat} {f : DiscrepancyRow → DiscrepancyRow}
    (hs : Trails P s)
    (h : s'.discrepancies = s.discrepancies.modifyAt id (DiscrepancyRecord.update f)
      (DiscrepancyRecord.key_update _))
    (hf : ∀ d, s.discrepancies.get? id = some d → TrailOf P (f d.row)) : Trails P s' := by
  intro i d hd
  rw [h, SerialTable.get?_modifyAt] at hd
  by_cases hi : i = id
  · rw [if_pos hi, hi] at hd
    rcases Option.map_eq_some_iff.mp hd with ⟨d₀, hd₀, rfl⟩
    exact hf d₀ hd₀
  · rw [if_neg hi] at hd
    exact hs i d hd

/-- A discrepancy is added. -/
theorem trails_insert {s' : Tables T} {record : DiscrepancyRecord T} (hs : Trails P s)
    {hfree : s.discrepancies.find? record.key = none}
    (h : s'.discrepancies = s.discrepancies.insert record hfree) (hrecord : TrailOf P record.row) :
    Trails P s' := by
  intro i d hd
  rw [h] at hd
  have hmem := SerialTable.get?_eq_some_iff.mp hd
  rcases List.mem_append.mp hmem with hold | hnew
  · exact hs i d (SerialTable.get?_eq_some_iff.mpr hold)
  · rw [(Prod.mk.inj (List.mem_singleton.mp hnew)).2]
    exact hrecord

omit [DecidableEq T] in
/-- A call that leaves the discrepancies alone. -/
theorem trails_of_eq {s' : Tables T} (hs : Trails P s) (h : s'.discrepancies = s.discrepancies) :
    Trails P s' := by
  intro i d hd
  rw [h] at hd
  exact hs i d hd

theorem trails_raiseAmountDiscrepancy (hs : Trails P s) (now : ℤ) (pairId : Nat) (p : PairPlan T) :
    Trails P (raiseAmountDiscrepancy now pairId p s).1 := by
  unfold raiseAmountDiscrepancy
  split
  · exact hs
  · split
    · exact hs
    · next discrepancies hinsert =>
        rcases SerialTable.insert?_eq_some hinsert with ⟨hfree, rfl⟩
        exact trails_insert hs rfl (trailOf_new _ _ _ now)

theorem trails_persistPairs (t : Nat) (now : ℤ) (plans : List (PairPlan T)) {s : Tables T}
    (hs : Trails P s) : Trails P (persistPairs t now plans s).1 := by
  induction plans generalizing s with
  | nil => exact hs
  | cons p rest ih =>
      unfold persistPairs
      split
      · exact ih hs
      · next s' hpair =>
          have hs' : Trails P s' := trails_of_eq hs (insertPair_eq_some hpair).2.1
          exact ih (trails_raiseAmountDiscrepancy hs' now _ p)

theorem trails_upsertOverdue (hs : Trails P s) (now : ℤ) (o : Overdue T) :
    Trails P (upsertOverdue now o s).1 := by
  unfold upsertOverdue
  split
  · exact trails_insert hs rfl (trailOf_new none o.finding _ now)
  · next id d hfind =>
      split
      · refine trails_modifyAt hs rfl fun d' hd' => ?_
        exact trailOf_changeSeverity (hs id d' hd') _ _ now
      · exact hs

theorem trails_upsertAll (now : ℤ) (os : List (Overdue T)) {s : Tables T} (hs : Trails P s) :
    Trails P (upsertAll now os s).1 := by
  induction os generalizing s with
  | nil => exact hs
  | cons o rest ih => exact ih (trails_upsertOverdue hs now o)

omit [DecidableEq T] in
/-- Closing a discrepancy that is there. -/
theorem trails_closeAt (hs : Trails P s) {now : ℤ} {req : Closing}
    (hP : ∀ fromStatus eventId, P (closingEvent req fromStatus eventId now)) (id : Nat) :
    Trails P (closeAt now req id s) := by
  refine trails_modifyAt hs rfl fun d hd => ?_
  exact trailOf_close (hs id d hd) (hP _ _)

omit [DecidableEq T] in
theorem trails_closeAll {now : ℤ} {req : Closing}
    (hP : ∀ fromStatus eventId, P (closingEvent req fromStatus eventId now)) (ids : List Nat)
    {s : Tables T} (hs : Trails P s) : Trails P (closeAll now req ids s) := by
  unfold closeAll
  induction ids generalizing s with
  | nil => exact hs
  | cons id rest ih => exact ih (trails_closeAt hs hP id)

omit [DecidableEq T] in
theorem trails_resolveDiscrepancy (hs : Trails P s) {now : ℤ} {req : Closing}
    (hP : ∀ fromStatus eventId, P (closingEvent req fromStatus eventId now)) (id : Nat) :
    Trails P (resolveDiscrepancy now id req s).1 := by
  unfold resolveDiscrepancy
  split
  · exact hs
  · split
    · exact hs
    · exact trails_closeAt hs hP id

/-- What the pipeline calls leaves the closing events as they are. -/
theorem trails_exec (hs : Trails P s) {call : Call T} (h : Access.pipelineCall call = true) :
    Trails P (call.exec s) := by
  cases call with
  | land row => exact trails_of_eq hs rfl
  | persistPairs t now plans => exact trails_persistPairs t now plans hs
  | raiseMissingSettlements now => exact trails_upsertAll now _ hs
  | resolveDiscrepancy now id req => cases h
  | bulkResolveDiscrepancies now ids req => cases h
  | rolledBack events => exact trails_of_eq hs rfl

end Calls

end GoldCalls

namespace Access

open Discrepancy Gold GoldCalls

/-- A key that was active and had not expired when it was presented. -/
def Grant.valid (g : Grant) : Prop := g.row.isActive = true ∧ g.row.expired g.now = false

/-- The key was found by the one the request presents. -/
def Grant.presentedBy [Webhooks.DoorLibrary] {Op : Type} (g : Grant) (request : Request Op) :
    Prop :=
  ∃ key, request.apiKey = some key ∧ g.row.keyHash = hashApiKey key

/-- Where the state of a request comes from: from nothing, from its own key that
    was found valid, or from authentication being disabled. -/
def Justified [Webhooks.DoorLibrary] (settings : Settings) (granted : List Grant) (p : Pending) :
    Prop :=
  p.state = {} ∨ (settings.environment = .development ∧ settings.apiAuthDisabled = true ∧
    p.state = devState) ∨
    ∃ g ∈ granted, p.grant = some g ∧ g.valid ∧ g.presentedBy p.request ∧ p.state = g.row.state

/-- Who may have written a closing event: the holder of a key with the scope to
    write, or anybody where authentication is disabled. -/
def MayClose (settings : Settings) (granted : List Grant) (e : DiscrepancyEvent) : Prop :=
  (∃ note, e.note = some note ∧ 10 ≤ note.length ∧ note.length ≤ 2000) ∧
    ((settings.environment = .development ∧ settings.apiAuthDisabled = true ∧
        e.actor = "dev-unauthenticated") ∨
      ∃ g ∈ granted, g.valid ∧ (Scope.write ∈ g.row.scopes ∨ Scope.admin ∈ g.row.scopes) ∧
        e.actor = actor g.row.state)

section Rules

variable {settings : Settings} {granted granted' : List Grant} {state : RequestState}

theorem justified_mono [Webhooks.DoorLibrary] (h : ∀ g ∈ granted, g ∈ granted') {p : Pending}
    (hp : Justified settings granted p) : Justified settings granted' p := by
  rcases hp with hempty | hdev | ⟨g, hg, hrest⟩
  · exact Or.inl hempty
  · exact Or.inr (Or.inl hdev)
  · exact Or.inr (Or.inr ⟨g, h g hg, hrest⟩)

theorem mayClose_mono (h : ∀ g ∈ granted, g ∈ granted') (e : DiscrepancyEvent)
    (he : MayClose settings granted e) : MayClose settings granted' e := by
  rcases he with ⟨hnote, hdev | ⟨g, hg, hrest⟩⟩
  · exact ⟨hnote, Or.inl hdev⟩
  · exact ⟨hnote, Or.inr ⟨g, h g hg, hrest⟩⟩

/-- A role that may write comes from a scope that may. -/
theorem roleFromScopes_write {scopes : List Scope} (h : roleFromScopes scopes ∈ writeRoles) :
    Scope.write ∈ scopes ∨ Scope.admin ∈ scopes := by
  unfold roleFromScopes at h
  by_cases hadmin : Scope.admin ∈ scopes
  · exact Or.inr hadmin
  · by_cases hwrite : Scope.write ∈ scopes
    · exact Or.inl hwrite
    · rw [if_neg hadmin, if_neg hwrite] at h
      exact absurd h (by decide)

/-- `require_role` lets nobody through who has no role. -/
theorem checkRole_ok {roles : List Role} (h : checkRole (some roles) state = .ok ()) :
    ∃ role ∈ roles, state.apiRole = some role := by
  unfold checkRole at h
  cases hrole : state.apiRole with
  | none => simp [hrole] at h
  | some role =>
      by_cases hmem : role ∈ roles
      · exact ⟨role, hmem, rfl⟩
      · simp [hrole, hmem] at h

/-- Whoever gets past the role check of a closing handler may close. -/
theorem mayClose_closing [Webhooks.DoorLibrary] {body : ResolveRequest}
    {fromStatus : DiscrepancyStatus} {eventId : Nat} {now : ℤ} {p : Pending}
    (hp : Justified settings granted p) (hrole : checkRole (some writeRoles) p.state = .ok ()) :
    MayClose settings granted (closingEvent (closing p.state body) fromStatus eventId now) := by
  rcases checkRole_ok hrole with ⟨role, hmem, hsome⟩
  refine ⟨⟨body.resolutionNote, rfl, body.hnote⟩, ?_⟩
  rcases hp with hempty | ⟨henv, hdisabled, hdev⟩ | ⟨g, hg, -, hvalid, -, hstate⟩
  · rw [hempty] at hsome
    cases hsome
  · refine Or.inl ⟨henv, hdisabled, ?_⟩
    rw [hdev]
    rfl
  · rw [hstate] at hsome ⊢
    rw [← Option.some.inj hsome] at hmem
    exact Or.inr ⟨g, hg, hvalid, roleFromScopes_write hmem, rfl⟩

end Rules

section Invariant

variable {T : Type} [DecidableEq T] [Webhooks.DoorLibrary] {settings : Settings} {w w' : World T}

omit [DecidableEq T] in
/-- A key that was found valid was found by the key of the request. -/
theorem grantOf_eq_some {Op : Type} {now : ℤ} {request : Request Op} {keys : KeyTable}
    {state : RequestState} {g : Grant} (hg : grantOf now request keys (.ok state) = some g) :
    ∃ key, request.apiKey = some key ∧ keys.find? (hashApiKey key) = some g.row ∧
      g.now = now := by
  unfold grantOf at hg
  cases hfound : (request.apiKey.filter (· ≠ "")).bind fun apiKey =>
      keys.find? (hashApiKey apiKey) with
  | none =>
      rw [hfound] at hg
      cases hg
  | some row =>
      rw [hfound] at hg
      rcases Option.bind_eq_some_iff.mp hfound with ⟨key, hkey, hrow⟩
      refine ⟨key, (Option.filter_eq_some_iff.mp hkey).1, ?_⟩
      simp only [] at hg
      split at hg
      · rw [← Option.some.inj hg]
        exact ⟨hrow, rfl⟩
      · cases hg

omit [DecidableEq T] in
/-- What the middleware lets through has no state, that of development, or that
    of a row that was found for its key, active and not expired. -/
theorem dispatch_ok {Op : Type} {fault : KeyFault} {dbNow now : ℤ} {request : Request Op}
    {keys keys' : KeyTable} {state : RequestState}
    (h : dispatch settings fault dbNow now request keys = (keys', .ok state)) :
    state = {} ∨ (settings.environment = .development ∧ settings.apiAuthDisabled = true ∧
        state = devState) ∨
      ∃ g, grantOf now request keys' (.ok state) = some g ∧ g.valid ∧ state = g.row.state := by
  unfold dispatch at h
  split at h
  · exact Or.inl (Except.ok.inj (Prod.mk.inj h).2).symm
  · split at h
    · exact Or.inl (Except.ok.inj (Prod.mk.inj h).2).symm
    · split at h
      · next hnone =>
          by_cases hdisabled : settings.apiAuthDisabled = true
          · rw [if_pos hdisabled] at h
            exact Or.inr (Or.inl ⟨settings.devOnly hdisabled, hdisabled,
              (Except.ok.inj (Prod.mk.inj h).2).symm⟩)
          · rw [if_neg hdisabled] at h
            cases (Prod.mk.inj h).2
      · next apiKey hkey =>
          cases fault with
          | lost => cases (Prod.mk.inj h).2
          | answerLost => cases (Prod.mk.inj h).2
          | none =>
              rcases Prod.mk.inj h with ⟨rfl, hresult⟩
              split at hresult
              · cases hresult
              · next row hfind =>
                  -- Of the keys only a valid one gets this far.
                  by_cases hactive : row.isActive = true
                  · by_cases hexpired : row.expired now = true
                    · simp [hactive, hexpired] at hresult
                    · have hstate : row.state = state := by
                        simpa [hactive, hexpired] using hresult
                      refine Or.inr (Or.inr ⟨{ row := row, now := now }, ?_,
                        ⟨hactive, by simpa using hexpired⟩, hstate.symm⟩)
                      simp only [grantOf, hkey, Option.bind_some, hfind, hstate, if_true]
                  · simp [hactive] at hresult

/-- Every request under way has a justified state, the handlers have been run
    for such, and the closing events are of those who may close. -/
structure AccessInv (settings : Settings) (w : World T) : Prop where
  pending : ∀ n p, w.pending n = some p → Justified settings w.granted p
  served : ∀ x ∈ w.served, Justified settings w.granted x.toPending ∧
    checkRole x.operation.roles x.state = .ok ()
  trails : Trails (MayClose settings w.granted) w.gold

omit [DecidableEq T] in
theorem accessInv_initial (h : Initial w) : AccessInv settings w := by
  rcases h with ⟨-, hpending, hgold, -, hserved⟩
  refine ⟨fun n p hp => ?_, fun x hx => ?_, fun id d hd => ?_⟩
  · rw [hpending n] at hp
    cases hp
  · rw [hserved] at hx
    cases hx
  · rw [hgold] at hd
    cases hd

omit [DecidableEq T] in
/-- A request less is under way. -/
theorem pending_cleared {n : Nat} {granted : List Grant}
    (h : ∀ n p, w.pending n = some p → Justified settings granted p) (n' : Nat) (p : Pending)
    (hp : Function.update w.pending n none n' = some p) : Justified settings granted p := by
  by_cases hn : n' = n
  · rw [hn, Function.update_self] at hp
    cases hp
  · rw [Function.update_of_ne hn] at hp
    exact h n' p hp

omit [DecidableEq T] in
/-- A handler writes only closing events of those who may close. -/
theorem trails_handle {granted : List Grant} {gold : Tables T} {now : ℤ} {p : Pending}
    (operation : Operation) (hgold : Trails (MayClose settings granted) gold)
    (hstate : Justified settings granted p) :
    Trails (MayClose settings granted) (handle now p.state operation gold).1 := by
  unfold handle
  cases hrole : checkRole operation.roles p.state with
  | error detail => exact hgold
  | ok u =>
      cases operation with
      | open_ route => exact hgold
      | read route => exact hgold
      | resolveDiscrepancy id body =>
          exact trails_resolveDiscrepancy hgold (fun _ _ => mayClose_closing hstate hrole) id
      | bulkResolveDiscrepancies body =>
          exact trails_closeAll (fun _ _ => mayClose_closing hstate hrole) _ hgold

omit [DecidableEq T] in
theorem accessInv_route (hinv : AccessInv settings w) {dbNow : ℤ} {p : Pending}
    (hstate : Justified settings w.granted p) : AccessInv settings (w.route dbNow p) := by
  unfold World.route
  cases hop : p.request.operation with
  | none => exact hinv
  | some operation =>
      refine ⟨hinv.pending, fun x hx => ?_, trails_handle operation hinv.trails hstate⟩
      rcases List.mem_append.mp hx with hold | hnew
      · exact hinv.served x hold
      · cases hrole : checkRole operation.roles p.state with
        | error detail => simp [hrole, Except.isOk, Except.toBool] at hnew
        | ok u =>
            have hx' : x = { toPending := p, operation := operation } := by
              simpa [hrole, Except.isOk, Except.toBool] using hnew
            rw [hx']
            exact ⟨hstate, hrole⟩

/-- A step keeps the invariant. -/
theorem accessInv_step (hinv : AccessInv settings w) (h : Step settings w w') :
    AccessInv settings w' := by
  cases h with
  | manageKeys keys => exact ⟨hinv.pending, hinv.served, hinv.trails⟩
  | authenticated n request fault dbNow now keys state hnew h =>
      have hmono : ∀ g ∈ w.granted,
          g ∈ w.granted ++ (grantOf now request keys (.ok state)).toList :=
        fun g hg => List.mem_append_left _ hg
      refine ⟨fun n' p hp => ?_, fun x hx => ?_, trails_mono (mayClose_mono hmono) hinv.trails⟩
      · by_cases hn : n' = n
        · have hsame := hp
          simp only [hn, Function.update_self, Option.some.injEq] at hsame
          rw [← hsame]
          rcases dispatch_ok h with hempty | hdev | ⟨g, hg, hvalid, hrow⟩
          · exact Or.inl hempty
          · exact Or.inr (Or.inl hdev)
          · rcases grantOf_eq_some hg with ⟨key, hkey, hfind, -⟩
            refine Or.inr (Or.inr ⟨g, List.mem_append_right _ ?_, hg, hvalid,
              ⟨key, hkey, (UniqueTable.find?_some hfind).2⟩, hrow⟩)
            rw [hg]
            exact List.mem_singleton_self g
        · have hsame := hp
          simp only [Function.update_of_ne hn] at hsame
          exact justified_mono hmono (hinv.pending n' p hsame)
      · rcases hinv.served x hx with ⟨hstate, hrole⟩
        exact ⟨justified_mono hmono hstate, hrole⟩
  | rejected request fault dbNow now keys e h => exact ⟨hinv.pending, hinv.served, hinv.trails⟩
  | limited n p openedAt now limit retryAfter buckets hp h =>
      exact ⟨pending_cleared hinv.pending, hinv.served, hinv.trails⟩
  | passed n p openedAt now limit buckets dbNow hp h =>
      have hroute : AccessInv settings (w.route dbNow p) :=
        accessInv_route hinv (hinv.pending n p hp)
      have hgranted : (w.route dbNow p).granted = w.granted := by
        unfold World.route
        cases p.request.operation <;> rfl
      refine ⟨fun n' p' hp' => ?_, hroute.served, hroute.trails⟩
      have hpending := pending_cleared hinv.pending n' p' hp'
      rw [← hgranted] at hpending
      exact hpending
  | dropped n => exact ⟨pending_cleared hinv.pending, hinv.served, hinv.trails⟩
  | pipeline call h => exact ⟨hinv.pending, hinv.served, trails_exec hinv.trails h⟩

theorem accessInv_of_reachable (h : Transition.Reachable Initial (Step settings) w) :
    AccessInv settings w :=
  Transition.invariant_of_step (I := AccessInv settings) (fun _ h => accessInv_initial h)
    (fun _ _ hinv hstep => accessInv_step hinv hstep) h

/-- In every run, whatever the requests, the keys and the clients do: a handler
    of a route that requires a role has been run only for a request whose own
    key was active and had not expired when it was presented, with scopes that
    gave one of the roles; or, in development with authentication disabled, for
    the analyst everybody is there. -/
theorem guarded_handlers_authenticated (h : Transition.Reachable Initial (Step settings) w)
    {x : Served} (hx : x ∈ w.served) {roles : List Role} (hroles : x.operation.roles = some roles) :
    (settings.environment = .development ∧ settings.apiAuthDisabled = true ∧
        x.state = devState ∧ Role.analyst ∈ roles) ∨
      ∃ g ∈ w.granted, x.grant = some g ∧ g.valid ∧
        (∃ key, x.request.apiKey = some key ∧ g.row.keyHash = hashApiKey key) ∧
        x.state = g.row.state ∧ roleFromScopes g.row.scopes ∈ roles := by
  rcases (accessInv_of_reachable h).served x hx with ⟨hstate, hrole⟩
  rw [hroles] at hrole
  rcases checkRole_ok hrole with ⟨role, hmem, hsome⟩
  rcases hstate with hempty | ⟨henv, hdisabled, hdev⟩ | ⟨g, hg, hown, hvalid, hkey, hrow⟩
  · rw [hempty] at hsome
    cases hsome
  · rw [hdev] at hsome
    rw [← Option.some.inj hsome] at hmem
    exact Or.inl ⟨henv, hdisabled, hdev, hmem⟩
  · rw [hrow] at hsome
    rw [← Option.some.inj hsome] at hmem
    exact Or.inr ⟨g, hg, hown, hvalid, hkey, hrow, hmem⟩

/-- In every run a closed discrepancy has a closing event that names whom the
    row says it was resolved by, with the note of the row; and every closing
    event is the work of somebody who presented an active key with the scope
    `write` or `admin`, under the name of its client, with a note of 10 to 2000
    characters, or of the analyst of development. -/
theorem closing_events_authentic (h : Transition.Reachable Initial (Step settings) w) {id : Nat}
    {d : DiscrepancyRecord T} (hd : w.gold.discrepancies.get? id = some d) :
    (d.row.status.closed = true → ∃ e ∈ d.row.events, e.action.closing = true ∧
        d.row.resolvedBy = some e.actor ∧ d.row.resolutionNote = e.note) ∧
      ∀ e ∈ d.row.events, e.action.closing = true →
        (∃ note, e.note = some note ∧ 10 ≤ note.length ∧ note.length ≤ 2000) ∧
          ((settings.environment = .development ∧ settings.apiAuthDisabled = true ∧
              e.actor = "dev-unauthenticated") ∨
            ∃ g ∈ w.granted, g.valid ∧ (Scope.write ∈ g.row.scopes ∨ Scope.admin ∈ g.row.scopes) ∧
              e.actor = actor g.row.state) := by
  have htrail := (accessInv_of_reachable h).trails id d hd
  exact ⟨htrail.closed, htrail.events⟩

end Invariant

section Exhibit

/-- The hash is that of the key presented. -/
@[reducible] def exhibitLibrary : Webhooks.DoorLibrary where
  hmacSha512Hex _ _ := ""
  sha256Hex _ := "9a0219c99e374d638f657cc1530bae183028536890a542a3db8d96736ddcb090"
  decodeBody _ := none

def exhibitSettings : Settings where
  environment := .production
  apiAuthDisabled := false
  apiRateLimitPerMinute := 100
  devOnly := by decide

/-- A key with the scopes `create_api_key.py` gives for `--scope write`. -/
def writeKey : ApiKeyRow where
  id := "k1"
  keyHash := "9a0219c99e374d638f657cc1530bae183028536890a542a3db8d96736ddcb090"
  clientName := "ops-dashboard"
  scopes := [.read, .write]
  isActive := true
  expiresAt := none
  lastUsedAt := none
  usageCount := 0

def exhibitKeys : KeyTable where
  rows := [writeKey]
  unique := by decide

def resolveRequest : Request Operation where
  method := "POST"
  urlPath := "/v1/reconciliation/discrepancies/0/resolve"
  apiKey := some "mmr_example"
  clientHost := some "10.0.0.1"
  operation := some (.resolveDiscrepancy 0
    { resolutionNote := "settled by hand", outcome := .resolved, hnote := by decide })

/-- A credit that was to be settled at the beginning of time. -/
def lateCredit : SilverRow Nat where
  id := 0
  transactionType := .credit
  settlementStatus := .pending
  amountNgn := 5000
  fxRateApplied := none
  expectedSettlementAt := some 0

def initialWorld : World Nat where
  keys := UniqueTable.empty _
  buckets := RateLimit.BucketStore.empty 100
  pending := fun _ => none
  gold := GoldCalls.initial { rows := [lateCredit], unique := by decide }
  granted := []
  served := []

/-- The request, let through. -/
def pendingResolve : Pending where
  request := resolveRequest
  state := writeKey.state
  grant := some { row := { writeKey with lastUsedAt := some 7, usageCount := 1 }, now := 8 }

theorem resolve_within_limit :
    (RateLimit.dispatch 100 (.empty 100) pendingResolve.limited (0 : Binary64) 0).1
      = .passed (some 100) := by
  decide +kernel

/-- A key is issued, a credit is found overdue, and the holder of the key closes
    the discrepancy. -/
theorem resolve_run : letI := exhibitLibrary
    ∃ w : World Nat, Transition.Reachable Initial (Step exhibitSettings) w ∧
      (∃ x ∈ w.served, x.operation.roles = some writeRoles) ∧
      ∃ d, w.gold.discrepancies.get? 0 = some d ∧ d.row.status.closed = true := by
  let lib := exhibitLibrary
  have h0 : Transition.Reachable Initial (Step exhibitSettings) initialWorld :=
    Transition.reachable_of_init ⟨rfl, fun _ => rfl, rfl, rfl, rfl⟩
  have h1 := Transition.reachable_step h0 (.manageKeys _ exhibitKeys)
  have h2 := Transition.reachable_step h1 (.pipeline _ (.raiseMissingSettlements 3600000000) rfl)
  have h3 := Transition.reachable_step h2
    (.authenticated _ 0 resolveRequest .none 7 8 _ _ rfl rfl)
  have h4 := Transition.reachable_step h3
    (.passed _ 0 pendingResolve 0 0 (some 100) _ 9 rfl (Prod.ext resolve_within_limit rfl))
  exact ⟨_, h4, ⟨_, List.mem_cons_self, rfl⟩, _, rfl, rfl⟩

theorem guarded_handlers_authenticated_resolve : letI := exhibitLibrary
    ∃ w : World Nat, Transition.Reachable Initial (Step exhibitSettings) w ∧
      ∃ x ∈ w.served, ∃ g ∈ w.granted, x.grant = some g ∧ g.valid ∧
        x.state = g.row.state ∧ roleFromScopes g.row.scopes ∈ writeRoles := by
  let lib := exhibitLibrary
  rcases resolve_run with ⟨w, h, ⟨x, hx, hroles⟩, -⟩
  refine ⟨w, h, x, hx, ?_⟩
  rcases guarded_handlers_authenticated h hx hroles with
    ⟨henv, -⟩ | ⟨g, hg, hown, hvalid, -, hstate, hrole⟩
  · cases henv
  · exact ⟨g, hg, hown, hvalid, hstate, hrole⟩

theorem closing_events_authentic_resolve : letI := exhibitLibrary
    ∃ (w : World Nat) (d : DiscrepancyRecord Nat) (e : DiscrepancyEvent) (g : Grant),
      Transition.Reachable Initial (Step exhibitSettings) w ∧
      w.gold.discrepancies.get? 0 = some d ∧ e ∈ d.row.events ∧
      d.row.resolvedBy = some e.actor ∧ g ∈ w.granted ∧ g.valid ∧ e.actor = actor g.row.state := by
  let lib := exhibitLibrary
  rcases resolve_run with ⟨w, h, -, d, hd, hclosed⟩
  rcases closing_events_authentic h hd with ⟨hrow, hevents⟩
  rcases hrow hclosed with ⟨e, he, hclosing, hby, -⟩
  rcases (hevents e he hclosing).2 with ⟨henv, -⟩ | ⟨g, hg, hvalid, -, hactor⟩
  · cases henv
  · exact ⟨w, d, e, g, h, hd, he, hby, hg, hvalid, hactor⟩

end Exhibit

end Access

end MmrEngine
