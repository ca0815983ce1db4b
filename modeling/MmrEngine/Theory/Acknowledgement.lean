import MmrEngine.Flows.Ingestion

/-!
# Acknowledged Means Recorded

A key committed in `silver_idempotency_keys` has a message in Kafka, whatever
the calls, the broker and the processes do in between.

The two halves meet in one call. On the broker's side (`OutboxInv`) an outcome
without an error is only ever written by the callback of a message that has
been stored, and a callback runs once, so such an outcome stays. On the
database's side (`KeysInv`) a call holds the row of its key from the moment it
has registered it until its transaction ends. The value it holds is that of the
committed row, counted once more; so whether the key was new when the call
registered it is still true when it commits, and a call that inserted the key
commits only after `publish` has returned.

A second call for the key waits for the row and then counts itself, or, if the
first one rolled back, inserts it and publishes again. The key may then have
two messages. It never has none.

## Main definitions

* `Acknowledged`: A key has a message the broker has stored and acknowledged.
* `Call.holding`: The row a call has locked, and whether it inserted it.
* `KeyCount`: A row counts the commits of its key, one of which inserted it.
* `OutboxInv`, `KeysInv`: The invariants.

## Theorems

* `outboxInv_step`, `acknowledged_step`: What a step does to the messages.
* `keysInv_rollback`, `keysInv_commit`: What the end of a transaction does to
  the keys.
* `acknowledged_means_recorded`: What holds of every reachable world.
-/

namespace MmrEngine

namespace Ingestion

open Idempotency

/-- The broker has stored and acknowledged a message with the key. -/
def Acknowledged (w : World) (key : String) : Prop :=
  ∃ c d, w.outbox c = some d ∧ d.outcome = some none ∧ d.message.idempotencyKey = key ∧
    (d.topic, d.message) ∈ w.log

/-- Calls that have not handed over their message. -/
def Call.unproduced : Call → Prop
  | .idle => True
  | .running _ _ .registering _ => True
  | .running _ _ .publishing _ => True
  | _ => False

section Outbox

variable {process : Nat → Nat}

/-- Messages, queues and the log fit together. -/
structure OutboxInv (process : Nat → Nat) (w : World) : Prop where
  stored : ∀ c d, w.outbox c = some d → d.stored = true → (d.topic, d.message) ∈ w.log
  reported : ∀ c d, w.outbox c = some d → d.outcome = some none → d.stored = true
  unproduced : ∀ c, (w.calls c).unproduced → w.outbox c = none
  queued : ∀ p, ∀ c ∈ w.queue p, process c = p ∧ ∃ d, w.outbox c = some d ∧ d.outcome = none
  nodup : ∀ p, (w.queue p).Nodup
  flushing : ∀ c e key connected, w.calls c = .running e key .flushing connected →
    ∃ d, w.outbox c = some d ∧ d.message.idempotencyKey = key

/-- A step that leaves messages and queues alone. -/
theorem outboxInv_calls {w w' : World} (hinv : OutboxInv process w) (houtbox : w'.outbox = w.outbox)
    (hqueue : ∀ p, w'.queue p = w.queue p ∨ w'.queue p = []) (hlog : w'.log = w.log)
    (hunproduced : ∀ c, (w'.calls c).unproduced → (w.calls c).unproduced)
    (hflushing : ∀ c e key connected, w'.calls c = .running e key .flushing connected →
      ∃ connected', w.calls c = .running e key .flushing connected') : OutboxInv process w' := by
  refine ⟨?_, ?_, fun c hc => ?_, fun p c hc => ?_, fun p => ?_, fun c e key connected hc => ?_⟩
  · rw [houtbox, hlog]
    exact hinv.stored
  · rw [houtbox]
    exact hinv.reported
  · rw [houtbox]
    exact hinv.unproduced c (hunproduced c hc)
  · rw [houtbox]
    rcases hqueue p with hsame | hnil
    · rw [hsame] at hc
      exact hinv.queued p c hc
    · rw [hnil] at hc
      cases hc
  · rcases hqueue p with hsame | hnil
    · rw [hsame]
      exact hinv.nodup p
    · rw [hnil]
      exact List.nodup_nil
  · rw [houtbox]
    rcases hflushing c e key connected hc with ⟨connected', hc'⟩
    exact hinv.flushing c e key connected' hc'

/-- The same where one call moves. -/
theorem outboxInv_goto {w w' : World} {c : Nat} {call : Call} (hinv : OutboxInv process w)
    (houtbox : w'.outbox = w.outbox) (hqueue : w'.queue = w.queue) (hlog : w'.log = w.log)
    (hcalls : w'.calls = Function.update w.calls c call)
    (hunproduced : call.unproduced → (w.calls c).unproduced)
    (hflushing : ∀ e key connected, call = .running e key .flushing connected →
      ∃ connected', w.calls c = .running e key .flushing connected') : OutboxInv process w' := by
  refine outboxInv_calls hinv houtbox (fun p => Or.inl (congrFun hqueue p)) hlog
    (fun c' hc' => ?_) (fun c' e key connected hc' => ?_)
  · rw [hcalls] at hc'
    by_cases h : c' = c
    · rw [h] at hc' ⊢
      rw [Function.update_self] at hc'
      exact hunproduced hc'
    · rw [Function.update_of_ne h] at hc'
      exact hc'
  · rw [hcalls] at hc'
    by_cases h : c' = c
    · rw [h] at hc' ⊢
      rw [Function.update_self] at hc'
      exact hflushing e key connected hc'
    · rw [Function.update_of_ne h] at hc'
      exact ⟨connected, hc'⟩

/-- A call that moves on without waiting for a delivery, or ends. -/
theorem outboxInv_stop {w w' : World} {c : Nat} {call : Call} (hinv : OutboxInv process w)
    (houtbox : w'.outbox = w.outbox) (hqueue : w'.queue = w.queue) (hlog : w'.log = w.log)
    (hcalls : w'.calls = Function.update w.calls c call) (hproduced : ¬ call.unproduced)
    (hflushing : ∀ e key connected, call ≠ .running e key .flushing connected) :
    OutboxInv process w' := by
  refine outboxInv_goto hinv houtbox hqueue hlog hcalls (fun h => absurd h hproduced) ?_
  intro e key connected h
  exact absurd h (hflushing e key connected)

/-- A message is handed to the producer. -/
theorem outboxInv_produce {w w' : World} {c : Nat} {e : IngestArgs} {key topic : String}
    {connected : Bool} (hinv : OutboxInv process w)
    (hc : w.calls c = .running e key .publishing connected)
    (hcalls : w'.calls = Function.update w.calls c (.running e key .flushing connected))
    (houtbox : w'.outbox = Function.update w.outbox c (some
      { topic := topic, message := kafkaMessage e key, stored := false, outcome := none }))
    (hqueue : w'.queue = Function.update w.queue (process c) (w.queue (process c) ++ [c]))
    (hlog : w'.log = w.log) : OutboxInv process w' := by
  have hnone : w.outbox c = none := hinv.unproduced c (by rw [hc]; trivial)
  have hnotin : ∀ p, c ∉ w.queue p := by
    intro p hmem
    rcases (hinv.queued p c hmem).2 with ⟨d, hd, _⟩
    rw [hnone] at hd
    cases hd
  have hself : w'.outbox c = some
      { topic := topic, message := kafkaMessage e key, stored := false, outcome := none } := by
    rw [houtbox, Function.update_self]
  have hother : ∀ c', c' ≠ c → w'.outbox c' = w.outbox c' ∧ w'.calls c' = w.calls c' := by
    intro c' hne
    rw [houtbox, hcalls, Function.update_of_ne hne, Function.update_of_ne hne]
    exact ⟨rfl, rfl⟩
  refine ⟨fun c' d hd hstored => ?_, fun c' d hd hout => ?_, fun c' hc' => ?_, fun p c' hmem => ?_,
    fun p => ?_, fun c' e' key' connected' hc' => ?_⟩
  · -- The new message is not stored yet, nor has its callback run.
    rw [hlog]
    by_cases h : c' = c
    · rw [h, hself] at hd
      rw [← Option.some.inj hd] at hstored
      cases hstored
    · rw [(hother c' h).1] at hd
      exact hinv.stored c' d hd hstored
  · by_cases h : c' = c
    · rw [h, hself] at hd
      rw [← Option.some.inj hd] at hout
      cases hout
    · rw [(hother c' h).1] at hd
      exact hinv.reported c' d hd hout
  · by_cases h : c' = c
    · rw [h, hcalls, Function.update_self] at hc'
      exact hc'.elim
    · rw [(hother c' h).2] at hc'
      rw [(hother c' h).1]
      exact hinv.unproduced c' hc'
  · -- On the queue of the process it is the only new one.
    by_cases h : c' = c
    · subst h
      refine ⟨?_, _, hself, rfl⟩
      by_contra hp
      rw [hqueue, Function.update_of_ne (Ne.symm hp)] at hmem
      exact hnotin p hmem
    · have hold : c' ∈ w.queue p := by
        rw [hqueue] at hmem
        by_cases hp : p = process c
        · rw [hp, Function.update_self] at hmem
          rcases List.mem_append.mp hmem with hmem | hmem
          · rw [hp]
            exact hmem
          · exact absurd (List.mem_singleton.mp hmem) h
        · rw [Function.update_of_ne hp] at hmem
          exact hmem
      rw [(hother c' h).1]
      exact hinv.queued p c' hold
  · rw [hqueue]
    by_cases hp : p = process c
    · rw [hp, Function.update_self]
      refine List.nodup_append.mpr ⟨hinv.nodup _, List.pairwise_singleton _ _, ?_⟩
      intro x hx y hy heq
      rw [heq, List.mem_singleton.mp hy] at hx
      exact hnotin _ hx
    · rw [Function.update_of_ne hp]
      exact hinv.nodup p
  · by_cases h : c' = c
    · rw [h, hcalls, Function.update_self] at hc'
      rw [h]
      refine ⟨_, hself, ?_⟩
      exact (Call.running.inj hc').2.1
    · rw [(hother c' h).2] at hc'
      rw [(hother c' h).1]
      exact hinv.flushing c' e' key' connected' hc'

/-- A message that the producer has changes, and no queue gains anything. -/
theorem outboxInv_amend {w w' : World} {c : Nat} {d d' : Delivery} (hinv : OutboxInv process w)
    (hd : w.outbox c = some d) (hcalls : w'.calls = w.calls)
    (houtbox : w'.outbox = Function.update w.outbox c (some d'))
    (hmessage : d'.message = d.message) (hlog : ∀ m ∈ w.log, m ∈ w'.log)
    (hstored : d'.stored = true → (d'.topic, d'.message) ∈ w'.log)
    (hreported : d'.outcome = some none → d'.stored = true)
    (hqueue : ∀ p, (w'.queue p).Sublist (w.queue p))
    (hqueued : ∀ p, c ∈ w'.queue p → d'.outcome = none) : OutboxInv process w' := by
  have hself : w'.outbox c = some d' := by
    rw [houtbox, Function.update_self]
  have hother : ∀ c', c' ≠ c → w'.outbox c' = w.outbox c' := by
    intro c' hne
    rw [houtbox, Function.update_of_ne hne]
  refine ⟨fun c' d₁ hd₁ hst => ?_, fun c' d₁ hd₁ hout => ?_, fun c' hc' => ?_,
    fun p c' hmem => ?_, fun p => (hinv.nodup p).sublist (hqueue p),
    fun c' e key connected hc' => ?_⟩
  · by_cases h : c' = c
    · rw [h, hself] at hd₁
      rw [← Option.some.inj hd₁] at hst ⊢
      exact hstored hst
    · rw [hother c' h] at hd₁
      exact hlog _ (hinv.stored c' d₁ hd₁ hst)
  · by_cases h : c' = c
    · rw [h, hself] at hd₁
      rw [← Option.some.inj hd₁] at hout ⊢
      exact hreported hout
    · rw [hother c' h] at hd₁
      exact hinv.reported c' d₁ hd₁ hout
  · -- A call that has produced nothing is not the one whose message changes.
    rw [hcalls] at hc'
    have hnone := hinv.unproduced c' hc'
    have h : c' ≠ c := by
      rintro rfl
      rw [hnone] at hd
      cases hd
    rw [hother c' h]
    exact hnone
  · rcases hinv.queued p c' ((hqueue p).subset hmem) with ⟨hp, hold⟩
    refine ⟨hp, ?_⟩
    by_cases h : c' = c
    · rw [h] at hmem ⊢
      exact ⟨d', hself, hqueued p hmem⟩
    · rw [hother c' h]
      exact hold
  · rw [hcalls] at hc'
    rcases hinv.flushing c' e key connected hc' with ⟨d₁, hd₁, hkey⟩
    by_cases h : c' = c
    · rw [h] at hd₁ ⊢
      rw [hd] at hd₁
      refine ⟨d', hself, ?_⟩
      rw [hmessage, Option.some.inj hd₁]
      exact hkey
    · exact ⟨d₁, by rw [hother c' h, hd₁], hkey⟩

/-- The broker stores a message. -/
theorem outboxInv_stores {w w' : World} {c : Nat} {d : Delivery} (hinv : OutboxInv process w)
    (hd : w.outbox c = some d) (hcalls : w'.calls = w.calls) (hqueue : w'.queue = w.queue)
    (houtbox : w'.outbox = Function.update w.outbox c (some { d with stored := true }))
    (hlog : w'.log = w.log ++ [(d.topic, d.message)]) : OutboxInv process w' := by
  refine outboxInv_amend hinv hd hcalls houtbox rfl (fun m hm => ?_) (fun _ => ?_) (fun _ => rfl)
    (fun p => ?_) (fun p hmem => ?_)
  · rw [hlog]
    exact List.mem_append_left _ hm
  · rw [hlog]
    exact List.mem_append_right _ (List.mem_singleton.mpr rfl)
  · rw [hqueue]
  · rw [hqueue] at hmem
    rcases (hinv.queued p c hmem).2 with ⟨d₁, hd₁, hout⟩
    rw [hd] at hd₁
    rw [Option.some.inj hd₁]
    exact hout

/-- A delivery callback runs. -/
theorem outboxInv_report {w : World} {c : Nat} {d : Delivery} {err : Option String}
    (hinv : OutboxInv process w) (hd : w.outbox c = some d)
    (hstored : err = none → d.stored = true) :
    OutboxInv process (w.report (process c) c d err) := by
  have herase : (w.report (process c) c d err).queue (process c) = (w.queue (process c)).erase c :=
    Function.update_self _ _ _
  have hsame : ∀ p, p ≠ process c → (w.report (process c) c d err).queue p = w.queue p := by
    intro p hp
    exact Function.update_of_ne hp _ _
  refine outboxInv_amend hinv hd rfl rfl rfl (fun m hm => hm) (hinv.stored c d hd)
    (fun hout => hstored (Option.some.inj hout)) (fun p => ?_) (fun p hmem => ?_)
  · by_cases hp : p = process c
    · rw [hp, herase]
      exact List.erase_sublist
    · rw [hsame p hp]
  · -- The call has left the only queue it can be on.
    exfalso
    by_cases hp : p = process c
    · rw [hp, herase] at hmem
      exact ((hinv.nodup _).mem_erase_iff.mp hmem).1 rfl
    · rw [hsame p hp] at hmem
      exact hp (hinv.queued p c hmem).1.symm

theorem unproduced_orphan {call : Call} (h : call.orphan.unproduced) : call.unproduced := by
  cases call with
  | running e key phase connected => cases connected <;> exact h.elim
  | _ => exact h

theorem orphan_ne_running {e : IngestArgs} {key : String} {phase : Phase} {connected : Bool}
    (call : Call) : call.orphan ≠ .running e key phase connected := by
  intro h
  cases call with
  | running e' key' phase' connected' => cases connected' <;> cases h
  | _ => cases h

/-- A message whose callback has run is on no queue. -/
theorem ne_of_queued {w : World} (hinv : OutboxInv process w) {c c₀ p : Nat}
    {d₀ : Delivery} (hqueued : c ∈ w.queue p) (hd₀ : w.outbox c₀ = some d₀)
    (hout : d₀.outcome = some none) : c₀ ≠ c := by
  rintro rfl
  rcases (hinv.queued p c₀ hqueued).2 with ⟨d, hd, hnone⟩
  rw [hd] at hd₀
  rw [Option.some.inj hd₀, hout] at hnone
  cases hnone

/-- `publish` succeeds only with an outcome that is there and has no error. -/
theorem publishResult_ok {topic : String} {remaining : Nat} {outcome : Option (Option String)}
    (h : publishResult topic remaining outcome = .ok ()) : outcome = some none := by
  unfold publishResult at h
  split at h
  · cases h
  · next hcond =>
      cases outcome with
      | none => exact absurd (Or.inr rfl) hcond
      | some err =>
          cases err with
          | none => rfl
          | some err => cases h

/-- `publish` returns only for an acknowledged message. -/
theorem acknowledged_of_published {w : World} (hinv : OutboxInv process w) {c : Nat}
    {e : IngestArgs} {key : String} {connected : Bool} {d : Delivery} {remaining : Nat}
    (hc : w.calls c = .running e key .flushing connected) (hd : w.outbox c = some d)
    (hresult : publishResult d.topic remaining d.outcome = .ok ()) : Acknowledged w key := by
  have hout := publishResult_ok hresult
  rcases hinv.flushing c e key connected hc with ⟨d', hd', hkey⟩
  rw [hd] at hd'
  rw [← Option.some.inj hd'] at hkey
  exact ⟨c, d, hd, hout, hkey, hinv.stored c d hd (hinv.reported c d hd hout)⟩

theorem outboxInv_initial {w : World} (h : Initial w) : OutboxInv process w := by
  rcases h with ⟨_, hcalls, houtbox, hqueue, _, _⟩
  refine ⟨fun c d hd => ?_, fun c d hd => ?_, fun c _ => houtbox c, fun p c hmem => ?_,
    fun p => ?_, fun c e key connected hc => ?_⟩
  · rw [houtbox c] at hd
    cases hd
  · rw [houtbox c] at hd
    cases hd
  · rw [hqueue p] at hmem
    cases hmem
  · rw [hqueue p]
    exact List.nodup_nil
  · rw [hcalls c] at hc
    cases hc

end Outbox

/-- The row a phase has locked, and whether it inserted it. -/
def Phase.row (key : String) : Phase → Option (String × Bool)
  | .registering => none
  | .publishing => some (key, true)
  | .flushing => some (key, true)
  | .committing reply => some (reply.idempotencyKey, reply.isNew)

/-- The row the transaction of a call has locked, if that is still open. -/
def Call.holding : Call → Option (String × Bool)
  | .running _ key phase true => phase.row key
  | .orphaned key phase => phase.row key
  | _ => none

/-- The reply of a call that has nothing left to do but commit. -/
def Call.pending : Call → Option Reply
  | .running _ _ (.committing reply) _ => some reply
  | .orphaned _ (.committing reply) => some reply
  | _ => none

/-- The call has no transaction any more and will have none. -/
def Call.ended : Call → Prop
  | .returned _ _ => True
  | .raised => True
  | .gone => True
  | _ => False

/-- The commits of a key. -/
def keyCommits (commits : List Registration) (key : String) : List Registration :=
  commits.filter fun m => m.key = key

/-- A row counts the commits of its key, one of which inserted it; without a
    row there have been none. -/
def KeyCount (commits : List Registration) (key : String) : Option KeyRow → Prop
  | none => keyCommits commits key = []
  | some r => r.occurrenceCount = (keyCommits commits key).length ∧
      ((keyCommits commits key).filter Registration.isNew).length = 1

section Counting

variable {commits : List Registration} {m : Registration}

theorem keyCommits_other {key : String} (h : m.key ≠ key) :
    keyCommits (commits ++ [m]) key = keyCommits commits key := by
  unfold keyCommits
  rw [List.filter_append, List.filter_cons_of_neg (by simpa using h), List.filter_nil,
    List.append_nil]

theorem keyCommits_self : keyCommits (commits ++ [m]) m.key = keyCommits commits m.key ++ [m] := by
  unfold keyCommits
  rw [List.filter_append, List.filter_cons_of_pos (by simp), List.filter_nil]

/-- A commit counts itself in the row of its key. -/
theorem keyCount_register {v : Option KeyRow} {now : ℤ} (h : KeyCount commits m.key v)
    (hnew : m.isNew = true ↔ v = none) : KeyCount (commits ++ [m]) m.key (register now v) := by
  cases v with
  | none =>
      have hnil : keyCommits commits m.key = [] := h
      have hisNew : m.isNew = true := hnew.mpr rfl
      refine ⟨?_, ?_⟩
      · rw [keyCommits_self, hnil]
        rfl
      · rw [keyCommits_self, hnil, List.nil_append, List.filter_cons_of_pos hisNew]
        rfl
  | some r =>
      have hold : ¬ m.isNew = true := fun hc => by cases hnew.mp hc
      refine ⟨?_, ?_⟩
      · rw [keyCommits_self, List.length_append, ← h.1]
        rfl
      · rw [keyCommits_self, List.filter_append, List.filter_cons_of_neg hold, List.filter_nil,
          List.append_nil]
        exact h.2

/-- The rows of other keys do not count it. -/
theorem keyCount_other {key : String} {v : Option KeyRow} (h : KeyCount commits key v)
    (hne : m.key ≠ key) : KeyCount (commits ++ [m]) key v := by
  cases v with
  | none =>
      have hnil : keyCommits commits key = [] := h
      exact (keyCommits_other hne).trans hnil
  | some r =>
      refine ⟨?_, ?_⟩
      · rw [keyCommits_other hne]
        exact h.1
      · rw [keyCommits_other hne]
        exact h.2

end Counting

section Keys

/-- Rows, calls and commits fit together. -/
structure KeysInv (w : World) : Prop where
  lock : ∀ c key v, (w.keys key).writer = some (c, v) →
    ∃ isNew, (w.calls c).holding = some (key, isNew)
  /-- A call holds the row of its key, counted once more; it inserts it exactly
      if there is none. -/
  held : ∀ c key isNew, (w.calls c).holding = some (key, isNew) →
    (isNew = true ↔ (w.keys key).committed = none) ∧
      ∃ now, (w.keys key).writer = some (c, register now (w.keys key).committed)
  acked : ∀ c reply, (w.calls c).pending = some reply → reply.isNew = true →
    Acknowledged w reply.idempotencyKey
  count : ∀ key, KeyCount w.commits key (w.keys key).committed
  recorded : ∀ key r, (w.keys key).committed = some r → Acknowledged w key
  returned : ∀ c e reply, w.calls c = .returned e reply →
    { call := c, key := reply.idempotencyKey, isNew := reply.isNew } ∈ w.commits
  once : (w.commits.map Registration.call).Nodup
  ended : ∀ m ∈ w.commits, (w.calls m.call).ended

/-- A change of a call that the database does not see. -/
structure QuietCall (w' : World) (call call' : Call) : Prop where
  holding : call'.holding = call.holding
  pending : ∀ reply, call'.pending = some reply → reply.isNew = true →
    call.pending = some reply ∨ Acknowledged w' reply.idempotencyKey
  returned : ∀ e reply, call' = .returned e reply → call = .returned e reply
  ended : call.ended → call'.ended

theorem quietCall_refl (w' : World) (call : Call) : QuietCall w' call call :=
  ⟨rfl, fun _ h _ => Or.inl h, fun _ _ h => h, id⟩

variable {w w' : World}

theorem keysInv_quiet (hinv : KeysInv w) (hkeys : w'.keys = w.keys)
    (hcommits : w'.commits = w.commits) (hack : ∀ key, Acknowledged w key → Acknowledged w' key)
    (hcalls : ∀ c, QuietCall w' (w.calls c) (w'.calls c)) : KeysInv w' where
  lock c key v h := by
    rw [hkeys] at h
    rw [(hcalls c).holding]
    exact hinv.lock c key v h
  held c key isNew h := by
    rw [(hcalls c).holding] at h
    rw [hkeys]
    exact hinv.held c key isNew h
  acked c reply h hnew := by
    rcases (hcalls c).pending reply h hnew with hold | hdone
    · exact hack _ (hinv.acked c reply hold hnew)
    · exact hdone
  count key := by
    rw [hkeys, hcommits]
    exact hinv.count key
  recorded key r h := by
    rw [hkeys] at h
    exact hack key (hinv.recorded key r h)
  returned c e reply h := by
    rw [hcommits]
    exact hinv.returned c e reply ((hcalls c).returned e reply h)
  once := by
    rw [hcommits]
    exact hinv.once
  ended m hm := by
    rw [hcommits] at hm
    exact (hcalls m.call).ended (hinv.ended m hm)

/-- The same where one call moves. -/
theorem keysInv_goto {c : Nat} {call : Call} (hinv : KeysInv w) (hkeys : w'.keys = w.keys)
    (hcommits : w'.commits = w.commits) (hack : ∀ key, Acknowledged w key → Acknowledged w' key)
    (hcalls : w'.calls = Function.update w.calls c call) (hquiet : QuietCall w' (w.calls c) call) :
    KeysInv w' := by
  refine keysInv_quiet hinv hkeys hcommits hack fun c' => ?_
  rw [hcalls]
  by_cases h : c' = c
  · rw [h, Function.update_self]
    exact hquiet
  · rw [Function.update_of_ne h]
    exact quietCall_refl w' _

/-- A row nobody else has locked is not locked at all when the call itself
    holds none. -/
theorem unlocked_of_free (hinv : KeysInv w) {c : Nat} {key : String}
    (hfree : RowStore.Free c (w.keys key)) (hnone : (w.calls c).holding = none) :
    (w.keys key).writer = none := by
  cases hw : (w.keys key).writer with
  | none => rfl
  | some writer =>
      rcases writer with ⟨c', v⟩
      have hc' : c' = c := hfree c' v hw
      rw [hc'] at hw
      rcases hinv.lock c key v hw with ⟨isNew, hheld⟩
      rw [hnone] at hheld
      cases hheld

theorem call_moved {c : Nat} {call : Call} (hcalls : w'.calls = Function.update w.calls c call) :
    w'.calls c = call := by
  rw [hcalls, Function.update_self]

/-- While one call moves the others stay. -/
theorem call_other {c c' : Nat} {call : Call}
    (hcalls : w'.calls = Function.update w.calls c call) (hne : c' ≠ c) :
    w'.calls c' = w.calls c' := by
  rw [hcalls, Function.update_of_ne hne]

/-- What one moving call leaves of the replies on their way to a commit. -/
theorem acked_goto {c : Nat} {call : Call} (hinv : KeysInv w)
    (hack : ∀ key, Acknowledged w key → Acknowledged w' key)
    (hcalls : w'.calls = Function.update w.calls c call)
    (hpending : ∀ reply, call.pending = some reply → reply.isNew = true →
      Acknowledged w' reply.idempotencyKey) {c' : Nat} {reply : Reply}
    (hp : (w'.calls c').pending = some reply) (hn : reply.isNew = true) :
    Acknowledged w' reply.idempotencyKey := by
  by_cases hc : c' = c
  · rw [hc, call_moved hcalls] at hp
    exact hpending reply hp hn
  · rw [call_other hcalls hc] at hp
    exact hack _ (hinv.acked c' reply hp hn)

/-- The replies sent so far, where the moving call sends none. -/
theorem returned_goto {c : Nat} {call : Call} (hinv : KeysInv w)
    (hcalls : w'.calls = Function.update w.calls c call)
    (hreturned : ∀ e reply, call ≠ .returned e reply) {c' : Nat} {e : IngestArgs} {reply : Reply}
    (hr : w'.calls c' = .returned e reply) :
    { call := c', key := reply.idempotencyKey, isNew := reply.isNew } ∈ w.commits := by
  by_cases hc : c' = c
  · rw [hc, call_moved hcalls] at hr
    exact absurd hr (hreturned e reply)
  · rw [call_other hcalls hc] at hr
    exact hinv.returned c' e reply hr

/-- A call that moves has not committed before. -/
theorem ended_goto {c : Nat} {call : Call} (hinv : KeysInv w) (hended : ¬ (w.calls c).ended)
    (hcalls : w'.calls = Function.update w.calls c call) {m : Registration}
    (hm : m ∈ w.commits) : (w'.calls m.call).ended := by
  have hold := hinv.ended m hm
  have hne : m.call ≠ c := fun heq => hended (heq ▸ hold)
  rw [call_other hcalls hne]
  exact hold

/-- A call registers its key. -/
theorem keysInv_register {c : Nat} {call : Call} {key : String} {now : ℤ} {isNew : Bool}
    (hinv : KeysInv w) (hfree : RowStore.Free c (w.keys key))
    (hnone : (w.calls c).holding = none) (hended : ¬ (w.calls c).ended)
    (hnew : isNew = true ↔ RowStore.visible c (w.keys key) = none)
    (hholding : call.holding = some (key, isNew))
    (hpending : ∀ reply, call.pending = some reply → reply.isNew = false)
    (hreturned : ∀ e reply, call ≠ .returned e reply)
    (hkeys : w'.keys = RowStore.write c key (register now) w.keys)
    (hcommits : w'.commits = w.commits) (hack : ∀ key, Acknowledged w key → Acknowledged w' key)
    (hcalls : w'.calls = Function.update w.calls c call) : KeysInv w' := by
  have hunlocked := unlocked_of_free hinv hfree hnone
  have hvisible : RowStore.visible c (w.keys key) = (w.keys key).committed := by
    simp only [RowStore.visible, hunlocked]
  rw [hvisible] at hnew
  have hself : (w'.keys key).writer = some (c, register now (w.keys key).committed) := by
    rw [hkeys, RowStore.write_self, hvisible]
  have hcommitted : ∀ key', (w'.keys key').committed = (w.keys key').committed := by
    intro key'
    rw [hkeys, RowStore.write_committed]
  have hother : ∀ key', key' ≠ key → (w'.keys key').writer = (w.keys key').writer := by
    intro key' hne
    rw [hkeys, RowStore.write_other _ _ _ _ _ hne]
  have hcall := call_moved hcalls
  refine ⟨fun c' key' v hw => ?_, fun c' key' isNew' hheld => ?_, fun c' reply hp hn => ?_,
    fun key' => ?_, fun key' r hr => ?_, fun c' e reply hr => ?_, ?_, fun m hm => ?_⟩
  · -- The row is locked by the call now, and no other row changes hands.
    by_cases hk : key' = key
    · rw [hk, hself] at hw
      rw [← (Prod.mk.inj (Option.some.inj hw)).1, hk, hcall]
      exact ⟨isNew, hholding⟩
    · rw [hother key' hk] at hw
      rcases hinv.lock c' key' v hw with ⟨isNew', hheld⟩
      have hne : c' ≠ c := by
        rintro rfl
        rw [hnone] at hheld
        cases hheld
      rw [call_other hcalls hne]
      exact ⟨isNew', hheld⟩
  · -- Nobody else held the row, since it was not locked.
    rw [hcommitted key']
    by_cases hc : c' = c
    · rw [hc, hcall, hholding] at hheld
      rcases Prod.mk.inj (Option.some.inj hheld) with ⟨hk, hn⟩
      rw [← hk, ← hn, hc]
      exact ⟨hnew, now, hself⟩
    · rw [call_other hcalls hc] at hheld
      rcases hinv.held c' key' isNew' hheld with ⟨hiff, now', hw⟩
      have hne : key' ≠ key := by
        rintro rfl
        rw [hunlocked] at hw
        cases hw
      exact ⟨hiff, now', by rw [hother key' hne, hw]⟩
  · refine acked_goto hinv hack hcalls (fun reply' hp' hn' => ?_) hp hn
    rw [hpending reply' hp'] at hn'
    cases hn'
  · rw [hcommitted, hcommits]
    exact hinv.count key'
  · rw [hcommitted] at hr
    exact hack _ (hinv.recorded key' r hr)
  · rw [hcommits]
    exact returned_goto hinv hcalls hreturned hr
  · rw [hcommits]
    exact hinv.once
  · rw [hcommits] at hm
    exact ended_goto hinv hended hcalls hm

/-- The transaction of a call is rolled back. -/
theorem keysInv_rollback {c : Nat} {call : Call} (hinv : KeysInv w)
    (hended : ¬ (w.calls c).ended) (hholding : call.holding = none)
    (hpending : ∀ reply, call.pending = some reply → (w.calls c).pending = some reply)
    (hreturned : ∀ e reply, call ≠ .returned e reply)
    (hkeys : w'.keys = RowStore.rollback c w.keys) (hcommits : w'.commits = w.commits)
    (hack : ∀ key, Acknowledged w key → Acknowledged w' key)
    (hcalls : w'.calls = Function.update w.calls c call) : KeysInv w' := by
  have hcommitted : ∀ key, (w'.keys key).committed = (w.keys key).committed := by
    intro key
    rw [hkeys, RowStore.rollback_committed]
  have hcall := call_moved hcalls
  refine ⟨fun c' key v hw => ?_, fun c' key isNew hheld => ?_, fun c' reply hp hn => ?_,
    fun key => ?_, fun key r hr => ?_, fun c' e reply hr => ?_, ?_, fun m hm => ?_⟩
  · -- What is still locked is locked by others.
    rw [hkeys] at hw
    rcases RowStore.release_writer hw with ⟨hold, hne⟩
    rw [call_other hcalls hne]
    exact hinv.lock c' key v hold
  · rw [hcommitted]
    by_cases hc : c' = c
    · rw [hc, hcall, hholding] at hheld
      cases hheld
    · rw [call_other hcalls hc] at hheld
      rcases hinv.held c' key isNew hheld with ⟨hiff, now, hw⟩
      refine ⟨hiff, now, ?_⟩
      rw [hkeys]
      simp only [RowStore.rollback]
      rw [RowStore.release_foreign hc hw, hw]
  · refine acked_goto hinv hack hcalls (fun reply' hp' hn' => ?_) hp hn
    exact hack _ (hinv.acked c reply' (hpending reply' hp') hn')
  · rw [hcommitted, hcommits]
    exact hinv.count key
  · rw [hcommitted] at hr
    exact hack _ (hinv.recorded key r hr)
  · rw [hcommits]
    exact returned_goto hinv hcalls hreturned hr
  · rw [hcommits]
    exact hinv.once
  · rw [hcommits] at hm
    exact ended_goto hinv hended hcalls hm

/-- The transaction of a call is committed. -/
theorem keysInv_commit {c : Nat} {call : Call} {reply : Reply} (hinv : KeysInv w)
    (hended : ¬ (w.calls c).ended)
    (hholds : (w.calls c).holding = some (reply.idempotencyKey, reply.isNew))
    (hpending : (w.calls c).pending = some reply) (hcall_holding : call.holding = none)
    (hcall_pending : call.pending = none) (hcall_ended : call.ended)
    (hcall_returned : ∀ e reply', call = .returned e reply' → reply' = reply)
    (hkeys : w'.keys = RowStore.commit c w.keys)
    (hcommits : w'.commits = w.commits ++
      [{ call := c, key := reply.idempotencyKey, isNew := reply.isNew }])
    (hack : ∀ key, Acknowledged w key → Acknowledged w' key)
    (hcalls : w'.calls = Function.update w.calls c call) : KeysInv w' := by
  rcases hinv.held c _ _ hholds with ⟨hnew, now, hwriter⟩
  have hcall := call_moved hcalls
  -- The row of the key is published, and no other was the call's to publish.
  have hself : w'.keys reply.idempotencyKey
      = { committed := register now (w.keys reply.idempotencyKey).committed, writer := none } := by
    rw [hkeys]
    exact RowStore.commit_of_writer hwriter
  have hother : ∀ key, key ≠ reply.idempotencyKey → w'.keys key = w.keys key := by
    intro key hne
    rw [hkeys]
    refine RowStore.commit_of_foreign fun v hv => ?_
    rcases hinv.lock c key v hv with ⟨isNew, hheld⟩
    rw [hholds] at hheld
    exact hne (Prod.mk.inj (Option.some.inj hheld)).1.symm
  refine ⟨fun c' key v hw => ?_, fun c' key isNew hheld => ?_, fun c' reply' hp hn => ?_,
    fun key => ?_, fun key r hr => ?_, fun c' e reply' hr => ?_, ?_, fun m hm => ?_⟩
  · -- The row of the key is free now, and the call held no other.
    by_cases hk : key = reply.idempotencyKey
    · rw [hk, hself] at hw
      cases hw
    · rw [hother key hk] at hw
      rcases hinv.lock c' key v hw with ⟨isNew, hheld⟩
      have hne : c' ≠ c := by
        rintro rfl
        rw [hholds] at hheld
        exact hk (Prod.mk.inj (Option.some.inj hheld)).1.symm
      rw [call_other hcalls hne]
      exact ⟨isNew, hheld⟩
  · by_cases hc : c' = c
    · rw [hc, hcall, hcall_holding] at hheld
      cases hheld
    · rw [call_other hcalls hc] at hheld
      rcases hinv.held c' key isNew hheld with ⟨hiff, now', hw⟩
      have hk : key ≠ reply.idempotencyKey := by
        rintro rfl
        rw [hwriter] at hw
        exact hc (Prod.mk.inj (Option.some.inj hw)).1.symm
      rw [hother key hk]
      exact ⟨hiff, now', hw⟩
  · refine acked_goto hinv hack hcalls (fun reply₁ hp₁ _ => ?_) hp hn
    rw [hcall_pending] at hp₁
    cases hp₁
  · -- The row counts this commit as well.
    rw [hcommits]
    by_cases hk : key = reply.idempotencyKey
    · rw [hk, hself]
      exact keyCount_register (hinv.count _) hnew
    · rw [hother key hk]
      exact keyCount_other (hinv.count key) (Ne.symm hk)
  · -- A row the call has inserted comes after its message; one that was there has one.
    by_cases hk : key = reply.idempotencyKey
    · rw [hk]
      cases hrow : (w.keys reply.idempotencyKey).committed with
      | none => exact hack _ (hinv.acked c reply hpending (hnew.mpr hrow))
      | some r' => exact hack _ (hinv.recorded _ r' hrow)
    · rw [hother key hk] at hr
      exact hack _ (hinv.recorded key r hr)
  · rw [hcommits]
    by_cases hc : c' = c
    · rw [hc, hcall] at hr
      rw [hc, hcall_returned e reply' hr]
      exact List.mem_append_right _ List.mem_cons_self
    · rw [call_other hcalls hc] at hr
      exact List.mem_append_left _ (hinv.returned c' e reply' hr)
  · -- The call had not ended, so it had not committed before.
    rw [hcommits, List.map_append]
    refine List.nodup_append.mpr ⟨hinv.once, List.pairwise_singleton _ _, ?_⟩
    intro x hx y hy heq
    rcases List.mem_map.mp hx with ⟨m, hm, hmx⟩
    have hy' : y = c := List.mem_singleton.mp hy
    have hmc : m.call = c := hmx.trans (heq.trans hy')
    exact hended (hmc ▸ hinv.ended m hm)
  · rw [hcommits] at hm
    rcases List.mem_append.mp hm with hold | hlast
    · exact ended_goto hinv hended hcalls hold
    · rw [List.mem_singleton.mp hlast, hcall]
      exact hcall_ended

theorem quietCall_orphan (w' : World) (call : Call) : QuietCall w' call call.orphan := by
  cases call with
  | running e key phase connected =>
      cases connected with
      | true =>
          refine ⟨rfl, fun reply hp _ => Or.inl ?_, fun _ _ hr => (by cases hr), fun he => he.elim⟩
          cases phase <;> exact hp
      | false =>
          exact ⟨rfl, fun _ hp _ => (by cases hp), fun _ _ hr => (by cases hr), fun _ => trivial⟩
  | _ => exact quietCall_refl w' _

theorem keysInv_initial (h : Initial w) : KeysInv w := by
  rcases h with ⟨hkeys, hcalls, _, _, _, hcommits⟩
  refine ⟨fun c key v hw => ?_, fun c key isNew hheld => ?_, fun c reply hp => ?_, fun key => ?_,
    fun key r hr => ?_, fun c e reply hr => ?_, ?_, fun m hm => ?_⟩
  · rw [hkeys] at hw
    cases hw
  · rw [hcalls c] at hheld
    cases hheld
  · rw [hcalls c] at hp
    cases hp
  · rw [hkeys, hcommits]
    exact List.filter_nil
  · rw [hkeys] at hr
    cases hr
  · rw [hcalls c] at hr
    cases hr
  · rw [hcommits]
    exact List.nodup_nil
  · rw [hcommits] at hm
    cases hm

end Keys

section Steps

variable [PyText] {process : Nat → Nat} {topics : Topics}

theorem outboxInv_step {w w' : World} (hinv : OutboxInv process w)
    (h : Step process topics w w') : OutboxInv process w' := by
  cases h with
  -- Only `produce` has a call flush, so no other move says anything of a delivery.
  | begin c e key hidle hkey =>
      refine outboxInv_goto hinv rfl rfl rfl rfl (fun _ => by rw [hidle]; trivial) ?_
      intro e' key' connected hc
      cases hc
  | keyRaises c e err hidle hkey =>
      exact outboxInv_stop hinv rfl rfl rfl rfl (fun hc => hc.elim) (fun _ _ _ hc => by cases hc)
  | registerNew c e key now hc hfree hnew =>
      refine outboxInv_goto hinv rfl rfl rfl rfl (fun _ => by rw [hc]; trivial) ?_
      intro e' key' connected hc
      cases hc
  | registerDuplicate c e key now r hc hfree hseen =>
      exact outboxInv_stop hinv rfl rfl rfl rfl (fun hc => hc.elim) (fun _ _ _ hc => by cases hc)
  | produce c e key connected hc => exact outboxInv_produce hinv hc rfl rfl rfl rfl
  | published c e key connected d hc hd hresult =>
      exact outboxInv_stop hinv rfl rfl rfl rfl (fun hc => hc.elim) (fun _ _ _ hc => by cases hc)
  | publishRaises c e key err connected d hc hd hresult =>
      exact outboxInv_stop hinv rfl rfl rfl rfl (fun hc => hc.elim) (fun _ _ _ hc => by cases hc)
  | raises c e key phase connected hc hphase =>
      exact outboxInv_stop hinv rfl rfl rfl rfl (fun hc => hc.elim) (fun _ _ _ hc => by cases hc)
  -- The call goes on without knowing, in the phase it was in.
  | disconnect c e key phase hc =>
      refine outboxInv_goto hinv rfl rfl rfl rfl (fun h => ?_) ?_
      · rw [hc]
        cases phase <;> exact h
      · intro e' key' connected h
        rcases Call.running.inj h with ⟨rfl, rfl, rfl, _⟩
        exact ⟨true, hc⟩
  | commitReturns c e key reply hc =>
      exact outboxInv_stop hinv rfl rfl rfl rfl (fun hc => hc.elim) (fun _ _ _ hc => by cases hc)
  | commitAnswerLost c e key reply hc =>
      exact outboxInv_stop hinv rfl rfl rfl rfl (fun hc => hc.elim) (fun _ _ _ hc => by cases hc)
  | brokerStores c d hd hnew => exact outboxInv_stores hinv hd rfl rfl rfl rfl
  | delivered c d hqueued hd hstored => exact outboxInv_report hinv hd (fun _ => hstored)
  | notDelivered c d err hqueued hd => exact outboxInv_report hinv hd (fun hc => by cases hc)
  -- The calls of the process become orphans, the others stay.
  | crash p =>
      refine outboxInv_calls hinv rfl (fun q => ?_) rfl (fun c hc => ?_)
        (fun c e key connected hc => ?_)
      · by_cases hq : q = p
        · rw [hq]
          exact Or.inr (Function.update_self _ _ _)
        · exact Or.inl (Function.update_of_ne hq _ _)
      · by_cases hp : process c = p
        · simp only [if_pos hp] at hc
          exact unproduced_orphan hc
        · simp only [if_neg hp] at hc
          exact hc
      · by_cases hp : process c = p
        · simp only [if_pos hp] at hc
          exact absurd hc (orphan_ne_running _)
        · simp only [if_neg hp] at hc
          exact ⟨connected, hc⟩
  | orphanRollsBack c key phase hc =>
      exact outboxInv_stop hinv rfl rfl rfl rfl (fun hc => hc.elim) (fun _ _ _ hc => by cases hc)
  | orphanCommits c key reply hc =>
      exact outboxInv_stop hinv rfl rfl rfl rfl (fun hc => hc.elim) (fun _ _ _ hc => by cases hc)

/-- What is acknowledged stays so. -/
theorem acknowledged_step {w w' : World} (hinv : OutboxInv process w)
    (h : Step process topics w w') {key : String} (hack : Acknowledged w key) :
    Acknowledged w' key := by
  rcases hack with ⟨c₀, d₀, hd₀, hout, hkey, hlog⟩
  cases h with
  | produce c e key connected hc =>
      have hne : c₀ ≠ c := by
        rintro rfl
        rw [hinv.unproduced c₀ (by rw [hc]; trivial)] at hd₀
        cases hd₀
      exact ⟨c₀, d₀, (Function.update_of_ne hne _ _).trans hd₀, hout, hkey, hlog⟩
  | brokerStores c d hd hnew =>
      have hne : c₀ ≠ c := by
        rintro rfl
        rw [hd] at hd₀
        rw [← Option.some.inj hd₀] at hout
        rw [hinv.reported c₀ d hd hout] at hnew
        cases hnew
      exact ⟨c₀, d₀, (Function.update_of_ne hne _ _).trans hd₀, hout, hkey,
        List.mem_append_left _ hlog⟩
  | delivered c d hqueued hd hstored =>
      have hne := ne_of_queued hinv hqueued hd₀ hout
      exact ⟨c₀, d₀, (Function.update_of_ne hne _ _).trans hd₀, hout, hkey, hlog⟩
  | notDelivered c d err hqueued hd =>
      have hne := ne_of_queued hinv hqueued hd₀ hout
      exact ⟨c₀, d₀, (Function.update_of_ne hne _ _).trans hd₀, hout, hkey, hlog⟩
  | _ => exact ⟨c₀, d₀, hd₀, hout, hkey, hlog⟩

/-- The key of a call is the one its arguments have. -/
structure CallsInv (w : World) : Prop where
  running : ∀ c e key phase connected, w.calls c = .running e key phase connected →
    ingestKey e.pspName e.eventType e.rawPayload e.contentHash = .ok key ∧
      ∀ reply, phase = .committing reply → reply.idempotencyKey = key
  returned : ∀ c e reply, w.calls c = .returned e reply →
    ingestKey e.pspName e.eventType e.rawPayload e.contentHash = .ok reply.idempotencyKey

theorem callsInv_goto {w w' : World} {c : Nat} {call : Call} (hinv : CallsInv w)
    (hcalls : w'.calls = Function.update w.calls c call)
    (hrunning : ∀ e key phase connected, call = .running e key phase connected →
      ingestKey e.pspName e.eventType e.rawPayload e.contentHash = .ok key ∧
        ∀ reply, phase = .committing reply → reply.idempotencyKey = key)
    (hreturned : ∀ e reply, call = .returned e reply →
      ingestKey e.pspName e.eventType e.rawPayload e.contentHash = .ok reply.idempotencyKey) :
    CallsInv w' := by
  refine ⟨fun c' e key phase connected hc' => ?_, fun c' e reply hc' => ?_⟩
  · rw [hcalls] at hc'
    by_cases h : c' = c
    · rw [h, Function.update_self] at hc'
      exact hrunning e key phase connected hc'
    · rw [Function.update_of_ne h] at hc'
      exact hinv.running c' e key phase connected hc'
  · rw [hcalls] at hc'
    by_cases h : c' = c
    · rw [h, Function.update_self] at hc'
      exact hreturned e reply hc'
    · rw [Function.update_of_ne h] at hc'
      exact hinv.returned c' e reply hc'

/-- A call that neither runs on nor returns. -/
theorem callsInv_stop {w w' : World} {c : Nat} {call : Call} (hinv : CallsInv w)
    (hcalls : w'.calls = Function.update w.calls c call)
    (hrunning : ∀ e key phase connected, call ≠ .running e key phase connected)
    (hreturned : ∀ e reply, call ≠ .returned e reply) : CallsInv w' :=
  callsInv_goto hinv hcalls (fun _ _ _ _ h => absurd h (hrunning _ _ _ _))
    (fun _ _ h => absurd h (hreturned _ _))

/-- A call that runs on with the same key, or begins. -/
theorem callsInv_go {w w' : World} {c : Nat} {e : IngestArgs} {key : String} {phase : Phase}
    {connected : Bool} (hinv : CallsInv w)
    (hcalls : w'.calls = Function.update w.calls c (.running e key phase connected))
    (hkey : ingestKey e.pspName e.eventType e.rawPayload e.contentHash = .ok key)
    (hreply : ∀ reply, phase = .committing reply → reply.idempotencyKey = key) :
    CallsInv w' := by
  refine callsInv_goto hinv hcalls (fun e' key' phase' connected' h => ?_) (fun _ _ h => ?_)
  · rcases Call.running.inj h with ⟨rfl, rfl, rfl, _⟩
    exact ⟨hkey, hreply⟩
  · cases h

theorem callsInv_step {w w' : World} (hinv : CallsInv w) (h : Step process topics w w') :
    CallsInv w' := by
  cases h with
  | begin c e key hidle hkey => exact callsInv_go hinv rfl hkey (fun _ hp => by cases hp)
  | registerNew c e key now hc hfree hnew =>
      exact callsInv_go hinv rfl (hinv.running _ _ _ _ _ hc).1 (fun _ hp => by cases hp)
  | registerDuplicate c e key now r hc hfree hseen =>
      refine callsInv_go hinv rfl (hinv.running _ _ _ _ _ hc).1 (fun reply hp => ?_)
      rw [← Phase.committing.inj hp]
  | produce c e key connected hc =>
      exact callsInv_go hinv rfl (hinv.running _ _ _ _ _ hc).1 (fun _ hp => by cases hp)
  | published c e key connected d hc hd hresult =>
      refine callsInv_go hinv rfl (hinv.running _ _ _ _ _ hc).1 (fun reply hp => ?_)
      rw [← Phase.committing.inj hp]
  | disconnect c e key phase hc =>
      exact callsInv_go hinv rfl (hinv.running _ _ _ _ _ hc).1 (hinv.running _ _ _ _ _ hc).2
  | commitReturns c e key reply hc =>
      refine callsInv_goto hinv rfl (fun _ _ _ _ hr => by cases hr) (fun e' reply' hr => ?_)
      rcases Call.returned.inj hr with ⟨rfl, rfl⟩
      rcases hinv.running _ _ _ _ _ hc with ⟨hkey, hreply⟩
      rw [hreply reply rfl]
      exact hkey
  | brokerStores c d hd hnew => exact ⟨hinv.running, hinv.returned⟩
  | delivered c d hqueued hd hstored => exact ⟨hinv.running, hinv.returned⟩
  | notDelivered c d err hqueued hd => exact ⟨hinv.running, hinv.returned⟩
  | crash p =>
      refine ⟨fun c e key phase connected hc => ?_, fun c e reply hc => ?_⟩
      · by_cases hp : process c = p
        · simp only [if_pos hp] at hc
          exact absurd hc (orphan_ne_running _)
        · simp only [if_neg hp] at hc
          exact hinv.running c e key phase connected hc
      · by_cases hp : process c = p
        · simp only [if_pos hp] at hc
          exact hinv.returned c e reply ((quietCall_orphan w (w.calls c)).returned e reply hc)
        · simp only [if_neg hp] at hc
          exact hinv.returned c e reply hc
  -- Every other step ends a call without a reply.
  | _ => exact callsInv_stop hinv rfl (fun _ _ _ _ hr => by cases hr) (fun _ _ hr => by cases hr)

/-- A step keeps the keys right, given the messages are. -/
theorem keysInv_step {w w' : World} (hout : OutboxInv process w) (hinv : KeysInv w)
    (h : Step process topics w w') : KeysInv w' := by
  have hack : ∀ key, Acknowledged w key → Acknowledged w' key :=
    fun key hk => acknowledged_step hout h hk
  cases h with
  | begin c e key hidle hkey =>
      refine keysInv_goto hinv rfl rfl hack rfl ?_
      rw [hidle]
      exact ⟨rfl, fun _ hp _ => (by cases hp), fun _ _ hr => (by cases hr), fun he => he.elim⟩
  | keyRaises c e err hidle hkey =>
      refine keysInv_goto hinv rfl rfl hack rfl ?_
      rw [hidle]
      exact ⟨rfl, fun _ hp _ => (by cases hp), fun _ _ hr => (by cases hr), fun _ => trivial⟩
  | registerNew c e key now hc hfree hnew =>
      refine keysInv_register hinv hfree (by rw [hc]; rfl) (by rw [hc]; exact id) ?_ rfl
        (fun _ hp => by cases hp) (fun _ _ hr => by cases hr) rfl rfl hack rfl
      simp only [hnew]
  | registerDuplicate c e key now r hc hfree hseen =>
      refine keysInv_register hinv hfree (by rw [hc]; rfl) (by rw [hc]; exact id) ?_ rfl
        (fun _ hp => ?_) (fun _ _ hr => by cases hr) rfl rfl hack rfl
      · simp only [hseen, Bool.false_eq_true, reduceCtorEq]
      · rw [← Option.some.inj hp]
  | produce c e key connected hc =>
      refine keysInv_goto hinv rfl rfl hack rfl ?_
      rw [hc]
      refine ⟨?_, fun _ hp _ => (by cases hp), fun _ _ hr => (by cases hr), fun he => he.elim⟩
      cases connected <;> rfl
  | published c e key connected d hc hd hresult =>
      refine keysInv_goto hinv rfl rfl hack rfl ?_
      rw [hc]
      refine ⟨?_, fun reply hp _ => Or.inr ?_, fun _ _ hr => (by cases hr), fun he => he.elim⟩
      · cases connected <;> rfl
      · rw [← Option.some.inj hp]
        exact hack key (acknowledged_of_published hout hc hd hresult)
  -- An exception rolls back, wherever it comes from.
  | publishRaises c e key err connected d hc hd hresult =>
      exact keysInv_rollback hinv (by rw [hc]; exact id) rfl (fun _ hp => by cases hp)
        (fun _ _ hr => by cases hr) rfl rfl hack rfl
  | raises c e key phase connected hc hphase =>
      exact keysInv_rollback hinv (by rw [hc]; exact id) rfl (fun _ hp => by cases hp)
        (fun _ _ hr => by cases hr) rfl rfl hack rfl
  | disconnect c e key phase hc =>
      refine keysInv_rollback hinv (by rw [hc]; exact id) rfl (fun reply hp => ?_)
        (fun _ _ hr => by cases hr) rfl rfl hack rfl
      rw [hc]
      cases phase <;> exact hp
  | commitReturns c e key reply hc =>
      refine keysInv_commit hinv (by rw [hc]; exact id) (by rw [hc]; rfl) (by rw [hc]; rfl) rfl rfl
        (show Call.ended (.returned e reply) from trivial) (fun e' reply' hr => ?_) rfl rfl hack rfl
      exact (Call.returned.inj hr).2.symm
  | commitAnswerLost c e key reply hc =>
      exact keysInv_commit hinv (by rw [hc]; exact id) (by rw [hc]; rfl) (by rw [hc]; rfl) rfl rfl
        (show Call.ended .raised from trivial) (fun _ _ hr => by cases hr) rfl rfl hack rfl
  -- The broker does not touch the database.
  | brokerStores c d hd hnew =>
      exact keysInv_quiet hinv rfl rfl hack fun c' => quietCall_refl _ _
  | delivered c d hqueued hd hstored =>
      exact keysInv_quiet hinv rfl rfl hack fun c' => quietCall_refl _ _
  | notDelivered c d err hqueued hd =>
      exact keysInv_quiet hinv rfl rfl hack fun c' => quietCall_refl _ _
  | crash p =>
      refine keysInv_quiet hinv rfl rfl hack fun c => ?_
      by_cases hp : process c = p
      · simp only [if_pos hp]
        exact quietCall_orphan _ _
      · simp only [if_neg hp]
        exact quietCall_refl _ _
  | orphanRollsBack c key phase hc =>
      exact keysInv_rollback hinv (by rw [hc]; exact id) rfl (fun _ hp => by cases hp)
        (fun _ _ hr => by cases hr) rfl rfl hack rfl
  | orphanCommits c key reply hc =>
      exact keysInv_commit hinv (by rw [hc]; exact id) (by rw [hc]; rfl) (by rw [hc]; rfl) rfl rfl
        (show Call.ended .gone from trivial) (fun _ _ hr => by cases hr) rfl rfl hack rfl

theorem inv_of_reachable {w : World} (h : Transition.Reachable Initial (Step process topics) w) :
    KeysInv w ∧ CallsInv w := by
  have hinv : OutboxInv process w ∧ KeysInv w ∧ CallsInv w := by
    refine Transition.invariant_of_step
      (I := fun w => OutboxInv process w ∧ KeysInv w ∧ CallsInv w) ?_ ?_ h
    · intro w₀ hinit
      refine ⟨outboxInv_initial hinit, keysInv_initial hinit, fun c e key phase connected hc => ?_,
        fun c e reply hc => ?_⟩
      · rw [hinit.2.1 c] at hc
        cases hc
      · rw [hinit.2.1 c] at hc
        cases hc
    · rintro a b ⟨hout, hkeys, hcalls⟩ hstep
      exact ⟨outboxInv_step hout hstep, keysInv_step hout hkeys hstep, callsInv_step hcalls hstep⟩
  exact hinv.2

/-- A committed key has a message the broker has acknowledged, exactly one of
    its commits inserted it, and its row counts them. Without a row there is no
    commit. No call commits twice, and one that returns has committed, so it
    never returns for an event whose key has no message. -/
theorem acknowledged_means_recorded {w : World}
    (h : Transition.Reachable Initial (Step process topics) w) :
    (∀ key r, (w.keys key).committed = some r →
      Acknowledged w key ∧
      ((keyCommits w.commits key).filter Registration.isNew).length = 1 ∧
      r.occurrenceCount = (keyCommits w.commits key).length) ∧
    (∀ key, (w.keys key).committed = none → keyCommits w.commits key = []) ∧
    (w.commits.map Registration.call).Nodup ∧
    (∀ c e reply, w.calls c = .returned e reply →
      { call := c, key := reply.idempotencyKey, isNew := reply.isNew } ∈ w.commits ∧
        ∃ key, ingestKey e.pspName e.eventType e.rawPayload e.contentHash = .ok key ∧
          reply.idempotencyKey = key ∧ Acknowledged w key) := by
  rcases inv_of_reachable h with ⟨hinv, hcalls⟩
  refine ⟨fun key r hr => ?_, fun key hnone => ?_, hinv.once, fun c e reply hr => ?_⟩
  · have hcount := hinv.count key
    rw [hr] at hcount
    exact ⟨hinv.recorded key r hr, hcount.2, hcount.1⟩
  · have hcount := hinv.count key
    rw [hnone] at hcount
    exact hcount
  · have hmem := hinv.returned c e reply hr
    refine ⟨hmem, _, hcalls.returned c e reply hr, rfl, ?_⟩
    -- A commit of the key, so a row of it.
    have hkey := hinv.count reply.idempotencyKey
    cases hrow : (w.keys reply.idempotencyKey).committed with
    | some r => exact hinv.recorded _ r hrow
    | none =>
        rw [hrow] at hkey
        have hin : { call := c, key := reply.idempotencyKey, isNew := reply.isNew } ∈
            keyCommits w.commits reply.idempotencyKey :=
          List.mem_filter.mpr ⟨hmem, decide_eq_true rfl⟩
        have hnil : keyCommits w.commits reply.idempotencyKey = [] := hkey
        rw [hnil] at hin
        cases hin

end Steps

section Exhibit

/-- A successful Paystack charge. -/
def chargeSuccess : IngestArgs where
  pspName := "paystack"
  eventType := "charge.success"
  rawPayload := [("data", .obj [("reference", .str "T1")])]
  contentHash := "h"
  receivedAt := "t"

def exhibitTopics : Topics where
  paystack := "psp.paystack"
  flutterwave := "psp.flutterwave"
  polling := "psp.polling"

def emptyWorld : World where
  keys := RowStore.blank none
  calls := fun _ => .idle
  outbox := fun _ => none
  queue := fun _ => []
  log := []
  commits := []

/-- A charge is delivered three times: its first `flush` times out, although
    the broker stores the message later; the second one is recorded; the third
    is a duplicate. -/
theorem acknowledged_means_recorded_retry :
    ∃ (_ : PyText) (w : World) (r : KeyRow),
      Transition.Reachable Initial (Step (fun _ => 0) exhibitTopics) w ∧
      (w.keys "paystack:T1:charge.success").committed = some r ∧ r.occurrenceCount = 2 ∧
      Acknowledged w "paystack:T1:charge.success" ∧
      ((keyCommits w.commits "paystack:T1:charge.success").filter
        Registration.isNew).length = 1 ∧
      r.occurrenceCount = (keyCommits w.commits "paystack:T1:charge.success").length := by
  let text := asciiText
  have hkey : ingestKey chargeSuccess.pspName chargeSuccess.eventType chargeSuccess.rawPayload
      chargeSuccess.contentHash = .ok "paystack:T1:charge.success" := by decide
  have h0 : Transition.Reachable Initial (Step (fun _ => 0) exhibitTopics) emptyWorld :=
    Transition.reachable_of_init ⟨rfl, fun _ => rfl, fun _ => rfl, fun _ => rfl, rfl, rfl⟩
  -- The first delivery gives up, and its message arrives all the same.
  have h1 := Transition.reachable_step h0 (Step.begin _ 0 chargeSuccess _ rfl hkey)
  have h2 := Transition.reachable_step h1
    (Step.registerNew _ 0 _ _ 0 rfl (fun _ _ h => by cases h) rfl)
  have h3 := Transition.reachable_step h2 (Step.produce _ 0 _ _ _ rfl)
  have h4 := Transition.reachable_step h3 (Step.publishRaises _ 0 _ _ _ _ _ rfl rfl rfl)
  have h5 := Transition.reachable_step h4 (Step.brokerStores _ 0 _ rfl rfl)
  have h6 := Transition.reachable_step h5 (Step.delivered _ 0 _ List.mem_cons_self rfl rfl)
  -- The second one inserts the key.
  have h7 := Transition.reachable_step h6 (Step.begin _ 1 chargeSuccess _ rfl hkey)
  have h8 := Transition.reachable_step h7
    (Step.registerNew _ 1 _ _ 1 rfl (fun _ _ h => by cases h) rfl)
  have h9 := Transition.reachable_step h8 (Step.produce _ 1 _ _ _ rfl)
  have h10 := Transition.reachable_step h9 (Step.brokerStores _ 1 _ rfl rfl)
  have h11 := Transition.reachable_step h10 (Step.delivered _ 1 _ List.mem_cons_self rfl rfl)
  have h12 := Transition.reachable_step h11 (Step.published _ 1 _ _ _ _ rfl rfl rfl)
  have h13 := Transition.reachable_step h12 (Step.commitReturns _ 1 _ _ _ rfl)
  -- The third one finds it there.
  have h14 := Transition.reachable_step h13 (Step.begin _ 2 chargeSuccess _ rfl hkey)
  have h15 := Transition.reachable_step h14
    (Step.registerDuplicate _ 2 _ _ 2 _ rfl (fun _ _ h => by cases h) rfl)
  have h16 := Transition.reachable_step h15 (Step.commitReturns _ 2 _ _ _ rfl)
  exact ⟨text, _, _, h16, rfl, rfl, (acknowledged_means_recorded h16).1 _ _ rfl⟩

end Exhibit

end Ingestion

end MmrEngine
