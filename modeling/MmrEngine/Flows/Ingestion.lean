import MmrEngine.Engine.Idempotency
import MmrEngine.Lib.RowStore
import MmrEngine.Lib.Transition

/-!
# Webhook Ingestion

`ingest_event`, statement by statement: any number of calls, in any number of
processes, between one database and one broker.

A call computes its key, registers it in a transaction, and for a new key hands
the message to the producer of its process, waits in `flush`, and only then
commits. A retry of the PSP is another call with the same arguments.

The producer is shared by the calls of a process. Handing it a message puts the
message on its queue; some time later the broker may store it; some time after
that its delivery callback may run, once, which takes it off the queue. `flush`
returns when it likes and says how many messages are still on the queue, those
of other calls included. The broker may store a message after `flush` has given
up on it, and after the process has died. A callback that reports success is
the broker's acknowledgement, as it is for the configured default `acks=all`.

A commit has three outcomes: it is applied and the call hears of it, it is
applied and the answer is lost, or it is not applied. A lost connection rolls
the transaction back at once, while the call goes on until it notices. A
process may die between any two steps, and its queue with it. Its transactions
stay open until the server notices (`orphaned`); one whose commit was already
under way may still be applied.

## Main definitions

* `KafkaMessage`, `kafkaMessage`: The message of an event.
* `register`: What registering a key does to its row.
* `publishResult`: How `publish` ends, given what `flush` says.
* `Call`: Where a call of `ingest_event` is.
* `World`: Database, broker, producers and calls.
* `Initial`, `Step`: An empty world, and one step of it.
-/

namespace MmrEngine

namespace Ingestion

open Idempotency

/-- The arguments of `ingest_event`. -/
structure IngestArgs where
  pspName : String
  eventType : String
  rawPayload : Dict
  contentHash : String
  receivedAt : String

/-- The topics of the settings. -/
structure Topics where
  paystack : String
  flutterwave : String
  polling : String

/-- `topic_map.get(psp_name, settings.kafka_topic_polling)`. -/
def Topics.get (topics : Topics) (pspName : String) : String :=
  if pspName = "paystack" then topics.paystack
  else if pspName = "flutterwave" then topics.flutterwave
  else topics.polling

/-- The value of a Kafka record. -/
structure KafkaMessage where
  pspName : String
  eventType : String
  payload : Dict
  contentHash : String
  receivedAt : String
  idempotencyKey : String

def kafkaMessage (e : IngestArgs) (key : String) : KafkaMessage where
  pspName := e.pspName
  eventType := e.eventType
  payload := e.rawPayload
  contentHash := e.contentHash
  receivedAt := e.receivedAt
  idempotencyKey := key

/-- A row of `silver_idempotency_keys`. -/
structure KeyRow where
  firstSeenAt : ℤ
  occurrenceCount : Nat
  lastSeenAt : ℤ

/-- `INSERT ... ON CONFLICT (key) DO UPDATE`. -/
def register (now : ℤ) : Option KeyRow → Option KeyRow
  | none => some { firstSeenAt := now, occurrenceCount := 1, lastSeenAt := now }
  | some r => some { r with occurrenceCount := r.occurrenceCount + 1, lastSeenAt := now }

/-- What `ingest_event` returns. -/
structure Reply where
  isNew : Bool
  idempotencyKey : String
  kafkaTopic : Option String

/-- What a running call does next: register its key, produce its message, wait
    for the acknowledgement, or commit and return. -/
inductive Phase where
  | registering
  | publishing
  | flushing
  | committing (reply : Reply)

/-- Where a call is. A running one may have lost its connection to the database
    without knowing; one that is `gone` has died, and its transaction has
    ended. -/
inductive Call where
  | idle
  | running (e : IngestArgs) (key : String) (phase : Phase) (connected : Bool)
  | orphaned (key : String) (phase : Phase)
  | returned (e : IngestArgs) (reply : Reply)
  | raised
  | gone

/-- A message handed to the producer, whether the broker has stored it, and the
    `outcome` its delivery callback has filled in. -/
structure Delivery where
  topic : String
  message : KafkaMessage
  stored : Bool
  outcome : Option (Option String)

/-- How `publish` ends after `flush` has returned `remaining`. -/
def publishResult (topic : String) (remaining : Nat) (outcome : Option (Option String)) :
    Except String Unit :=
  -- `flush` counts the messages of all calls of the process, not just this one.
  if 0 < remaining ∨ outcome = none then
    .error ("delivery to " ++ topic ++ " not acknowledged in time")
  else
    match outcome with
    | some (some err) => .error ("delivery to " ++ topic ++ " failed: " ++ err)
    | _ => .ok ()

/-- A transaction that has been committed: the call it belongs to, its key, and
    whether it inserted it. -/
structure Registration where
  call : Nat
  key : String
  isNew : Bool

/-- Database, broker, producers and calls. A call hands over one message at
    most, so messages go by the number of their call. -/
structure World where
  keys : RowStore.Store String Nat (Option KeyRow)
  calls : Nat → Call
  outbox : Nat → Option Delivery
  /-- The queue of the producer of each process. -/
  queue : Nat → List Nat
  /-- The records of the topics. -/
  log : List (String × KafkaMessage)
  /-- The commits of the database, in order. -/
  commits : List Registration

/-- Call `c` goes on. -/
def World.goto (w : World) (c : Nat) (call : Call) : World :=
  { w with calls := Function.update w.calls c call }

/-- The transaction of call `c` is committed. -/
def World.commitTx (w : World) (c : Nat) (reply : Reply) : World :=
  { w with
    keys := RowStore.commit c w.keys
    commits := w.commits ++ [{ call := c, key := reply.idempotencyKey, isNew := reply.isNew }] }

/-- The transaction of call `c` is rolled back. -/
def World.rollbackTx (w : World) (c : Nat) : World :=
  { w with keys := RowStore.rollback c w.keys }

/-- The producer of process `p` is done with the message of call `c`. -/
def World.report (w : World) (p c : Nat) (d : Delivery) (outcome : Option String) : World :=
  { w with
    outbox := Function.update w.outbox c (some { d with outcome := some outcome })
    queue := Function.update w.queue p ((w.queue p).erase c) }

/-- What is left of a call when its process dies. -/
def Call.orphan : Call → Call
  | .running _ key phase true => .orphaned key phase
  | .running _ _ _ false => .gone
  | call => call

/-- An empty database and an empty broker, and no call begun. -/
def Initial (w : World) : Prop :=
  w.keys = RowStore.blank none ∧ (∀ c, w.calls c = .idle) ∧ (∀ c, w.outbox c = none) ∧
    (∀ p, w.queue p = []) ∧ w.log = [] ∧ w.commits = []

section Machine

variable [PyText] (process : Nat → Nat) (topics : Topics)

/-- One step of a call, of the broker, of a producer or of the database; call
    `c` runs in process `process c`. -/
inductive Step : World → World → Prop
  /- The call. -/
  | begin (w : World) (c : Nat) (e : IngestArgs) (key : String) (hidle : w.calls c = .idle)
      (hkey : ingestKey e.pspName e.eventType e.rawPayload e.contentHash = .ok key) :
      Step w (w.goto c (.running e key .registering true))
  | keyRaises (w : World) (c : Nat) (e : IngestArgs) (err : PyError) (hidle : w.calls c = .idle)
      (hkey : ingestKey e.pspName e.eventType e.rawPayload e.contentHash = .error err) :
      Step w (w.goto c .raised)
  | registerNew (w : World) (c : Nat) (e : IngestArgs) (key : String) (now : ℤ)
      (hc : w.calls c = .running e key .registering true)
      (hfree : RowStore.Free c (w.keys key))
      (hnew : RowStore.visible c (w.keys key) = none) :
      Step w { w.goto c (.running e key .publishing true) with
        keys := RowStore.write c key (register now) w.keys }
  | registerDuplicate (w : World) (c : Nat) (e : IngestArgs) (key : String) (now : ℤ) (r : KeyRow)
      (hc : w.calls c = .running e key .registering true)
      (hfree : RowStore.Free c (w.keys key))
      (hseen : RowStore.visible c (w.keys key) = some r) :
      Step w { w.goto c (.running e key (.committing
          { isNew := false, idempotencyKey := key, kafkaTopic := none }) true) with
        keys := RowStore.write c key (register now) w.keys }
  | produce (w : World) (c : Nat) (e : IngestArgs) (key : String) (connected : Bool)
      (hc : w.calls c = .running e key .publishing connected) :
      Step w { w.goto c (.running e key .flushing connected) with
        outbox := Function.update w.outbox c (some
          { topic := topics.get e.pspName
            message := kafkaMessage e key
            stored := false
            outcome := none })
        queue := Function.update w.queue (process c) (w.queue (process c) ++ [c]) }
  | published (w : World) (c : Nat) (e : IngestArgs) (key : String) (connected : Bool)
      (d : Delivery) (hc : w.calls c = .running e key .flushing connected)
      (hd : w.outbox c = some d)
      (hresult : publishResult d.topic (w.queue (process c)).length d.outcome = .ok ()) :
      Step w (w.goto c (.running e key (.committing
        { isNew := true, idempotencyKey := key, kafkaTopic := some d.topic }) connected))
  | publishRaises (w : World) (c : Nat) (e : IngestArgs) (key err : String) (connected : Bool)
      (d : Delivery) (hc : w.calls c = .running e key .flushing connected)
      (hd : w.outbox c = some d)
      (hresult : publishResult d.topic (w.queue (process c)).length d.outcome = .error err) :
      Step w ((w.rollbackTx c).goto c .raised)
  /- Its statements may fail, and its connection may be lost. -/
  | raises (w : World) (c : Nat) (e : IngestArgs) (key : String) (phase : Phase)
      (connected : Bool) (hc : w.calls c = .running e key phase connected)
      (hphase : phase ≠ .flushing) : Step w ((w.rollbackTx c).goto c .raised)
  | disconnect (w : World) (c : Nat) (e : IngestArgs) (key : String) (phase : Phase)
      (hc : w.calls c = .running e key phase true) :
      Step w ((w.rollbackTx c).goto c (.running e key phase false))
  | commitReturns (w : World) (c : Nat) (e : IngestArgs) (key : String) (reply : Reply)
      (hc : w.calls c = .running e key (.committing reply) true) :
      Step w ((w.commitTx c reply).goto c (.returned e reply))
  | commitAnswerLost (w : World) (c : Nat) (e : IngestArgs) (key : String) (reply : Reply)
      (hc : w.calls c = .running e key (.committing reply) true) :
      Step w ((w.commitTx c reply).goto c .raised)
  /- The broker and the producers. -/
  | brokerStores (w : World) (c : Nat) (d : Delivery) (hd : w.outbox c = some d)
      (hnew : d.stored = false) :
      Step w { w with
        outbox := Function.update w.outbox c (some { d with stored := true })
        log := w.log ++ [(d.topic, d.message)] }
  | delivered (w : World) (c : Nat) (d : Delivery) (hqueued : c ∈ w.queue (process c))
      (hd : w.outbox c = some d) (hstored : d.stored = true) :
      Step w (w.report (process c) c d none)
  | notDelivered (w : World) (c : Nat) (d : Delivery) (err : String)
      (hqueued : c ∈ w.queue (process c)) (hd : w.outbox c = some d) :
      Step w (w.report (process c) c d (some err))
  /- Crashes, and what becomes of the transactions they leave behind. -/
  | crash (w : World) (p : Nat) :
      Step w { w with
        calls := fun c => if process c = p then (w.calls c).orphan else w.calls c
        queue := Function.update w.queue p [] }
  | orphanRollsBack (w : World) (c : Nat) (key : String) (phase : Phase)
      (hc : w.calls c = .orphaned key phase) : Step w ((w.rollbackTx c).goto c .gone)
  | orphanCommits (w : World) (c : Nat) (key : String) (reply : Reply)
      (hc : w.calls c = .orphaned key (.committing reply)) :
      Step w ((w.commitTx c reply).goto c .gone)

end Machine

end Ingestion

end MmrEngine
