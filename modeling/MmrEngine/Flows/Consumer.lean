import MmrEngine.Flows.Transform
import MmrEngine.Lib.Transition
import Mathlib.Logic.Function.Basic

/-!
# The Consumer Worker

The loop of the worker that takes messages from Kafka into Bronze and Silver,
with everything that can go wrong around it.

One message at a time: poll it, process it, park it in the dead-letter topic if
that cannot succeed, and commit the offset after it, or seek back to it and try
again. Messages of different partitions come in any order; within a partition
the broker delivers by offset, from the committed offset when the worker starts
and from the sought one after a rewind.

Any attempt may fail in any way (`Faults`). A dead-letter publish that fails
may still have stored its message. A commit that raises may have taken effect
or not; either way the exception ends the worker, as does a seek that fails, and
the worker may die at any other moment. It is then started again and knows
nothing but the committed offsets.

## Main definitions

* `Record`: A message in a partition, decoded.
* `Stage`, `Worker`: What the worker is doing.
* `handle`: What `_handle` makes of one message.
* `System`: Log, offsets, stores and worker.
* `Initial`, `Step`: An empty system, and one step of it.
-/

namespace MmrEngine

namespace Consumer

open Transform

/-- A message: its bytes, and the JSON object they decode to, if they do. -/
structure Record where
  rawValue : String
  value : Option Dict

/-- A message of the dead-letter topic. -/
structure DeadLetter where
  originalPosition : Position
  rawValue : String

def maxTransientAttempts : Nat := 5

/-- `kafka_message`: the decoded value with its position, and a source type if
    it brings none. The entries in front hide those of the same name. -/
def kafkaMessage (position : Position) (value : Dict) : Dict :=
  [("kafka_topic", .str position.partition.topic),
    ("kafka_partition", .int position.partition.partition),
    ("kafka_offset", .int position.offset)] ++ value ++ [("source_type", .str "webhook")]

/-- Where the worker is in its loop, and with which message. -/
inductive Stage where
  | polling
  | handling (position : Position)
  | deadLettering (position : Position)
  | committing (position : Position)
  | rewinding (position : Position)
  deriving DecidableEq

/-- A running worker: the next offset of each partition, `_attempts`, and where
    it is. -/
structure Worker where
  next : Partition → Nat
  attempts : Position → Nat
  stage : Stage

/-- `_handle` up to the dead-letter publish: what is written, the attempts
    counted, and what comes next. -/
def handle [PyText] (faults : Faults) (position : Position) (record : Record)
    (attempts : Position → Nat) (s : Stores) : Stores × (Position → Nat) × Stage :=
  match record.value with
  -- What is no JSON object is not retried.
  | none => (s, attempts, .deadLettering position)
  | some value =>
    match processKafkaMessage faults position (kafkaMessage position value) s with
    | (s, .ok _) => (s, attempts, .committing position)
    | (s, .error .permanent) => (s, attempts, .deadLettering position)
    | (s, .error .transient) =>
      let attempt := attempts position + 1
      (s, Function.update attempts position attempt,
        -- The message is read again, and after the last attempt given up.
        if attempt < maxTransientAttempts then .rewinding position
        else .deadLettering position)

/-- The topics with their committed offsets, the stores, the dead letters the
    broker has acknowledged, and the worker, if it is up. -/
structure System where
  log : Partition → List Record
  committed : Partition → Nat
  stores : Stores
  deadLetters : List DeadLetter
  worker : Option Worker

/-- The worker goes on. -/
def System.run (s : System) (w : Worker) : System := { s with worker := some w }

/-- Nothing logged, nothing written, and no worker. -/
def Initial (s : System) : Prop :=
  (∀ p, s.log p = []) ∧ (∀ p, s.committed p = 0) ∧
    s.stores.bronze = UniqueTable.empty _ ∧ s.stores.silver = UniqueTable.empty _ ∧
    s.deadLetters = [] ∧ s.worker = none

/-- One step of the worker or of the world around it. -/
inductive Step [PyText] : System → System → Prop
  | append (s : System) (p : Partition) (record : Record) :
      Step s { s with log := Function.update s.log p (s.log p ++ [record]) }
  | start (s : System) (hdown : s.worker = none) :
      Step s (s.run { next := s.committed, attempts := fun _ => 0, stage := .polling })
  | poll (s : System) (w : Worker) (p : Partition) (hw : s.worker = some w)
      (hstage : w.stage = .polling) (havailable : w.next p < (s.log p).length) :
      Step s (s.run { w with
        next := Function.update w.next p (w.next p + 1)
        stage := .handling { partition := p, offset := w.next p } })
  | handled (s : System) (w : Worker) (position : Position) (record : Record) (faults : Faults)
      (stores : Stores) (attempts : Position → Nat) (stage : Stage) (hw : s.worker = some w)
      (hstage : w.stage = .handling position)
      (hrecord : (s.log position.partition)[position.offset]? = some record)
      (hresult : handle faults position record w.attempts s.stores = (stores, attempts, stage)) :
      Step s { s.run { w with attempts := attempts, stage := stage } with stores := stores }
  | deadLettered (s : System) (w : Worker) (position : Position) (record : Record)
      (hw : s.worker = some w) (hstage : w.stage = .deadLettering position)
      (hrecord : (s.log position.partition)[position.offset]? = some record) :
      Step s { s.run { w with stage := .committing position } with
        deadLetters := s.deadLetters ++
          [{ originalPosition := position, rawValue := record.rawValue }] }
  | deadLetterFailed (s : System) (w : Worker) (position : Position) (hw : s.worker = some w)
      (hstage : w.stage = .deadLettering position) :
      Step s (s.run { w with stage := .rewinding position })
  | commit (s : System) (w : Worker) (position : Position) (hw : s.worker = some w)
      (hstage : w.stage = .committing position) :
      Step s { s.run { w with
          attempts := Function.update w.attempts position 0
          stage := .polling } with
        committed := Function.update s.committed position.partition (position.offset + 1) }
  | commitAnswerLost (s : System) (w : Worker) (position : Position) (hw : s.worker = some w)
      (hstage : w.stage = .committing position) :
      Step s { s with
        committed := Function.update s.committed position.partition (position.offset + 1)
        worker := none }
  | rewind (s : System) (w : Worker) (position : Position) (hw : s.worker = some w)
      (hstage : w.stage = .rewinding position) :
      Step s (s.run { w with
        next := Function.update w.next position.partition position.offset
        stage := .polling })
  /- A crash, a commit without effect, a failed seek, or a shutdown. -/
  | stop (s : System) (w : Worker) (hw : s.worker = some w) : Step s { s with worker := none }

end Consumer

end MmrEngine
