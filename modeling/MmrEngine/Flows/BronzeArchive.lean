import MmrEngine.Core.Datetime
import MmrEngine.Flows.Transform

/-!
# The Bronze Archive

`write_bronze_parquet` with what it leaves behind: an object in the bucket, and
a row of the Bronze log that says where the object is.

The object comes first. Its name is a partition, which is the PSP with the date
and the hour of the call, and a file, which is the position of the message in
Kafka; an upload under a name that exists replaces the object. The log comes
second and is keyed by the position, so that a redelivery finds the row of the
first call that has reached it. Either write may fail before it has taken
effect, or after.

`Flows.Transform` has the same function without the objects and their names.
`writeBronzeParquet_forget` is what makes the two one.

## Main definitions

* `Message`: What `process_kafka_message` hands over.
* `BronzeObject`, `LogRow`, `Archive`: The bucket and the log.
* `objectPath`, `writeParquet`: `MinIOClient.write_parquet`.
* `writeBronzeParquet`: The object, then the row.
* `Call`, `run`: Calls one after another, at their times and with their faults.

## Theorems

* `writeBronzeParquet_forget`: Without the objects this is the first write of
  the transform.
-/

namespace MmrEngine

namespace Bronze

open Transform Datetime

/-- The characters Kafka allows in the name of a topic. -/
def legalTopicChar (c : Char) : Bool := c.isAlphanum || c = '.' || c = '_' || c = '-'

/-- A message whose required fields are there. -/
structure Message where
  pspName : String
  contentHash : Json
  eventType : Json
  payload : Json
  sourceType : Json

/-- The row of an uploaded table. -/
structure BronzeTable where
  receivedAt : ℤ
  sourceType : Json
  contentHash : Json
  kafkaOffset : Nat
  event : Json
  data : Json

structure BronzeObject where
  name : String
  table : BronzeTable

/-- A row of `bronze_ingestion_log`. -/
structure LogRow extends BronzeRow where
  filePath : String

/-- The bucket, where a name is one object, and the log, unique by position. -/
structure Archive where
  bucket : UniqueTable BronzeObject.name
  log : UniqueTable fun r : LogRow => r.position
  nextId : Nat

def Archive.empty : Archive where
  bucket := .empty _
  log := .empty _
  nextId := 0

/-- `{psp}/event_date=YYYY-MM-DD/hour=HH/`. -/
def partitionPath (pspName : String) (eventDate : Datetime) : String :=
  pspName ++ "/event_date=" ++ strftimeDate eventDate ++ "/hour=" ++ strftimeHour eventDate ++ "/"

/-- `{run_id}-part-{part_number:04d}.parquet`. -/
def fileName (runId : String) (partNumber : Nat) : String :=
  runId ++ ("-part-" ++ padded 4 partNumber ++ ".parquet")

def objectPath (pspName : String) (eventDate : Datetime) (runId : String) (partNumber : Nat) :
    String :=
  partitionPath pspName eventDate ++ fileName runId partNumber

/-- `s3://{bucket}/{key}`. -/
def fullPath (bucketName objectPath : String) : String :=
  "s3://" ++ bucketName ++ "/" ++ objectPath

/-- `MinIOClient.write_parquet`: an upload replaces the object of its name. -/
def writeParquet (bucketName : String) (fault : Fault) (table : BronzeTable) (pspName : String)
    (eventDate : Datetime) (runId : String) (partNumber : Nat)
    (bucket : UniqueTable BronzeObject.name) :
    UniqueTable BronzeObject.name × Except ProcessError String :=
  let path := objectPath pspName eventDate runId partNumber
  let uploaded := bucket.put { name := path, table := table }
  match fault with
  | .none => (uploaded, .ok (fullPath bucketName path))
  | .lost e => (bucket, .error e)
  | .answerLost e => (uploaded, .error e)

/-- `f"{topic}-p{partition}-o{offset}"`. -/
def runId (position : Position) : String :=
  position.partition.topic ++ "-p" ++ toString position.partition.partition ++ "-o" ++
    toString position.offset

/-- The table of one row that is uploaded. -/
def bronzeTable (now : ℤ) (position : Position) (m : Message) : BronzeTable where
  receivedAt := now
  sourceType := m.sourceType
  contentHash := m.contentHash
  kafkaOffset := position.offset
  event := m.eventType
  data := m.payload

/-- The object under the hour of `now`, and the row of the log if the position
    has none yet. -/
def writeBronzeParquet (bucketName : String) (put log : Fault) (now : ℤ) (position : Position)
    (m : Message) (s : Archive) : Archive × Except ProcessError (String × Nat) :=
  match writeParquet bucketName put (bronzeTable now position m) m.pspName (.ofInstant now)
    (runId position) 1 s.bucket with
  | (bucket, .error e) => ({ s with bucket := bucket }, .error e)
  | (bucket, .ok filePath) =>
    let (rows, row) := s.log.insertOrFind
      { id := s.nextId
        position := position
        pspName := m.pspName
        sourceType := m.sourceType
        contentHash := m.contentHash
        filePath := filePath }
    let logged : Archive := { bucket := bucket, log := rows, nextId := s.nextId + 1 }
    match log with
    | .none => (logged, .ok (row.filePath, row.id))
    | .lost e => ({ s with bucket := bucket }, .error e)
    | .answerLost e => (logged, .error e)

/-- A call for a message: its time, and what goes wrong in it. Kafka has no
    topic of another name. -/
structure Call where
  position : Position
  legal : position.partition.topic.toList.all legalTopicChar = true
  now : ℤ
  put : Fault
  log : Fault

section Calls

-- What Kafka holds at a position never changes.
variable (bucketName : String) (messages : Position → Message)

def call (c : Call) (s : Archive) : Archive :=
  (writeBronzeParquet bucketName c.put c.log c.now c.position (messages c.position) s).1

def run : List Call → Archive → Archive
  | [], s => s
  | c :: rest, s => run rest (call bucketName messages c s)

end Calls

section Forget

/-- What the transform has of the archive. -/
def Archive.rows (s : Archive) : UniqueTable BronzeRow.position :=
  s.log.mapRows LogRow.toBronzeRow fun _ => rfl

/-- The fault of a call, as the transform has it: an object that cannot be
    written leaves no row. -/
def bronzeFault (put log : Fault) : Fault :=
  match put with
  | .none => log
  | .lost e => .lost e
  | .answerLost e => .lost e

variable {bucketName : String} {put log : Fault} {now : ℤ} {position : Position}
  {contentHash eventType payload : Json} {pspName : String} {kafkaMessage : Dict}

/-- Without the objects and their names, this is the write of the transform. -/
theorem writeBronzeParquet_forget {s : Archive} {t : Stores} (hlog : t.bronze = s.rows)
    (hid : t.nextId = s.nextId) :
    let after := writeBronzeParquet bucketName put log now position
      { pspName := pspName, contentHash := contentHash, eventType := eventType,
        payload := payload, sourceType := kafkaMessage.get "source_type" (.str "webhook") } s
    let after' := Transform.writeBronzeParquet (bronzeFault put log) position pspName
      contentHash kafkaMessage t
    after'.1.bronze = after.1.rows ∧ after'.1.nextId = after.1.nextId ∧
      after'.2 = after.2.map Prod.snd := by
  intro after after'
  cases put with
  | lost e => exact ⟨hlog, hid, rfl⟩
  | answerLost e => exact ⟨hlog, hid, rfl⟩
  | none =>
      -- The log decides, and the row it inserts or finds is the one the transform sees.
      have hinsert := UniqueTable.insertOrFind_mapRows LogRow.toBronzeRow (fun _ => rfl) s.log
        { id := s.nextId
          position := position
          pspName := pspName
          sourceType := kafkaMessage.get "source_type" (.str "webhook")
          contentHash := contentHash
          filePath := fullPath bucketName
            (objectPath pspName (.ofInstant now) (runId position) 1) }
      have hrows := congrArg Prod.fst hinsert
      have hrow := congrArg Prod.snd hinsert
      cases log with
      | none =>
          simp only [after, after', bronzeFault, Transform.writeBronzeParquet, transact, hlog, hid]
          exact ⟨hrows, rfl, congrArg (fun r => Except.ok (BronzeRow.id r)) hrow⟩
      | lost e => exact ⟨hlog, hid, rfl⟩
      | answerLost e =>
          simp only [after, after', bronzeFault, Transform.writeBronzeParquet, transact, hlog, hid]
          exact ⟨hrows, rfl, rfl⟩

end Forget

end Bronze

end MmrEngine
