import MmrEngine.Flows.BronzeArchive
import MmrEngine.Lib.Framing

/-!
# One Object per Message

When the archive has exactly one object for a message, with the row of the log
pointing at it, after any calls for any messages.

The name of the object is half the position of the message and half the hour of
the call. The position tells the messages apart (`runId_injective`), so calls
for other messages are of no concern. The hour is what goes wrong: a call in
another hour uploads under another name and replaces nothing, and the row of
the log keeps the name it was inserted with.

So the archive keeps one object exactly if some call has reached the log and
all that have uploaded anything name the same partition, as calls within one
hour do.

## Main definitions

* `Call.uploads`, `Call.logs`: What a call has done, whatever it answers.
* `isObjectOf`: The objects of a message, by their name.
* `Kept`: One object, and the row refers to it.
* `Archived`: The archive after some calls.

## Theorems

* `runId_injective`: Positions with legal topics have different names.
* `archived_call`, `archived_run`: What the archive has after calls.
* `partitionPath_of_same_hour`: Calls within one hour name one partition.
* `one_object_iff`: When a message has one object.
-/

namespace MmrEngine

namespace Bronze

open Transform Datetime Framing

theorem digits_not_mem {c : Char} (h : c.isDigit = false) (n : Nat) :
    c ∉ (toString n).toList := by
  intro hc
  rw [Nat.toString_eq_ofList_toDigits, String.toList_ofList] at hc
  have hdigit := Nat.isDigit_of_mem_toDigits (by omega) (by omega) hc
  rw [h] at hdigit
  cases hdigit

theorem digits_injective {n m : Nat} (h : (toString n).toList = (toString m).toList) : n = m := by
  rw [Nat.toString_eq_ofList_toDigits, Nat.toString_eq_ofList_toDigits, String.toList_ofList,
    String.toList_ofList] at h
  rw [← Nat.ofDigitChars_ten_toDigits (n := n), h, Nat.ofDigitChars_ten_toDigits]

theorem runId_toList (p : Position) :
    (runId p).toList = (p.partition.topic.toList ++ '-' :: 'p' ::
      (toString p.partition.partition).toList ++ ['-']) ++ 'o' :: (toString p.offset).toList := by
  have hp : ("-p" : String).toList = ['-', 'p'] := rfl
  have ho : ("-o" : String).toList = ['-', 'o'] := rfl
  simp only [runId, String.toList_append, hp, ho, List.append_assoc, List.cons_append,
    List.nil_append]

/-- The position can be read off the name of the file. -/
theorem runId_injective {p q : Position} (h : runId p = runId q) : p = q := by
  have hl := congrArg String.toList h
  rw [runId_toList, runId_toList] at hl
  -- The offset is what follows the last separator, since digits contain none.
  rcases tail_of_separator (digits_not_mem rfl _) (digits_not_mem rfl _) hl with ⟨hrest, hoffset⟩
  have hrest' := List.append_cancel_right hrest
  -- And the partition is what follows the last `p` of the rest.
  have hcut : ∀ r : Position, r.partition.topic.toList ++ '-' :: 'p' ::
      (toString r.partition.partition).toList = (r.partition.topic.toList ++ ['-']) ++ 'p' ::
        (toString r.partition.partition).toList := by
    intro r
    simp only [List.append_assoc, List.cons_append, List.nil_append]
  rw [hcut p, hcut q] at hrest'
  rcases tail_of_separator (digits_not_mem rfl _) (digits_not_mem rfl _) hrest' with
    ⟨htopic, hpartition⟩
  have htopic' := String.toList_inj.mp (List.append_cancel_right htopic)
  cases p with
  | mk part offset =>
      cases q with
      | mk part' offset' =>
          cases part
          cases part'
          simp only [Position.mk.injEq, Transform.Partition.mk.injEq]
          exact ⟨⟨htopic', digits_injective hpartition⟩, digits_injective hoffset⟩

/-- The call has written its object. -/
def Call.uploads (c : Call) : Bool :=
  match c.put with
  | .none => true
  | .lost _ => false
  | .answerLost _ => true

/-- The call has got as far as the log, and its insert was committed. -/
def Call.logs (c : Call) : Bool :=
  match c.put, c.log with
  | .none, .none => true
  | .none, .answerLost _ => true
  | _, _ => false

theorem uploads_of_logs {c : Call} (h : c.logs = true) : c.uploads = true := by
  unfold Call.logs at h
  unfold Call.uploads
  cases hput : c.put with
  | none => rfl
  | lost e => simp [hput] at h
  | answerLost e => rfl

/-- The objects of a message are those with its file, in whatever partition. -/
def isObjectOf (position : Position) (o : BronzeObject) : Bool :=
  ('/' :: (fileName (runId position) 1).toList).isSuffixOf o.name.toList

def objectsOf (position : Position) (s : Archive) : List BronzeObject :=
  s.bucket.rows.filter (isObjectOf position)

/-- Exactly one object, and the row of the message refers to it. -/
def Kept (bucketName : String) (position : Position) (s : Archive) : Prop :=
  ∃ o, objectsOf position s = [o] ∧
    ∃ r ∈ s.log.rows, r.position = position ∧ r.filePath = fullPath bucketName o.name

section Runs

variable {bucketName : String} {messages : Position → Message}

/-- The name of the object of a call. -/
def path (messages : Position → Message) (c : Call) : String :=
  objectPath (messages c.position).pspName (.ofInstant c.now) (runId c.position) 1

/-- The call puts the object of its path, if it uploads. -/
theorem call_bucket (c : Call) (s : Archive) :
    ∃ o : BronzeObject, o.name = path messages c ∧
      (call bucketName messages c s).bucket =
        if c.uploads then s.bucket.put o else s.bucket := by
  refine ⟨{ name := path messages c
            table := bronzeTable c.now c.position (messages c.position) }, rfl, ?_⟩
  unfold call writeBronzeParquet writeParquet Call.uploads
  cases c.put with
  | none => cases c.log <;> rfl
  | lost e => rfl
  | answerLost e => rfl

/-- The call inserts or finds the row of its position, if it logs. -/
theorem call_log (c : Call) (s : Archive) :
    ∃ row : LogRow, row.position = c.position ∧
      row.filePath = fullPath bucketName (path messages c) ∧
      (call bucketName messages c s).log =
        if c.logs then (s.log.insertOrFind row).1 else s.log := by
  refine ⟨{ id := s.nextId
            position := c.position
            pspName := (messages c.position).pspName
            sourceType := (messages c.position).sourceType
            contentHash := (messages c.position).contentHash
            filePath := fullPath bucketName (path messages c) }, rfl, rfl, ?_⟩
  unfold call writeBronzeParquet writeParquet Call.logs
  cases c.put with
  | none => cases c.log <;> rfl
  | lost e => cases c.log <;> rfl
  | answerLost e => cases c.log <;> rfl

/-- What the archive has after some calls: the objects they have uploaded, and
    rows of those that have logged. -/
structure Archived (bucketName : String) (messages : Position → Message) (done : List Call)
    (s : Archive) : Prop where
  object : ∀ name, (∃ o ∈ s.bucket.rows, o.name = name) ↔
    ∃ c ∈ done, c.uploads = true ∧ path messages c = name
  row : ∀ r ∈ s.log.rows, ∃ c ∈ done, c.logs = true ∧ c.position = r.position ∧
    r.filePath = fullPath bucketName (path messages c)
  logged : ∀ c ∈ done, c.logs = true → ∃ r ∈ s.log.rows, r.position = c.position

theorem archived_empty : Archived bucketName messages [] .empty where
  object name := by
    constructor
    · intro h
      rcases h with ⟨o, ho, _⟩
      cases ho
    · intro h
      rcases h with ⟨c, hc, _⟩
      cases hc
  row r hr := by cases hr
  logged c hc := by cases hc

/-- One more call. -/
theorem archived_call {done : List Call} {s : Archive} (h : Archived bucketName messages done s)
    (c : Call) :
    Archived bucketName messages (done ++ [c]) (call bucketName messages c s) := by
  rcases @call_bucket bucketName messages c s with ⟨o, ho, hbucket⟩
  rcases @call_log bucketName messages c s with
    ⟨row, hposition, hpath, hlog⟩
  have hmem : ∀ c', c' ∈ done ++ [c] ↔ c' ∈ done ∨ c' = c := by
    intro c'
    rw [List.mem_append, List.mem_singleton]
  constructor
  · intro name
    rw [hbucket]
    constructor
    · rintro ⟨x, hx, rfl⟩
      by_cases hup : c.uploads = true
      · rw [if_pos hup] at hx
        rcases UniqueTable.mem_put.mp hx with rfl | ⟨hold, _⟩
        · exact ⟨c, (hmem c).mpr (Or.inr rfl), hup, ho.symm⟩
        · rcases (h.object x.name).mp ⟨x, hold, rfl⟩ with ⟨c', hc', hfound⟩
          exact ⟨c', (hmem c').mpr (Or.inl hc'), hfound⟩
      · rw [if_neg hup] at hx
        rcases (h.object x.name).mp ⟨x, hx, rfl⟩ with ⟨c', hc', hfound⟩
        exact ⟨c', (hmem c').mpr (Or.inl hc'), hfound⟩
    · rintro ⟨c', hc', hup', rfl⟩
      by_cases hup : c.uploads = true
      · rw [if_pos hup]
        by_cases hname : path messages c' = o.name
        · exact ⟨o, UniqueTable.mem_put.mpr (Or.inl rfl), hname.symm⟩
        · -- An earlier object of another name stays.
          have hdone : c' ∈ done := by
            rcases (hmem c').mp hc' with hdone | rfl
            · exact hdone
            · exact absurd ho.symm hname
          rcases (h.object _).mpr ⟨c', hdone, hup', rfl⟩ with ⟨x, hx, hxname⟩
          refine ⟨x, UniqueTable.mem_put.mpr (Or.inr ⟨hx, ?_⟩), hxname⟩
          rw [hxname]
          exact hname
      · rw [if_neg hup]
        rcases (hmem c').mp hc' with hdone | rfl
        · exact (h.object _).mpr ⟨c', hdone, hup', rfl⟩
        · exact absurd hup' hup
  · intro r hr
    rw [hlog] at hr
    by_cases hlogs : c.logs = true
    · rw [if_pos hlogs] at hr
      rcases UniqueTable.mem_insertOrFind hr with rfl | hold
      · exact ⟨c, (hmem c).mpr (Or.inr rfl), hlogs, hposition.symm, hpath⟩
      · rcases h.row r hold with ⟨c', hc', hfound⟩
        exact ⟨c', (hmem c').mpr (Or.inl hc'), hfound⟩
    · rw [if_neg hlogs] at hr
      rcases h.row r hr with ⟨c', hc', hfound⟩
      exact ⟨c', (hmem c').mpr (Or.inl hc'), hfound⟩
  · intro c' hc' hlogs'
    rw [hlog]
    rcases (hmem c').mp hc' with hdone | rfl
    · rcases h.logged c' hdone hlogs' with ⟨r, hr, hrow⟩
      by_cases hlogs : c.logs = true
      · rw [if_pos hlogs]
        exact ⟨r, UniqueTable.insertOrFind_subset s.log row hr, hrow⟩
      · rw [if_neg hlogs]
        exact ⟨r, hr, hrow⟩
    · rw [if_pos hlogs']
      have hrow := UniqueTable.insertOrFind_row s.log row
      exact ⟨(s.log.insertOrFind row).2, hrow.1, hrow.2.trans hposition⟩

/-- And so on, call by call. -/
theorem archived_run (calls : List Call) : ∀ (done : List Call) (s : Archive),
    Archived bucketName messages done s →
      Archived bucketName messages (done ++ calls) (run bucketName messages calls s) := by
  induction calls with
  | nil =>
      intro done s h
      rw [List.append_nil]
      exact h
  | cons c rest ih =>
      intro done s h
      have hrest := ih (done ++ [c]) _ (archived_call h c)
      rw [List.append_assoc] at hrest
      exact hrest

theorem path_toList (c : Call) :
    (path messages c).toList = ((messages c.position).pspName.toList ++
      ("/event_date=" ++ strftimeDate (.ofInstant c.now) ++ "/hour=" ++
        strftimeHour (.ofInstant c.now)).toList) ++
      '/' :: (fileName (runId c.position) 1).toList := by
  have hslash : ("/" : String).toList = ['/'] := rfl
  simp only [path, objectPath, partitionPath, String.toList_append, hslash, List.append_assoc,
    List.cons_append, List.nil_append]

theorem slash_not_mem_fileName (c : Call) : '/' ∉ (fileName (runId c.position) 1).toList := by
  have hpart : ("-part-" ++ padded 4 ((1 : Nat) : ℤ) ++ ".parquet").toList =
      "-part-0001.parquet".toList := by decide
  intro hc
  rw [fileName, String.toList_append, hpart, List.mem_append, runId_toList] at hc
  rcases hc with hid | htail
  · simp only [List.mem_append, List.mem_cons, List.not_mem_nil, or_false] at hid
    rcases hid with ((htopic | hlit | hlit | hnumber) | hlit) | hlit | hnumber
    · have hlegal := List.all_eq_true.mp c.legal _ htopic
      exact absurd hlegal (by decide)
    · exact absurd hlit (by decide)
    · exact absurd hlit (by decide)
    · exact digits_not_mem rfl _ hnumber
    · exact absurd hlit (by decide)
    · exact absurd hlit (by decide)
    · exact digits_not_mem rfl _ hnumber
  · exact absurd htail (by decide)

theorem runId_of_fileName {p q : Position}
    (h : (fileName (runId p) 1).toList = (fileName (runId q) 1).toList) : p = q := by
  simp only [fileName, String.toList_append] at h
  exact runId_injective (String.toList_inj.mp (List.append_cancel_right h))

/-- Whose object a name is: the files of two messages differ. -/
theorem isObjectOf_path {c d : Call} {o : BronzeObject} (h : o.name = path messages c) :
    isObjectOf d.position o = true ↔ c.position = d.position := by
  rw [isObjectOf, List.isSuffixOf_iff_suffix, h, path_toList]
  constructor
  · intro hsuffix
    rcases hsuffix with ⟨front, hfront⟩
    exact (runId_of_fileName (tail_of_separator (slash_not_mem_fileName d)
      (slash_not_mem_fileName c) hfront).2).symm
  · intro hposition
    rw [hposition]
    exact List.suffix_append _ _

/-- Two calls for a message name one object exactly if they name one
    partition. -/
theorem path_eq_iff {c d : Call} (h : c.position = d.position) :
    path messages c = path messages d ↔
      partitionPath (messages c.position).pspName (.ofInstant c.now) =
        partitionPath (messages d.position).pspName (.ofInstant d.now) := by
  unfold path objectPath
  rw [h]
  constructor
  · intro heq
    have hl := congrArg String.toList heq
    simp only [String.toList_append] at hl
    exact String.toList_inj.mp (List.append_cancel_right hl)
  · intro heq
    rw [heq]

/-- Where a message is kept as one object, no call has named another partition. -/
theorem path_eq_of_kept {calls : List Call} {position : Position}
    (h : Kept bucketName position (run bucketName messages calls .empty)) {c d : Call}
    (hc : c ∈ calls) (hcp : c.position = position) (hcu : c.uploads = true)
    (hd : d ∈ calls) (hdp : d.position = position) (hdu : d.uploads = true) :
    path messages c = path messages d := by
  have harchived := archived_run calls [] .empty
    (@archived_empty bucketName messages)
  rw [List.nil_append] at harchived
  rcases h with ⟨o, hone, _⟩
  have hname : ∀ e ∈ calls, e.position = position → e.uploads = true →
      o.name = path messages e := by
    intro e he hep heu
    rcases (harchived.object (path messages e)).mpr ⟨e, he, heu, rfl⟩ with ⟨x, hx, hxname⟩
    have hof : isObjectOf position x = true := hep ▸ (isObjectOf_path hxname).mpr rfl
    have hmem : x ∈ objectsOf position (run bucketName messages calls .empty) :=
      List.mem_filter.mpr ⟨hx, hof⟩
    rw [hone, List.mem_singleton] at hmem
    rw [← hmem]
    exact hxname
  rw [← hname c hc hcp hcu, ← hname d hd hdp hdu]

/-- Where they all name one partition, and one has logged, it is. -/
theorem kept_of_path_eq {calls : List Call} {position : Position}
    (hlogged : ∃ c ∈ calls, c.position = position ∧ c.logs = true)
    (hpath : ∀ c ∈ calls, ∀ d ∈ calls, c.position = position → d.position = position →
      c.uploads = true → d.uploads = true → path messages c = path messages d) :
    Kept bucketName position (run bucketName messages calls .empty) := by
  have harchived := archived_run calls [] .empty
    (@archived_empty bucketName messages)
  rw [List.nil_append] at harchived
  rcases hlogged with ⟨c, hc, rfl, hclogs⟩
  rcases harchived.logged c hc hclogs with ⟨r, hr, hrp⟩
  rcases harchived.row r hr with ⟨d, hd, hdlogs, hdp, hfile⟩
  have hdc : d.position = c.position := hdp.trans hrp
  rcases (harchived.object (path messages d)).mpr ⟨d, hd, uploads_of_logs hdlogs, rfl⟩ with
    ⟨o, ho, hname⟩
  have hof : isObjectOf c.position o = true := (isObjectOf_path hname).mpr hdc
  -- Any other object of the message is of the same name, so it is this one.
  have hsame : ∀ x ∈ run bucketName messages calls .empty |>.bucket.rows,
      isObjectOf c.position x = true ↔ x.name = o.name := by
    intro x hx
    rcases (harchived.object x.name).mp ⟨x, hx, rfl⟩ with ⟨e, he, heu, hename⟩
    constructor
    · intro hxof
      have hep := (isObjectOf_path hename.symm).mp hxof
      rw [← hename, hname]
      exact hpath e he d hd hep hdc heu (uploads_of_logs hdlogs)
    · intro hxname
      exact (isObjectOf_path (hxname.trans hname)).mpr hdc
  have hfilter : objectsOf c.position (run bucketName messages calls .empty) =
      (run bucketName messages calls .empty).bucket.rows.filter fun x => x.name = o.name := by
    refine List.filter_congr fun x hx => ?_
    rw [Bool.eq_iff_iff, decide_eq_true_iff]
    exact hsame x hx
  have hcount := UniqueTable.count_of_mem _ ho
  rw [← hfilter] at hcount
  rcases List.length_eq_one_iff.mp hcount with ⟨x, hx⟩
  have hox : o ∈ objectsOf c.position (run bucketName messages calls .empty) :=
    List.mem_filter.mpr ⟨ho, hof⟩
  rw [hx, List.mem_singleton] at hox
  refine ⟨o, ?_, r, hr, hrp, ?_⟩
  · rw [hx, hox]
  · rw [hfile, hname]

end Runs

/-- Calls within one hour name one partition. -/
theorem partitionPath_of_same_hour {pspName : String} {now now' : ℤ}
    (h : now / hours 1 = now' / hours 1) :
    partitionPath pspName (.ofInstant now) = partitionPath pspName (.ofInstant now') := by
  unfold hours at h
  have hdate : (ofInstant now).date = (ofInstant now').date := by
    simp only [Datetime.date, ofInstant, dayMicros, hours]
    omega
  have hhour : (ofInstant now).time / 1000000 / 3600 = (ofInstant now').time / 1000000 / 3600 := by
    simp only [Datetime.time, ofInstant, dayMicros, hours]
    omega
  unfold partitionPath strftimeDate strftimeHour
  rw [hdate, hhour]

/-- A message has exactly one object, and its row refers to it, exactly if some
    call for it has reached the log, and all calls for it that have uploaded
    anything name the same partition. -/
theorem one_object_iff (bucketName : String) (messages : Position → Message) (calls : List Call)
    (position : Position) :
    Kept bucketName position (run bucketName messages calls .empty) ↔
      (∃ c ∈ calls, c.position = position ∧ c.logs = true) ∧
        ∀ c ∈ calls, ∀ d ∈ calls, c.position = position → d.position = position →
          c.uploads = true → d.uploads = true →
            partitionPath (messages position).pspName (.ofInstant c.now) =
              partitionPath (messages position).pspName (.ofInstant d.now) := by
  constructor
  · intro h
    constructor
    · -- The row that refers to the object was written by a call that reached the log.
      have harchived := archived_run calls [] .empty
        (@archived_empty bucketName messages)
      rcases h with ⟨_, _, r, hr, hrp, _⟩
      rcases harchived.row r hr with ⟨c, hc, hlogs, hcp, _⟩
      exact ⟨c, hc, hcp.trans hrp, hlogs⟩
    · intro c hc d hd hcp hdp hcu hdu
      -- Two uploads to different partitions would be two objects.
      have hpath := path_eq_of_kept h hc hcp hcu hd hdp hdu
      have hpartition := (path_eq_iff (hcp.trans hdp.symm)).mp hpath
      rw [hcp, hdp] at hpartition
      exact hpartition
  · rintro ⟨hlogged, hpartition⟩
    refine kept_of_path_eq hlogged fun c hc d hd hcp hdp hcu hdu => ?_
    refine (path_eq_iff (hcp.trans hdp.symm)).mpr ?_
    rw [hcp, hdp]
    exact hpartition c hc d hd hcp hdp hcu hdu

/-- A payment at offset 7 of its topic. -/
def paymentPosition : Position :=
  { partition := { topic := "raw.paystack.events", partition := 0 }, offset := 7 }

def paymentMessage : Message where
  pspName := "paystack"
  contentHash := .str "5f2b"
  eventType := .str "charge.success"
  payload := .obj []
  sourceType := .str "webhook"

/-- A call for the payment, some seconds after 2026-01-05T00:00:00Z. -/
def paymentCall (second : ℤ) : Call where
  position := paymentPosition
  legal := by decide
  now := seconds (1767571200 + second)
  put := .none
  log := .none

/-- The payment is delivered at 10:59 and replayed at 11:01, both times without a
    fault. The replay leaves a second object. -/
theorem replayed_next_hour :
    (∀ c ∈ [paymentCall 39540, paymentCall 39660],
      c.position = paymentPosition ∧ c.logs = true) ∧
    ¬ Kept "bronze" paymentPosition (run "bronze" (fun _ => paymentMessage)
      [paymentCall 39540, paymentCall 39660] .empty) := by
  constructor
  · intro c hc
    simp only [List.mem_cons, List.not_mem_nil, or_false] at hc
    rcases hc with rfl | rfl <;> exact ⟨rfl, rfl⟩
  · intro h
    have hpath := path_eq_of_kept h List.mem_cons_self rfl rfl
      (List.mem_cons_of_mem _ List.mem_cons_self) rfl rfl
    exact absurd hpath (by decide)

end Bronze

end MmrEngine
