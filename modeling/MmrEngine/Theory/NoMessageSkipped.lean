import MmrEngine.Flows.Consumer

/-!
# No Message Is Skipped

Every message below the committed offset of its partition has been processed to
completion or has been acknowledged by the dead-letter topic.

The offset that is committed is that of the message just handled, so it is
enough that the messages before it have been handled too. The worker's own
positions say so: below the next offset of a partition everything has been
handled, except the message it is just dealing with (`ConsumerInv.passed`). A
rewind gives up that exception by moving the position back to it, and a restart
falls back to the committed offsets, which are safe already.

Handled once is handled for good: rows are never deleted, and a redelivery
finds the ones that are there.

## Main definitions

* `Handled`: A message is complete or dead-lettered.
* `ConsumerInv`: The invariant.

## Theorems

* `handled_mono`: Whatever is handled stays so.
* `consumerInv_step`: A step keeps the invariant.
* `consumer_never_skips`: What it says about committed offsets.
-/

namespace MmrEngine

namespace Consumer

open Transform

/-- The message the worker is dealing with. -/
def Stage.current : Stage → Option Position
  | .polling => none
  | .handling position => some position
  | .deadLettering position => some position
  | .committing position => some position
  | .rewinding position => some position

section Invariant

variable [PyText] {s s' : System}

/-- The message at `position` is in the log and has been processed to
    completion, or the dead-letter topic has acknowledged it. -/
def Handled (s : System) (position : Position) : Prop :=
  ∃ record, (s.log position.partition)[position.offset]? = some record ∧
    ((∃ value, record.value = some value ∧
        Complete s.stores position (kafkaMessage position value)) ∨
      ∃ d ∈ s.deadLetters, d.originalPosition = position ∧ d.rawValue = record.rawValue)

/-- Committed offsets are safe, and so is what the worker has passed. -/
structure ConsumerInv (s : System) : Prop where
  committed : ∀ p n, n < s.committed p → Handled s { partition := p, offset := n }
  passed : ∀ w, s.worker = some w → ∀ p n, n < w.next p →
    Handled s { partition := p, offset := n } ∨
      w.stage.current = some { partition := p, offset := n }
  current : ∀ w position, s.worker = some w → w.stage.current = some position →
    w.next position.partition = position.offset + 1
  settled : ∀ w position, s.worker = some w → w.stage = .committing position → Handled s position

/-- Logs grow at their ends, and nothing that was written goes away. -/
structure Extends (s s' : System) : Prop where
  log : ∀ p, s.log p <+: s'.log p
  stores : Grows s.stores s'.stores
  deadLetters : ∀ d ∈ s.deadLetters, d ∈ s'.deadLetters

/-- Whatever is handled stays so. -/
theorem handled_mono (h : Extends s s') {position : Position} (hh : Handled s position) :
    Handled s' position := by
  rcases hh with ⟨record, hrecord, hdone⟩
  refine ⟨record, ?_, ?_⟩
  · rcases h.log position.partition with ⟨rest, hrest⟩
    have hlt := (List.getElem?_eq_some_iff.mp hrecord).1
    rw [← hrest, List.getElem?_append_left hlt]
    exact hrecord
  · rcases hdone with ⟨value, hvalue, hcomplete⟩ | ⟨d, hd, hposition, hraw⟩
    · exact Or.inl ⟨value, hvalue, complete_grows h.stores hcomplete⟩
    · exact Or.inr ⟨d, h.deadLetters d hd, hposition, hraw⟩

/-- What `_handle` does: it only adds rows, it goes on with the same message,
    and it lets the offset be committed only when that is complete. -/
theorem handle_spec {faults : Faults} {position : Position} {record : Record}
    {attempts attempts' : Position → Nat} {stores stores' : Stores} {stage : Stage}
    (h : handle faults position record attempts stores = (stores', attempts', stage)) :
    Grows stores stores' ∧ stage.current = some position ∧
      ∀ position', stage = .committing position' → ∃ value, record.value = some value ∧
        Complete stores' position (kafkaMessage position value) := by
  unfold handle at h
  cases hvalue : record.value with
  | none =>
      rw [hvalue] at h
      rcases Prod.mk.inj h with ⟨rfl, hrest⟩
      rcases Prod.mk.inj hrest with ⟨_, rfl⟩
      refine ⟨grows_refl _, rfl, fun position' hc => ?_⟩
      cases hc
  | some value =>
      rw [hvalue] at h
      have hgrows : Grows stores
          (processKafkaMessage faults position (kafkaMessage position value) stores).1 :=
        processKafkaMessage_grows
      simp only [] at h
      split at h
      · next s₁ outcome heq =>
          rw [heq] at hgrows
          rcases Prod.mk.inj h with ⟨rfl, hrest⟩
          rcases Prod.mk.inj hrest with ⟨_, rfl⟩
          exact ⟨hgrows, rfl, fun _ _ => ⟨value, rfl, processKafkaMessage_ok heq⟩⟩
      · next s₁ heq =>
          rw [heq] at hgrows
          rcases Prod.mk.inj h with ⟨rfl, hrest⟩
          rcases Prod.mk.inj hrest with ⟨_, rfl⟩
          refine ⟨hgrows, rfl, fun position' hc => ?_⟩
          cases hc
      · next s₁ heq =>
          -- A transient failure: again, or given up.
          rw [heq] at hgrows
          rcases Prod.mk.inj h with ⟨rfl, hrest⟩
          rcases Prod.mk.inj hrest with ⟨_, hstage⟩
          rw [← hstage]
          split
          · refine ⟨hgrows, rfl, fun position' hc => ?_⟩
            cases hc
          · refine ⟨hgrows, rfl, fun position' hc => ?_⟩
            cases hc

/-- The worker goes on with the message it has, or stops. -/
theorem consumerInv_same {w w' : Worker} (hinv : ConsumerInv s) (hext : Extends s s')
    (hcommitted : s'.committed = s.committed) (hw : s.worker = some w) (hw' : s'.worker = some w')
    (hnext : w'.next = w.next) (hcurrent : w'.stage.current = w.stage.current)
    (hsettled : ∀ position, w'.stage = .committing position → Handled s' position) :
    ConsumerInv s' := by
  refine ⟨fun p n hn => ?_, fun v hv p n hn => ?_, fun v position hv hcur => ?_,
    fun v position hv hstage => ?_⟩
  · rw [hcommitted] at hn
    exact handled_mono hext (hinv.committed p n hn)
  · rw [hw', Option.some.injEq] at hv
    rw [← hv, hnext] at hn
    rw [← hv, hcurrent]
    exact (hinv.passed w hw p n hn).imp_left (handled_mono hext)
  · rw [hw', Option.some.injEq] at hv
    rw [← hv, hcurrent] at hcur
    rw [← hv, hnext]
    exact hinv.current w position hw hcur
  · rw [hw', Option.some.injEq] at hv
    rw [← hv] at hstage
    exact hsettled position hstage

/-- No worker is up, and what is committed has been handled. -/
theorem consumerInv_down (hdown : s.worker = none)
    (hcommitted : ∀ p n, n < s.committed p → Handled s { partition := p, offset := n }) :
    ConsumerInv s := by
  refine ⟨hcommitted, fun w hw => ?_, fun w _ hw => ?_, fun w _ hw => ?_⟩
  · rw [hdown] at hw
    cases hw
  · rw [hdown] at hw
    cases hw
  · rw [hdown] at hw
    cases hw

/-- The worker is about to poll, and everything it has passed has been
    handled. -/
theorem consumerInv_polling {w : Worker} (hw : s.worker = some w) (hstage : w.stage = .polling)
    (hcommitted : ∀ p n, n < s.committed p → Handled s { partition := p, offset := n })
    (hpassed : ∀ p n, n < w.next p → Handled s { partition := p, offset := n }) :
    ConsumerInv s := by
  refine ⟨hcommitted, fun v hv p n hn => ?_, fun v position hv hcur => ?_,
    fun v position hv hst => ?_⟩
  · rw [hw, Option.some.injEq] at hv
    rw [← hv] at hn
    exact Or.inl (hpassed p n hn)
  · -- It has no message at the moment.
    rw [hw, Option.some.injEq] at hv
    rw [← hv, hstage] at hcur
    cases hcur
  · rw [hw, Option.some.injEq] at hv
    rw [← hv, hstage] at hst
    cases hst

/-- Once its current message has been settled, a worker has handled everything
    it has passed. -/
theorem handled_of_passed {w : Worker} {position : Position} (hinv : ConsumerInv s)
    (hw : s.worker = some w) (hstage : w.stage = .committing position) {p : Partition} {n : Nat}
    (hn : n < w.next p) : Handled s { partition := p, offset := n } := by
  rcases hinv.passed w hw p n hn with hdone | hcur
  · exact hdone
  · rw [hstage] at hcur
    rw [← Option.some.inj hcur]
    exact hinv.settled w position hw hstage

/-- What a commit publishes has been handled. -/
theorem handled_of_commit {w : Worker} {position : Position} (hinv : ConsumerInv s)
    (hw : s.worker = some w) (hstage : w.stage = .committing position) {p : Partition} {n : Nat}
    (hn : n < Function.update s.committed position.partition (position.offset + 1) p) :
    Handled s { partition := p, offset := n } := by
  by_cases hp : p = position.partition
  · subst hp
    rw [Function.update_self] at hn
    have hnext := hinv.current w position hw (by rw [hstage]; rfl)
    exact handled_of_passed hinv hw hstage (hnext ▸ hn)
  · rw [Function.update_of_ne hp] at hn
    exact hinv.committed p n hn

theorem consumerInv_step (hinv : ConsumerInv s) (h : Step s s') : ConsumerInv s' := by
  cases h with
  | append p record =>
      have hext : Extends s { s with log := Function.update s.log p (s.log p ++ [record]) } := by
        refine ⟨fun q => ?_, grows_refl _, fun _ hd => hd⟩
        by_cases hq : q = p
        · subst hq
          simp only [Function.update_self]
          exact List.prefix_append _ _
        · simp only [Function.update_of_ne hq]
          exact List.prefix_refl _
      refine ⟨fun q n hn => handled_mono hext (hinv.committed q n hn), fun w hw q n hn => ?_,
        hinv.current, fun w position hw hstage => ?_⟩
      · exact (hinv.passed w hw q n hn).imp_left (handled_mono hext)
      · exact handled_mono hext (hinv.settled w position hw hstage)
  | start hdown =>
      -- It begins where the committed offsets are.
      exact consumerInv_polling rfl rfl hinv.committed hinv.committed
  | poll w p hw hstage havailable =>
      have hnone : w.stage.current = none := by
        rw [hstage]
        rfl
      refine ⟨hinv.committed, fun v hv q n hn => ?_, fun v position hv hcur => ?_,
        fun v position hv hst => ?_⟩
      · -- The message polled is the only one passed and not handled.
        rw [← Option.some.inj hv] at hn ⊢
        have hold : n < w.next q → Handled s { partition := q, offset := n } := by
          intro hlt
          rcases hinv.passed w hw q n hlt with hdone | hcur
          · exact hdone
          · rw [hnone] at hcur
            cases hcur
        by_cases hq : q = p
        · subst hq
          simp only [Function.update_self] at hn
          by_cases hlast : n = w.next q
          · exact Or.inr (by rw [hlast]; rfl)
          · exact Or.inl (hold (by omega))
        · simp only [Function.update_of_ne hq] at hn
          exact Or.inl (hold hn)
      · rw [← Option.some.inj hv] at hcur ⊢
        rw [← Option.some.inj hcur]
        exact Function.update_self _ _ _
      · rw [← Option.some.inj hv] at hst
        cases hst
  | handled w position record faults stores attempts stage hw hstage hrecord hresult =>
      rcases handle_spec hresult with ⟨hgrows, hcur, hcomplete⟩
      refine consumerInv_same hinv ⟨fun _ => List.prefix_refl _, hgrows, fun _ hd => hd⟩ rfl hw rfl
        rfl ?_ (fun position' hst => ?_)
      · rw [hstage]
        exact hcur
      · -- The offset is committed next only if the message is complete.
        have hst' : stage = .committing position' := hst
        rcases hcomplete position' hst' with ⟨value, hvalue, hdone⟩
        rw [hst'] at hcur
        rw [Option.some.inj hcur]
        exact ⟨record, hrecord, Or.inl ⟨value, hvalue, hdone⟩⟩
  | deadLettered w position record hw hstage hrecord =>
      refine consumerInv_same hinv ⟨fun _ => List.prefix_refl _, grows_refl _,
        fun _ hd => List.mem_append_left _ hd⟩ rfl hw rfl rfl ?_ (fun position' hst => ?_)
      · rw [hstage]
        rfl
      · -- The dead-letter topic has acknowledged the message.
        rw [← Stage.committing.inj hst]
        exact ⟨record, hrecord, Or.inr ⟨_, List.mem_append_right _ List.mem_cons_self, rfl, rfl⟩⟩
  | deadLetterFailed w position hw hstage =>
      refine consumerInv_same hinv ⟨fun _ => List.prefix_refl _, grows_refl _, fun _ hd => hd⟩ rfl
        hw rfl rfl ?_ (fun position' hst => ?_)
      · rw [hstage]
        rfl
      · cases hst
  | commit w position hw hstage =>
      exact consumerInv_polling rfl rfl (fun p n hn => handled_of_commit hinv hw hstage hn)
        (fun p n hn => handled_of_passed hinv hw hstage hn)
  | commitAnswerLost w position hw hstage =>
      exact consumerInv_down rfl fun p n hn => handled_of_commit hinv hw hstage hn
  | rewind w position hw hstage =>
      have hcur : w.stage.current = some position := by
        rw [hstage]
        rfl
      refine consumerInv_polling rfl rfl hinv.committed fun p n hn => ?_
      -- Below the message rewound to, and elsewhere, nothing was left.
      have hlt : n < w.next p ∧ position ≠ { partition := p, offset := n } := by
        by_cases hp : p = position.partition
        · subst hp
          simp only [Function.update_self] at hn
          have hnext := hinv.current w position hw hcur
          refine ⟨by omega, fun heq => ?_⟩
          rw [heq] at hn
          exact lt_irrefl n hn
        · simp only [Function.update_of_ne hp] at hn
          exact ⟨hn, fun heq => hp (by rw [heq])⟩
      rcases hinv.passed w hw p n hlt.1 with hdone | hc
      · exact hdone
      · rw [hcur] at hc
        exact absurd (Option.some.inj hc) hlt.2
  | stop w hw => exact consumerInv_down rfl hinv.committed

/-- Every message below the committed offset of its partition has been
    processed to completion, or the dead-letter topic has acknowledged it. -/
theorem consumer_never_skips (h : Transition.Reachable Initial Step s) (p : Partition) (n : Nat)
    (hn : n < s.committed p) :
    ∃ record, (s.log p)[n]? = some record ∧
      ((∃ value, record.value = some value ∧
          Complete s.stores { partition := p, offset := n }
            (kafkaMessage { partition := p, offset := n } value)) ∨
        ∃ d ∈ s.deadLetters, d.originalPosition = { partition := p, offset := n } ∧
          d.rawValue = record.rawValue) := by
  have hinv : ConsumerInv s := by
    refine Transition.invariant_of_step ?_ ?_ h
    · rintro s₀ ⟨_, hcommitted, _, _, _, hworker⟩
      refine consumerInv_down hworker fun p n hn => ?_
      rw [hcommitted p] at hn
      exact absurd hn (Nat.not_lt_zero n)
    · intro a b hi hstep
      exact consumerInv_step hi hstep
  exact hinv.committed p n hn

end Invariant

section Exhibit

/-- The topic of the exhibit, with one partition. -/
def paystackPartition : Partition where
  topic := "psp.paystack"
  partition := 0

/-- A message of a successful Paystack charge. -/
def chargeRecord : Record where
  rawValue := "charge"
  value := some [("psp_name", .str "paystack"), ("event_type", .str "charge.success"),
    ("payload", .obj [("event", .str "charge.success"),
      ("data", .obj [("reference", .str "T1")])]),
    ("content_hash", .str "h")]

/-- Bytes that are no JSON. -/
def garbledRecord : Record where
  rawValue := "garbled"
  value := none

def emptySystem : System where
  log := fun _ => []
  committed := fun _ => 0
  stores := { bronze := UniqueTable.empty _, silver := UniqueTable.empty _, nextId := 0 }
  deadLetters := []
  worker := none

/-- No fault at all. -/
def noFaults : Faults where
  bronze := .none
  prepare := none
  silver := .none

/-- The answer of the Silver transaction is lost. -/
def silverAnswerLost : Faults where
  bronze := .none
  prepare := none
  silver := .answerLost .transient

/-- What the worker makes of the charge, under a fault. -/
def attemptCharge (faults : Faults) (s : Stores) : Stores × (Position → Nat) × Stage :=
  @handle asciiText faults { partition := paystackPartition, offset := 0 } chargeRecord
    (fun _ => 0) s

theorem attemptCharge_eta (faults : Faults) (s : Stores) :
    @handle asciiText faults { partition := paystackPartition, offset := 0 } chargeRecord
        (fun _ => 0) s
      = ((attemptCharge faults s).1, (attemptCharge faults s).2.1, (attemptCharge faults s).2.2) :=
  Prod.ext rfl (Prod.ext rfl rfl)

theorem attemptCharge_again :
    (attemptCharge noFaults (attemptCharge silverAnswerLost emptySystem.stores).1).2.2
      = .committing { partition := paystackPartition, offset := 0 } := by
  decide

/-- A charge whose Silver row is written although the attempt fails, a restart,
    and a message that cannot be decoded. -/
theorem consumer_never_skips_restart :
    ∃ (_ : PyText) (s : System), Transition.Reachable Initial Step s ∧
      s.committed paystackPartition = 2 ∧
      ∀ n < 2, ∃ record, (s.log paystackPartition)[n]? = some record ∧
        ((∃ value, record.value = some value ∧
            Complete s.stores { partition := paystackPartition, offset := n }
              (kafkaMessage { partition := paystackPartition, offset := n } value)) ∨
          ∃ d ∈ s.deadLetters,
            d.originalPosition = { partition := paystackPartition, offset := n } ∧
            d.rawValue = record.rawValue) := by
  let text := asciiText
  have h0 : Transition.Reachable Initial Step emptySystem :=
    Transition.reachable_of_init ⟨fun _ => rfl, fun _ => rfl, rfl, rfl, rfl, rfl⟩
  have h1 := Transition.reachable_step h0 (Step.append _ paystackPartition chargeRecord)
  have h2 := Transition.reachable_step h1 (Step.append _ paystackPartition garbledRecord)
  have h3 := Transition.reachable_step h2 (Step.start _ rfl)
  have h4 := Transition.reachable_step h3 (Step.poll _ _ paystackPartition rfl rfl (by decide))
  have h5 := Transition.reachable_step h4
    (Step.handled _ _ { partition := paystackPartition, offset := 0 } chargeRecord silverAnswerLost
      (attemptCharge silverAnswerLost emptySystem.stores).1
      (attemptCharge silverAnswerLost emptySystem.stores).2.1
      (attemptCharge silverAnswerLost emptySystem.stores).2.2 rfl rfl rfl
      (attemptCharge_eta silverAnswerLost _))
  have h6 := Transition.reachable_step h5 (Step.stop _ _ rfl)
  -- The charge is redelivered.
  have h7 := Transition.reachable_step h6 (Step.start _ rfl)
  have h8 := Transition.reachable_step h7 (Step.poll _ _ paystackPartition rfl rfl (by decide))
  have h9 := Transition.reachable_step h8
    (Step.handled _ _ { partition := paystackPartition, offset := 0 } chargeRecord noFaults
      (attemptCharge noFaults (attemptCharge silverAnswerLost emptySystem.stores).1).1
      (attemptCharge noFaults (attemptCharge silverAnswerLost emptySystem.stores).1).2.1
      (attemptCharge noFaults (attemptCharge silverAnswerLost emptySystem.stores).1).2.2
      rfl rfl rfl (attemptCharge_eta noFaults _))
  have h10 := Transition.reachable_step h9
    (Step.commit _ _ { partition := paystackPartition, offset := 0 } rfl attemptCharge_again)
  -- The other message goes to the dead-letter topic.
  have h11 := Transition.reachable_step h10 (Step.poll _ _ paystackPartition rfl rfl (by decide))
  have h12 := Transition.reachable_step h11
    (Step.handled _ _ { partition := paystackPartition, offset := 1 } garbledRecord noFaults
      _ _ _ rfl rfl rfl rfl)
  have h13 := Transition.reachable_step h12
    (Step.deadLettered _ _ { partition := paystackPartition, offset := 1 } garbledRecord
      rfl rfl rfl)
  have h14 := Transition.reachable_step h13
    (Step.commit _ _ { partition := paystackPartition, offset := 1 } rfl rfl)
  exact ⟨text, _, h14, rfl, fun n hn => consumer_never_skips h14 paystackPartition n hn⟩

end Exhibit

end Consumer

end MmrEngine
