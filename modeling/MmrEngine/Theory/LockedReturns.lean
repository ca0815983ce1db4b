import MmrEngine.Flows.DailyReturns

/-!
# Locked Returns

What the return of a date says, after any calls of the flow and any changes of
its status.

A date has a return as soon as the flow was run for it, and never two. Its
figures are those of one particular call: the last one that found no return or
a draft. All later calls for the date have found it locked (`LastWritten`), so
an approved return keeps its figures for as long as it is not made a draft
again.

The proof is an induction on the calls from their end: a call either writes the
row, and is the last to do so, or leaves what the row was written by.

## Main definitions

* `Writable`: A call for the date would write.
* `LastWritten`: The call a return has its figures from.

## Theorems

* `find?_storeReturn`: What a date finds after a call.
* `stored_return_spec`: What it finds after any calls.
-/

namespace MmrEngine

namespace CbnReport

section Store

variable {F : Type}

/-- There is no return of the date, or a draft. -/
def Writable (t : ReturnTable F) (date : ℤ) : Prop :=
  ∀ r, t.find? date = some r → r.submissionStatus = .draft

/-- What a date finds after a call for a date. -/
theorem find?_storeReturn (now : ℤ) (runId : Nat) (figures : ReturnRow F) (t : ReturnTable F)
    (date : ℤ) :
    (storeReturn now runId figures t).1.find? date
      = if date = figures.returnDate then
          some (match t.find? date with
            | none =>
              { figures := figures
                generatedAt := now
                generatedByRunId := runId
                submissionStatus := .draft }
            | some r =>
              if r.submissionStatus = .draft then r.regenerate now runId figures else r)
        else t.find? date := by
  unfold storeReturn
  split
  · next hfree =>
      refine (UniqueTable.find?_insert t
        { figures := figures
          generatedAt := now
          generatedByRunId := runId
          submissionStatus := .draft } hfree date).trans ?_
      by_cases hdate : date = figures.returnDate
      · rw [if_pos hdate, hdate, hfree]
        exact if_pos rfl
      · rw [if_neg hdate]
        exact if_neg hdate
  · next r hfind =>
      by_cases hdate : date = figures.returnDate
      · rw [if_pos hdate, hdate, hfind]
        simp only
        split
        · have hkey := (UniqueTable.find?_some hfind).2
          rw [UniqueTable.find?_modify, hfind, Option.map_some, if_pos hkey]
        · exact hfind
      · rw [if_neg hdate]
        split
        · rw [UniqueTable.find?_modify]
          cases hother : t.find? date with
          | none => rfl
          | some r' =>
              have hkey := (UniqueTable.find?_some hother).2
              rw [Option.map_some, if_neg (by rw [hkey]; exact hdate)]
        · rfl

end Store

section Runs

variable {F : Type} [Zero F] {matchRate : Nat → Nat → F}

/-- The call generates a return for the date. -/
def ReturnCall.isFor (date : ℤ) : ReturnCall → Prop
  | .store _ _ reportDate _ _ => reportDate = date
  | .setStatus _ _ => False

/-- The return has its figures from the last call for the date that found none or
    a draft. -/
def LastWritten (matchRate : Nat → Nat → F) (calls : List ReturnCall) (date : ℤ)
    (r : StoredReturn F) : Prop :=
  ∃ before now runId txns discs later,
    calls = before ++ .store now runId date txns discs :: later ∧
    Writable (afterCalls matchRate before) date ∧
    r.figures = returnRow matchRate date txns discs ∧ r.generatedAt = now ∧
    r.generatedByRunId = runId ∧
    ∀ between call rest, later = between ++ call :: rest → call.isFor date →
      ¬ Writable (afterCalls matchRate (before ++ .store now runId date txns discs :: between)) date

theorem afterCalls_append (calls : List ReturnCall) (call : ReturnCall) :
    afterCalls matchRate (calls ++ [call]) = call.exec matchRate (afterCalls matchRate calls) := by
  rw [afterCalls, afterCalls, List.foldl_append]
  rfl

theorem find?_store (now : ℤ) (runId : Nat) (reportDate : ℤ) (txns : List DayTransaction)
    (discs : List DayDiscrepancy) (t : ReturnTable F) (date : ℤ) :
    ((ReturnCall.store now runId reportDate txns discs).exec matchRate t).find? date
      = if date = reportDate then
          some (match t.find? date with
            | none =>
              { figures := returnRow matchRate reportDate txns discs
                generatedAt := now
                generatedByRunId := runId
                submissionStatus := .draft }
            | some r =>
              if r.submissionStatus = .draft then
                r.regenerate now runId (returnRow matchRate reportDate txns discs)
              else r)
        else t.find? date :=
  find?_storeReturn now runId (returnRow matchRate reportDate txns discs) t date

/-- A change of status changes nothing else. -/
theorem find?_setStatus (changed : ℤ) (status : SubmissionStatus) (t : ReturnTable F) (date : ℤ) :
    ((ReturnCall.setStatus changed status).exec matchRate t).find? date
      = (t.find? date).map fun r =>
          if r.returnDate = changed then { r with submissionStatus := status } else r :=
  UniqueTable.find?_modify _ _ (returnDate_setStatus changed status) _

omit [Zero F] in
theorem writable_of_none {t : ReturnTable F} {date : ℤ} (h : t.find? date = none) :
    Writable t date := by
  intro r hr
  rw [h] at hr
  cases hr

omit [Zero F] in
theorem writable_of_draft {t : ReturnTable F} {date : ℤ} {r : StoredReturn F}
    (h : t.find? date = some r) (hdraft : r.submissionStatus = .draft) : Writable t date := by
  intro r' hr'
  rw [h] at hr'
  rw [← Option.some.inj hr']
  exact hdraft

/-- The last call wrote the return. -/
theorem lastWritten_of_last (calls : List ReturnCall) {now : ℤ} {runId : Nat} {date : ℤ}
    {txns : List DayTransaction} {discs : List DayDiscrepancy} {r : StoredReturn F}
    (hfree : Writable (afterCalls matchRate calls) date)
    (hfigures : r.figures = returnRow matchRate date txns discs) (hat : r.generatedAt = now)
    (hrun : r.generatedByRunId = runId) :
    LastWritten matchRate (calls ++ [.store now runId date txns discs]) date r := by
  refine ⟨calls, now, runId, txns, discs, [], rfl, hfree, hfigures, hat, hrun,
    fun between call rest hsplit _ => ?_⟩
  exact absurd hsplit.symm (List.append_ne_nil_of_right_ne_nil _ (List.cons_ne_nil _ _))

/-- A call that does not write the return leaves what it was written by, if it
    was not for the date or has found it locked. -/
theorem lastWritten_append {calls : List ReturnCall} {date : ℤ} {r r' : StoredReturn F}
    (h : LastWritten matchRate calls date r) (call : ReturnCall)
    (hfigures : r'.figures = r.figures) (hat : r'.generatedAt = r.generatedAt)
    (hrun : r'.generatedByRunId = r.generatedByRunId)
    (hlocked : call.isFor date → ¬ Writable (afterCalls matchRate calls) date) :
    LastWritten matchRate (calls ++ [call]) date r' := by
  rcases h with ⟨before, now, runId, txns, discs, later, hcalls, hfree, hf, ha, hr, hlater⟩
  refine ⟨before, now, runId, txns, discs, later ++ [call], ?_, hfree, hfigures.trans hf,
    hat.trans ha, hrun.trans hr, fun between call' rest hsplit hfor => ?_⟩
  · rw [hcalls, List.append_assoc, List.cons_append]
  · -- The call looked at is the new one, or one of those there were.
    rcases List.eq_nil_or_concat rest with rfl | ⟨rest', last, rfl⟩
    · rcases List.append_inj' hsplit rfl with ⟨hbetween, hsame⟩
      rw [List.singleton_inj] at hsame
      rw [← hbetween, ← hcalls]
      rw [← hsame] at hfor
      exact hlocked hfor
    · have hshort : later = between ++ call' :: rest' := by
        rw [List.concat_eq_append, ← List.cons_append, ← List.append_assoc] at hsplit
        exact (List.append_inj' hsplit rfl).1
      exact hlater between call' rest' hshort hfor

/-- After any calls of the flow and any changes of status: a date has a return
    just if the flow was run for it. The return has the figures of the last call
    for the date that found none or a draft, and every later call for the date
    has found it locked. -/
theorem stored_return_spec (matchRate : Nat → Nat → F) (calls : List ReturnCall) (date : ℤ) :
    ((afterCalls matchRate calls).find? date = none ↔ ∀ call ∈ calls, ¬ call.isFor date) ∧
      ∀ r, (afterCalls matchRate calls).find? date = some r → LastWritten matchRate calls date r := by
  induction calls using List.reverseRecOn with
  | nil =>
      refine ⟨⟨fun _ call hcall => (by cases hcall), fun _ => rfl⟩, fun r hr => ?_⟩
      cases hr
  | append_singleton calls call ih =>
      rw [afterCalls_append]
      have hall : (∀ c ∈ calls ++ [call], ¬ c.isFor date) ↔
          (∀ c ∈ calls, ¬ c.isFor date) ∧ ¬ call.isFor date := by
        simp only [List.mem_append, List.mem_singleton, or_imp, forall_and, forall_eq]
      rw [hall]
      cases call with
      | setStatus changed status =>
          rw [find?_setStatus, Option.map_eq_none_iff, ih.1]
          refine ⟨⟨fun h => ⟨h, fun hfor => hfor⟩, fun h => h.1⟩, fun r hr => ?_⟩
          rcases Option.map_eq_some_iff.mp hr with ⟨r₀, hr₀, rfl⟩
          refine lastWritten_append (ih.2 r₀ hr₀) _ ?_ ?_ ?_ (fun hfor => hfor.elim)
          · split <;> rfl
          · split <;> rfl
          · split <;> rfl
      | store now runId reportDate txns discs =>
          rw [find?_store]
          by_cases hdate : date = reportDate
          · subst hdate
            rw [if_pos rfl]
            refine ⟨⟨fun h => (by cases h), fun h => absurd rfl h.2⟩, fun r hr => ?_⟩
            have hrow := Option.some.inj hr
            cases hfind : (afterCalls matchRate calls).find? date with
            | none =>
                rw [hfind] at hrow
                rw [← hrow]
                exact lastWritten_of_last calls (writable_of_none hfind) rfl rfl rfl
            | some r₀ =>
                simp only [hfind] at hrow
                by_cases hdraft : r₀.submissionStatus = .draft
                · rw [if_pos hdraft] at hrow
                  rw [← hrow]
                  exact lastWritten_of_last calls (writable_of_draft hfind hdraft) rfl rfl rfl
                · -- It is locked, and stays as it is.
                  rw [if_neg hdraft] at hrow
                  rw [← hrow]
                  exact lastWritten_append (ih.2 r₀ hfind) _ rfl rfl rfl
                    (fun _ hfree => hdraft (hfree r₀ hfind))
          · rw [if_neg hdate, ih.1]
            refine ⟨⟨fun h => ⟨h, fun hfor => hdate hfor.symm⟩, fun h => h.1⟩, fun r hr => ?_⟩
            exact lastWritten_append (ih.2 r hr) _ rfl rfl rfl (fun hfor => absurd hfor.symm hdate)

end Runs

end CbnReport

end MmrEngine
