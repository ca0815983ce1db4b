import MmrEngine.Theory.AuditTrail

/-!
# One Transaction, One Match

In every committed state a transaction is in at most one pair, every pair has
exactly its two rows in `gold_matched_transactions`, a pair that lost a
conflict has left nothing behind, and a run's `written` is the number of pair
rows it inserted.

What makes it so is the primary key of `gold_matched_transactions` together
with the savepoint around each pair. `MatchedInv` says it for committed and
uncommitted rows alike: the matched rows are exactly those of the pair rows,
with the same owner, except for the pair a run is in the middle of, which has
as many of them as the run's position says (`recordedIds`). Commits and
rollbacks act on rows by their owner alone and keep such a statement without
further thought.

`PairsInv` is bookkeeping of ids. Every pair row is one its inserter still
counts (`live`): it was kept, or its savepoint is open. An id that was dropped
is not given out again.

Discrepancies hang off pairs by a foreign key. `LinkInv` is that key, for
uncommitted rows too, and it says that nothing refers to a pair whose savepoint
is open but the discrepancy raised inside it, which the rollback undoes.

Most steps change none of this, and `QuietSession` is what they have in common.

## Main definitions

* `HasPair`: A pair row, with what the invariants look at.
* `live`, `droppedOf`: The pair ids a session counts, and those it gave up.
* `recordedIds`: The transactions of a pair recorded as matched so far.
* `QuietSession`: A change of a session that no row can tell.
* `PairsInv`, `MatchedInv`, `LinkInv`: The invariants.
* `NothingLeft`, `OthersKept`: What a conflict leaves of a pair, and of the
  others.

## Theorems

* `matchInv_step`: A step keeps them.
* `nothingLeft_of_none`: Nothing outlives its pair.
* `othersKept_undo`: A savepoint rolled back touches no other pair.
* `one_transaction_one_match`: What they say about committed states.
-/

namespace MmrEngine

namespace Gold

open Discrepancy OwnedTable

section Sessions

variable {T : Type}

/-- The run of a session in the middle of `persist_pairs`. -/
def openRun : Session T → Option (PersistRun T)
  | .active _ (.persisting run) => some run
  | _ => none

/-- The run of a session that is, or was, a `persist_pairs` not rolled back. -/
def runOf : Session T → Option (PersistRun T)
  | .active _ (.persisting run) => some run
  | .active _ (.done (.persisted run)) => some run
  | .committed (.persisted run) => some run
  | _ => none

/-- The pair ids whose rows a session has inserted and not withdrawn. -/
def live (session : Session T) : List Nat :=
  match runOf session with
  | some run => run.kept ++ run.position.pairId.toList
  | none => []

/-- The pair ids whose savepoints a session has rolled back. -/
def droppedOf (session : Session T) : List Nat :=
  match runOf session with
  | some run => run.dropped
  | none => []

/-- The owner of the rows session `t` has inserted. -/
def ownerOf (t : Nat) : Session T → Option Nat
  | .committed _ => none
  | _ => some t

theorem ownerOf_eq_some {t t' : Nat} {session : Session T} (h : ownerOf t session = some t') :
    t' = t := by
  cases session with
  | committed reply => cases h
  | _ => exact (Option.some.inj h).symm

/-- Where in its current savepoint a session is. -/
def posOf (session : Session T) : Position :=
  match openRun session with
  | some run => run.position
  | none => .between

/-- The transactions of pair `pid` that have their matched row, when the
    inserter of the pair is at `pos`. -/
def recordedIds (pos : Position) (pid : Nat) (a b : T) : List T :=
  match pos with
  | .pairInserted id => if id = pid then [] else [a, b]
  | .firstRecorded id => if id = pid then [a] else [a, b]
  | _ => [a, b]

/-- If the savepoint of pair `pid` is open at `pos`, the discrepancy of `k` was
    raised in it. -/
def RaisedIn (pos : Position) (pid : Nat) (a : T) (k : Key T) : Prop :=
  pos.pairId = some pid → ∃ c, pos = .discrepancyRaised pid c ∧ k = (a, c)

/-- The run of the session counts the pairs it keeps, and ends between two
    pairs. -/
def Counted (session : Session T) : Prop :=
  ∀ run, runOf session = some run →
    run.written = run.kept.length ∧ (openRun session = none → run.position = .between)

theorem recordedIds_of_ne {pos : Position} {pid : Nat} (h : pos.pairId ≠ some pid) (a b : T) :
    recordedIds pos pid a b = [a, b] := by
  cases pos with
  | pairInserted id => exact if_neg fun heq => h (congrArg some heq)
  | firstRecorded id => exact if_neg fun heq => h (congrArg some heq)
  | _ => rfl

/-- A change of a session that no pair row can tell. -/
structure SteadySession (t : Nat) (session session' : Session T) : Prop where
  live_eq : live session' = live session
  owner_eq : ownerOf t session' = ownerOf t session
  dropped_eq : droppedOf session' = droppedOf session
  plan : ∀ run' pid, openRun session' = some run' → run'.position.pairId = some pid →
    ∃ run, openRun session = some run ∧ run.position.pairId = some pid ∧ run.todo = run'.todo
  counted : Counted session → Counted session'

/-- One that no matched row or discrepancy can tell either. -/
structure QuietSession (t : Nat) (session session' : Session T) : Prop
    extends SteadySession t session session' where
  recorded_eq : ∀ pid (a b : T),
    recordedIds (posOf session') pid a b = recordedIds (posOf session) pid a b
  raisedIn : ∀ pid (a : T) k, RaisedIn (posOf session) pid a k → RaisedIn (posOf session') pid a k

theorem quietSession_refl (t : Nat) (session : Session T) : QuietSession t session session where
  live_eq := rfl
  owner_eq := rfl
  dropped_eq := rfl
  plan run' _ hrun hpid := ⟨run', hrun, hpid, rfl⟩
  counted h := h
  recorded_eq _ _ _ := rfl
  raisedIn _ _ _ h := h

theorem openRun_of_runOf {session : Session T} (h : runOf session = none) :
    openRun session = none := by
  cases session with
  | active now work =>
      cases work with
      | persisting run => cases h
      | _ => rfl
  | _ => rfl

/-- Sessions without a run, that are not committed, are all alike. -/
theorem quietSession_of_none {t : Nat} {session session' : Session T}
    (h : runOf session = none) (h' : runOf session' = none)
    (ho : ownerOf t session = some t) (ho' : ownerOf t session' = some t) :
    QuietSession t session session' := by
  have hpos : posOf session' = posOf session := by
    simp only [posOf, openRun_of_runOf h, openRun_of_runOf h']
  refine ⟨⟨?_, ?_, ?_, fun run' pid hrun _ => ?_, fun _ run hrun => ?_⟩, fun pid a b => ?_,
    fun pid a k hr => ?_⟩
  · simp only [live, h, h']
  · rw [ho, ho']
  · simp only [droppedOf, h, h']
  · rw [openRun_of_runOf h'] at hrun
    cases hrun
  · rw [h'] at hrun
    cases hrun
  · rw [hpos]
  · rw [hpos]
    exact hr

/-- A session that works on something else than a run, before and after. -/
theorem quiet_outside {s : GoldDb T} {t : Nat} {session session' : Session T}
    (hs : s.sessions t = session) (h : runOf session = none) (h' : runOf session' = none)
    (ho : ownerOf t session = some t) (ho' : ownerOf t session' = some t) :
    QuietSession t (s.sessions t) session' := by
  rw [hs]
  exact quietSession_of_none h h' ho ho'

theorem counted_persisting {now : ℤ} {run run' : PersistRun T}
    (h : Counted (.active now (.persisting run)))
    (hwritten : run.written = run.kept.length → run'.written = run'.kept.length) :
    Counted (.active now (.persisting run')) := by
  intro run₁ hrun
  rw [← Option.some.inj hrun]
  refine ⟨hwritten (h run rfl).1, fun hnone => ?_⟩
  cases hnone

/-- A run that moves on with the rows it has. -/
theorem steadySession_persisting {t : Nat} {now : ℤ} {run run' : PersistRun T}
    (hlive : run'.kept ++ run'.position.pairId.toList = run.kept ++ run.position.pairId.toList)
    (hdropped : run'.dropped = run.dropped)
    (hplan : ∀ pid, run'.position.pairId = some pid →
      run.position.pairId = some pid ∧ run.todo = run'.todo)
    (hwritten : run.written = run.kept.length → run'.written = run'.kept.length) :
    SteadySession t (.active now (.persisting run)) (.active now (.persisting run')) where
  live_eq := hlive
  owner_eq := rfl
  dropped_eq := hdropped
  plan run₁ pid hrun hpid := by
    rw [← Option.some.inj hrun] at hpid ⊢
    exact ⟨run, rfl, hplan pid hpid⟩
  counted h := counted_persisting h hwritten

/-- The savepoint that is open goes on. -/
theorem steadySession_position {t : Nat} {now : ℤ} {run : PersistRun T} {pos : Position}
    (hpos : pos.pairId = run.position.pairId) :
    SteadySession t (.active now (.persisting run))
      (.active now (.persisting { run with position := pos })) := by
  refine steadySession_persisting ?_ rfl (fun pid hpid => ⟨hpos ▸ hpid, rfl⟩) id
  simp only [hpos]

/-- Releasing the savepoint of a pair with both its rows. -/
theorem quietSession_keep {t : Nat} {now : ℤ} {run : PersistRun T} (rest : List (PairPlan T))
    {pid : Nat} (raised : Nat) (hpid : run.position.pairId = some pid)
    (hboth : ∀ pid' (a b : T), recordedIds run.position pid' a b = [a, b]) :
    QuietSession t (.active now (.persisting run))
      (.active now (.persisting (run.keep rest pid raised))) := by
  refine ⟨steadySession_persisting ?_ rfl ?_ ?_, fun pid' a b => (hboth pid' a b).symm, ?_⟩
  · rw [hpid]
    exact List.append_nil _
  · intro pid' hnone
    cases hnone
  · intro hwritten
    simp only [PersistRun.keep, hwritten, List.length_append, List.length_singleton]
  · intro pid' a k _ hnone
    cases hnone

theorem quietSession_done {t : Nat} {now : ℤ} {run : PersistRun T}
    (hpos : run.position = .between) :
    QuietSession t (.active now (.persisting run)) (.active now (.done (.persisted run))) where
  live_eq := rfl
  owner_eq := rfl
  dropped_eq := rfl
  recorded_eq pid a b := by
    have hposOf : posOf (.active now (.persisting run)) = run.position := rfl
    rw [hposOf, hpos]
    rfl
  plan run' pid hrun _ := by cases hrun
  raisedIn pid a k _ hnone := by cases hnone
  counted h run₁ hrun := by
    rw [← Option.some.inj hrun]
    exact ⟨(h run rfl).1, fun _ => hpos⟩

end Sessions

section Invariant

variable {T : Type}

/-- Pair `pid` is a row pairing `a` with `b`, inserted by `t` and owned by
    `o`. -/
def HasPair (s : GoldDb T) (pid : Nat) (a b : T) (t : Nat) (o : Option Nat) : Prop :=
  ∃ v, s.pairs pid = some { value := v, owner := o } ∧ v.a = a ∧ v.b = b ∧ v.xmin = t

/-- Where the owner of a row is; nobody is nowhere. -/
def positionOf (s : GoldDb T) : Option Nat → Position
  | none => .between
  | some t => posOf (s.sessions t)

/-- Pair rows and sessions fit together. -/
structure PairsInv (s : GoldDb T) : Prop where
  /-- The pair rows are those their inserters count, with the owner these say. -/
  live_iff : ∀ pid t o, (∃ a b, HasPair s pid a b t o) ↔
    pid ∈ live (s.sessions t) ∧ o = ownerOf t (s.sessions t)
  nodup : ∀ t, (live (s.sessions t)).Nodup
  fresh : ∀ pid, s.nextPair ≤ pid → s.pairs pid = none
  dropped : ∀ t, ∀ pid ∈ droppedOf (s.sessions t), pid < s.nextPair ∧ s.pairs pid = none
  distinct : ∀ pid a b t o, HasPair s pid a b t o → a ≠ b
  plan : ∀ t run pid, openRun (s.sessions t) = some run → run.position.pairId = some pid →
    ∃ p rest, run.todo = p :: rest ∧ HasPair s pid p.a p.b t (some t)
  counted : ∀ t, Counted (s.sessions t)

/-- The matched rows are those of the pair rows, with the same owner. -/
def MatchedInv (s : GoldDb T) : Prop :=
  ∀ x pid o, s.matched x = some { value := pid, owner := o } ↔
    ∃ a b t, HasPair s pid a b t o ∧ x ∈ recordedIds (positionOf s o) pid a b

/-- A discrepancy in some layer of the store belongs to a pair that is there at
    least as long as it is. -/
def LinkInv (s : GoldDb T) : Prop :=
  ∀ k o d pid, RowStore.Layer (s.discrepancies k) o (some d) →
    d.reconciliationPairId = some pid →
    ∃ a b t o', HasPair s pid a b t o' ∧ (o' = none ∨ o' = o) ∧ RaisedIn (positionOf s o') pid a k

/-- The invariants, as they are kept together. -/
structure MatchInv (s : GoldDb T) : Prop where
  pairs : PairsInv s
  matched : MatchedInv s
  link : LinkInv s

theorem hasPair_unique {s : GoldDb T} {pid : Nat} {a b a' b' : T} {t t' : Nat} {o o' : Option Nat}
    (h : HasPair s pid a b t o) (h' : HasPair s pid a' b' t' o') :
    a = a' ∧ b = b' ∧ t = t' ∧ o = o' := by
  rcases h with ⟨v, hv, ha, hb, ht⟩
  rcases h' with ⟨v', hv', ha', hb', ht'⟩
  have heq := OwnedTable.Owned.mk.inj (Option.some.inj (hv.symm.trans hv'))
  rw [← heq.1] at ha' hb' ht'
  exact ⟨ha.symm.trans ha', hb.symm.trans hb', ht.symm.trans ht', heq.2⟩

theorem hasPair_of_some {s : GoldDb T} {pid : Nat} {r : OwnedTable.Owned Nat (PairRow T)}
    (h : s.pairs pid = some r) : HasPair s pid r.value.a r.value.b r.value.xmin r.owner :=
  ⟨r.value, h, rfl, rfl, rfl⟩

theorem pairs_none_iff {s : GoldDb T} {pid : Nat} :
    s.pairs pid = none ↔ ∀ a b t o, ¬ HasPair s pid a b t o := by
  constructor
  · rintro h a b t o ⟨v, hv, _⟩
    rw [h] at hv
    cases hv
  · intro h
    cases hp : s.pairs pid with
    | none => rfl
    | some r => exact absurd (hasPair_of_some hp) (h _ _ _ _)

/-- A row that is not there does not come from nowhere. -/
theorem pairs_none_mono {s s' : GoldDb T} {pid : Nat}
    (h : ∀ a b t o, HasPair s' pid a b t o → ∃ o', HasPair s pid a b t o')
    (hnone : s.pairs pid = none) : s'.pairs pid = none := by
  rw [pairs_none_iff] at hnone ⊢
  intro a b t o hp
  rcases h a b t o hp with ⟨o', hp'⟩
  exact hnone a b t o' hp'

section PairRows

variable {s s' : GoldDb T} {pid pid' : Nat} {a b : T} {t t' : Nat} {o : Option Nat}

theorem hasPair_of_pairs (h : s'.pairs pid = s.pairs pid) :
    HasPair s' pid a b t o ↔ HasPair s pid a b t o := by
  unfold HasPair
  rw [h]

/-- A pair row is not at an id that is free. -/
theorem ne_of_hasPair (hfree : s.pairs pid = none) (h : HasPair s pid' a b t' o) : pid' ≠ pid := by
  rintro rfl
  exact pairs_none_iff.mp hfree a b t' o h

theorem hasPair_insert {p : PairPlan T} (hfree : s.pairs pid = none)
    (h : s'.pairs = OwnedTable.insert t pid (p.row t) s.pairs) :
    HasPair s' pid' a b t' o ↔ HasPair s pid' a b t' o ∨
      (pid' = pid ∧ a = p.a ∧ b = p.b ∧ t' = t ∧ o = some t) := by
  have hnew : HasPair s' pid p.a p.b t (some t) := by
    refine ⟨p.row t, ?_, rfl, rfl, rfl⟩
    rw [h, OwnedTable.insert_self]
  by_cases hpid : pid' = pid
  · subst hpid
    constructor
    · intro hp
      rcases hasPair_unique hp hnew with ⟨ha, hb, ht, ho⟩
      exact Or.inr ⟨rfl, ha, hb, ht, ho⟩
    · rintro (hold | ⟨_, rfl, rfl, rfl, rfl⟩)
      · exact absurd hold (pairs_none_iff.mp hfree _ _ _ _)
      · exact hnew
  · have hsame : s'.pairs pid' = s.pairs pid' := by
      rw [h, OwnedTable.insert_other _ _ _ hpid]
    rw [hasPair_of_pairs hsame]
    simp only [hpid, false_and, or_false]

/-- Changing the status of a pair does not change what the invariants see. -/
theorem hasPair_amend
    (h : s'.pairs = OwnedTable.amend pid' (fun r => { r with status := .discrepancy }) s.pairs) :
    HasPair s' pid a b t o ↔ HasPair s pid a b t o := by
  unfold HasPair
  simp only [h, OwnedTable.amend_eq_some]
  constructor
  · rintro ⟨v, ⟨v₀, hv, hval⟩, ha, hb, ht⟩
    -- Whichever pair it is, only its status may differ.
    split at hval
    · rw [hval] at ha hb ht
      exact ⟨v₀, hv, ha, hb, ht⟩
    · rw [hval] at ha hb ht
      exact ⟨v₀, hv, ha, hb, ht⟩
  · rintro ⟨v₀, hv, ha, hb, ht⟩
    refine ⟨_, ⟨v₀, hv, rfl⟩, ?_⟩
    split
    · exact ⟨ha, hb, ht⟩
    · exact ⟨ha, hb, ht⟩

theorem hasPair_erase (h : s'.pairs = OwnedTable.erase pid' s.pairs) :
    HasPair s' pid a b t o ↔ pid ≠ pid' ∧ HasPair s pid a b t o := by
  unfold HasPair
  simp only [h, OwnedTable.erase_eq_some, and_assoc, exists_and_left]

theorem hasPair_commit (h : s'.pairs = OwnedTable.commit t' s.pairs) :
    HasPair s' pid a b t o ↔ ∃ o', HasPair s pid a b t o' ∧ OwnedTable.settle t' o' = o := by
  unfold HasPair
  simp only [h, OwnedTable.commit_eq_some]
  constructor
  · rintro ⟨v, ⟨o', hv, ho⟩, hrest⟩
    exact ⟨o', ⟨v, hv, hrest⟩, ho⟩
  · rintro ⟨o', ⟨v, hv, hrest⟩, ho⟩
    exact ⟨v, ⟨o', hv, ho⟩, hrest⟩

theorem hasPair_rollback (h : s'.pairs = OwnedTable.rollback t' s.pairs) :
    HasPair s' pid a b t o ↔ HasPair s pid a b t o ∧ o ≠ some t' := by
  unfold HasPair
  simp only [h, OwnedTable.rollback_eq_some]
  constructor
  · rintro ⟨v, ⟨hv, ho⟩, hrest⟩
    exact ⟨⟨v, hv, hrest⟩, ho⟩
  · rintro ⟨⟨v, hv, hrest⟩, ho⟩
    exact ⟨v, ⟨hv, ho⟩, hrest⟩

end PairRows

section Moves

variable {s s' : GoldDb T} {t : Nat} {session : Session T}

/-- Where the session that moves is now, and where the others still are. -/
theorem positionOf_goto (hsess : s'.sessions = Function.update s.sessions t session)
    (o : Option Nat) :
    positionOf s' o = if o = some t then posOf session else positionOf s o := by
  cases o with
  | none => rfl
  | some t' =>
      simp only [positionOf, hsess]
      by_cases ht : t' = t
      · rw [ht, Function.update_self, if_pos rfl]
      · rw [Function.update_of_ne ht, if_neg fun h => ht (Option.some.inj h)]

theorem steady_goto (hsess : s'.sessions = Function.update s.sessions t session)
    (hsteady : SteadySession t (s.sessions t) session) (t' : Nat) :
    SteadySession t' (s.sessions t') (s'.sessions t') := by
  rw [hsess]
  by_cases ht : t' = t
  · subst ht
    rw [Function.update_self]
    exact hsteady
  · rw [Function.update_of_ne ht]
    exact (quietSession_refl t' _).toSteadySession

theorem quiet_goto (hsess : s'.sessions = Function.update s.sessions t session)
    (hquiet : QuietSession t (s.sessions t) session) (t' : Nat) :
    QuietSession t' (s.sessions t') (s'.sessions t') := by
  rw [hsess]
  by_cases ht : t' = t
  · subst ht
    rw [Function.update_self]
    exact hquiet
  · rw [Function.update_of_ne ht]
    exact quietSession_refl t' _

/-- Steady sessions over the same pair rows. -/
theorem pairsInv_steady (hinv : PairsInv s)
    (hpair : ∀ pid a b t o, HasPair s' pid a b t o ↔ HasPair s pid a b t o)
    (hnext : s'.nextPair = s.nextPair)
    (hsess : ∀ t, SteadySession t (s.sessions t) (s'.sessions t)) : PairsInv s' := by
  have hnone : ∀ pid, s.pairs pid = none → s'.pairs pid = none := by
    intro pid
    exact pairs_none_mono fun a b t o hp => ⟨o, (hpair pid a b t o).mp hp⟩
  refine ⟨fun pid t o => ?_, fun t => ?_, fun pid hpid => ?_, fun t pid hpid => ?_,
    fun pid a b t o hp => ?_, fun t run' pid hrun hpid => ?_, fun t => ?_⟩
  · rw [(hsess t).live_eq, (hsess t).owner_eq, ← hinv.live_iff pid t o]
    simp only [hpair]
  · rw [(hsess t).live_eq]
    exact hinv.nodup t
  · rw [hnext] at hpid
    exact hnone pid (hinv.fresh pid hpid)
  · rw [(hsess t).dropped_eq] at hpid
    rw [hnext]
    exact ⟨(hinv.dropped t pid hpid).1, hnone pid (hinv.dropped t pid hpid).2⟩
  · exact hinv.distinct pid a b t o ((hpair pid a b t o).mp hp)
  · rcases (hsess t).plan run' pid hrun hpid with ⟨run, hrun₀, hpid₀, htodo⟩
    rcases hinv.plan t run pid hrun₀ hpid₀ with ⟨p, rest, hp, hhas⟩
    exact ⟨p, rest, htodo ▸ hp, (hpair _ _ _ _ _).mpr hhas⟩
  · exact (hsess t).counted (hinv.counted t)

/-- Values that come from values of the same row, and pairs that stay with
    their savepoints, keep the links. -/
theorem linkInv_of_layers (hinv : LinkInv s)
    (hlayer : ∀ k o d pid, RowStore.Layer (s'.discrepancies k) o (some d) →
      d.reconciliationPairId = some pid → ∃ o₀ d₀, RowStore.Layer (s.discrepancies k) o₀ (some d₀) ∧
        d₀.reconciliationPairId = some pid ∧ (o₀ = none ∨ o₀ = o))
    (hpair : ∀ pid a b t o, HasPair s pid a b t o → HasPair s' pid a b t o ∧
      ∀ k, RaisedIn (positionOf s o) pid a k → RaisedIn (positionOf s' o) pid a k) :
    LinkInv s' := by
  intro k o d pid hl hd
  rcases hlayer k o d pid hl hd with ⟨o₀, d₀, hl₀, hd₀, ho₀⟩
  rcases hinv k o₀ d₀ pid hl₀ hd₀ with ⟨a, b, t, o', hp, ho', hr⟩
  rcases hpair pid a b t o' hp with ⟨hp', hraised⟩
  refine ⟨a, b, t, o', hp', ?_, hraised k hr⟩
  rcases ho' with hnone | heq
  · exact Or.inl hnone
  · rw [heq]
    exact ho₀

/-- A quiet step leaves the matched rows with the pair rows. -/
theorem matchedInv_quiet (hinv : MatchedInv s)
    (hpair : ∀ pid a b t o, HasPair s' pid a b t o ↔ HasPair s pid a b t o)
    (hmatched : s'.matched = s.matched)
    (hsess : ∀ t, QuietSession t (s.sessions t) (s'.sessions t)) : MatchedInv s' := by
  intro x pid o
  have hrec : ∀ a b : T,
      recordedIds (positionOf s' o) pid a b = recordedIds (positionOf s o) pid a b := by
    intro a b
    cases o with
    | none => rfl
    | some t' => exact (hsess t').recorded_eq pid a b
  rw [hmatched, hinv x pid o]
  simp only [hpair, hrec]

theorem raisedIn_quiet (hsess : ∀ t, QuietSession t (s.sessions t) (s'.sessions t)) {pid : Nat}
    {a : T} {o : Option Nat} {k : Key T} (h : RaisedIn (positionOf s o) pid a k) :
    RaisedIn (positionOf s' o) pid a k := by
  cases o with
  | none => exact h
  | some t => exact (hsess t).raisedIn pid a k h

/-- A quiet step of `t` that leaves pair rows and matched rows as they are. -/
theorem matchInv_quiet (hinv : MatchInv s)
    (hpair : ∀ pid a b t o, HasPair s' pid a b t o ↔ HasPair s pid a b t o)
    (hmatched : s'.matched = s.matched) (hnext : s'.nextPair = s.nextPair)
    (hsess : s'.sessions = Function.update s.sessions t session)
    (hquiet : QuietSession t (s.sessions t) session)
    (hlayer : ∀ k o d pid, RowStore.Layer (s'.discrepancies k) o (some d) →
      d.reconciliationPairId = some pid → ∃ o₀ d₀, RowStore.Layer (s.discrepancies k) o₀ (some d₀) ∧
        d₀.reconciliationPairId = some pid ∧ (o₀ = none ∨ o₀ = o)) : MatchInv s' := by
  have hall := quiet_goto hsess hquiet
  refine ⟨pairsInv_steady hinv.pairs hpair hnext fun t' => (hall t').toSteadySession,
    matchedInv_quiet hinv.matched hpair hmatched hall, linkInv_of_layers hinv.link hlayer ?_⟩
  intro pid a b t' o hp
  exact ⟨(hpair pid a b t' o).mpr hp, fun k hr => raisedIn_quiet hall hr⟩

/-- A quiet step of `t` that leaves the tables alone. -/
theorem matchInv_goto (hinv : MatchInv s) (hpairs : s'.pairs = s.pairs)
    (hmatched : s'.matched = s.matched) (hd : s'.discrepancies = s.discrepancies)
    (hnext : s'.nextPair = s.nextPair)
    (hsess : s'.sessions = Function.update s.sessions t session)
    (hquiet : QuietSession t (s.sessions t) session) : MatchInv s' := by
  refine matchInv_quiet hinv (fun pid a b t' o => hasPair_of_pairs (congrFun hpairs pid)) hmatched
    hnext hsess hquiet fun k o d pid hl hpid => ?_
  rw [hd] at hl
  exact ⟨o, d, hl, hpid, Or.inr rfl⟩

theorem stay_goto (hsess : s'.sessions = Function.update s.sessions t session) {t' : Nat}
    (ht : t' ≠ t) : s'.sessions t' = s.sessions t' := by
  rw [hsess, Function.update_of_ne ht]

theorem session_goto (hsess : s'.sessions = Function.update s.sessions t session) :
    s'.sessions t = session := by
  rw [hsess, Function.update_self]

theorem counted_goto (hinv : PairsInv s)
    (hsess : s'.sessions = Function.update s.sessions t session) (h : Counted session)
    (t' : Nat) : Counted (s'.sessions t') := by
  by_cases ht : t' = t
  · rw [ht, session_goto hsess]
    exact h
  · rw [stay_goto hsess ht]
    exact hinv.counted t'

theorem owner_goto (hsess : s'.sessions = Function.update s.sessions t session)
    (h : ownerOf t session = ownerOf t (s.sessions t)) (t' : Nat) :
    ownerOf t' (s'.sessions t') = ownerOf t' (s.sessions t') := by
  by_cases ht : t' = t
  · rw [ht, session_goto hsess, h]
  · rw [stay_goto hsess ht]

/-- The pair rows after an insert. -/
theorem pairsInv_insert {now : ℤ} {run : PersistRun T} {p : PairPlan T} {rest : List (PairPlan T)}
    (hinv : PairsInv s) (hs : s.sessions t = .active now (.persisting run))
    (htodo : run.todo = p :: rest) (hpos : run.position = .between) (hdiff : p.a ≠ p.b)
    (hpairs : s'.pairs = OwnedTable.insert t s.nextPair (p.row t) s.pairs)
    (hnext : s'.nextPair = s.nextPair + 1)
    (hsess : s'.sessions = Function.update s.sessions t
      (.active now (.persisting { run with position := .pairInserted s.nextPair }))) :
    PairsInv s' := by
  have hfree : s.pairs s.nextPair = none := hinv.fresh _ (le_refl _)
  have hpair : ∀ pid a b t' o, HasPair s' pid a b t' o ↔ HasPair s pid a b t' o ∨
      (pid = s.nextPair ∧ a = p.a ∧ b = p.b ∧ t' = t ∧ o = some t) := by
    intro pid a b t' o
    exact hasPair_insert hfree hpairs
  have hsession := session_goto hsess
  have hlive : ∀ pid t', pid ∈ live (s'.sessions t') ↔
      pid ∈ live (s.sessions t') ∨ (pid = s.nextPair ∧ t' = t) := by
    intro pid t'
    by_cases ht : t' = t
    · rw [ht, hsession, hs]
      simp only [live, runOf, hpos, Position.pairId, Option.toList_none, Option.toList_some,
        List.append_nil, List.mem_append, List.mem_singleton, and_true]
    · rw [stay_goto hsess ht]
      simp only [ht, and_false, or_false]
  have howner := owner_goto hsess (by rw [hs]; rfl)
  have hself : ownerOf t (s.sessions t) = some t := by
    rw [hs]
    rfl
  have hnone : ∀ pid, pid ≠ s.nextPair → s'.pairs pid = s.pairs pid := by
    intro pid hne
    rw [hpairs, OwnedTable.insert_other _ _ _ hne]
  refine ⟨fun pid t' o => ?_, fun t' => ?_, fun pid hpid => ?_, fun t' pid hpid => ?_,
    fun pid a b t' o hp => ?_, fun t' run' pid hrun hpid => ?_, fun t' => ?_⟩
  · -- Its inserter has one more row, the new one.
    rw [hlive, howner]
    constructor
    · rintro ⟨a, b, hp⟩
      rcases (hpair pid a b t' o).mp hp with hp | ⟨rfl, _, _, rfl, rfl⟩
      · have hmem := (hinv.live_iff pid t' o).mp ⟨a, b, hp⟩
        exact ⟨Or.inl hmem.1, hmem.2⟩
      · exact ⟨Or.inr ⟨rfl, rfl⟩, hself.symm⟩
    · rintro ⟨hmem | ⟨rfl, rfl⟩, ho⟩
      · rcases (hinv.live_iff pid t' o).mpr ⟨hmem, ho⟩ with ⟨a, b, hp⟩
        exact ⟨a, b, (hpair pid a b t' o).mpr (Or.inl hp)⟩
      · rw [hself] at ho
        exact ⟨p.a, p.b, (hpair _ _ _ _ _).mpr (Or.inr ⟨rfl, rfl, rfl, rfl, ho⟩)⟩
  · by_cases ht : t' = t
    · -- The new id is fresh, so it is not among those kept.
      have hnodup := hinv.nodup t'
      rw [ht, hs] at hnodup
      rw [ht, hsession]
      simp only [live, runOf, hpos, Position.pairId, Option.toList_none, Option.toList_some,
        List.append_nil] at hnodup ⊢
      refine List.nodup_append.mpr ⟨hnodup, List.pairwise_singleton _ _, fun x hx y hy heq => ?_⟩
      have hmem : x ∈ live (s.sessions t) := by
        rw [hs]
        exact List.mem_append_left _ hx
      rcases (hinv.live_iff x t _).mpr ⟨hmem, rfl⟩ with ⟨a, b, hp⟩
      exact ne_of_hasPair hfree hp (heq.trans (List.mem_singleton.mp hy))
    · rw [stay_goto hsess ht]
      exact hinv.nodup t'
  · rw [hnext] at hpid
    rw [hnone pid (by omega)]
    exact hinv.fresh pid (by omega)
  · have hpid' : pid ∈ droppedOf (s.sessions t') := by
      by_cases ht : t' = t
      · rw [ht, hsession] at hpid
        rw [ht, hs]
        exact hpid
      · rw [stay_goto hsess ht] at hpid
        exact hpid
    rcases hinv.dropped t' pid hpid' with ⟨hlt, hrow⟩
    rw [hnext, hnone pid (by omega)]
    exact ⟨by omega, hrow⟩
  · rcases (hpair pid a b t' o).mp hp with hp | ⟨_, rfl, rfl, _, _⟩
    · exact hinv.distinct pid a b t' o hp
    · exact hdiff
  · -- The savepoint is that of the first pair left.
    by_cases ht : t' = t
    · subst ht
      rw [hsession] at hrun
      rw [← Option.some.inj hrun] at hpid ⊢
      exact ⟨p, rest, htodo,
        (hpair _ _ _ _ _).mpr (Or.inr ⟨(Option.some.inj hpid).symm, rfl, rfl, rfl, rfl⟩)⟩
    · rw [stay_goto hsess ht] at hrun
      rcases hinv.plan t' run' pid hrun hpid with ⟨p', rest', htodo', hp⟩
      exact ⟨p', rest', htodo', (hpair _ _ _ _ _).mpr (Or.inl hp)⟩
  · have hcounted := hinv.counted t
    rw [hs] at hcounted
    exact counted_goto hinv hsess (counted_persisting hcounted id) t'

/-- A new pair row, with a fresh id, inside a new savepoint. -/
theorem matchInv_insert {now : ℤ} {run : PersistRun T} {p : PairPlan T} {rest : List (PairPlan T)}
    (hinv : MatchInv s) (hs : s.sessions t = .active now (.persisting run))
    (htodo : run.todo = p :: rest) (hpos : run.position = .between) (hdiff : p.a ≠ p.b)
    (hpairs : s'.pairs = OwnedTable.insert t s.nextPair (p.row t) s.pairs)
    (hmatched : s'.matched = s.matched) (hd : s'.discrepancies = s.discrepancies)
    (hnext : s'.nextPair = s.nextPair + 1)
    (hsess : s'.sessions = Function.update s.sessions t
      (.active now (.persisting { run with position := .pairInserted s.nextPair }))) :
    MatchInv s' := by
  have hfree : s.pairs s.nextPair = none := hinv.pairs.fresh _ (le_refl _)
  have hpair : ∀ pid a b t' o, HasPair s' pid a b t' o ↔ HasPair s pid a b t' o ∨
      (pid = s.nextPair ∧ a = p.a ∧ b = p.b ∧ t' = t ∧ o = some t) := by
    intro pid a b t' o
    exact hasPair_insert hfree hpairs
  have hposition : ∀ o pid, pid ≠ s.nextPair → ∀ a b : T,
      recordedIds (positionOf s' o) pid a b = recordedIds (positionOf s o) pid a b := by
    intro o pid hne a b
    rw [positionOf_goto hsess]
    by_cases ho : o = some t
    · have hbetween : positionOf s o = .between := by
        rw [ho]
        simp only [positionOf, posOf, openRun, hs, hpos]
      rw [if_pos ho, hbetween]
      refine recordedIds_of_ne ?_ a b
      intro heq
      exact hne (Option.some.inj heq).symm
    · rw [if_neg ho]
  refine ⟨pairsInv_insert hinv.pairs hs htodo hpos hdiff hpairs hnext hsess, fun x pid o => ?_,
    linkInv_of_layers hinv.link (fun k o d pid hl hpid => ?_) (fun pid a b t' o hp => ?_)⟩
  · rw [hmatched, hinv.matched x pid o]
    constructor
    · rintro ⟨a, b, t', hp, hx⟩
      refine ⟨a, b, t', (hpair _ _ _ _ _).mpr (Or.inl hp), ?_⟩
      rw [hposition o pid (ne_of_hasPair hfree hp)]
      exact hx
    · rintro ⟨a, b, t', hp, hx⟩
      rcases (hpair pid a b t' o).mp hp with hp | ⟨rfl, _, _, _, rfl⟩
      · rw [hposition o pid (ne_of_hasPair hfree hp)] at hx
        exact ⟨a, b, t', hp, hx⟩
      · -- The new pair has no matched row yet.
        rw [positionOf_goto hsess, if_pos rfl] at hx
        simp only [posOf, openRun, recordedIds, if_true, List.not_mem_nil] at hx
  · rw [hd] at hl
    exact ⟨o, d, hl, hpid, Or.inr rfl⟩
  · refine ⟨(hpair _ _ _ _ _).mpr (Or.inl hp), fun k hr hpid => ?_⟩
    rw [positionOf_goto hsess] at hpid ⊢
    by_cases ho : o = some t
    · rw [if_pos ho] at hpid
      exact absurd (Option.some.inj hpid).symm (ne_of_hasPair hfree hp)
    · rw [if_neg ho] at hpid ⊢
      exact hr hpid

/-- The pair of the open savepoint is the one its plan says. -/
theorem pair_of_savepoint {now : ℤ} {run : PersistRun T} {p : PairPlan T}
    {rest : List (PairPlan T)} {pid : Nat} (hinv : PairsInv s)
    (hs : s.sessions t = .active now (.persisting run)) (htodo : run.todo = p :: rest)
    (hpid : run.position.pairId = some pid) : HasPair s pid p.a p.b t (some t) := by
  have hopen : openRun (s.sessions t) = some run := by
    rw [hs]
    rfl
  rcases hinv.plan t run pid hopen hpid with ⟨p', rest', htodo', hp⟩
  rw [htodo] at htodo'
  rw [(List.cons.inj htodo').1]
  exact hp

theorem positionOf_persisting {now : ℤ} {run : PersistRun T}
    (hs : s.sessions t = .active now (.persisting run)) : positionOf s (some t) = run.position := by
  simp only [positionOf, posOf, openRun, hs]

/-- The pair rows after a rollback to the savepoint. -/
theorem pairsInv_conflict {now : ℤ} {run : PersistRun T} {p : PairPlan T}
    {rest : List (PairPlan T)} {pid : Nat} (hinv : PairsInv s)
    (hs : s.sessions t = .active now (.persisting run)) (htodo : run.todo = p :: rest)
    (hpid : run.position.pairId = some pid) (hpairs : s'.pairs = OwnedTable.erase pid s.pairs)
    (hnext : s'.nextPair = s.nextPair)
    (hsess : s'.sessions = Function.update s.sessions t
      (.active now (.persisting (run.drop rest pid)))) : PairsInv s' := by
  have hpair : ∀ pid' a b t' o, HasPair s' pid' a b t' o ↔ pid' ≠ pid ∧ HasPair s pid' a b t' o :=
    fun pid' a b t' o => hasPair_erase hpairs
  have hown := pair_of_savepoint hinv hs htodo hpid
  have hsession := session_goto hsess
  have hkept : live (s.sessions t) = run.kept ++ [pid] := by
    simp only [live, runOf, hs, hpid, Option.toList_some]
  have hkept' : live (s'.sessions t) = run.kept := by
    rw [hsession]
    exact List.append_nil _
  have hnodup := hinv.nodup t
  rw [hkept] at hnodup
  rcases List.nodup_append.mp hnodup with ⟨hnodup, _, hnotin⟩
  have hlive : ∀ pid' t', pid' ∈ live (s'.sessions t') ↔
      pid' ≠ pid ∧ pid' ∈ live (s.sessions t') := by
    intro pid' t'
    by_cases ht : t' = t
    · rw [ht, hkept, hkept']
      simp only [List.mem_append, List.mem_singleton]
      constructor
      · intro hmem
        exact ⟨hnotin pid' hmem pid (List.mem_singleton_self pid), Or.inl hmem⟩
      · rintro ⟨hne, hmem | heq⟩
        · exact hmem
        · exact absurd heq hne
    · rw [stay_goto hsess ht]
      refine ⟨fun hmem => ⟨fun heq => ht ?_, hmem⟩, fun h => h.2⟩
      -- The pair that goes was inserted by `t`.
      rcases (hinv.live_iff pid' t' _).mpr ⟨hmem, rfl⟩ with ⟨a, b, hp⟩
      rw [heq] at hp
      exact (hasPair_unique hp hown).2.2.1
  have howner := owner_goto hsess (by rw [hs]; rfl)
  have hnone : ∀ pid', s.pairs pid' = none → s'.pairs pid' = none := by
    intro pid'
    exact pairs_none_mono fun a b t' o hp => ⟨o, ((hpair _ _ _ _ _).mp hp).2⟩
  refine ⟨fun pid' t' o => ?_, fun t' => ?_, fun pid' hp => ?_, fun t' pid' hp => ?_,
    fun pid' a b t' o hp => ?_, fun t' run' pid' hrun hp => ?_, fun t' => ?_⟩
  · rw [hlive, howner, and_assoc, ← hinv.live_iff pid' t' o]
    simp only [hpair, exists_and_left]
  · by_cases ht : t' = t
    · rw [ht, hkept']
      exact hnodup
    · rw [stay_goto hsess ht]
      exact hinv.nodup t'
  · rw [hnext] at hp
    exact hnone pid' (hinv.fresh pid' hp)
  · -- The id that goes had been given out, and its row is gone.
    rw [hnext]
    by_cases ht : t' = t
    · rw [ht, hsession] at hp
      rcases List.mem_append.mp hp with hmem | hmem
      · have hold : pid' ∈ droppedOf (s.sessions t) := by
          rw [hs]
          exact hmem
        exact ⟨(hinv.dropped t pid' hold).1, hnone pid' (hinv.dropped t pid' hold).2⟩
      · rw [List.mem_singleton.mp hmem]
        refine ⟨?_, ?_⟩
        · by_contra hlt
          exact pairs_none_iff.mp (hinv.fresh pid (by omega)) _ _ _ _ hown
        · rw [hpairs, OwnedTable.erase_self]
    · rw [stay_goto hsess ht] at hp
      exact ⟨(hinv.dropped t' pid' hp).1, hnone pid' (hinv.dropped t' pid' hp).2⟩
  · exact hinv.distinct pid' a b t' o ((hpair _ _ _ _ _).mp hp).2
  · -- `t` has no savepoint any more, and no other session has the pair in its own.
    by_cases ht : t' = t
    · rw [ht, hsession] at hrun
      rw [← Option.some.inj hrun] at hp
      cases hp
    · rw [stay_goto hsess ht] at hrun
      rcases hinv.plan t' run' pid' hrun hp with ⟨p', rest', htodo', hhas⟩
      refine ⟨p', rest', htodo', (hpair _ _ _ _ _).mpr ⟨fun heq => ht ?_, hhas⟩⟩
      rw [heq] at hhas
      exact (hasPair_unique hhas hown).2.2.1
  · have hcounted := hinv.counted t
    rw [hs] at hcounted
    exact counted_goto hinv hsess (counted_persisting hcounted id) t'

section Commit

variable {now : ℤ} {reply : Reply T}

/-- Once a transaction has committed, its rows are in no savepoint, as before. -/
theorem positionOf_commit (hs : s.sessions t = .active now (.done reply))
    (hsess : s'.sessions = Function.update s.sessions t (.committed reply)) (o : Option Nat) :
    positionOf s' (OwnedTable.settle t o) = positionOf s o := by
  by_cases ho : o = some t
  · rw [ho, OwnedTable.settle_self]
    simp only [positionOf, posOf, openRun, hs]
  · rw [OwnedTable.settle_other ho, positionOf_goto hsess, if_neg ho]

/-- The pair rows after a commit. -/
theorem pairsInv_commit (hinv : PairsInv s) (hs : s.sessions t = .active now (.done reply))
    (hpairs : s'.pairs = OwnedTable.commit t s.pairs) (hnext : s'.nextPair = s.nextPair)
    (hsess : s'.sessions = Function.update s.sessions t (.committed reply)) : PairsInv s' := by
  have hpair : ∀ pid a b t' o, HasPair s' pid a b t' o ↔
      ∃ o', HasPair s pid a b t' o' ∧ OwnedTable.settle t o' = o :=
    fun pid a b t' o => hasPair_commit hpairs
  have hrun : runOf (.committed reply) = runOf (s.sessions t) := by
    rw [hs]
    cases reply <;> rfl
  have hlive : ∀ t', live (s'.sessions t') = live (s.sessions t') := by
    intro t'
    by_cases ht : t' = t
    · rw [ht, session_goto hsess]
      simp only [live, hrun]
    · rw [stay_goto hsess ht]
  have hdropped : ∀ t', droppedOf (s'.sessions t') = droppedOf (s.sessions t') := by
    intro t'
    by_cases ht : t' = t
    · rw [ht, session_goto hsess]
      simp only [droppedOf, hrun]
    · rw [stay_goto hsess ht]
  have howner : ∀ t', ownerOf t' (s'.sessions t')
      = OwnedTable.settle t (ownerOf t' (s.sessions t')) := by
    intro t'
    by_cases ht : t' = t
    · rw [ht, session_goto hsess, hs]
      exact (OwnedTable.settle_self t).symm
    · rw [stay_goto hsess ht]
      refine (OwnedTable.settle_other ?_).symm
      intro ho
      exact ht (ownerOf_eq_some ho).symm
  have hnone : ∀ pid, s.pairs pid = none → s'.pairs pid = none := by
    intro pid
    refine pairs_none_mono fun a b t' o hp => ?_
    rcases (hpair _ _ _ _ _).mp hp with ⟨o', hp', _⟩
    exact ⟨o', hp'⟩
  refine ⟨fun pid t' o => ?_, fun t' => ?_, fun pid hpid => ?_, fun t' pid hpid => ?_,
    fun pid a b t' o hp => ?_, fun t' run pid hopen hpid => ?_, fun t' => ?_⟩
  · rw [hlive, howner]
    constructor
    · rintro ⟨a, b, hp⟩
      rcases (hpair _ _ _ _ _).mp hp with ⟨o', hp', rfl⟩
      have hmem := (hinv.live_iff pid t' o').mp ⟨a, b, hp'⟩
      exact ⟨hmem.1, by rw [hmem.2]⟩
    · rintro ⟨hmem, ho⟩
      rcases (hinv.live_iff pid t' _).mpr ⟨hmem, rfl⟩ with ⟨a, b, hp⟩
      exact ⟨a, b, (hpair _ _ _ _ _).mpr ⟨_, hp, ho.symm⟩⟩
  · rw [hlive]
    exact hinv.nodup t'
  · rw [hnext] at hpid
    exact hnone pid (hinv.fresh pid hpid)
  · rw [hdropped] at hpid
    rw [hnext]
    exact ⟨(hinv.dropped t' pid hpid).1, hnone pid (hinv.dropped t' pid hpid).2⟩
  · rcases (hpair _ _ _ _ _).mp hp with ⟨o', hp', _⟩
    exact hinv.distinct pid a b t' o' hp'
  · -- A session with a savepoint is not the one that commits.
    by_cases ht : t' = t
    · rw [ht, session_goto hsess] at hopen
      cases hopen
    · rw [stay_goto hsess ht] at hopen
      rcases hinv.plan t' run pid hopen hpid with ⟨p, rest, htodo, hp⟩
      refine ⟨p, rest, htodo, (hpair _ _ _ _ _).mpr ⟨some t', hp, ?_⟩⟩
      exact OwnedTable.settle_other fun ho => ht (Option.some.inj ho)
  · refine counted_goto hinv hsess (fun run hr => ?_) t'
    rw [hrun] at hr
    have hcount := hinv.counted t run hr
    exact ⟨hcount.1, fun _ => hcount.2 (by rw [hs]; rfl)⟩

/-- A matched row loses its owner together with its pair. -/
theorem matchedInv_commit (hinv : MatchedInv s) (hs : s.sessions t = .active now (.done reply))
    (hpairs : s'.pairs = OwnedTable.commit t s.pairs)
    (hmatched : s'.matched = OwnedTable.commit t s.matched)
    (hsess : s'.sessions = Function.update s.sessions t (.committed reply)) : MatchedInv s' := by
  intro x pid o
  rw [hmatched, OwnedTable.commit_eq_some]
  constructor
  · rintro ⟨o', hrow, rfl⟩
    rcases (hinv x pid o').mp hrow with ⟨a, b, t', hp, hmem⟩
    refine ⟨a, b, t', (hasPair_commit hpairs).mpr ⟨o', hp, rfl⟩, ?_⟩
    rw [positionOf_commit hs hsess]
    exact hmem
  · rintro ⟨a, b, t', hp, hmem⟩
    rcases (hasPair_commit hpairs).mp hp with ⟨o', hp', rfl⟩
    rw [positionOf_commit hs hsess] at hmem
    exact ⟨o', (hinv x pid o').mpr ⟨a, b, t', hp', hmem⟩, rfl⟩

/-- The transaction's own discrepancies hang off its pairs or older ones. -/
theorem linkInv_commit (hinv : LinkInv s) (hs : s.sessions t = .active now (.done reply))
    (hpairs : s'.pairs = OwnedTable.commit t s.pairs)
    (hd : s'.discrepancies = RowStore.commit t s.discrepancies)
    (hsess : s'.sessions = Function.update s.sessions t (.committed reply)) : LinkInv s' := by
  intro k o d pid hl hpid
  rw [hd] at hl
  -- The pair has the owner that was left to it, which is where it was looked for.
  have hsettled : ∀ o₀ o', (o' = none ∨ o' = o₀) →
      OwnedTable.settle t o' = none ∨ OwnedTable.settle t o' = OwnedTable.settle t o₀ := by
    rintro o₀ o' (rfl | rfl)
    · exact Or.inl (OwnedTable.settle_none t)
    · exact Or.inr rfl
  have hold : ∃ o₀, RowStore.Layer (s.discrepancies k) o₀ (some d) ∧
      o = OwnedTable.settle t o₀ := by
    rcases RowStore.layer_commit hl with ⟨hold, hne⟩ | ⟨rfl, hold⟩
    · exact ⟨o, hold, (OwnedTable.settle_other hne).symm⟩
    · exact ⟨some t, hold, (OwnedTable.settle_self t).symm⟩
  rcases hold with ⟨o₀, hold, rfl⟩
  rcases hinv k o₀ d pid hold hpid with ⟨a, b, t', o', hp, ho', hr⟩
  refine ⟨a, b, t', OwnedTable.settle t o', (hasPair_commit hpairs).mpr ⟨o', hp, rfl⟩,
    hsettled o₀ o' ho', ?_⟩
  rw [positionOf_commit hs hsess]
  exact hr

/-- A commit gives the transaction's rows away. -/
theorem matchInv_commit (hinv : MatchInv s) (hs : s.sessions t = .active now (.done reply)) :
    MatchInv ((s.commitTx t).goto t (.committed reply)) where
  pairs := pairsInv_commit hinv.pairs hs rfl rfl rfl
  matched := matchedInv_commit hinv.matched hs rfl rfl rfl
  link := linkInv_commit hinv.link hs rfl rfl rfl

end Commit

section Abort

variable {now : ℤ} {work : Work T}

/-- The pair rows after a rollback. -/
theorem pairsInv_abort (hinv : PairsInv s) (hs : s.sessions t = .active now work)
    (hpairs : s'.pairs = OwnedTable.rollback t s.pairs) (hnext : s'.nextPair = s.nextPair)
    (hsess : s'.sessions = Function.update s.sessions t .rolledBack) : PairsInv s' := by
  have hpair : ∀ pid a b t' o, HasPair s' pid a b t' o ↔
      HasPair s pid a b t' o ∧ o ≠ some t := fun pid a b t' o => hasPair_rollback hpairs
  have hself : ownerOf t (s.sessions t) = some t := by
    rw [hs]
    rfl
  have howner : ∀ t', t' ≠ t → ownerOf t' (s.sessions t') ≠ some t := by
    intro t' ht ho
    exact ht (ownerOf_eq_some ho).symm
  have hnone : ∀ pid, s.pairs pid = none → s'.pairs pid = none := by
    intro pid
    exact pairs_none_mono fun a b t' o hp => ⟨o, ((hpair _ _ _ _ _).mp hp).1⟩
  refine ⟨fun pid t' o => ?_, fun t' => ?_, fun pid hpid => ?_, fun t' pid hpid => ?_,
    fun pid a b t' o hp => ?_, fun t' run pid hopen hpid => ?_, fun t' => ?_⟩
  · simp only [hpair, exists_and_right, hinv.live_iff pid t' o]
    by_cases ht : t' = t
    · -- It has none left.
      rw [ht, session_goto hsess, hself]
      constructor
      · rintro ⟨⟨_, ho⟩, hne⟩
        exact absurd ho hne
      · rintro ⟨hmem, _⟩
        cases hmem
    · rw [stay_goto hsess ht]
      constructor
      · exact fun h => h.1
      · rintro ⟨hmem, ho⟩
        exact ⟨⟨hmem, ho⟩, ho ▸ howner t' ht⟩
  · by_cases ht : t' = t
    · rw [ht, session_goto hsess]
      exact List.nodup_nil
    · rw [stay_goto hsess ht]
      exact hinv.nodup t'
  · rw [hnext] at hpid
    exact hnone pid (hinv.fresh pid hpid)
  · rw [hnext]
    by_cases ht : t' = t
    · rw [ht, session_goto hsess] at hpid
      cases hpid
    · rw [stay_goto hsess ht] at hpid
      exact ⟨(hinv.dropped t' pid hpid).1, hnone pid (hinv.dropped t' pid hpid).2⟩
  · exact hinv.distinct pid a b t' o ((hpair _ _ _ _ _).mp hp).1
  · by_cases ht : t' = t
    · rw [ht, session_goto hsess] at hopen
      cases hopen
    · rw [stay_goto hsess ht] at hopen
      rcases hinv.plan t' run pid hopen hpid with ⟨p, rest, htodo, hp⟩
      exact ⟨p, rest, htodo, (hpair _ _ _ _ _).mpr ⟨hp, fun ho => ht (Option.some.inj ho)⟩⟩
  · refine counted_goto hinv hsess (fun run hr => ?_) t'
    cases hr

/-- A matched row goes with its pair, since both are of `t`. -/
theorem matchedInv_abort (hinv : MatchedInv s)
    (hpairs : s'.pairs = OwnedTable.rollback t s.pairs)
    (hmatched : s'.matched = OwnedTable.rollback t s.matched)
    (hsess : s'.sessions = Function.update s.sessions t .rolledBack) : MatchedInv s' := by
  intro x pid o
  rw [hmatched, OwnedTable.rollback_eq_some, hinv x pid o]
  constructor
  · rintro ⟨⟨a, b, t', hp, hmem⟩, ho⟩
    refine ⟨a, b, t', (hasPair_rollback hpairs).mpr ⟨hp, ho⟩, ?_⟩
    rw [positionOf_goto hsess, if_neg ho]
    exact hmem
  · rintro ⟨a, b, t', hp, hmem⟩
    rcases (hasPair_rollback hpairs).mp hp with ⟨hp, ho⟩
    rw [positionOf_goto hsess, if_neg ho] at hmem
    exact ⟨⟨a, b, t', hp, hmem⟩, ho⟩

/-- A discrepancy that stays is not of `t`, and neither is its pair. -/
theorem linkInv_abort (hinv : LinkInv s) (hpairs : s'.pairs = OwnedTable.rollback t s.pairs)
    (hd : s'.discrepancies = RowStore.rollback t s.discrepancies)
    (hsess : s'.sessions = Function.update s.sessions t .rolledBack) : LinkInv s' := by
  intro k o d pid hl hpid
  rw [hd] at hl
  rcases RowStore.layer_rollback hl with ⟨hold, hne⟩
  rcases hinv k o d pid hold hpid with ⟨a, b, t', o', hp, ho', hr⟩
  have hne' : o' ≠ some t := by
    rcases ho' with rfl | rfl
    · exact fun h => by cases h
    · exact hne
  refine ⟨a, b, t', o', (hasPair_rollback hpairs).mpr ⟨hp, hne'⟩, ho', ?_⟩
  rw [positionOf_goto hsess, if_neg hne']
  exact hr

/-- A rollback takes the transaction's rows away. -/
theorem matchInv_abort (hinv : MatchInv s) (hs : s.sessions t = .active now work) :
    MatchInv ((s.rollbackTx t).goto t .rolledBack) where
  pairs := pairsInv_abort hinv.pairs hs rfl rfl rfl
  matched := matchedInv_abort hinv.matched rfl rfl rfl
  link := linkInv_abort hinv.link rfl rfl rfl

end Abort

theorem matchInv_initial (h : Initial s) : MatchInv s := by
  rcases h with ⟨hpairs, hmatched, hd, hsess⟩
  have hnone : ∀ pid a b t o, ¬ HasPair s pid a b t o := by
    intro pid
    refine pairs_none_iff.mp ?_
    rw [hpairs]
    rfl
  refine ⟨⟨fun pid t o => ?_, fun t => ?_, fun pid _ => pairs_none_iff.mpr (hnone pid),
    fun t pid hpid => ?_, fun pid a b t o hp => absurd hp (hnone _ _ _ _ _),
    fun t run pid hrun _ => ?_, fun t run hrun => ?_⟩, fun x pid o => ?_, fun k o d pid hl _ => ?_⟩
  · rw [hsess t]
    constructor
    · rintro ⟨a, b, hp⟩
      exact absurd hp (hnone _ _ _ _ _)
    · rintro ⟨hmem, _⟩
      cases hmem
  · rw [hsess t]
    exact List.nodup_nil
  · rw [hsess t] at hpid
    cases hpid
  · rw [hsess t] at hrun
    cases hrun
  · rw [hsess t] at hrun
    cases hrun
  · rw [hmatched]
    constructor
    · intro hm
      cases hm
    · rintro ⟨a, b, t, hp, _⟩
      exact absurd hp (hnone _ _ _ _ _)
  · rw [hd] at hl
    cases (RowStore.layer_blank hl).2

/-- A step of the world around the sessions. -/
theorem matchInv_world (hinv : MatchInv s) (hpairs : s'.pairs = s.pairs)
    (hmatched : s'.matched = s.matched) (hd : s'.discrepancies = s.discrepancies)
    (hnext : s'.nextPair = s.nextPair) (hsess : s'.sessions = s.sessions) : MatchInv s' := by
  have hstay : s'.sessions = Function.update s.sessions 0 (s.sessions 0) := by
    rw [hsess, Function.update_eq_self]
  exact matchInv_goto hinv hpairs hmatched hd hnext hstay (quietSession_refl 0 _)

end Moves

end Invariant

section Steps

variable {T : Type} [DecidableEq T] {s s' : GoldDb T} {t : Nat}

/-- One more matched row of the pair whose savepoint is open. -/
theorem matchInv_record {pid : Nat} {now : ℤ} {run : PersistRun T} {p : PairPlan T}
    {rest : List (PairPlan T)} {pos : Position} {y : T} (hinv : MatchInv s)
    (hs : s.sessions t = .active now (.persisting run)) (htodo : run.todo = p :: rest)
    (hpid : run.position.pairId = some pid) (hpid' : pos.pairId = some pid)
    (hrecorded : ∀ x, x ∈ recordedIds pos pid p.a p.b ↔
      x = y ∨ x ∈ recordedIds run.position pid p.a p.b)
    (hbefore : ∀ c, run.position ≠ .discrepancyRaised pid c) (hfree : s.matched y = none)
    (hpairs : s'.pairs = s.pairs) (hmatched : s'.matched = OwnedTable.insert t y pid s.matched)
    (hd : s'.discrepancies = s.discrepancies) (hnext : s'.nextPair = s.nextPair)
    (hsess : s'.sessions = Function.update s.sessions t
      (.active now (.persisting { run with position := pos }))) : MatchInv s' := by
  have hpair : ∀ pid a b t o, HasPair s' pid a b t o ↔ HasPair s pid a b t o := by
    intro pid a b t' o
    exact hasPair_of_pairs (congrFun hpairs pid)
  have hsteady : SteadySession t (s.sessions t)
      (.active now (.persisting { run with position := pos })) := by
    rw [hs]
    exact steadySession_position (hpid'.trans hpid.symm)
  have hown := pair_of_savepoint hinv.pairs hs htodo hpid
  have hposition := positionOf_persisting hs
  have hposition' : positionOf s' (some t) = pos := positionOf_persisting (session_goto hsess)
  -- Only this pair, as its own inserter sees it, gains a matched row.
  have hiff : ∀ x pid' a b t' o, HasPair s pid' a b t' o →
      (x ∈ recordedIds (positionOf s' o) pid' a b ↔
        (x = y ∧ pid' = pid ∧ o = some t) ∨ x ∈ recordedIds (positionOf s o) pid' a b) := by
    intro x pid' a b t' o hp
    by_cases hne : pid' = pid
    · subst hne
      rcases hasPair_unique hp hown with ⟨rfl, rfl, _, rfl⟩
      rw [hposition, hposition', hrecorded x]
      simp only [and_true]
    · by_cases ho : o = some t
      · have hne' : some pid ≠ some pid' := fun heq => hne (Option.some.inj heq).symm
        have hrun : run.position.pairId ≠ some pid' := hpid ▸ hne'
        have hpos : pos.pairId ≠ some pid' := hpid' ▸ hne'
        rw [ho, hposition, hposition', recordedIds_of_ne hrun, recordedIds_of_ne hpos]
        simp only [hne, false_and, and_false, false_or]
      · rw [positionOf_goto hsess, if_neg ho]
        simp only [ho, and_false, false_or]
  refine ⟨pairsInv_steady hinv.pairs hpair hnext (steady_goto hsess hsteady), fun x pid' o => ?_,
    linkInv_of_layers hinv.link (fun k o d pid' hl hdp => ?_) (fun pid' a b t' o hp => ?_)⟩
  · rw [hmatched]
    simp only [hpair]
    by_cases hx : x = y
    · subst hx
      rw [OwnedTable.insert_self]
      constructor
      · intro heq
        have hrow := OwnedTable.Owned.mk.inj (Option.some.inj heq)
        rw [← hrow.1, ← hrow.2]
        exact ⟨p.a, p.b, t, hown, (hiff x _ _ _ _ _ hown).mpr (Or.inl ⟨rfl, rfl, rfl⟩)⟩
      · rintro ⟨a, b, t', hp, hmem⟩
        rcases (hiff x _ _ _ _ _ hp).mp hmem with ⟨_, rfl, rfl⟩ | hmem
        · rfl
        · -- A row of another pair would have been there before.
          have hm := (hinv.matched x pid' o).mpr ⟨a, b, t', hp, hmem⟩
          rw [hfree] at hm
          cases hm
    · rw [OwnedTable.insert_other _ _ _ hx, hinv.matched x pid' o]
      constructor
      · rintro ⟨a, b, t', hp, hmem⟩
        exact ⟨a, b, t', hp, (hiff x _ _ _ _ _ hp).mpr (Or.inr hmem)⟩
      · rintro ⟨a, b, t', hp, hmem⟩
        rcases (hiff x _ _ _ _ _ hp).mp hmem with ⟨heq, _, _⟩ | hmem
        · exact absurd heq hx
        · exact ⟨a, b, t', hp, hmem⟩
  · rw [hd] at hl
    exact ⟨o, d, hl, hdp, Or.inr rfl⟩
  · refine ⟨(hpair pid' a b t' o).mpr hp, fun k hr hpos => ?_⟩
    by_cases ho : o = some t
    · subst ho
      rw [hposition', hpid'] at hpos
      rw [hposition, ← Option.some.inj hpos] at hr
      rcases hr hpid with ⟨c, hc, _⟩
      exact absurd hc (hbefore c)
    · rw [positionOf_goto hsess, if_neg ho] at hpos ⊢
      exact hr hpos

section Undo

variable (s t) (p : PairPlan T) {pos : Position} {pid : Nat}

@[simp] theorem undoSavepoint_sessions (pos : Position) :
    (s.undoSavepoint t p pos).sessions = s.sessions := by
  cases pos <;> rfl

@[simp] theorem undoSavepoint_nextPair (pos : Position) :
    (s.undoSavepoint t p pos).nextPair = s.nextPair := by
  cases pos <;> rfl

theorem undoSavepoint_pairs (h : pos.pairId = some pid) :
    (s.undoSavepoint t p pos).pairs = OwnedTable.erase pid s.pairs := by
  cases pos with
  | between => cases h
  | _ id =>
      rw [← Option.some.inj h]
      rfl

/-- The rows recorded so far are withdrawn, and no others. -/
theorem undoSavepoint_matched (h : pos.pairId = some pid) (x : T) :
    (s.undoSavepoint t p pos).matched x
      = if x ∈ recordedIds pos pid p.a p.b then none else s.matched x := by
  have herase : ∀ (y : T) (tbl : OwnedTable.Table T Nat Nat),
      OwnedTable.erase y tbl x = if x = y then none else tbl x := by
    intro y tbl
    by_cases hx : x = y
    · rw [if_pos hx, hx, OwnedTable.erase_self]
    · rw [if_neg hx, OwnedTable.erase_other _ hx]
  have hboth : OwnedTable.erase p.b (OwnedTable.erase p.a s.matched) x
      = if x ∈ [p.a, p.b] then none else s.matched x := by
    rw [herase, herase]
    simp only [List.mem_cons, List.not_mem_nil, or_false]
    by_cases hb : x = p.b
    · simp only [hb, or_true, if_true]
    · simp only [hb, or_false, if_false]
  cases pos with
  | between => cases h
  | pairInserted id =>
      rw [← Option.some.inj h]
      simp only [recordedIds, if_true, List.not_mem_nil, if_false]
      rfl
  | firstRecorded id =>
      rw [← Option.some.inj h]
      simp only [recordedIds, if_true, List.mem_singleton]
      exact herase p.a s.matched
  | bothRecorded id => exact hboth
  | discrepancyRaised id c => exact hboth

/-- The discrepancy raised in the savepoint is gone. -/
theorem undoSavepoint_layer (h : pos.pairId = some pid) {k : Key T} {o : Option Nat}
    {v : Option DiscrepancyRow}
    (hl : RowStore.Layer ((s.undoSavepoint t p pos).discrepancies k) o v) :
    RowStore.Layer (s.discrepancies k) o v ∧
      ∀ c, pos = .discrepancyRaised pid c → k = (p.a, c) → o ≠ some t := by
  cases pos with
  | discrepancyRaised id c =>
      rcases RowStore.layer_undo hl with ⟨hold, hne⟩
      refine ⟨hold, fun c' hc hk ho => hne ⟨?_, ho⟩⟩
      rw [hk, (Position.discrepancyRaised.inj hc).2]
  | _ =>
      refine ⟨hl, fun c hc => ?_⟩
      cases hc

end Undo

section Conflict

variable {now : ℤ} {run : PersistRun T} {p : PairPlan T} {rest : List (PairPlan T)} {pid : Nat}

/-- The matched rows after a rollback to the savepoint: those of the pair are
    withdrawn with it. -/
theorem matchedInv_conflict (hinv : MatchInv s) (hs : s.sessions t = .active now (.persisting run))
    (htodo : run.todo = p :: rest) (hpid : run.position.pairId = some pid)
    (hpairs : s'.pairs = OwnedTable.erase pid s.pairs)
    (hmatched : ∀ x, s'.matched x
      = if x ∈ recordedIds run.position pid p.a p.b then none else s.matched x)
    (hsess : s'.sessions = Function.update s.sessions t
      (.active now (.persisting (run.drop rest pid)))) : MatchedInv s' := by
  have hown := pair_of_savepoint hinv.pairs hs htodo hpid
  have hposition := positionOf_persisting hs
  have hrecorded : ∀ o pid', pid' ≠ pid → ∀ a b : T,
      recordedIds (positionOf s' o) pid' a b = recordedIds (positionOf s o) pid' a b := by
    intro o pid' hne a b
    rw [positionOf_goto hsess]
    by_cases ho : o = some t
    · rw [if_pos ho, ho, hposition]
      refine (recordedIds_of_ne ?_ a b).symm
      rw [hpid]
      exact fun heq => hne (Option.some.inj heq).symm
    · rw [if_neg ho]
  intro x pid' o
  rw [hmatched]
  constructor
  · intro hm
    split at hm
    · cases hm
    · next hx =>
        rcases (hinv.matched x pid' o).mp hm with ⟨a, b, t', hp, hmem⟩
        have hne : pid' ≠ pid := by
          rintro rfl
          rcases hasPair_unique hp hown with ⟨rfl, rfl, rfl, rfl⟩
          rw [hposition] at hmem
          exact hx hmem
        refine ⟨a, b, t', (hasPair_erase hpairs).mpr ⟨hne, hp⟩, ?_⟩
        rw [hrecorded o pid' hne]
        exact hmem
  · rintro ⟨a, b, t', hp, hmem⟩
    rcases (hasPair_erase hpairs).mp hp with ⟨hne, hp⟩
    rw [hrecorded o pid' hne] at hmem
    have hm := (hinv.matched x pid' o).mpr ⟨a, b, t', hp, hmem⟩
    split
    · next hx =>
        -- Its row belongs to the other pair.
        rw [← hposition] at hx
        rw [(hinv.matched x pid (some t)).mpr ⟨p.a, p.b, t, hown, hx⟩] at hm
        exact absurd (OwnedTable.Owned.mk.inj (Option.some.inj hm)).1.symm hne
    · exact hm

omit [DecidableEq T] in
/-- The discrepancies after it: what was raised in the savepoint is gone. -/
theorem linkInv_conflict (hinv : MatchInv s) (hs : s.sessions t = .active now (.persisting run))
    (htodo : run.todo = p :: rest) (hpid : run.position.pairId = some pid)
    (hpairs : s'.pairs = OwnedTable.erase pid s.pairs)
    (hlayers : ∀ k o d, RowStore.Layer (s'.discrepancies k) o (some d) →
      RowStore.Layer (s.discrepancies k) o (some d) ∧
        ∀ c, run.position = .discrepancyRaised pid c → k = (p.a, c) → o ≠ some t)
    (hsess : s'.sessions = Function.update s.sessions t
      (.active now (.persisting (run.drop rest pid)))) : LinkInv s' := by
  have hown := pair_of_savepoint hinv.pairs hs htodo hpid
  intro k o d pid' hl hd
  rcases hlayers k o d hl with ⟨hl, hgone⟩
  rcases hinv.link k o d pid' hl hd with ⟨a, b, t', o', hp, ho', hr⟩
  have hne : pid' ≠ pid := by
    rintro rfl
    -- It would be the discrepancy raised in the savepoint.
    rcases hasPair_unique hp hown with ⟨rfl, rfl, rfl, rfl⟩
    rw [positionOf_persisting hs] at hr
    rcases hr hpid with ⟨c, hc, hk⟩
    rcases ho' with hnone | heq
    · cases hnone
    · exact hgone c hc hk heq.symm
  refine ⟨a, b, t', o', (hasPair_erase hpairs).mpr ⟨hne, hp⟩, ho', fun hpos => ?_⟩
  rw [positionOf_goto hsess] at hpos ⊢
  by_cases ho : o' = some t
  · rw [if_pos ho] at hpos
    cases hpos
  · rw [if_neg ho] at hpos ⊢
    exact hr hpos

/-- A conflict undoes the pair and nothing else. -/
theorem matchInv_conflict (hinv : MatchInv s) (hs : s.sessions t = .active now (.persisting run))
    (htodo : run.todo = p :: rest) (hpid : run.position.pairId = some pid) :
    MatchInv ((s.undoSavepoint t p run.position).work t now (.persisting (run.drop rest pid))) := by
  have hpairs : ((s.undoSavepoint t p run.position).work t now
      (.persisting (run.drop rest pid))).pairs = OwnedTable.erase pid s.pairs :=
    undoSavepoint_pairs s t p hpid
  have hsess : ((s.undoSavepoint t p run.position).work t now
      (.persisting (run.drop rest pid))).sessions = Function.update s.sessions t
        (.active now (.persisting (run.drop rest pid))) := by
    simp only [GoldDb.work, GoldDb.goto, undoSavepoint_sessions]
  refine ⟨?_, ?_, ?_⟩
  · exact pairsInv_conflict hinv.pairs hs htodo hpid hpairs (undoSavepoint_nextPair s t p _) hsess
  · exact matchedInv_conflict hinv hs htodo hpid hpairs (undoSavepoint_matched s t p hpid) hsess
  · exact linkInv_conflict hinv hs htodo hpid hpairs
      (fun _ _ _ hl => undoSavepoint_layer s t p hpid hl) hsess

end Conflict

/-- The discrepancy of a pair, raised in its savepoint. -/
theorem matchInv_raise {now : ℤ} {run : PersistRun T} {p : PairPlan T} {rest : List (PairPlan T)}
    {pid n : Nat} {f : Finding} (hinv : MatchInv s)
    (hs : s.sessions t = .active now (.persisting run)) (htodo : run.todo = p :: rest)
    (hpos : run.position = .bothRecorded pid)
    (hpairs : s'.pairs = OwnedTable.amend pid (fun r => { r with status := .discrepancy }) s.pairs)
    (hmatched : s'.matched = s.matched) (hnext : s'.nextPair = s.nextPair)
    (hd : s'.discrepancies = RowStore.write t (p.a, f.classification)
      (fun _ => some (newDiscrepancy (some pid) f n now)) s.discrepancies)
    (hsess : s'.sessions = Function.update s.sessions t (.active now (.persisting
      { run with position := .discrepancyRaised pid f.classification }))) : MatchInv s' := by
  have hpid : run.position.pairId = some pid := by
    rw [hpos]
    rfl
  have hpair : ∀ pid' a b t' o, HasPair s' pid' a b t' o ↔ HasPair s pid' a b t' o :=
    fun pid' a b t' o => hasPair_amend hpairs
  have hquiet : QuietSession t (s.sessions t) (.active now (.persisting
      { run with position := .discrepancyRaised pid f.classification })) := by
    rw [hs]
    refine ⟨steadySession_position hpid.symm, fun pid' a b => ?_, fun pid' a k hr hpid' => ?_⟩
    · simp only [posOf, openRun, hpos, recordedIds]
    · -- Nothing was raised in the savepoint before.
      rcases hr (hpid.trans hpid') with ⟨c, hc, _⟩
      have hboth : run.position = .discrepancyRaised pid' c := hc
      rw [hpos] at hboth
      cases hboth
  have hall := quiet_goto hsess hquiet
  refine ⟨pairsInv_steady hinv.pairs hpair hnext fun t' => (hall t').toSteadySession,
    matchedInv_quiet hinv.matched hpair hmatched hall, fun k o d pid' hl hdp => ?_⟩
  rw [hd] at hl
  rcases RowStore.layer_write hl with hold | ⟨rfl, rfl, hv⟩
  · rcases hinv.link k o d pid' hold hdp with ⟨a, b, t', o', hp, ho', hr⟩
    exact ⟨a, b, t', o', (hpair _ _ _ _ _).mpr hp, ho', raisedIn_quiet hall hr⟩
  · rw [Option.some.inj hv] at hdp
    have heq : pid = pid' := Option.some.inj hdp
    subst heq
    refine ⟨p.a, p.b, t, some t,
      (hpair _ _ _ _ _).mpr (pair_of_savepoint hinv.pairs hs htodo hpid), Or.inr rfl, fun _ => ?_⟩
    exact ⟨f.classification, positionOf_persisting (session_goto hsess), rfl⟩

/-- A change of a discrepancy that refers to no pair the row did not refer to
    before. -/
def KeepsPairId (f : Option DiscrepancyRow → Option DiscrepancyRow) : Prop :=
  ∀ v d' pid, f v = some d' → d'.reconciliationPairId = some pid →
    ∃ d, v = some d ∧ d.reconciliationPairId = some pid

theorem keepsPairId_id : KeepsPairId id := by
  intro v d' pid h hpid
  exact ⟨d', h, hpid⟩

theorem keepsPairId_close (req : Closing) (status : DiscrepancyRow → DiscrepancyStatus) (n : Nat)
    (now : ℤ) : KeepsPairId (Option.map fun d => closeDiscrepancy req (status d) n now d) := by
  intro v d' pid h hpid
  rcases Option.map_eq_some_iff.mp h with ⟨d, hd, heq⟩
  rw [← heq] at hpid
  exact ⟨d, hd, hpid⟩

theorem keepsPairId_upsert (f : Finding) (n : Nat) (now : ℤ) :
    KeepsPairId (upsertMissingSettlement f n now) := by
  intro v d' pid h hpid
  cases v with
  | none =>
      rw [← Option.some.inj h] at hpid
      cases hpid
  | some d =>
      refine ⟨d, rfl, ?_⟩
      simp only [upsertMissingSettlement] at h
      split at h
      · rw [← Option.some.inj h] at hpid
        exact hpid
      · rw [← Option.some.inj h] at hpid
        exact hpid

/-- A quiet step of `t` that writes a discrepancy. -/
theorem matchInv_write {session : Session T} {k : Key T}
    {f : Option DiscrepancyRow → Option DiscrepancyRow} (hinv : MatchInv s)
    (hf : KeepsPairId f) (hpairs : s'.pairs = s.pairs) (hmatched : s'.matched = s.matched)
    (hd : s'.discrepancies = RowStore.write t k f s.discrepancies)
    (hnext : s'.nextPair = s.nextPair)
    (hsess : s'.sessions = Function.update s.sessions t session)
    (hquiet : QuietSession t (s.sessions t) session) : MatchInv s' := by
  refine matchInv_quiet hinv (fun pid a b t' o => hasPair_of_pairs (congrFun hpairs pid)) hmatched
    hnext hsess hquiet fun k' o d pid hl hpid => ?_
  rw [hd] at hl
  rcases RowStore.layer_write hl with hold | ⟨rfl, rfl, hv⟩
  · exact ⟨o, d, hold, hpid, Or.inr rfl⟩
  · -- What was written comes from what `t` saw in the row.
    rcases hf _ d pid hv.symm hpid with ⟨d₀, hvisible, hd₀⟩
    rcases RowStore.layer_visible t (s.discrepancies k') with ⟨o₀, ho₀, hl₀⟩
    rw [hvisible] at hl₀
    exact ⟨o₀, d₀, hl₀, hd₀, ho₀⟩

/-- A step keeps the invariants. -/
theorem matchInv_step (hinv : MatchInv s) (h : Step s s') : MatchInv s' := by
  cases h with
  -- What happens outside the sessions: no row the invariant speaks of changes.
  | arrive row hnew => exact matchInv_world hinv rfl rfl rfl rfl rfl
  | tick now hlater => exact matchInv_world hinv rfl rfl rfl rfl rfl
  -- A new run is between pairs and has inserted none.
  | beginPersist t plans hidle =>
      refine matchInv_goto hinv rfl rfl rfl rfl rfl ?_
      rw [hidle]
      refine ⟨⟨rfl, rfl, rfl, fun run' pid hrun hpid => ?_, fun _ run hrun => ?_⟩,
        fun _ _ _ => rfl, fun pid a k _ hpid => ?_⟩
      · rw [← Option.some.inj hrun] at hpid
        cases hpid
      · rw [← Option.some.inj hrun]
        exact ⟨rfl, fun _ => rfl⟩
      · cases hpid
  | insertPair t now run p rest hs htodo hpos hdiff hunique =>
      exact matchInv_insert hinv hs htodo hpos hdiff rfl rfl rfl rfl rfl
  | refusePair t now run p rest hs htodo hpos =>
      refine matchInv_goto hinv rfl rfl rfl rfl rfl ?_
      rw [hs]
      refine ⟨steadySession_persisting rfl rfl (fun pid hpid => ?_) id, fun _ _ _ => rfl,
        fun _ _ _ hr => hr⟩
      rw [hpos] at hpid
      cases hpid
  -- The first matched row is that of `a`, the second adds that of `b`.
  | recordFirst t now run p rest pid hs htodo hpos hfree =>
      refine matchInv_record hinv hs htodo (by rw [hpos]; rfl) rfl (fun x => ?_) ?_ hfree rfl rfl
        rfl rfl rfl
      · simp only [hpos, recordedIds, if_true, List.mem_singleton, List.not_mem_nil, or_false]
      · intro c hc
        rw [hpos] at hc
        cases hc
  | recordSecond t now run p rest pid hs htodo hpos hfree =>
      refine matchInv_record hinv hs htodo (by rw [hpos]; rfl) rfl (fun x => ?_) ?_ hfree rfl rfl
        rfl rfl rfl
      · simp only [hpos, recordedIds, if_true, List.mem_cons, List.not_mem_nil, or_false]
        exact or_comm
      · intro c hc
        rw [hpos] at hc
        cases hc
  | raiseDiscrepancy t now run p rest pid f hs htodo hpos hf hnone =>
      exact matchInv_raise hinv hs htodo hpos rfl rfl rfl rfl rfl
  | releasePair t now run p rest pid hs htodo hpos hquiet =>
      refine matchInv_goto hinv rfl rfl rfl rfl rfl ?_
      rw [hs]
      refine quietSession_keep rest 0 (by rw [hpos]; rfl) fun pid' a b => ?_
      rw [hpos]
      rfl
  | releaseRaised t now run p rest pid c hs htodo hpos =>
      refine matchInv_goto hinv rfl rfl rfl rfl rfl ?_
      rw [hs]
      refine quietSession_keep rest 1 (by rw [hpos]; rfl) fun pid' a b => ?_
      rw [hpos]
      rfl
  | conflict t now run p rest pid hs htodo hpos => exact matchInv_conflict hinv hs htodo hpos
  | persistDone t now run hs htodo hpos =>
      refine matchInv_goto hinv rfl rfl rfl rfl rfl ?_
      rw [hs]
      exact quietSession_done hpos
  -- The sweep and the endpoints insert no pair; where they write, pair ids are kept.
  | beginSweep t hidle =>
      exact matchInv_goto hinv rfl rfl rfl rfl rfl (quiet_outside hidle rfl rfl rfl rfl)
  | selectOverdue t now hs =>
      exact matchInv_goto hinv rfl rfl rfl rfl rfl (quiet_outside hs rfl rfl rfl rfl)
  | sweepRow t now o rest raised hs hfree =>
      exact matchInv_write hinv (keepsPairId_upsert _ _ _) rfl rfl rfl rfl rfl
        (quiet_outside hs rfl rfl rfl rfl)
  | sweepDone t now raised hs =>
      exact matchInv_goto hinv rfl rfl rfl rfl rfl (quiet_outside hs rfl rfl rfl rfl)
  | beginResolve t k req hidle =>
      exact matchInv_goto hinv rfl rfl rfl rfl rfl (quiet_outside hidle rfl rfl rfl rfl)
  | resolveUnknown t now k req hs hnone =>
      exact matchInv_goto hinv rfl rfl rfl rfl rfl (quiet_outside hs rfl rfl rfl rfl)
  | resolveClosed t now k req d hs hd hclosed =>
      exact matchInv_goto hinv rfl rfl rfl rfl rfl (quiet_outside hs rfl rfl rfl rfl)
  | resolveLock t now k req d hs hd hopen =>
      exact matchInv_write hinv keepsPairId_id rfl rfl rfl rfl rfl
        (quiet_outside hs rfl rfl rfl rfl)
  | resolveClose t now k req status hs =>
      exact matchInv_write hinv (keepsPairId_close req (fun _ => status) _ _) rfl rfl rfl rfl rfl
        (quiet_outside hs rfl rfl rfl rfl)
  | beginBulk t ids req hids hidle =>
      exact matchInv_goto hinv rfl rfl rfl rfl rfl (quiet_outside hidle rfl rfl rfl rfl)
  | bulkUnknown t now ids k rest found req hs hnone =>
      exact matchInv_goto hinv rfl rfl rfl rfl rfl (quiet_outside hs rfl rfl rfl rfl)
  | bulkLock t now ids k rest found req d hs hd =>
      exact matchInv_write hinv keepsPairId_id rfl rfl rfl rfl rfl
        (quiet_outside hs rfl rfl rfl rfl)
  | bulkSelect t now ids found req hs =>
      exact matchInv_goto hinv rfl rfl rfl rfl rfl (quiet_outside hs rfl rfl rfl rfl)
  | bulkClose t now k rest req resolved skipped hs =>
      exact matchInv_write hinv (keepsPairId_close req DiscrepancyRow.status _ _) rfl rfl rfl rfl
        rfl (quiet_outside hs rfl rfl rfl rfl)
  | bulkDone t now req resolved skipped hs =>
      exact matchInv_goto hinv rfl rfl rfl rfl rfl (quiet_outside hs rfl rfl rfl rfl)
  | commit t now reply hs => exact matchInv_commit hinv hs
  | abort t now work hs => exact matchInv_abort hinv hs

theorem matchInv_of_reachable (h : Transition.Reachable Initial Step s) : MatchInv s := by
  refine Transition.invariant_of_step ?_ ?_ h
  · intro s₀ hinit
    exact matchInv_initial hinit
  · intro a b hinv hstep
    exact matchInv_step hinv hstep

end Steps

section Committed

variable {T : Type}

/-- A row of `gold_reconciliation_pairs` that everybody sees. -/
def CommittedPair (s : GoldDb T) (pid : Nat) (v : PairRow T) : Prop :=
  s.pairs pid = some { value := v, owner := none }

/-- No row of any of the tables belongs to pair `pid`, committed or not. -/
structure NothingLeft (s : GoldDb T) (pid : Nat) : Prop where
  pair : s.pairs pid = none
  matched : ∀ x r, s.matched x = some r → r.value ≠ pid
  discrepancy : ∀ k o d, RowStore.Layer (s.discrepancies k) o (some d) →
    d.reconciliationPairId ≠ some pid

/-- Every row of every table that does not belong to pair `pid` is still
    there. -/
structure OthersKept (s s' : GoldDb T) (pid : Nat) : Prop where
  pairs : ∀ pid', pid' ≠ pid → s'.pairs pid' = s.pairs pid'
  matched : ∀ x r, s.matched x = some r → r.value ≠ pid → s'.matched x = some r
  discrepancies : ∀ k o d, RowStore.Layer (s.discrepancies k) o (some d) →
    d.reconciliationPairId ≠ some pid → RowStore.Layer (s'.discrepancies k) o (some d)

theorem hasPair_of_committed {s : GoldDb T} {pid : Nat} {v : PairRow T}
    (h : CommittedPair s pid v) : HasPair s pid v.a v.b v.xmin none := hasPair_of_some h

/-- A committed pair has its two matched rows, and these are of no other. -/
theorem matched_iff_of_committed {s : GoldDb T} (hinv : MatchInv s) {pid : Nat} {v : PairRow T}
    (h : CommittedPair s pid v) (x : T) :
    s.matched x = some { value := pid, owner := none } ↔ x = v.a ∨ x = v.b := by
  have hrow := hasPair_of_committed h
  rw [hinv.matched x pid none]
  constructor
  · rintro ⟨a, b, t, hp, hmem⟩
    rcases hasPair_unique hp hrow with ⟨rfl, rfl, _, _⟩
    simpa only [positionOf, recordedIds, List.mem_cons, List.not_mem_nil, or_false] using hmem
  · intro hx
    refine ⟨v.a, v.b, v.xmin, hrow, ?_⟩
    simpa only [positionOf, recordedIds, List.mem_cons, List.not_mem_nil, or_false] using hx

/-- Nothing outlives its pair. -/
theorem nothingLeft_of_none {s : GoldDb T} (hinv : MatchInv s) {pid : Nat}
    (h : s.pairs pid = none) : NothingLeft s pid := by
  rw [pairs_none_iff] at h
  refine ⟨pairs_none_iff.mpr h, fun x r hr heq => ?_, fun k o d hl hd => ?_⟩
  · rcases r with ⟨pid', o⟩
    subst heq
    rcases (hinv.matched x pid' o).mp hr with ⟨a, b, t, hp, _⟩
    exact h _ _ _ _ hp
  · rcases hinv.link k o d pid hl hd with ⟨a, b, t, o', hp, _⟩
    exact h _ _ _ _ hp

variable [DecidableEq T]

/-- Rolling back to a savepoint touches no other pair. -/
theorem othersKept_undo {s : GoldDb T} {t : Nat} {now : ℤ} {run : PersistRun T} {p : PairPlan T}
    {rest : List (PairPlan T)} {pid : Nat} (hinv : MatchInv s)
    (hholds : Holds s.discrepancies t (s.sessions t))
    (hs : s.sessions t = .active now (.persisting run)) (htodo : run.todo = p :: rest)
    (hpid : run.position.pairId = some pid) :
    OthersKept s (s.undoSavepoint t p run.position) pid := by
  refine ⟨fun pid' hne => ?_, fun x r hr hne => ?_, fun k o d hl hne => ?_⟩
  · rw [undoSavepoint_pairs s t p hpid, OwnedTable.erase_other _ hne]
  · rw [undoSavepoint_matched s t p hpid x]
    split
    · next hx =>
        have hown := pair_of_savepoint hinv.pairs hs htodo hpid
        rw [← positionOf_persisting hs] at hx
        have hrow := (hinv.matched x pid (some t)).mpr ⟨p.a, p.b, t, hown, hx⟩
        rw [hrow] at hr
        exact absurd (congrArg OwnedTable.Owned.value (Option.some.inj hr)).symm hne
    · exact hr
  · cases hpos : run.position with
    | discrepancyRaised pid' c =>
        -- What is undone is what the run wrote there, which belongs to the pair.
        rw [hs] at hholds
        rcases hholds pid' c hpos with ⟨p', rest', d', htodo', hw, hd'⟩
        rw [htodo] at htodo'
        rw [← (List.cons.inj htodo').1] at hw
        refine RowStore.layer_undo_of_ne hl ?_
        rintro ⟨rfl, rfl⟩
        have heq := (Prod.mk.inj (Option.some.inj (hl.symm.trans hw))).2
        rw [Option.some.inj heq, hd', ← hpid, hpos] at hne
        exact hne rfl
    | _ => exact hl

/-- In every committed state a transaction is in at most one pair, a pair has
    exactly its two matched rows, and no matched row is without its pair. A pair
    rolled back on a conflict leaves nothing and takes nothing else with it. A
    run that has committed reports as many pairs as it inserted, and one that
    has rolled back has inserted none. -/
theorem one_transaction_one_match {s : GoldDb T} (h : Transition.Reachable Initial Step s) :
    (∀ pid pid' v v' x, CommittedPair s pid v → CommittedPair s pid' v' →
      (x = v.a ∨ x = v.b) → (x = v'.a ∨ x = v'.b) → pid = pid') ∧
    (∀ pid v, CommittedPair s pid v → v.a ≠ v.b ∧
      ∀ x, s.matched x = some { value := pid, owner := none } ↔ x = v.a ∨ x = v.b) ∧
    (∀ x pid, s.matched x = some { value := pid, owner := none } → ∃ v, CommittedPair s pid v) ∧
    (∀ t, ∀ pid ∈ droppedOf (s.sessions t), NothingLeft s pid) ∧
    (∀ t now run p rest pid, s.sessions t = .active now (.persisting run) → run.todo = p :: rest →
      run.position.pairId = some pid → OthersKept s (s.undoSavepoint t p run.position) pid) ∧
    (∀ t run, s.sessions t = .committed (.persisted run) →
      run.written = run.kept.length ∧ run.kept.Nodup ∧
        ∀ pid, pid ∈ run.kept ↔ ∃ v, CommittedPair s pid v ∧ v.xmin = t) ∧
    (∀ t, s.sessions t = .rolledBack → ∀ pid r, s.pairs pid = some r → r.value.xmin ≠ t) := by
  have hinv := matchInv_of_reachable h
  have haudit := auditInv_of_reachable h
  refine ⟨fun pid pid' v v' x hv hv' hx hx' => ?_, fun pid v hv => ?_, fun x pid hm => ?_,
    fun t pid hpid => ?_, fun t now run p rest pid hs htodo hpid => ?_, fun t run hs => ?_,
    fun t hs pid r hr heq => ?_⟩
  · -- The matched row of `x` names both.
    have hrow := (matched_iff_of_committed hinv hv x).mpr hx
    have hrow' := (matched_iff_of_committed hinv hv' x).mpr hx'
    exact congrArg OwnedTable.Owned.value (Option.some.inj (hrow.symm.trans hrow'))
  · exact ⟨hinv.pairs.distinct _ _ _ _ _ (hasPair_of_committed hv),
      matched_iff_of_committed hinv hv⟩
  · rcases (hinv.matched x pid none).mp hm with ⟨a, b, t, ⟨v, hv, _⟩, _⟩
    exact ⟨v, hv⟩
  · exact nothingLeft_of_none hinv (hinv.pairs.dropped t pid hpid).2
  · exact othersKept_undo hinv (haudit.holds t) hs htodo hpid
  · have hrun : runOf (s.sessions t) = some run := by
      rw [hs]
      rfl
    have hclosed : openRun (s.sessions t) = none := by
      rw [hs]
      rfl
    rcases hinv.pairs.counted t run hrun with ⟨hwritten, hbetween⟩
    have hlive : live (s.sessions t) = run.kept := by
      simp only [live, hrun, hbetween hclosed, Position.pairId, Option.toList_none, List.append_nil]
    have hnodup := hinv.pairs.nodup t
    rw [hlive] at hnodup
    refine ⟨hwritten, hnodup, fun pid => ?_⟩
    have hiff := hinv.pairs.live_iff pid t none
    have howner : ownerOf t (s.sessions t) = none := by
      rw [hs]
      rfl
    simp only [hlive, howner, and_true] at hiff
    rw [← hiff]
    constructor
    · rintro ⟨a, b, v, hv, _, _, ht⟩
      exact ⟨v, hv, ht⟩
    · rintro ⟨v, hv, ht⟩
      exact ⟨v.a, v.b, v, hv, rfl, rfl, ht⟩
  · have hrow := hasPair_of_some hr
    rw [heq] at hrow
    have hmem := (hinv.pairs.live_iff pid t r.owner).mp ⟨_, _, hrow⟩
    rw [hs] at hmem
    exact absurd hmem.1 List.not_mem_nil

end Committed

section Exhibit

/-- A pair of equal amounts. -/
def equalPair (a b : Nat) : PairPlan Nat where
  a := a
  b := b
  amountANgn := 5000
  amountBNgn := 5000
  amountDeltaNgn := none

/-- Two runs have seen transaction 1 unmatched. The second loses it, and keeps
    its other pair. -/
theorem one_transaction_one_match_overlapping :
    ∃ s : GoldDb Nat, ∃ run, Transition.Reachable Initial Step s ∧
      s.sessions 1 = .committed (.persisted run) ∧ run.dropped = [1] ∧ run.kept = [2] ∧
      (∀ pid pid' v v' x, CommittedPair s pid v → CommittedPair s pid' v' →
        (x = v.a ∨ x = v.b) → (x = v'.a ∨ x = v'.b) → pid = pid') ∧
      (∀ pid v, CommittedPair s pid v → v.a ≠ v.b ∧
        ∀ x, s.matched x = some { value := pid, owner := none } ↔ x = v.a ∨ x = v.b) ∧
      (∀ x pid, s.matched x = some { value := pid, owner := none } → ∃ v, CommittedPair s pid v) ∧
      (∀ t, ∀ pid ∈ droppedOf (s.sessions t), NothingLeft s pid) ∧
      (∀ t now run p rest pid, s.sessions t = .active now (.persisting run) →
        run.todo = p :: rest → run.position.pairId = some pid →
        OthersKept s (s.undoSavepoint t p run.position) pid) ∧
      (∀ t run, s.sessions t = .committed (.persisted run) →
        run.written = run.kept.length ∧ run.kept.Nodup ∧
          ∀ pid, pid ∈ run.kept ↔ ∃ v, CommittedPair s pid v ∧ v.xmin = t) ∧
      (∀ t, s.sessions t = .rolledBack → ∀ pid r, s.pairs pid = some r → r.value.xmin ≠ t) := by
  have h0 : Transition.Reachable Initial Step freshDb :=
    Transition.reachable_of_init ⟨rfl, rfl, rfl, fun _ => rfl⟩
  have h1 := Transition.reachable_step h0 (Step.beginPersist _ 0 [equalPair 1 2] rfl)
  have h2 := Transition.reachable_step h1
    (Step.beginPersist _ 1 [equalPair 1 3, equalPair 4 5] rfl)
  -- The first run matches 1 with 2.
  have h3 := Transition.reachable_step h2 (Step.insertPair _ 0 (hours 3) _ (equalPair 1 2) [] rfl
    rfl rfl (by decide) (fun _ _ hr => by cases hr))
  have h4 := Transition.reachable_step h3
    (Step.recordFirst _ 0 (hours 3) _ (equalPair 1 2) [] 0 rfl rfl rfl rfl)
  have h5 := Transition.reachable_step h4
    (Step.recordSecond _ 0 (hours 3) _ (equalPair 1 2) [] 0 rfl rfl rfl rfl)
  have h6 := Transition.reachable_step h5
    (Step.releasePair _ 0 (hours 3) _ (equalPair 1 2) [] 0 rfl rfl rfl (fun _ hf => by cases hf))
  have h7 := Transition.reachable_step h6 (Step.persistDone _ 0 (hours 3) _ rfl rfl rfl)
  have h8 := Transition.reachable_step h7 (Step.commit _ 0 (hours 3) _ rfl)
  -- The second one gets as far as the row of 1.
  have h9 := Transition.reachable_step h8 (Step.insertPair _ 1 (hours 3) _ (equalPair 1 3)
    [equalPair 4 5] rfl rfl rfl (by decide) (fun pid r hr hab => by
      rcases OwnedTable.commit_eq_some.mp hr with ⟨o', hr', _⟩
      rcases OwnedTable.insert_eq_some.mp hr' with ⟨_, hv⟩ | ⟨_, hv⟩
      · rw [(OwnedTable.Owned.mk.inj hv).1] at hab
        exact absurd hab.2 (by decide)
      · cases hv))
  have h10 := Transition.reachable_step h9
    (Step.conflict _ 1 (hours 3) _ (equalPair 1 3) [equalPair 4 5] 1 rfl rfl rfl)
  have h11 := Transition.reachable_step h10 (Step.insertPair _ 1 (hours 3) _ (equalPair 4 5) [] rfl
    rfl rfl (by decide) (fun pid r hr hab => by
      have hr₁ := (OwnedTable.erase_eq_some.mp hr).2
      rcases OwnedTable.insert_eq_some.mp hr₁ with ⟨_, hv⟩ | ⟨_, hr₂⟩
      · rw [hv] at hab
        exact absurd hab.1 (by decide)
      · rcases OwnedTable.commit_eq_some.mp hr₂ with ⟨o', hr', _⟩
        rcases OwnedTable.insert_eq_some.mp hr' with ⟨_, hv⟩ | ⟨_, hv⟩
        · rw [(OwnedTable.Owned.mk.inj hv).1] at hab
          exact absurd hab.1 (by decide)
        · cases hv))
  have h12 := Transition.reachable_step h11
    (Step.recordFirst _ 1 (hours 3) _ (equalPair 4 5) [] 2 rfl rfl rfl rfl)
  have h13 := Transition.reachable_step h12
    (Step.recordSecond _ 1 (hours 3) _ (equalPair 4 5) [] 2 rfl rfl rfl rfl)
  have h14 := Transition.reachable_step h13
    (Step.releasePair _ 1 (hours 3) _ (equalPair 4 5) [] 2 rfl rfl rfl (fun _ hf => by cases hf))
  have h15 := Transition.reachable_step h14 (Step.persistDone _ 1 (hours 3) _ rfl rfl rfl)
  have h16 := Transition.reachable_step h15 (Step.commit _ 1 (hours 3) _ rfl)
  exact ⟨_, _, h16, rfl, rfl, rfl, one_transaction_one_match h16⟩

end Exhibit

end Gold

end MmrEngine
