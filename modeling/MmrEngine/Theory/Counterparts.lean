import MmrEngine.Api.TransactionPages
import MmrEngine.Theory.OneMatch

/-!
# Counterparts

A page that shows a counterpart can be followed, and leads back.

Between two statements of a page anything may be committed. What keeps the page
whole all the same is that a committed pair is there for good, as it is
(`pairsMove_step`): only the transaction that inserted a pair changes or
withdraws it, and that one has ended. So a match seen by the first statement has
its pair when the second one asks for it, and still has it when somebody follows
the link later.

The rest are constraints. A pair and the matches of its two legs are committed
together, and its legs are rows of Silver, as two foreign keys say; the machine
of the Gold tables does not know these, so they are asked of a step here
(`ReferencedStep`).

## Main definitions

* `ReferencedStep`, `Initial`: Steps that keep the foreign keys.
* `PairsMove`: What a step does to the pair rows.
* `Linked`: Two transactions are the legs of a committed pair.

## Theorems

* `pairsMove_step`: Committed pairs stay.
* `transaction_page_links_back`: The counterpart's page shows the transaction.
* `pair_page_complete`: A pair's page shows two legs, which show the pair.
-/

namespace MmrEngine

namespace TransactionPages

open Gold Reconciliation

section Rows

variable {T : Type}

def InSilver (s : GoldDb T) (x : T) : Prop := ∃ r ∈ s.silver, r.id = x

/-- Empty Gold tables, and Silver with its primary key. -/
def Initial (s : GoldDb T) : Prop := Gold.Initial s ∧ (s.silver.map SilverRow.id).Nodup

/-- A committed pair stays as it is, and no pair changes its legs. -/
structure PairsMove (s s' : GoldDb T) : Prop where
  committed : ∀ pid v, CommittedPair s pid v → CommittedPair s' pid v
  legs : ∀ pid r', s'.pairs pid = some r' → s.pairs pid = none ∨
    ∃ r, s.pairs pid = some r ∧ r.value.a = r'.value.a ∧ r.value.b = r'.value.b

variable {s s' : GoldDb T} {t : Nat}

theorem pairsMove_same (h : s'.pairs = s.pairs) : PairsMove s s' where
  committed pid v hv := by
    rw [CommittedPair, h]
    exact hv
  legs pid r' hr' := Or.inr ⟨r', h ▸ hr', rfl, rfl⟩

theorem pairsMove_insert {v : PairRow T} (hfree : s.pairs s.nextPair = none)
    (h : s'.pairs = OwnedTable.insert t s.nextPair v s.pairs) : PairsMove s s' where
  committed pid v hv := by
    have hne : pid ≠ s.nextPair := by
      rintro rfl
      rw [CommittedPair, hfree] at hv
      cases hv
    rw [CommittedPair, h, OwnedTable.insert_other _ _ _ hne]
    exact hv
  legs pid r' hr' := by
    rw [h] at hr'
    rcases OwnedTable.insert_eq_some.mp hr' with ⟨rfl, -⟩ | ⟨-, hr⟩
    · exact Or.inl hfree
    · exact Or.inr ⟨r', hr, rfl, rfl⟩

/-- The pair of an open savepoint is not committed. -/
theorem ne_of_committed {pid pid' : Nat} {v : PairRow T} {a b : T} {t' : Nat}
    (hv : CommittedPair s pid v) (hopen : HasPair s pid' a b t' (some t)) : pid ≠ pid' := by
  rintro rfl
  have howner := (hasPair_unique (hasPair_of_committed hv) hopen).2.2.2
  cases howner

theorem pairsMove_amend {pid : Nat} {a b : T} {t' : Nat} (hopen : HasPair s pid a b t' (some t))
    (h : s'.pairs = OwnedTable.amend pid (fun r => { r with status := .discrepancy }) s.pairs) :
    PairsMove s s' where
  committed pid' v hv := by
    rw [CommittedPair, h, OwnedTable.amend_other _ _ (ne_of_committed hv hopen)]
    exact hv
  legs pid' r' hr' := by
    rw [h] at hr'
    rcases OwnedTable.amend_eq_some.mp hr' with ⟨v, hv, hr'⟩
    refine Or.inr ⟨_, hv, ?_⟩
    rw [hr']
    split
    · exact ⟨rfl, rfl⟩
    · exact ⟨rfl, rfl⟩

theorem pairsMove_erase {pid : Nat} {a b : T} {t' : Nat} (hopen : HasPair s pid a b t' (some t))
    (h : s'.pairs = OwnedTable.erase pid s.pairs) : PairsMove s s' where
  committed pid' v hv := by
    rw [CommittedPair, h, OwnedTable.erase_other _ (ne_of_committed hv hopen)]
    exact hv
  legs pid' r' hr' := by
    rw [h] at hr'
    exact Or.inr ⟨r', (OwnedTable.erase_eq_some.mp hr').2, rfl, rfl⟩

theorem pairsMove_commit (h : s'.pairs = OwnedTable.commit t s.pairs) : PairsMove s s' where
  committed pid v hv := by
    rw [CommittedPair, h]
    exact OwnedTable.commit_eq_some.mpr ⟨none, hv, OwnedTable.settle_none t⟩
  legs pid r' hr' := by
    rw [h] at hr'
    rcases OwnedTable.commit_eq_some.mp hr' with ⟨o, hr, -⟩
    exact Or.inr ⟨_, hr, rfl, rfl⟩

theorem pairsMove_rollback (h : s'.pairs = OwnedTable.rollback t s.pairs) : PairsMove s s' where
  committed pid v hv := by
    rw [CommittedPair, h]
    exact OwnedTable.rollback_eq_some.mpr ⟨hv, fun hc => by cases hc⟩
  legs pid r' hr' := by
    rw [h] at hr'
    exact Or.inr ⟨r', (OwnedTable.rollback_eq_some.mp hr').1, rfl, rfl⟩

/-- Pairs and matches fit together, and both with Silver. -/
structure PagesInv (s : GoldDb T) : Prop where
  gold : MatchInv s
  ids : (s.silver.map SilverRow.id).Nodup
  legs : ∀ pid r, s.pairs pid = some r → InSilver s r.value.a ∧ InSilver s r.value.b

/-- What was committed is still there. -/
structure Kept (s s' : GoldDb T) : Prop where
  pairs : ∀ pid v, CommittedPair s pid v → CommittedPair s' pid v
  silver : ∀ r ∈ s.silver, r ∈ s'.silver

theorem pagesInv_initial (h : Initial s) : PagesInv s where
  gold := matchInv_initial h.1
  ids := h.2
  legs pid r hr := by
    rw [h.1.1] at hr
    cases hr

/-- The match of a leg. -/
theorem matched_of_leg (hinv : PagesInv s) {pid : Nat} {v : PairRow T}
    (hv : CommittedPair s pid v) {x : T} (hx : x = v.a ∨ x = v.b) :
    OwnedTable.committed s.matched x = some pid :=
  OwnedTable.committed_eq_some.mpr ((matched_iff_of_committed hinv.gold hv x).mpr hx)

/-- A match is that of a leg. -/
theorem leg_of_matched (hinv : PagesInv s) {pid : Nat} {x : T}
    (h : OwnedTable.committed s.matched x = some pid) :
    ∃ v, CommittedPair s pid v ∧ (x = v.a ∨ x = v.b) := by
  have hrow := OwnedTable.committed_eq_some.mp h
  rcases (hinv.gold.matched x pid none).mp hrow with ⟨a, b, t, ⟨v, hv, -⟩, -⟩
  exact ⟨v, hv, (matched_iff_of_committed hinv.gold hv x).mp hrow⟩

variable [DecidableEq T]

/-- Only the transaction that inserted a pair touches it. -/
theorem pairsMove_step (hinv : MatchInv s) (h : Step s s') : PairsMove s s' := by
  cases h with
  | insertPair t now run p rest hs htodo hpos hdiff hunique =>
      exact pairsMove_insert (hinv.pairs.fresh s.nextPair (le_refl _)) rfl
  | raiseDiscrepancy t now run p rest id f hs htodo hpos hf hnone =>
      have hid : run.position.pairId = some id := by
        rw [hpos]
        rfl
      exact pairsMove_amend (pair_of_savepoint hinv.pairs hs htodo hid) rfl
  | conflict t now run p rest id hs htodo hid =>
      exact pairsMove_erase (pair_of_savepoint hinv.pairs hs htodo hid)
        (undoSavepoint_pairs s t p hid)
  | commit t now reply hs => exact pairsMove_commit rfl
  | abort t now work hs => exact pairsMove_rollback rfl
  | _ => exact pairsMove_same rfl

/-- Silver grows by new transactions only. -/
theorem silver_step (h : Step s s') :
    s'.silver = s.silver ∨ ∃ row, (∀ r ∈ s.silver, r.id ≠ row.id) ∧
      s'.silver = s.silver ++ [row] := by
  cases h with
  | arrive row hnew => exact Or.inr ⟨row, hnew, rfl⟩
  | conflict t now run p rest id hs htodo hid =>
      left
      cases run.position <;> rfl
  | _ => exact Or.inl rfl

/-- A step that inserts only pairs whose legs are in Silver. -/
def ReferencedStep (s s' : GoldDb T) : Prop :=
  Step s s' ∧ ∀ pid r, s.pairs pid = none → s'.pairs pid = some r →
    InSilver s r.value.a ∧ InSilver s r.value.b

theorem pagesInv_step (hinv : PagesInv s) (h : ReferencedStep s s') :
    PagesInv s' ∧ Kept s s' := by
  have hmove := pairsMove_step hinv.gold h.1
  have hsilver : (s'.silver.map SilverRow.id).Nodup ∧ ∀ r ∈ s.silver, r ∈ s'.silver := by
    rcases silver_step h.1 with hsame | ⟨row, hnew, hgrown⟩
    · rw [hsame]
      exact ⟨hinv.ids, fun r hr => hr⟩
    · rw [hgrown, List.map_append, List.map_singleton]
      refine ⟨List.nodup_append.mpr ⟨hinv.ids, List.pairwise_singleton _ _, ?_⟩,
        fun r hr => List.mem_append_left _ hr⟩
      intro id hid id' hid' heq
      rcases List.mem_map.mp hid with ⟨r, hr, hrid⟩
      rw [List.mem_singleton.mp hid', ← hrid] at heq
      exact hnew r hr heq
  refine ⟨⟨matchInv_step hinv.gold h.1, hsilver.1, fun pid r' hr' => ?_⟩,
    hmove.committed, hsilver.2⟩
  have hlegs : InSilver s r'.value.a ∧ InSilver s r'.value.b := by
    rcases hmove.legs pid r' hr' with hnone | ⟨r, hr, ha, hb⟩
    · exact h.2 pid r' hnone hr'
    · rw [← ha, ← hb]
      exact hinv.legs pid r hr
  rcases hlegs with ⟨⟨ra, hra, ha⟩, ⟨rb, hrb, hb⟩⟩
  exact ⟨⟨ra, hsilver.2 ra hra, ha⟩, ⟨rb, hsilver.2 rb hrb, hb⟩⟩

theorem pagesInv_of_reachable (h : Transition.Reachable Initial ReferencedStep s) : PagesInv s :=
  Transition.invariant_of_step (I := PagesInv) (fun _ hinit => pagesInv_initial hinit)
    (fun _ _ hinv hstep => (pagesInv_step hinv hstep).1) h

theorem kept_of_run (h : Transition.Reachable Initial ReferencedStep s)
    (hrun : Relation.ReflTransGen ReferencedStep s s') :
    Transition.Reachable Initial ReferencedStep s' ∧ Kept s s' := by
  refine ⟨?_, Transition.runs_rel (I := PagesInv) (fun _ => ⟨fun _ _ hv => hv, fun _ hr => hr⟩)
    (fun _ _ _ h₁ h₂ => ⟨fun pid v hv => h₂.pairs pid v (h₁.pairs pid v hv),
      fun r hr => h₂.silver r (h₁.silver r hr)⟩)
    (fun _ _ hinv hstep => pagesInv_step hinv hstep) (pagesInv_of_reachable h) hrun⟩
  rcases h with ⟨s₀, hinit, hrun₀⟩
  exact ⟨s₀, hinit, hrun₀.trans hrun⟩

/-! ### What a page finds -/

theorem find_of_mem (hinv : PagesInv s) {r : SilverRow T} (hr : r ∈ s.silver) :
    findTransaction s r.id = some r :=
  UniqueTable.find?_eq_some_of_nodup hinv.ids hr rfl

/-- A row of Silver is found again. -/
theorem find_of_kept (hinv : PagesInv s') (hkept : Kept s s') {x : T} {r : SilverRow T}
    (h : findTransaction s x = some r) : findTransaction s' x = some r := by
  have hid : r.id = x := by simpa using List.find?_some h
  rw [← hid]
  exact find_of_mem hinv (hkept.silver r (List.mem_of_find?_eq_some h))

end Rows

section Pages

/-- `x` and `y` are the legs of a pair. -/
def Legs {T : Type} (v : PairRow T) (x y : T) : Prop := (v.a = x ∧ v.b = y) ∨ (v.a = y ∧ v.b = x)

theorem legs_symm {T : Type} {v : PairRow T} {x y : T} (h : Legs v x y) : Legs v y x := Or.symm h

theorem legs_of_leg {T : Type} {v : PairRow T} {x : T} (h : x = v.a ∨ x = v.b) :
    ∃ y, Legs v x y := by
  rcases h with rfl | rfl
  · exact ⟨v.b, Or.inl ⟨rfl, rfl⟩⟩
  · exact ⟨v.a, Or.inr ⟨rfl, rfl⟩⟩

variable {T P : Type} [DecidableEq T] {columns : PageColumns T P} {s₁ s₂ s₃ : GoldDb T}

/-- The leg the query joins is the other one. -/
theorem other_leg {v : PairRow T} {x y : T} (hne : v.a ≠ v.b) (h : Legs v x y) :
    (if v.a = x then v.b else v.a) = y ∧ y ≠ x := by
  rcases h with ⟨rfl, rfl⟩ | ⟨rfl, rfl⟩
  · exact ⟨if_pos rfl, hne.symm⟩
  · exact ⟨if_neg hne, hne⟩

theorem find_of_legs (hinv : PagesInv s₁) {pid : Nat} {v : PairRow T}
    (hv : CommittedPair s₁ pid v) {x y : T} (hxy : Legs v x y) :
    ∃ r, findTransaction s₁ x = some r := by
  have hin : InSilver s₁ x := by
    rcases hinv.legs pid _ hv with ⟨ha, hb⟩
    rcases hxy with ⟨rfl, -⟩ | ⟨-, rfl⟩
    · exact ha
    · exact hb
  rcases hin with ⟨r, hr, rfl⟩
  exact ⟨r, find_of_mem hinv hr⟩

/-- The page of a leg, whatever is committed between its statements. -/
theorem getTransaction_of_legs (columns : PageColumns T P) (s₃ : GoldDb T) (hinv₁ : PagesInv s₁)
    (hinv₂ : PagesInv s₂) (hkept : Kept s₁ s₂) {pid : Nat} {v : PairRow T}
    (hv : CommittedPair s₁ pid v) {x y : T} (hxy : Legs v x y)
    {rx ry : SilverRow T} (hx : findTransaction s₁ x = some rx)
    (hy : findTransaction s₁ y = some ry) :
    getTransaction columns x s₁ s₂ s₃ = some
      { transaction := serialiseSummary columns s₁ rx
        pair := some (serialisePair columns pid v ry)
        discrepancies := discrepancyBriefs columns [x] s₃ } := by
  have hid : rx.id = x := by simpa using List.find?_some hx
  have hne := hinv₁.gold.pairs.distinct _ _ _ _ _ (hasPair_of_committed hv)
  have hmatched : OwnedTable.committed s₁.matched rx.id = some pid := by
    rw [hid]
    refine matched_of_leg hinv₁ hv ?_
    rcases hxy with ⟨rfl, -⟩ | ⟨-, rfl⟩
    · exact Or.inl rfl
    · exact Or.inr rfl
  -- The second statement finds the pair the first one saw, and its other leg.
  have hpair : OwnedTable.committed s₂.pairs pid = some v :=
    OwnedTable.committed_eq_some.mpr (hkept.pairs pid v hv)
  have hshown : pagePair columns x s₂ pid = some (serialisePair columns pid v ry) := by
    rw [pagePair, hpair, Option.bind_some, (other_leg hne hxy).1, find_of_kept hinv₂ hkept hy]
    rfl
  rw [getTransaction, hx, Option.map_some, hmatched, Option.bind_some, hshown]

/-- The two legs a pair's page finds. -/
theorem getPair_of_committed (columns : PageColumns T P) (s₃ : GoldDb T) (hinv₂ : PagesInv s₂)
    {pid : Nat} {v : PairRow T} (hv : CommittedPair s₁ pid v) {ra rb : SilverRow T}
    (ha : findTransaction s₂ v.a = some ra) (hb : findTransaction s₂ v.b = some rb) :
    getPair columns pid s₁ s₂ s₃ = some
      { id := pid
        status := v.status
        amountANgn := money v.amountANgn
        amountBNgn := money v.amountBNgn
        amountDeltaNgn := money v.amountDeltaNgn
        a := some (serialiseSummary columns s₂ ra)
        b := some (serialiseSummary columns s₂ rb)
        discrepancies := discrepancyBriefs columns [v.a, v.b] s₃ } := by
  have hpair : OwnedTable.committed s₁.pairs pid = some v := OwnedTable.committed_eq_some.mpr hv
  have hfind : ∀ {x r}, findTransaction s₂ x = some r → x ∈ [v.a, v.b] →
      (((s₂.silver.filter fun r => r.id ∈ [v.a, v.b]).map (serialiseSummary columns s₂)).find?
        fun leg => leg.id = x) = some (serialiseSummary columns s₂ r) := by
    intro x r hr hx
    have hid : r.id = x := by simpa using List.find?_some hr
    have hmem : r ∈ s₂.silver.filter fun r => r.id ∈ [v.a, v.b] := by
      refine List.mem_filter.mpr ⟨List.mem_of_find?_eq_some hr, decide_eq_true ?_⟩
      rw [hid]
      exact hx
    refine UniqueTable.find?_eq_some_of_nodup ?_ (List.mem_map_of_mem hmem) hid
    -- A leg has the id of its row, and the rows have different ones.
    rw [List.map_map]
    exact (List.filter_sublist.map SilverRow.id).nodup hinv₂.ids
  rw [getPair, hpair, Option.map_some]
  simp only [hfind ha List.mem_cons_self, hfind hb (List.mem_cons_of_mem _ List.mem_cons_self)]

/-- A transaction as another one's page shows it. -/
def counterpartOf (t : TransactionSummary T P) : Counterpart T P where
  id := t.id
  pspName := t.pspName
  pspTransactionRef := t.pspTransactionRef
  transactionType := t.transactionType
  amountNgn := t.amountNgn
  initiatedAt := t.initiatedAt

/-- A transaction's page that was read while others wrote shows a pair just if
    it says that the transaction is matched. Whoever goes on from there, at any
    later time, finds the other transaction's page, with the same pair and the
    first transaction, and the page of the pair. What either page shows of the
    other one is what that one says itself. -/
theorem transaction_page_links_back (h : Transition.Reachable Initial ReferencedStep s₁)
    (h₂ : Relation.ReflTransGen ReferencedStep s₁ s₂) {x : T} {page : TransactionPage T P}
    (hpage : getTransaction columns x s₁ s₂ s₃ = some page) :
    (page.transaction.pairId = none ∧ page.pair = none) ∨
      ∃ pair, page.pair = some pair ∧ page.transaction.pairId = some pair.id ∧
        pair.counterpart.id ≠ x ∧
        ∀ t₁ t₂ t₃, Relation.ReflTransGen ReferencedStep s₁ t₁ →
          Relation.ReflTransGen ReferencedStep t₁ t₂ →
          ∃ page' both, getTransaction columns pair.counterpart.id t₁ t₂ t₃ = some page' ∧
            page'.pair = some { pair with counterpart := counterpartOf page.transaction } ∧
            pair.counterpart = counterpartOf page'.transaction ∧
            getPair columns pair.id t₁ t₂ t₃ = some both ∧ both.status = pair.status := by
  have hinv₁ := pagesInv_of_reachable h
  rcases kept_of_run h h₂ with ⟨hreach₂, hkept₂⟩
  rcases Option.map_eq_some_iff.mp hpage with ⟨rx, hx, hsame⟩
  have hid : rx.id = x := by simpa using List.find?_some hx
  cases hmatched : OwnedTable.committed s₁.matched rx.id with
  | none =>
      rw [← hsame]
      exact Or.inl ⟨hmatched, by rw [hmatched, Option.bind_none]⟩
  | some pid =>
      rw [hid] at hmatched
      rcases leg_of_matched hinv₁ hmatched with ⟨v, hv, hleg⟩
      rcases legs_of_leg hleg with ⟨y, hxy⟩
      rcases find_of_legs hinv₁ hv (legs_symm hxy) with ⟨ry, hy⟩
      have hidy : ry.id = y := by simpa using List.find?_some hy
      have hne := hinv₁.gold.pairs.distinct _ _ _ _ _ (hasPair_of_committed hv)
      have hpage' := getTransaction_of_legs columns s₃ hinv₁
        (pagesInv_of_reachable hreach₂) hkept₂ hv hxy hx hy
      rw [hpage] at hpage'
      rw [Option.some.inj hpage']
      have hpid : OwnedTable.committed s₁.matched rx.id = some pid := by rw [hid, hmatched]
      refine Or.inr ⟨_, rfl, hpid, ?_, fun t₁ t₂ t₃ hrun₁ hrun₂ => ?_⟩
      · rw [← hidy] at hxy
        exact (other_leg hne hxy).2
      · -- The pair and both transactions are still there, and the other one's page finds them.
        rcases kept_of_run h hrun₁ with ⟨hlater₁, hkept⟩
        rcases kept_of_run hlater₁ hrun₂ with ⟨hlater₂, hkept'⟩
        have hinv₁' := pagesInv_of_reachable hlater₁
        have hinv₂' := pagesInv_of_reachable hlater₂
        have hv' := hkept.pairs pid v hv
        have hx' := find_of_kept hinv₁' hkept hx
        have hy' := find_of_kept hinv₁' hkept hy
        have hback := getTransaction_of_legs columns t₃ hinv₁' hinv₂' hkept' hv'
          (legs_symm hxy) hy' hx'
        rcases find_of_legs hinv₂' (hkept'.pairs pid v hv') (Or.inl ⟨rfl, rfl⟩) with ⟨ra, ha⟩
        rcases find_of_legs hinv₂' (hkept'.pairs pid v hv') (Or.inr ⟨rfl, rfl⟩) with ⟨rb, hb⟩
        have hboth := getPair_of_committed columns t₃ hinv₂' hv' ha hb
        rw [← hidy] at hback
        exact ⟨_, _, hback, rfl, rfl, hboth, rfl⟩

/-- A pair's page that was read while others wrote shows both its legs, as
    matched with each other. Each leg's page, read at any later time, shows the
    pair as it was and the other leg. -/
theorem pair_page_complete (h : Transition.Reachable Initial ReferencedStep s₁)
    (h₂ : Relation.ReflTransGen ReferencedStep s₁ s₂) {pid : Nat} {both : PairPage T P}
    (hpage : getPair columns pid s₁ s₂ s₃ = some both) :
    ∃ a b, both.a = some a ∧ both.b = some b ∧ a.id ≠ b.id ∧ a.pairId = some pid ∧
      b.pairId = some pid ∧
      ∀ t₁ t₂ t₃, Relation.ReflTransGen ReferencedStep s₁ t₁ →
        Relation.ReflTransGen ReferencedStep t₁ t₂ →
        ∃ page page', getTransaction columns a.id t₁ t₂ t₃ = some page ∧
          getTransaction columns b.id t₁ t₂ t₃ = some page' ∧
          page.pair = some
            { id := pid
              status := both.status
              amountDeltaNgn := both.amountDeltaNgn
              counterpart := counterpartOf b } ∧
          page'.pair = some
            { id := pid
              status := both.status
              amountDeltaNgn := both.amountDeltaNgn
              counterpart := counterpartOf a } := by
  have hinv₁ := pagesInv_of_reachable h
  rcases kept_of_run h h₂ with ⟨hreach₂, hkept₂⟩
  have hinv₂ := pagesInv_of_reachable hreach₂
  rcases Option.map_eq_some_iff.mp hpage with ⟨v, hcommitted, -⟩
  have hv : CommittedPair s₁ pid v := OwnedTable.committed_eq_some.mp hcommitted
  have hne := hinv₁.gold.pairs.distinct _ _ _ _ _ (hasPair_of_committed hv)
  rcases find_of_legs hinv₁ hv (Or.inl ⟨rfl, rfl⟩) with ⟨ra, ha⟩
  rcases find_of_legs hinv₁ hv (Or.inr ⟨rfl, rfl⟩) with ⟨rb, hb⟩
  have hida : ra.id = v.a := by simpa using List.find?_some ha
  have hidb : rb.id = v.b := by simpa using List.find?_some hb
  have hpage' := getPair_of_committed columns s₃ hinv₂ hv
    (find_of_kept hinv₂ hkept₂ ha) (find_of_kept hinv₂ hkept₂ hb)
  rw [hpage] at hpage'
  rw [Option.some.inj hpage']
  have hv₂ := hkept₂.pairs pid v hv
  refine ⟨_, _, rfl, rfl, ?_, ?_, ?_, fun t₁ t₂ t₃ hrun₁ hrun₂ => ?_⟩
  · rw [serialiseSummary, serialiseSummary, hida, hidb]
    exact hne
  · exact matched_of_leg hinv₂ hv₂ (Or.inl hida)
  · exact matched_of_leg hinv₂ hv₂ (Or.inr hidb)
  · rcases kept_of_run h hrun₁ with ⟨hlater₁, hkept⟩
    rcases kept_of_run hlater₁ hrun₂ with ⟨hlater₂, hkept'⟩
    have hinv₁' := pagesInv_of_reachable hlater₁
    have hinv₂' := pagesInv_of_reachable hlater₂
    have hv' := hkept.pairs pid v hv
    have ha' := find_of_kept hinv₁' hkept ha
    have hb' := find_of_kept hinv₁' hkept hb
    have hfirst := getTransaction_of_legs columns t₃ hinv₁' hinv₂' hkept' hv'
      (Or.inl ⟨rfl, rfl⟩) ha' hb'
    have hsecond := getTransaction_of_legs columns t₃ hinv₁' hinv₂' hkept' hv'
      (Or.inr ⟨rfl, rfl⟩) hb' ha'
    rw [← hida] at hfirst
    rw [← hidb] at hsecond
    exact ⟨_, _, hfirst, hsecond, rfl, rfl⟩

end Pages

section Exhibit

def sale (id : Nat) (transactionType : TransactionType) : SilverRow Nat where
  id := id
  transactionType := transactionType
  settlementStatus := .settled
  amountNgn := 5000
  fxRateApplied := none
  expectedSettlementAt := none

def twoLegs : GoldDb Nat := { freshDb with silver := [sale 1 .credit, sale 2 .debit] }

def plainColumns : PageColumns Nat String where
  pspName id := if id = 1 then "paystack" else "flutterwave"
  pspTransactionRef _ := "ref"
  initiatedAt _ := 0
  settledAt _ := none
  raisedAt _ := 0

theorem referenced_of_step {T : Type} [DecidableEq T] {s s' : GoldDb T} (h : Step s s')
    (hpairs : ∀ pid, s.pairs pid = none → s'.pairs pid = none) : ReferencedStep s s' := by
  refine ⟨h, fun pid r hnone hr => ?_⟩
  rw [hpairs pid hnone] at hr
  cases hr

/-- A run matches the two transactions, and commits. -/
theorem twoLegs_run : ∃ s : GoldDb Nat, Transition.Reachable Initial ReferencedStep s ∧
    s.silver = [sale 1 .credit, sale 2 .debit] ∧
    CommittedPair s 0 ((equalPair 1 2).row 0) := by
  have h0 : Transition.Reachable Initial ReferencedStep twoLegs :=
    Transition.reachable_of_init ⟨⟨rfl, rfl, rfl, fun _ => rfl⟩, by decide⟩
  have h1 := Transition.reachable_step h0
    (referenced_of_step (Step.beginPersist _ 0 [equalPair 1 2] rfl) fun _ h => h)
  have h2 := Transition.reachable_step h1 ⟨Step.insertPair _ 0 (hours 3) _ (equalPair 1 2) [] rfl
    rfl rfl (by decide) (fun _ _ hr => by cases hr), fun pid r _ hr => by
      rcases OwnedTable.insert_eq_some.mp hr with ⟨-, rfl⟩ | ⟨-, hold⟩
      · exact ⟨⟨sale 1 .credit, List.mem_cons_self, rfl⟩,
          ⟨sale 2 .debit, List.mem_cons_of_mem _ List.mem_cons_self, rfl⟩⟩
      · cases hold⟩
  have h3 := Transition.reachable_step h2 (referenced_of_step
    (Step.recordFirst _ 0 (hours 3) _ (equalPair 1 2) [] 0 rfl rfl rfl rfl) fun _ h => h)
  have h4 := Transition.reachable_step h3 (referenced_of_step
    (Step.recordSecond _ 0 (hours 3) _ (equalPair 1 2) [] 0 rfl rfl rfl rfl) fun _ h => h)
  have h5 := Transition.reachable_step h4 (referenced_of_step
    (Step.releasePair _ 0 (hours 3) _ (equalPair 1 2) [] 0 rfl rfl rfl (fun _ hf => by cases hf))
    fun _ h => h)
  have h6 := Transition.reachable_step h5 (referenced_of_step
    (Step.persistDone _ 0 (hours 3) _ rfl rfl rfl) fun _ h => h)
  have h7 := Transition.reachable_step h6 (referenced_of_step
    (Step.commit _ 0 (hours 3) _ rfl) fun _ h => (OwnedTable.commit_eq_none 0).mpr h)
  exact ⟨_, h7, rfl, rfl⟩

/-- The page of the credit leads to that of the debit, and back. -/
theorem transaction_page_links_back_sale : ∃ (s : GoldDb Nat) (page : TransactionPage Nat String),
    Transition.Reachable Initial ReferencedStep s ∧
      getTransaction plainColumns 1 s s s = some page ∧
      ∃ pair page', page.pair = some pair ∧
        getTransaction plainColumns pair.counterpart.id s s s = some page' ∧
        page'.pair = some { pair with counterpart := counterpartOf page.transaction } := by
  rcases twoLegs_run with ⟨s, hreach, hsilver, hv⟩
  have hinv := pagesInv_of_reachable hreach
  have hfirst : findTransaction s 1 = some (sale 1 .credit) := by
    rw [findTransaction, hsilver]
    rfl
  have hsecond : findTransaction s 2 = some (sale 2 .debit) := by
    rw [findTransaction, hsilver]
    rfl
  have hpage := getTransaction_of_legs plainColumns s hinv hinv ⟨fun _ _ h => h, fun _ h => h⟩ hv
    (Or.inl ⟨rfl, rfl⟩) hfirst hsecond
  refine ⟨s, _, hreach, hpage, ?_⟩
  rcases transaction_page_links_back hreach Relation.ReflTransGen.refl hpage with
    ⟨-, hnone⟩ | ⟨pair, hpair, -, -, hlater⟩
  · cases hnone
  · rcases hlater s s s Relation.ReflTransGen.refl Relation.ReflTransGen.refl with
      ⟨page', both, hpage', hback, -, -, -⟩
    exact ⟨pair, page', hpair, hpage', hback⟩

/-- The page of the pair has both. -/
theorem pair_page_complete_sale : ∃ (s : GoldDb Nat) (both : PairPage Nat String),
    Transition.Reachable Initial ReferencedStep s ∧ getPair plainColumns 0 s s s = some both ∧
      ∃ a b, both.a = some a ∧ both.b = some b ∧ a.id ≠ b.id ∧ a.pairId = some 0 ∧
        b.pairId = some 0 := by
  rcases twoLegs_run with ⟨s, hreach, hsilver, hv⟩
  have hinv := pagesInv_of_reachable hreach
  rcases find_of_legs hinv hv (Or.inl ⟨rfl, rfl⟩) with ⟨ra, ha⟩
  rcases find_of_legs hinv hv (Or.inr ⟨rfl, rfl⟩) with ⟨rb, hb⟩
  have hpage := getPair_of_committed plainColumns s hinv hv ha hb
  rcases pair_page_complete hreach Relation.ReflTransGen.refl hpage with
    ⟨a, b, hashown, hbshown, hne, hapair, hbpair, -⟩
  exact ⟨s, _, hreach, hpage, a, b, hashown, hbshown, hne, hapair, hbpair⟩

end Exhibit

end TransactionPages

end MmrEngine
