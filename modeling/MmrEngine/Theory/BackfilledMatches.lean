import MmrEngine.Alembic.IntegrityHardening
import MmrEngine.Lib.Query

/-!
# The Backfilled Matches

What the tables hold after migration 015, whatever pairs there were.

The insert goes through the rows in the order of their pairs and skips a
transaction it has met, so a transaction is given to the first pair that has it
(`first_of_matched`). The update then looks for a transaction that is given to
another pair, which is earlier: so a pair is flagged if and only if an earlier
one shares a transaction with it, and a pair that is not flagged has got all of
its own.

## Main definitions

* `Pair.Contains`: A pair has a transaction.
* `Pair.Earlier`: The order of the pairs.

## Theorems

* `mem_matchRows`: The rows offered are the transactions of the pairs.
* `first_of_matched`: A transaction is given to the first pair that has it.
* `conflicts_iff`: A conflict is a transaction shared with an earlier pair.
* `upgrade_keeps_earliest`: Both tables after the migration.
-/

namespace MmrEngine

namespace IntegrityHardening

variable {I T : Type}

/-- The pair has the transaction, on either side. -/
def Pair.Contains (p : Pair I T) (t : T) : Prop :=
  t = p.transactionAId ∨ p.transactionBId = some t

/-- The pair comes first by `matched_at`, then by its id. -/
def Pair.Earlier [LinearOrder I] (p p' : Pair I T) : Prop :=
  p.matchedAt < p'.matchedAt ∨ (p.matchedAt = p'.matchedAt ∧ p.id < p'.id)

/-- The row of a transaction of a pair. -/
def Pair.row (p : Pair I T) (t : T) : MatchedTransaction I T := ⟨t, p.id, p.matchedAt⟩

theorem mem_matchRows {pairs : List (Pair I T)} {m : MatchedTransaction I T} :
    m ∈ matchRows pairs ↔ ∃ p ∈ pairs, p.Contains m.transactionId ∧ m = p.row m.transactionId := by
  simp only [matchRows, List.mem_append, List.mem_map, List.mem_filterMap, Option.map_eq_some_iff]
  constructor
  · rintro (⟨p, hp, rfl⟩ | ⟨p, hp, b, hb, rfl⟩)
    · exact ⟨p, hp, Or.inl rfl, rfl⟩
    · exact ⟨p, hp, Or.inr hb, rfl⟩
  · rintro ⟨p, hp, ha | hb, hm⟩
    · refine Or.inl ⟨p, hp, ?_⟩
      rw [hm, ha]
      rfl
    · exact Or.inr ⟨p, hp, m.transactionId, hb, hm.symm⟩

variable [LinearOrder I]

theorem insertOrder_row_le {p p' : Pair I T} {t : T} :
    insertOrder (p.row t) ≤ insertOrder (p'.row t) ↔ p.Earlier p' ∨
      (p.matchedAt = p'.matchedAt ∧ p.id = p'.id) := by
  rw [insertOrder, insertOrder, Prod.Lex.toLex_le_toLex]
  simp only [Pair.row, Pair.Earlier]
  constructor
  · rintro (hlt | ⟨heq, hle⟩)
    · exact Or.inl (Or.inl hlt)
    · rcases lt_or_eq_of_le hle with hlt | hid
      · exact Or.inl (Or.inr ⟨heq, hlt⟩)
      · exact Or.inr ⟨heq, hid⟩
  · rintro ((hlt | ⟨heq, hlt⟩) | ⟨heq, hid⟩)
    · exact Or.inl hlt
    · exact Or.inr ⟨heq, le_of_lt hlt⟩
    · exact Or.inr ⟨heq, le_of_eq hid⟩

/-- The pairs in the order, by their ids. -/
theorem not_earlier {p p' : Pair I T} (h : p.Earlier p') : ¬ p'.Earlier p := by
  unfold Pair.Earlier at h ⊢
  rintro (hlt | ⟨heq, hlt⟩)
  · rcases h with h | h
    · exact lt_asymm h hlt
    · exact absurd h.1 (ne_of_gt hlt)
  · rcases h with h | h
    · exact absurd heq (ne_of_gt h)
    · exact lt_asymm h.2 hlt

/-- A pair is found by its id. -/
theorem eq_of_id (pairs : UniqueTable (Pair.id (I := I) (T := T))) {p p' : Pair I T}
    (hp : p ∈ pairs.rows) (hp' : p' ∈ pairs.rows)
    (h : p.id = p'.id) : p = p' := by
  have hfind := UniqueTable.find?_eq_some_iff.mpr ⟨hp, h⟩
  have hfind' := UniqueTable.find?_eq_some_iff.mpr ⟨hp', (rfl : p'.id = p'.id)⟩
  rw [hfind] at hfind'
  exact Option.some.inj hfind'

section Tables

variable [DecidableEq T] (pairs : UniqueTable (Pair.id (I := I) (T := T)))
  (ordered : Ordered pairs.rows)

/-- A transaction is given to a pair that has it and that no pair with it
    precedes. -/
theorem first_of_matched {t : T} {m : MatchedTransaction I T}
    (h : (backfill ordered).find? t = some m) :
    ∃ p ∈ pairs.rows, p.Contains t ∧ m = p.row t ∧
      ∀ p' ∈ pairs.rows, p'.Contains t → p' ≠ p → p.Earlier p' := by
  rcases UniqueTable.find?_eq_some_iff.mp h with ⟨hmem, rfl⟩
  have hrow := ordered.perm.subset (UniqueTable.mem_insertAll hmem)
  rcases mem_matchRows.mp hrow with ⟨p, hp, hcontains, hm⟩
  refine ⟨p, hp, hcontains, hm, fun p' hp' hcontains' hne => ?_⟩
  -- The row of the other pair is offered too, so it comes later.
  have hoffered : p'.row m.transactionId ∈ ordered.rows :=
    ordered.perm.mem_iff.mpr (mem_matchRows.mpr ⟨p', hp', hcontains', rfl⟩)
  have hle := UniqueTable.find?_insertAll_least ordered.sorted h _ hoffered rfl
  rw [hm] at hle
  rcases insertOrder_row_le.mp hle with hearlier | ⟨-, hid⟩
  · exact hearlier
  · exact absurd (eq_of_id pairs hp' hp hid.symm) hne

/-- Every transaction of a pair is given to some pair. -/
theorem exists_matched {p : Pair I T} (hp : p ∈ pairs.rows) {t : T} (h : p.Contains t) :
    ∃ m, (backfill ordered).find? t = some m := by
  have hoffered : p.row t ∈ ordered.rows :=
    ordered.perm.mem_iff.mpr (mem_matchRows.mpr ⟨p, hp, h, rfl⟩)
  exact UniqueTable.exists_find?_insertAll hoffered

/-- A conflict, in terms of what the transactions find. -/
theorem conflicts_eq_true {p : Pair I T} : conflicts (backfill ordered).rows p = true ↔
    ∃ t m, p.Contains t ∧ (backfill ordered).find? t = some m ∧ m.pairId ≠ p.id := by
  simp only [conflicts, List.any_eq_true, Bool.and_eq_true, Bool.or_eq_true, decide_eq_true_eq]
  constructor
  · rintro ⟨m, hm, hcontains, hne⟩
    exact ⟨m.transactionId, m, hcontains, UniqueTable.find?_eq_some_iff.mpr ⟨hm, rfl⟩, hne⟩
  · rintro ⟨t, m, hcontains, hfind, hne⟩
    rcases UniqueTable.find?_eq_some_iff.mp hfind with ⟨hm, rfl⟩
    exact ⟨m, hm, hcontains, hne⟩

/-- A pair conflicts if and only if an earlier one has one of its transactions. -/
theorem conflicts_iff {p : Pair I T} (hp : p ∈ pairs.rows) :
    conflicts (backfill ordered).rows p = true ↔
      ∃ p' ∈ pairs.rows, p'.Earlier p ∧ ∃ t, p.Contains t ∧ p'.Contains t := by
  rw [conflicts_eq_true]
  constructor
  · -- The transaction is another pair's, which is the first that has it.
    rintro ⟨t, m, hcontains, hfind, hne⟩
    rcases first_of_matched pairs ordered hfind with ⟨p', hp', hcontains', rfl, hfirst⟩
    have hne' : p ≠ p' := fun heq => hne (congrArg Pair.id heq.symm)
    exact ⟨p', hp', hfirst p hp hcontains hne', t, hcontains, hcontains'⟩
  · -- The first pair with the shared transaction is not this one.
    rintro ⟨p', hp', hearlier, t, hcontains, hcontains'⟩
    rcases exists_matched pairs ordered hp hcontains with ⟨m, hfind⟩
    refine ⟨t, m, hcontains, hfind, fun hid => ?_⟩
    rcases first_of_matched pairs ordered hfind with ⟨q, hq, -, rfl, hfirst⟩
    have hqp : q = p := eq_of_id pairs hq hp hid
    rw [hqp] at hfirst
    have hne : p' ≠ p := by
      rintro rfl
      exact not_earlier hearlier hearlier
    exact not_earlier hearlier (hfirst p' hp' hcontains' hne)

/-- A pair that does not conflict has got its transactions. -/
theorem matched_of_not_conflicts {p : Pair I T} (hp : p ∈ pairs.rows)
    (h : conflicts (backfill ordered).rows p ≠ true) {t : T} (hcontains : p.Contains t) :
    (backfill ordered).find? t = some (p.row t) := by
  rcases exists_matched pairs ordered hp hcontains with ⟨m, hfind⟩
  rcases first_of_matched pairs ordered hfind with ⟨q, hq, -, rfl, -⟩
  have hid : q.id = p.id := by
    by_contra hne
    exact h ((conflicts_eq_true pairs ordered).mpr ⟨t, q.row t, hcontains, hfind, hne⟩)
  rw [hfind, eq_of_id pairs hq hp hid]

/-- After the migration a transaction of some pair has one row, that of the
    first pair with it, and no other transaction has any; a pair is flagged if and
    only if an earlier one shares a transaction with it, and is left as it is if
    not; and a pair that is left has all of its transactions. -/
theorem upgrade_keeps_earliest :
    (∀ t, (∃ p ∈ pairs.rows, p.Contains t) → ∃ p ∈ pairs.rows, p.Contains t ∧
      (∀ p' ∈ pairs.rows, p'.Contains t → p' ≠ p → p.Earlier p') ∧
      ((upgrade pairs ordered).matched.rows.filter fun m => m.transactionId = t)
        = [⟨t, p.id, p.matchedAt⟩]) ∧
    (∀ m ∈ (upgrade pairs ordered).matched.rows, ∃ p ∈ pairs.rows, p.Contains m.transactionId) ∧
    (∀ p ∈ pairs.rows,
      ((∃ p' ∈ pairs.rows, p'.Earlier p ∧ ∃ t, p.Contains t ∧ p'.Contains t) ∧
        (upgrade pairs ordered).pairs.find? p.id = some p.flag) ∨
      ((¬ ∃ p' ∈ pairs.rows, p'.Earlier p ∧ ∃ t, p.Contains t ∧ p'.Contains t) ∧
        (upgrade pairs ordered).pairs.find? p.id = some p ∧
        ∀ t, p.Contains t → ∃ m ∈ (upgrade pairs ordered).matched.rows,
          m.transactionId = t ∧ m.pairId = p.id)) := by
  refine ⟨?_, ?_, ?_⟩
  · -- A transaction of some pair has a row, and by the unique key just one.
    rintro t ⟨p, hp, hcontains⟩
    rcases exists_matched pairs ordered hp hcontains with ⟨m, hfind⟩
    rcases first_of_matched pairs ordered hfind with ⟨q, hq, hqt, rfl, hfirst⟩
    refine ⟨q, hq, hqt, hfirst, ?_⟩
    exact (Query.filter_eq_find?_toList ((backfill ordered).count_le_one t)).trans
      (congrArg Option.toList hfind)
  · -- A row was offered for a pair that contains its transaction.
    intro m hm
    have hrow := ordered.perm.subset (UniqueTable.mem_insertAll hm)
    rcases mem_matchRows.mp hrow with ⟨p, hp, hcontains, -⟩
    exact ⟨p, hp, hcontains⟩
  · intro p hp
    -- The update leaves each pair under its id, flagged or not.
    have hfind : (upgrade pairs ordered).pairs.find? p.id =
        some (if conflicts (backfill ordered).rows p = true then p.flag else p) := by
      simp only [upgrade, UniqueTable.find?_modify,
        UniqueTable.find?_eq_some_iff.mpr ⟨hp, (rfl : p.id = p.id)⟩, Option.map_some]
    by_cases hconflict : conflicts (backfill ordered).rows p = true
    · rw [if_pos hconflict] at hfind
      exact Or.inl ⟨(conflicts_iff pairs ordered hp).mp hconflict, hfind⟩
    · rw [if_neg hconflict] at hfind
      refine Or.inr ⟨fun h => hconflict ((conflicts_iff pairs ordered hp).mpr h), hfind,
        fun t hcontains => ?_⟩
      have hrow := matched_of_not_conflicts pairs ordered hp hconflict hcontains
      exact ⟨p.row t, (UniqueTable.find?_eq_some_iff.mp hrow).1, rfl, rfl⟩

end Tables

end IntegrityHardening

end MmrEngine
