import MmrEngine.Theory.DayFigures
import MmrEngine.Theory.LiteralPrefix

/-!
# Two Searches for Transactions

What the explorer and the global search find for one query.

Both read the query as an id and as the start of a reference. The search takes
either, as a disjunction. The explorer takes a query that reads as an id for
nothing else, so it misses a transaction whose reference reads as an id and is
not its own: a reference that its merchant drew as a UUID. Short of that the two
find the same (`same_selection_iff`).

## Main definitions

* `listed`: What the explorer selects for a query and no other filter.
* `StartsWith`: The start of a reference, up to case.
* `readHex`, `asciiFold`: Ids and cases, as far as ASCII goes.

## Theorems

* `mem_selectTransactions`: What the search selects.
* `mem_listed_of_id`, `mem_listed_of_text`: What the explorer selects.
* `listTransactions_perm`: The whole listing is what is selected.
* `same_selection_iff`: When the two are the same.
-/

namespace MmrEngine

namespace Search

open Gold GoldCalls Like Query Reconciliation Transactions

section Selection

variable [PyText] {T P : Type} [DecidableEq T] [DecidableEq P] (readUuid : String → Option T)
  (idLe : T → T → Bool) (f : CaseFold likeCharacters) (columns : Columns T P) (q : SearchQuery)
  (s : Tables T)

/-- The reading of the explorer, with the same fold. -/
def reading {T : Type} (readUuid : String → Option T) (idLe : T → T → Bool)
    (f : CaseFold likeCharacters) : Reading T where
  readUuid := readUuid
  idLe := idLe
  foldCase := foldText f

/-- What the explorer is asked with a query only. -/
def onlyQuery (q : SearchQuery) : Filters T P where
  q := some q.text

/-- The transactions the explorer selects for a query. -/
def listed : List (SilverRow T) :=
  ((silverWithMatches s).filter ((onlyQuery q).passes (reading readUuid idLe f) columns)).map
    Prod.fst

/-- A reference starts with a text, up to case. -/
def StartsWith (f : CaseFold likeCharacters) (term ref : String) : Prop :=
  (foldText f term).toList <+: (foldText f ref).toList

omit [PyText] in
theorem ilikeStart_iff (term ref : String) :
    ilikeStart (foldText f) term ref = true ↔ StartsWith f term ref :=
  List.isPrefixOf_iff_prefix

omit [DecidableEq T] in
/-- A query is not empty, so it asks for an id if it reads as one, and for the
    start of a reference if not. -/
theorem parseSearch_query : parseSearch readUuid (some q.text) =
    some (((readUuid (strip q.text)).map Search.byId).getD (.byReference (strip q.text))) := by
  have hne : q.text ≠ "" := by
    intro h
    have hlength := q.min_length
    rw [h] at hlength
    simp at hlength
  rw [parseSearch, Option.bind_some, if_neg hne]

omit [DecidableEq P] in
/-- The search takes an id or the start of a reference. -/
theorem mem_selectTransactions (r : SilverRow T) :
    r ∈ selectTransactions readUuid f columns q s ↔ r ∈ s.silver.rows ∧
      (readUuid (strip q.text) = some r.id ∨
        StartsWith f (strip q.text) (columns.pspTransactionRef r.id)) := by
  rw [← ilikeStart_iff, selectTransactions, List.mem_filter, ilike_refPattern]
  refine and_congr_right fun _ => ?_
  cases readUuid (strip q.text) with
  | none => simp
  | some id => simp [@eq_comm T r.id id]

/-- Where the filter looks at the transaction alone, the join does not matter. -/
theorem mem_listed (accepts : SilverRow T → Bool)
    (h : ∀ r : SilverRow T × Option (MatchedRow T),
      (onlyQuery q).passes (reading readUuid idLe f) columns r = accepts r.1) (r : SilverRow T) :
    r ∈ listed readUuid idLe f columns q s ↔ r ∈ s.silver.rows ∧ accepts r = true := by
  rw [listed, funext h, filter_silverWithMatches s accepts, List.map_map, List.mem_map]
  constructor
  · rintro ⟨r', hr', rfl⟩
    exact List.mem_filter.mp hr'
  · intro hr
    exact ⟨r, List.mem_filter.mpr hr, rfl⟩

/-- A query that reads as an id selects the transaction of the id, only. -/
theorem mem_listed_of_id {id : T} (h : readUuid (strip q.text) = some id) (r : SilverRow T) :
    r ∈ listed readUuid idLe f columns q s ↔ r ∈ s.silver.rows ∧ r.id = id := by
  rw [mem_listed readUuid idLe f columns q s (fun r => decide (r.id = id)),
    decide_eq_true_iff]
  intro r
  simp [Filters.passes, onlyQuery, reading, parseSearch_query, h]

/-- Any other selects the references that start with it. -/
theorem mem_listed_of_text (h : readUuid (strip q.text) = none) (r : SilverRow T) :
    r ∈ listed readUuid idLe f columns q s ↔ r ∈ s.silver.rows ∧
      StartsWith f (strip q.text) (columns.pspTransactionRef r.id) := by
  rw [mem_listed readUuid idLe f columns q s (fun r =>
    ilikeStart (foldText f) (strip q.text) (columns.pspTransactionRef r.id)), ilikeStart_iff]
  intro r
  simp [Filters.passes, onlyQuery, reading, parseSearch_query, h]

/-- A page as long as the total shows what is selected. -/
theorem listTransactions_perm :
    ((listTransactions (reading readUuid idLe f) columns (onlyQuery q)
      (listTransactions (reading readUuid idLe f) columns (onlyQuery q) 0 0 s).total 0
      s).transactions.map ListedTransaction.id).Perm
      ((listed readUuid idLe f columns q s).map SilverRow.id) := by
  simp only [listTransactions, listed, List.drop_zero, List.map_map]
  rw [List.take_of_length_le (by rw [List.length_mergeSort])]
  exact (List.mergeSort_perm _ _).map _

omit [DecidableEq P] in
/-- What the search shows is selected, and as long as it is not cut off, what is
    selected is shown. -/
theorem searchTransactions_perm
    (h : (selectTransactions readUuid f columns q s).length ≤ SEARCH_LIMIT) :
    (searchTransactions readUuid f columns q s).Perm
      ((selectTransactions readUuid f columns q s).map SilverRow.id) := by
  rw [searchTransactions, List.take_of_length_le (by rw [List.length_mergeSort]; exact h)]
  exact (List.mergeSort_perm _ _).map _

/-- The two select the same transactions, those of the id and of the start, if
    and only if a query that reads as an id is the start of no other
    transaction's reference. -/
theorem same_selection_iff :
    ((∀ r, r ∈ listed readUuid idLe f columns q s ↔
        r ∈ selectTransactions readUuid f columns q s) ∧
      ∀ r, r ∈ listed readUuid idLe f columns q s ↔ r ∈ s.silver.rows ∧
        (readUuid (strip q.text) = some r.id ∨
          StartsWith f (strip q.text) (columns.pspTransactionRef r.id))) ↔
    ∀ id, readUuid (strip q.text) = some id → ∀ r ∈ s.silver.rows,
      StartsWith f (strip q.text) (columns.pspTransactionRef r.id) → r.id = id := by
  constructor
  · rintro ⟨-, hlisted⟩ id hid r hr hstart
    -- The search selects the transaction, so the explorer would have to.
    have hmem := (hlisted r).mpr ⟨hr, Or.inr hstart⟩
    exact ((mem_listed_of_id readUuid idLe f columns q s hid r).mp hmem).2
  · intro h
    have hlisted : ∀ r, r ∈ listed readUuid idLe f columns q s ↔ r ∈ s.silver.rows ∧
        (readUuid (strip q.text) = some r.id ∨
          StartsWith f (strip q.text) (columns.pspTransactionRef r.id)) := by
      intro r
      cases hid : readUuid (strip q.text) with
      | none =>
          rw [mem_listed_of_text readUuid idLe f columns q s hid]
          simp
      | some id =>
          rw [mem_listed_of_id readUuid idLe f columns q s hid]
          refine and_congr_right fun hr => ?_
          constructor
          · rintro rfl
            exact Or.inl rfl
          · rintro (heq | hstart)
            · exact (Option.some.inj heq).symm
            · exact h id hid r hr hstart
    exact ⟨fun r => (hlisted r).trans (mem_selectTransactions readUuid f columns q s r).symm,
      hlisted⟩

end Selection

/-! ### A reference drawn as a UUID -/

/-- The value of a hexadecimal digit, as UUIDs are printed. -/
def hexDigit (c : Char) : Option Nat :=
  if '0' ≤ c ∧ c ≤ '9' then some (c.toNat - '0'.toNat)
  else if 'a' ≤ c ∧ c ≤ 'f' then some (c.toNat - 'a'.toNat + 10)
  else none

/-- The id of 32 hexadecimal digits. -/
def readHex (text : String) : Option Nat :=
  if text.toList.length = 32 then
    (text.toList.mapM hexDigit).map fun digits => digits.foldl (fun n d => 16 * n + d) 0
  else none

/-- ASCII letters are folded. -/
def asciiFold : CaseFold likeCharacters where
  foldChar c := [c.toLower]
  foldChar_meta c h := by
    simp only [Metacharacters.isMeta, Bool.or_eq_true, decide_eq_true_eq] at h
    rcases h with (rfl | rfl) | rfl
    · rfl
    · rfl
    · rfl
  not_meta_foldChar c h d hd := by
    rw [List.mem_singleton.mp hd]
    simp only [Metacharacters.isMeta, Bool.or_eq_false_iff, decide_eq_false_iff_not] at h ⊢
    exact ⟨⟨toLower_ne (by decide) h.1.1, toLower_ne (by decide) h.1.2⟩,
      toLower_ne (by decide) h.2⟩

/-- A merchant's reference, drawn as a UUID. -/
def drawnReference : SearchQuery where
  text := "00000000000000000000000000000002"
  min_length := by decide
  max_length := by decide

/-- The transaction with the id 1 has it. -/
def drawnColumns : Columns Nat String where
  pspName _ := "paystack"
  pspTransactionRef _ := drawnReference.text
  initiatedAt _ := 0
  settledAt _ := none
  raisedAt _ := 0

/-- The explorer takes the query for the id 2 and does not find the transaction,
    which the search finds by its reference. -/
theorem drawn_reference_missed : letI := asciiText
    ¬ ∀ r, r ∈ listed readHex (fun i j => decide (i ≤ j)) asciiFold drawnColumns drawnReference
        saleTables ↔
      r ∈ selectTransactions readHex asciiFold drawnColumns drawnReference saleTables := by
  let := asciiText
  intro h
  have hall : (drawnReference.text.toList.all fun c => asciiSpace c == false) = true := rfl
  have hstrip : strip drawnReference.text = drawnReference.text :=
    strip_of_no_space _ fun c hc => eq_of_beq (List.all_eq_true.mp hall c hc)
  have hid : readHex (strip drawnReference.text) = some 2 := by
    rw [hstrip]
    rfl
  have hsale : sale ∈ saleTables.silver.rows := List.mem_singleton.mpr rfl
  have hfound : sale ∈ selectTransactions readHex asciiFold drawnColumns drawnReference
      saleTables := by
    refine (mem_selectTransactions ..).mpr ⟨hsale, Or.inr ?_⟩
    rw [hstrip]
    exact List.prefix_refl _
  have hlisted := (mem_listed_of_id _ _ _ _ _ _ hid sale).mp ((h sale).mpr hfound)
  exact absurd hlisted.2 (by decide)

end Search

end MmrEngine
