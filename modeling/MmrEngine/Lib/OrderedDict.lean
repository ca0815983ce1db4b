import Mathlib.Data.Finset.Card
import Mathlib.Data.List.Nodup

/-!
# Ordered Dictionaries

A dictionary that remembers the order of its keys, as Python's `OrderedDict`
does: setting a key that is there keeps its place, a new key goes to the end,
`moveToEnd` makes a key the youngest, and `popOldest` drops from the old end
until a bound is met.

`touch` is how such a dictionary serves as a bounded LRU map: set, move to the
end, drop what is too much. What one wants to know of an LRU map is when a key
survives. `Recent` says a key is present with everything younger than it named
by a set; a touch of the key itself makes that set empty, a touch of another
key adds that key to it, and as long as the set has fewer members than the map
may hold the key cannot have been dropped.

## Main definitions

* `OrderedDict`: Keys in order, each once, with their values.
* `get?`, `setItem`, `moveToEnd`, `popOldest`: The operations.
* `mutate`: A change to the object that is a key's value.
* `touch`: A use of a bounded LRU map.
* `Recent`: A key's value, and a set that names everything younger.

## Theorems

* `mem_touch`: What a bounded map holds after a use was there or was put there.
* `get?_of_touch_other`: A use of another key changes no value.
* `length_touch_le`: A bounded map stays within its bound.
* `recent_touch_self`: A key just used is the youngest.
* `recent_touch_other`: A use of another key keeps it, within the bound.
* `mutate_touch`: Changing a value right after the use.
-/

namespace MmrEngine

/-- Keys in the order of their age, oldest first, each with its value. -/
@[ext] structure OrderedDict (κ ν : Type*) where
  entries : List (κ × ν)
  nodup : (entries.map Prod.fst).Nodup

namespace OrderedDict

variable {κ ν : Type*}

def empty : OrderedDict κ ν where
  entries := []
  nodup := List.nodup_nil

/-- `len(d)`. -/
def length (d : OrderedDict κ ν) : Nat := d.entries.length

/-- `while len(d) > n: d.popitem(last=False)`. -/
def popOldest (d : OrderedDict κ ν) (n : Nat) : OrderedDict κ ν where
  entries := d.entries.drop (d.entries.length - n)
  nodup := by
    rw [List.map_drop]
    exact d.nodup.sublist (List.drop_sublist _ _)

theorem entries_popOldest (d : OrderedDict κ ν) (n : Nat) :
    (d.popOldest n).entries = d.entries.drop (d.entries.length - n) := rfl

variable [DecidableEq κ]

/-- `d.get(key)`. -/
def get? (d : OrderedDict κ ν) (key : κ) : Option ν :=
  (d.entries.find? fun entry => entry.1 = key).map Prod.snd

/-- The entries with the value of a key replaced, each in its place. -/
def replaceValue (entries : List (κ × ν)) (key : κ) (value : ν) : List (κ × ν) :=
  entries.map fun entry => if entry.1 = key then (key, value) else entry

theorem keys_replaceValue (entries : List (κ × ν)) (key : κ) (value : ν) :
    (replaceValue entries key value).map Prod.fst = entries.map Prod.fst := by
  rw [replaceValue, List.map_map]
  refine List.map_congr_left (fun entry _ => ?_)
  by_cases h : entry.1 = key
  · simp [h]
  · simp [h]

/-- `d[key] = value`: a key that is there keeps its place. -/
def setItem (d : OrderedDict κ ν) (key : κ) (value : ν) : OrderedDict κ ν where
  entries :=
    if key ∈ d.entries.map Prod.fst then replaceValue d.entries key value
    else d.entries ++ [(key, value)]
  nodup := by
    by_cases h : key ∈ d.entries.map Prod.fst
    · rw [if_pos h, keys_replaceValue]
      exact d.nodup
    · rw [if_neg h, List.map_append, List.nodup_append]
      refine ⟨d.nodup, List.nodup_singleton _, fun k hk k' hk' heq => h ?_⟩
      have hkey : k' = key := List.mem_singleton.mp hk'
      rw [← hkey, ← heq]
      exact hk

/-- A change made to the object that is a key's value. A key that is not there
    holds no object. -/
def mutate (d : OrderedDict κ ν) (key : κ) (value : ν) : OrderedDict κ ν where
  entries := replaceValue d.entries key value
  nodup := by
    rw [keys_replaceValue]
    exact d.nodup

theorem entries_setItem_of_mem {d : OrderedDict κ ν} {key : κ} (value : ν)
    (h : key ∈ d.entries.map Prod.fst) :
    (d.setItem key value).entries = replaceValue d.entries key value := if_pos h

/-- `d.move_to_end(key)`. -/
def moveToEnd (d : OrderedDict κ ν) (key : κ) : OrderedDict κ ν where
  entries :=
    (d.entries.filter fun entry => entry.1 ≠ key) ++ d.entries.filter fun entry => entry.1 = key
  nodup := by
    rw [List.map_append, List.nodup_append]
    refine ⟨d.nodup.sublist (List.filter_sublist.map _),
      d.nodup.sublist (List.filter_sublist.map _), fun k hk k' hk' heq => ?_⟩
    rcases List.mem_map.mp hk with ⟨entry, hentry, hfst⟩
    rcases List.mem_map.mp hk' with ⟨entry', hentry', hfst'⟩
    have hne : entry.1 ≠ key := by simpa using (List.mem_filter.mp hentry).2
    have heq' : entry'.1 = key := by simpa using (List.mem_filter.mp hentry').2
    exact hne (by rw [hfst, heq, ← hfst', heq'])

/-- A use of a map that may hold `n` keys: the key gets its value and becomes
    the youngest, and the oldest ones go. -/
def touch (d : OrderedDict κ ν) (n : Nat) (key : κ) (value : ν) : OrderedDict κ ν :=
  ((d.setItem key value).moveToEnd key).popOldest n

/-- A key's value, with everything younger than the key named by the set. -/
def Recent (d : OrderedDict κ ν) (key : κ) (value : ν) (since : Finset κ) : Prop :=
  ∃ older younger, d.entries = older ++ (key, value) :: younger ∧ ∀ entry ∈ younger, entry.1 ∈ since

theorem mem_of_get? {d : OrderedDict κ ν} {key : κ} {value : ν} (h : d.get? key = some value) :
    (key, value) ∈ d.entries := by
  rcases Option.map_eq_some_iff.mp h with ⟨entry, hfind, hvalue⟩
  have hkey : entry.1 = key := by simpa using List.find?_some hfind
  rw [← hkey, ← hvalue]
  exact List.mem_of_find?_eq_some hfind

/-- Where keys differ, an entry behind others is still the one its key finds. -/
theorem find?_append_cons {older younger : List (κ × ν)} {key : κ} {value : ν}
    (h : ((older ++ (key, value) :: younger).map Prod.fst).Nodup) :
    ((older ++ (key, value) :: younger).find? fun entry => entry.1 = key) = some (key, value) := by
  induction older with
  | nil => exact List.find?_cons_of_pos (decide_eq_true rfl)
  | cons entry older ih =>
      rw [List.cons_append, List.map_cons, List.nodup_cons] at h
      have hne : entry.1 ≠ key := by
        intro heq
        refine h.1 ?_
        rw [heq]
        exact List.mem_map.mpr ⟨(key, value), by simp, rfl⟩
      rw [List.cons_append, List.find?_cons_of_neg (by simpa using hne)]
      exact ih h.2

theorem Recent.get? {d : OrderedDict κ ν} {key : κ} {value : ν} {since : Finset κ}
    (h : d.Recent key value since) : d.get? key = some value := by
  rcases h with ⟨older, younger, hentries, -⟩
  have hnodup := d.nodup
  rw [hentries] at hnodup
  rw [OrderedDict.get?, hentries, find?_append_cons hnodup]
  rfl

/-- An entry is the one its key finds. -/
theorem get?_of_mem {d : OrderedDict κ ν} {key : κ} {value : ν} (h : (key, value) ∈ d.entries) :
    d.get? key = some value := by
  rcases List.append_of_mem h with ⟨older, younger, hentries⟩
  have hnodup := d.nodup
  rw [hentries] at hnodup
  rw [get?, hentries, find?_append_cons hnodup]
  rfl

/-- Replacing a value changes nothing where the key is not. -/
theorem replaceValue_of_not_mem {entries : List (κ × ν)} {key : κ} (value : ν)
    (h : key ∉ entries.map Prod.fst) : replaceValue entries key value = entries := by
  rw [replaceValue]
  refine (List.map_congr_left fun entry hentry => ?_).trans (List.map_id _)
  have hne : entry.1 ≠ key := fun heq => h (List.mem_map.mpr ⟨entry, hentry, heq⟩)
  rw [if_neg hne]
  rfl

/-- The entries of other keys do not depend on a key's value. -/
theorem filter_ne_replaceValue (entries : List (κ × ν)) (key : κ) (value : ν) :
    ((replaceValue entries key value).filter fun entry => entry.1 ≠ key)
      = entries.filter fun entry => entry.1 ≠ key := by
  induction entries with
  | nil => rfl
  | cons entry entries ih =>
      rw [replaceValue, List.map_cons, ← replaceValue]
      by_cases h : entry.1 = key
      · rw [if_pos h, List.filter_cons_of_neg (by simp), List.filter_cons_of_neg (by simp [h]), ih]
      · rw [if_neg h, List.filter_cons_of_pos (by simp [h]), List.filter_cons_of_pos (by simp [h]),
          ih]

/-- A key that is there has the one entry it was given. -/
theorem filter_eq_replaceValue {entries : List (κ × ν)} (hnodup : (entries.map Prod.fst).Nodup)
    {key : κ} (value : ν) (hmem : key ∈ entries.map Prod.fst) :
    ((replaceValue entries key value).filter fun entry => entry.1 = key) = [(key, value)] := by
  induction entries with
  | nil => cases hmem
  | cons entry entries ih =>
      rw [List.map_cons, List.nodup_cons] at hnodup
      rw [replaceValue, List.map_cons, ← replaceValue]
      by_cases h : entry.1 = key
      · rw [h] at hnodup
        rw [if_pos h, List.filter_cons_of_pos (by simp), replaceValue_of_not_mem value hnodup.1]
        have hrest : (entries.filter fun e => e.1 = key) = [] := by
          rw [List.filter_eq_nil_iff]
          intro e he heq
          exact hnodup.1 (List.mem_map.mpr ⟨e, he, by simpa using heq⟩)
        rw [hrest]
      · rw [if_neg h, List.filter_cons_of_neg (by simp [h])]
        rw [List.map_cons] at hmem
        exact ih hnodup.2 ((List.mem_cons.mp hmem).resolve_left (Ne.symm h))

/-- A key set and moved: the others in their order, then the key. -/
theorem entries_moveToEnd_setItem (d : OrderedDict κ ν) (key : κ) (value : ν) :
    ((d.setItem key value).moveToEnd key).entries
      = (d.entries.filter fun entry => entry.1 ≠ key) ++ [(key, value)] := by
  simp only [moveToEnd, setItem]
  by_cases h : key ∈ d.entries.map Prod.fst
  · rw [if_pos h, filter_ne_replaceValue, filter_eq_replaceValue d.nodup value h]
  · have hnone : (d.entries.filter fun entry => entry.1 = key) = [] := by
      rw [List.filter_eq_nil_iff]
      intro entry hentry heq
      exact h (List.mem_map.mpr ⟨entry, hentry, by simpa using heq⟩)
    rw [if_neg h, List.filter_append, List.filter_append, hnone]
    simp

/-- In a map that may hold something, a use leaves the key in the last place
    and drops only others. -/
theorem entries_touch (d : OrderedDict κ ν) {n : Nat} (hn : 0 < n) (key : κ) (value : ν) :
    (d.touch n key value).entries
      = (d.entries.filter fun entry => entry.1 ≠ key).drop
          ((d.entries.filter fun entry => entry.1 ≠ key).length + 1 - n) ++ [(key, value)] := by
  rw [touch, entries_popOldest, entries_moveToEnd_setItem, List.length_append,
    List.length_singleton]
  exact List.drop_append_of_le_length (by omega)

theorem mem_touch {d : OrderedDict κ ν} {n : Nat} {key : κ} {value : ν} {entry : κ × ν}
    (h : entry ∈ (d.touch n key value).entries) : entry = (key, value) ∨ entry ∈ d.entries := by
  rw [touch, popOldest] at h
  have hmem := List.mem_of_mem_drop h
  rw [entries_moveToEnd_setItem] at hmem
  rcases List.mem_append.mp hmem with hother | hself
  · exact Or.inr (List.mem_filter.mp hother).1
  · exact Or.inl (List.mem_singleton.mp hself)

/-- A use of another key leaves a key's value alone, or drops the key. -/
theorem get?_of_touch_other {d : OrderedDict κ ν} {n : Nat} {key other : κ} {value newValue : ν}
    (hne : other ≠ key) (h : (d.touch n other newValue).get? key = some value) :
    d.get? key = some value := by
  rcases mem_touch (mem_of_get? h) with hnew | hold
  · exact absurd (congrArg Prod.fst hnew).symm hne
  · exact get?_of_mem hold

omit [DecidableEq κ] in
theorem length_popOldest_le (d : OrderedDict κ ν) (n : Nat) : (d.popOldest n).length ≤ n := by
  rw [length, popOldest, List.length_drop]
  omega

theorem length_touch_le (d : OrderedDict κ ν) (n : Nat) (key : κ) (value : ν) :
    (d.touch n key value).length ≤ n := length_popOldest_le _ _

theorem recent_touch_self (d : OrderedDict κ ν) {n : Nat} (hn : 0 < n) (key : κ) (value : ν) :
    (d.touch n key value).Recent key value ∅ :=
  ⟨_, [], entries_touch d hn key value, fun _ h => absurd h List.not_mem_nil⟩

/-- The key keeps its place in front of fewer entries than the map may hold, so
    what is dropped is older. -/
theorem recent_touch_other {d : OrderedDict κ ν} {n : Nat} {key other : κ} {value : ν}
    {since : Finset κ} (h : d.Recent key value since) (hne : other ≠ key)
    (hroom : (insert other since).card < n) (newValue : ν) :
    (d.touch n other newValue).Recent key value (insert other since) := by
  rcases h with ⟨older, younger, hentries, hsince⟩
  have hn : 0 < n := by omega
  have hnodup := d.nodup
  rw [hentries, List.map_append, List.nodup_append, List.map_cons, List.nodup_cons] at hnodup
  -- Whatever is younger is among the others named, each once.
  have hyoung : (younger.filter fun entry => entry.1 ≠ other).length + 1
      ≤ (insert other since).card := by
    have hkeys : ((younger.filter fun entry => entry.1 ≠ other).map Prod.fst).Nodup :=
      hnodup.2.1.2.sublist (List.filter_sublist.map _)
    have hsub : ((younger.filter fun entry => entry.1 ≠ other).map Prod.fst).toFinset
        ⊆ (insert other since).erase other := by
      intro k hk
      rcases List.mem_map.mp (List.mem_toFinset.mp hk) with ⟨entry, hentry, hfst⟩
      rcases List.mem_filter.mp hentry with ⟨hmem, hother⟩
      rw [← hfst]
      exact Finset.mem_erase.mpr
        ⟨by simpa using hother, Finset.mem_insert_of_mem (hsince entry hmem)⟩
    have hcard := Finset.card_le_card hsub
    rw [List.toFinset_card_of_nodup hkeys, List.length_map,
      Finset.card_erase_of_mem (Finset.mem_insert_self _ _)] at hcard
    have hpos : 0 < (insert other since).card :=
      Finset.card_pos.mpr ⟨other, Finset.mem_insert_self _ _⟩
    omega
  refine ⟨(older.filter fun entry => entry.1 ≠ other).drop
      ((d.entries.filter fun entry => entry.1 ≠ other).length + 1 - n),
    (younger.filter fun entry => entry.1 ≠ other) ++ [(other, newValue)], ?_, ?_⟩
  · rw [entries_touch d hn, hentries, List.filter_append,
      List.filter_cons_of_pos (by simpa using Ne.symm hne), List.drop_append_of_le_length]
    · rw [List.append_assoc, List.cons_append]
    · rw [List.length_append, List.length_cons]
      omega
  · intro entry hentry
    rcases List.mem_append.mp hentry with hold | hnew
    · exact Finset.mem_insert_of_mem (hsince entry (List.mem_filter.mp hold).1)
    · rw [List.mem_singleton.mp hnew]
      exact Finset.mem_insert_self _ _

/-- Writing the value that is there writes nothing. -/
theorem setItem_of_get? {d : OrderedDict κ ν} {key : κ} {value : ν}
    (h : d.get? key = some value) : d.setItem key value = d := by
  have hmem := mem_of_get? h
  rcases List.append_of_mem hmem with ⟨older, younger, hentries⟩
  have hnodup := d.nodup
  rw [hentries, List.map_append, List.nodup_append, List.map_cons, List.nodup_cons] at hnodup
  have holder : key ∉ older.map Prod.fst := by
    intro hk
    exact hnodup.2.2 key hk key List.mem_cons_self rfl
  apply OrderedDict.ext
  rw [entries_setItem_of_mem value (List.mem_map.mpr ⟨_, hmem, rfl⟩), hentries, replaceValue,
    List.map_append, List.map_cons, if_pos rfl, ← replaceValue, ← replaceValue,
    replaceValue_of_not_mem value holder, replaceValue_of_not_mem value hnodup.2.1.1]

/-- A value changed right after the use is as if the use had put it there. -/
theorem mutate_touch (d : OrderedDict κ ν) {n : Nat} (hn : 0 < n) (key : κ) (value newValue : ν) :
    (d.touch n key value).mutate key newValue = d.touch n key newValue := by
  have hothers : key ∉ ((d.entries.filter fun entry => entry.1 ≠ key).drop
      ((d.entries.filter fun entry => entry.1 ≠ key).length + 1 - n)).map Prod.fst := by
    intro hmem
    rcases List.mem_map.mp hmem with ⟨entry, hentry, hfst⟩
    have hne := (List.mem_filter.mp (List.mem_of_mem_drop hentry)).2
    exact absurd hfst (by simpa using hne)
  apply OrderedDict.ext
  simp only [mutate]
  rw [entries_touch d hn, entries_touch d hn, replaceValue, List.map_append, ← replaceValue,
    replaceValue_of_not_mem newValue hothers]
  simp

end OrderedDict

end MmrEngine
