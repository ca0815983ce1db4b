import Mathlib.Logic.Function.Basic

/-!
# Row-Locked Stores

A store whose rows are changed by transactions that lock what they write, as a
relational database does under READ COMMITTED.

Each row holds its committed value and, while some transaction has it locked,
that transaction and the value it would commit. There is room for one writer
only, so two transactions holding one row is not a state that can be written
down, and no invariant about lock exclusion is needed.

A transaction writes any number of rows, in any order, and then commits or
rolls back all of them at once. Everything in between is invisible to the
others: they see `committed`, and a row they want to write while another
transaction has it locked makes them wait, which is `Free` failing.

The rule of this module is `Sound`. A property of single rows that every
write keeps is kept by every committed value and every uncommitted one, and a
preorder that every write respects relates a row's committed value to the one
that will replace it. Both are facts about one row and one write, so nothing
about interleavings is left to the user of the rule.

## Main definitions

* `Cell`: A row with its committed value and its writer, if any.
* `Store`: One cell per key.
* `visible`: The value a transaction sees in a row.
* `Free`: No other transaction has the row locked.
* `write`: Lock a row and change it.
* `undo`: Give up an uncommitted change of one row.
* `commit`: Publish a transaction's changes.
* `rollback`: Drop a transaction's changes.
* `Sound`: A row property and a row preorder hold throughout the store.
* `Act`: What a transaction can do to the store in one step.
* `Layer`: The committed value of a row, or some transaction's.

## Theorems

* `sound_write`: Writing with a lawful change keeps the store sound.
* `sound_undo`: Giving up a change keeps the store sound.
* `sound_commit`: Committing keeps the store sound.
* `sound_rollback`: Rolling back keeps the store sound.
* `committed_rel_commit`: A commit moves every row along the preorder.
* `act_sound`, `act_committed`: The same for any act with lawful writes.
* `act_and`, `sound_and`: More about the writes, and about the rows.
* `act_foreign`: A row locked by one transaction is safe from all others.
* `layer_write`, `layer_undo`, `layer_commit`, `layer_rollback`: Where the
  values in a row came from.
-/

namespace MmrEngine

namespace RowStore

variable {κ τ ρ : Type*}

/-- A row: the committed value, and the transaction that has it locked with
    the value it would commit. -/
structure Cell (τ ρ : Type*) where
  committed : ρ
  writer : Option (τ × ρ)

/-- One cell per key. An absent row is a value of the row type. -/
abbrev Store (κ τ ρ : Type*) := κ → Cell τ ρ

/-- A store in which every row holds the same value and nothing is locked. -/
def blank (v : ρ) : Store κ τ ρ := fun _ => { committed := v, writer := none }

@[simp] theorem blank_apply (v : ρ) (k : κ) :
    (blank v : Store κ τ ρ) k = { committed := v, writer := none } := rfl

section Operations

variable [DecidableEq τ]

/-- The value a transaction sees: its own uncommitted one, else the committed
    one. -/
def visible (t : τ) (c : Cell τ ρ) : ρ :=
  match c.writer with
  | some (t', v) => if t' = t then v else c.committed
  | none => c.committed

/-- No transaction but `t` has the row locked. -/
def Free (t : τ) (c : Cell τ ρ) : Prop :=
  ∀ t' v, c.writer = some (t', v) → t' = t

/-- Lock row `k` for `t` and change what `t` sees there. -/
def write [DecidableEq κ] (t : τ) (k : κ) (f : ρ → ρ) (s : Store κ τ ρ) : Store κ τ ρ :=
  Function.update s k
    { committed := (s k).committed, writer := some (t, f (visible t (s k))) }

/-- The row of a cell after `t` gives up its change of it. -/
def release (t : τ) (c : Cell τ ρ) : Cell τ ρ :=
  match c.writer with
  | some (t', _) => if t' = t then { committed := c.committed, writer := none } else c
  | none => c

/-- The row of a cell after `t` commits. -/
def publish (t : τ) (c : Cell τ ρ) : Cell τ ρ :=
  match c.writer with
  | some (t', v) => if t' = t then { committed := v, writer := none } else c
  | none => c

/-- Give up `t`'s uncommitted change of row `k`, as a rollback to a savepoint
    does for a row first written after it. -/
def undo [DecidableEq κ] (t : τ) (k : κ) (s : Store κ τ ρ) : Store κ τ ρ :=
  Function.update s k (release t (s k))

/-- Publish every change of `t` and release its locks. -/
def commit (t : τ) (s : Store κ τ ρ) : Store κ τ ρ := fun k => publish t (s k)

/-- Drop every change of `t` and release its locks. -/
def rollback (t : τ) (s : Store κ τ ρ) : Store κ τ ρ := fun k => release t (s k)

theorem write_self [DecidableEq κ] (t : τ) (k : κ) (f : ρ → ρ) (s : Store κ τ ρ) :
    write t k f s k
      = { committed := (s k).committed, writer := some (t, f (visible t (s k))) } := by
  simp only [write, Function.update_self]

theorem write_other [DecidableEq κ] (t : τ) (k k' : κ) (f : ρ → ρ) (s : Store κ τ ρ) (h : k' ≠ k) :
    write t k f s k' = s k' := by
  simp only [write, Function.update_of_ne h]

/-- A write never touches a committed value. -/
@[simp] theorem write_committed [DecidableEq κ] (t : τ) (k k' : κ) (f : ρ → ρ) (s : Store κ τ ρ) :
    (write t k f s k').committed = (s k').committed := by
  by_cases h : k' = k
  · rw [h, write_self]
  · rw [write_other t k k' f s h]

@[simp] theorem release_committed (t : τ) (c : Cell τ ρ) :
    (release t c).committed = c.committed := by
  rcases c with ⟨v, _ | ⟨t', w⟩⟩
  · rfl
  · simp only [release]
    split <;> rfl

@[simp] theorem rollback_committed (t : τ) (s : Store κ τ ρ) (k : κ) :
    (rollback t s k).committed = (s k).committed := release_committed t (s k)

@[simp] theorem undo_committed [DecidableEq κ] (t : τ) (k k' : κ) (s : Store κ τ ρ) :
    (undo t k s k').committed = (s k').committed := by
  by_cases h : k' = k
  · subst h
    simp only [undo, Function.update_self, release_committed]
  · simp only [undo, Function.update_of_ne h]

/-- What a released row still has as a writer was its writer before. -/
theorem release_writer {t : τ} {c : Cell τ ρ} {w : τ × ρ} (h : (release t c).writer = some w) :
    c.writer = some w ∧ w.1 ≠ t := by
  rcases c with ⟨v, _ | ⟨t', x⟩⟩
  · simp only [release, reduceCtorEq] at h
  · by_cases ht : t' = t
    · simp only [release, if_pos ht, reduceCtorEq] at h
    · simp only [release, if_neg ht, Option.some.injEq] at h
      exact ⟨by rw [← h], by rw [← h]; exact ht⟩

/-- The two ways a published row came to be: its writer's value, or nothing
    happened to it. -/
theorem publish_cases (t : τ) (c : Cell τ ρ) :
    (∃ v, c.writer = some (t, v) ∧ publish t c = { committed := v, writer := none }) ∨
      ((∀ v, c.writer ≠ some (t, v)) ∧ publish t c = c) := by
  rcases c with ⟨v, _ | ⟨t', x⟩⟩
  · refine Or.inr ⟨fun v h => by simp only [reduceCtorEq] at h, rfl⟩
  · by_cases ht : t' = t
    · subst ht
      exact Or.inl ⟨x, rfl, by simp only [publish, if_pos]⟩
    · refine Or.inr ⟨fun v h => ht ?_, by simp only [publish, if_neg ht]⟩
      simp only [Option.some.injEq, Prod.mk.injEq] at h
      exact h.1

/-- A commit publishes what the transaction has written in a row. -/
theorem commit_of_writer {t : τ} {s : Store κ τ ρ} {k : κ} {v : ρ}
    (h : (s k).writer = some (t, v)) : commit t s k = { committed := v, writer := none } := by
  rcases publish_cases t (s k) with ⟨v', hv, hp⟩ | ⟨hnone, _⟩
  · rw [h] at hv
    rw [(Prod.mk.inj (Option.some.inj hv)).2]
    exact hp
  · exact absurd h (hnone v)

/-- It leaves a row alone where it has written nothing. -/
theorem commit_of_foreign {t : τ} {s : Store κ τ ρ} {k : κ}
    (h : ∀ v, (s k).writer ≠ some (t, v)) : commit t s k = s k := by
  rcases publish_cases t (s k) with ⟨v, hv, _⟩ | ⟨_, hp⟩
  · exact absurd hv (h v)
  · exact hp

end Operations

section Rule

/-- Property `I` holds of every committed and every uncommitted value, and the
    preorder `R` relates a row's committed value to the uncommitted one. -/
def Sound (I : κ → ρ → Prop) (R : κ → ρ → ρ → Prop) (s : Store κ τ ρ) : Prop :=
  ∀ k, I k (s k).committed ∧
    ∀ t v, (s k).writer = some (t, v) → I k v ∧ R k (s k).committed v

variable {I : κ → ρ → Prop} {R : κ → ρ → ρ → Prop}

theorem sound_blank {v : ρ} (h : ∀ k, I k v) : Sound I R (blank v : Store κ τ ρ) := by
  intro k
  refine ⟨h k, fun t w hw => ?_⟩
  simp only [blank_apply, reduceCtorEq] at hw

variable [DecidableEq τ]

/-- What a transaction sees in a sound store has the property and lies above
    the committed value. -/
theorem sound_visible {s : Store κ τ ρ} (hrefl : ∀ k x, R k x x) (hs : Sound I R s)
    (t : τ) (k : κ) : I k (visible t (s k)) ∧ R k (s k).committed (visible t (s k)) := by
  rcases hw : (s k).writer with _ | ⟨t', v⟩
  · simp only [visible, hw]
    exact ⟨(hs k).1, hrefl k _⟩
  · simp only [visible, hw]
    split
    · exact (hs k).2 t' v hw
    · exact ⟨(hs k).1, hrefl k _⟩

/-- A change that keeps the property and respects the preorder keeps the store
    sound. -/
theorem sound_write [DecidableEq κ] {s : Store κ τ ρ} (hrefl : ∀ k x, R k x x)
    (htrans : ∀ k x y z, R k x y → R k y z → R k x z) (hs : Sound I R s) (t : τ) (k : κ)
    (f : ρ → ρ) (hf : I k (visible t (s k)) → I k (f (visible t (s k))) ∧
      R k (visible t (s k)) (f (visible t (s k)))) :
    Sound I R (write t k f s) := by
  intro k'
  by_cases hk : k' = k
  · subst hk
    rw [write_self]
    refine ⟨(hs k').1, fun t' v hv => ?_⟩
    simp only [Option.some.injEq, Prod.mk.injEq] at hv
    rcases sound_visible hrefl hs t k' with ⟨hI, hR⟩
    rcases hf hI with ⟨hI', hR'⟩
    rw [← hv.2]
    exact ⟨hI', htrans _ _ _ _ hR hR'⟩
  · rw [write_other t k k' f s hk]
    exact hs k'

theorem sound_release {s : Store κ τ ρ} (hs : Sound I R s) (t : τ) (k : κ) :
    I k (release t (s k)).committed ∧ ∀ t' v, (release t (s k)).writer = some (t', v) →
      I k v ∧ R k (release t (s k)).committed v := by
  rw [release_committed]
  exact ⟨(hs k).1, fun t' v hv => (hs k).2 t' v (release_writer hv).1⟩

theorem sound_undo [DecidableEq κ] {s : Store κ τ ρ} (hs : Sound I R s) (t : τ) (k : κ) :
    Sound I R (undo t k s) := by
  intro k'
  by_cases hk : k' = k
  · subst hk
    simp only [undo, Function.update_self]
    exact sound_release hs t k'
  · simp only [undo, Function.update_of_ne hk]
    exact hs k'

theorem sound_rollback {s : Store κ τ ρ} (hs : Sound I R s) (t : τ) :
    Sound I R (rollback t s) := fun k => sound_release hs t k

theorem sound_commit {s : Store κ τ ρ} (hs : Sound I R s) (t : τ) : Sound I R (commit t s) := by
  intro k
  simp only [commit]
  rcases publish_cases t (s k) with ⟨v, hw, hp⟩ | ⟨_, hp⟩
  · rw [hp]
    exact ⟨((hs k).2 t v hw).1, fun t' w h => by simp only [reduceCtorEq] at h⟩
  · rw [hp]
    exact hs k

/-- A commit moves every committed row along the preorder. -/
theorem committed_rel_commit {s : Store κ τ ρ} (hrefl : ∀ k x, R k x x) (hs : Sound I R s)
    (t : τ) (k : κ) : R k (s k).committed (commit t s k).committed := by
  simp only [commit]
  rcases publish_cases t (s k) with ⟨v, hw, hp⟩ | ⟨_, hp⟩
  · rw [hp]
    exact ((hs k).2 t v hw).2
  · rw [hp]
    exact hrefl k _

omit [DecidableEq τ] in
/-- A weaker property and a weaker preorder hold as well. -/
theorem sound_mono {I' : κ → ρ → Prop} {R' : κ → ρ → ρ → Prop} {s : Store κ τ ρ}
    (hI : ∀ k x, I k x → I' k x) (hR : ∀ k x y, R k x y → R' k x y) (hs : Sound I R s) :
    Sound I' R' s := by
  intro k
  refine ⟨hI k _ (hs k).1, fun t v hw => ?_⟩
  rcases (hs k).2 t v hw with ⟨hv, hr⟩
  exact ⟨hI k v hv, hR k _ _ hr⟩

end Rule

section Acts

variable [DecidableEq κ] [DecidableEq τ]

/-- What transaction `t` can do to the store in one step. `L` says which
    changes of a row are lawful. -/
inductive Act (L : κ → ρ → ρ → Prop) (t : τ) (s : Store κ τ ρ) : Store κ τ ρ → Prop
  | skip : Act L t s s
  | write (k : κ) (f : ρ → ρ) (hfree : Free t (s k))
      (hlawful : L k (visible t (s k)) (f (visible t (s k)))) : Act L t s (write t k f s)
  | undo (k : κ) : Act L t s (undo t k s)
  | commit : Act L t s (commit t s)
  | rollback : Act L t s (rollback t s)

variable {L : κ → ρ → ρ → Prop} {I I' : κ → ρ → Prop} {R : κ → ρ → ρ → Prop} {t : τ}
  {s s' : Store κ τ ρ}

/-- Acts whose writes are lawful keep the store sound. -/
theorem act_sound (hrefl : ∀ k x, R k x x) (htrans : ∀ k x y z, R k x y → R k y z → R k x z)
    (hmono : ∀ k x, I k x → I' k x) (hL : ∀ k x y, I k x → L k x y → I' k y ∧ R k x y)
    (hs : Sound I R s) (hact : Act L t s s') : Sound I' R s' := by
  have hs' : Sound I' R s := sound_mono hmono (fun _ _ _ h => h) hs
  cases hact with
  | skip => exact hs'
  | write k f hfree hlawful =>
      refine sound_write hrefl htrans hs' t k f (fun _ => ?_)
      exact hL k _ _ (sound_visible hrefl hs t k).1 hlawful
  | undo k => exact sound_undo hs' t k
  | commit => exact sound_commit hs' t
  | rollback => exact sound_rollback hs' t

/-- What is known of the values written is known of the changes. -/
theorem act_and {L' : κ → ρ → ρ → Prop} (hact : Act L t s s')
    (h : ∀ k v, (s' k).writer = some (t, v) → L' k (visible t (s k)) v) :
    Act (fun k x y => L k x y ∧ L' k x y) t s s' := by
  cases hact with
  | skip => exact Act.skip
  | write k f hfree hlawful =>
      refine Act.write k f hfree ⟨hlawful, h k _ ?_⟩
      rw [write_self]
  | undo k => exact Act.undo k
  | commit => exact Act.commit
  | rollback => exact Act.rollback

omit [DecidableEq κ] [DecidableEq τ] in
/-- Two properties throughout a store are one. -/
theorem sound_and {J : κ → ρ → Prop} {R' : κ → ρ → ρ → Prop} (hs : Sound I R s)
    (hs' : Sound J R' s) : Sound (fun k v => I k v ∧ J k v) (fun _ _ _ => True) s := by
  intro k
  refine ⟨⟨(hs k).1, (hs' k).1⟩, fun t' v hw => ?_⟩
  exact ⟨⟨((hs k).2 t' v hw).1, ((hs' k).2 t' v hw).1⟩, trivial⟩

/-- An act moves every committed row along the preorder. -/
theorem act_committed (hrefl : ∀ k x, R k x x) (hs : Sound I R s) (hact : Act L t s s') (k : κ) :
    R k (s k).committed (s' k).committed := by
  cases hact with
  | skip => exact hrefl k _
  | write k' f hfree hlawful =>
      rw [write_committed]
      exact hrefl k _
  | undo k' =>
      rw [undo_committed]
      exact hrefl k _
  | commit => exact committed_rel_commit hrefl hs t k
  | rollback =>
      rw [rollback_committed]
      exact hrefl k _

omit [DecidableEq κ] in
theorem release_foreign {t' : τ} {c : Cell τ ρ} {v : ρ} (hne : t' ≠ t)
    (h : c.writer = some (t', v)) : release t c = c := by
  rcases c with ⟨x, w⟩
  have hw : w = some (t', v) := h
  subst hw
  simp only [release, if_neg hne]

/-- What another transaction has written stays as it is. -/
theorem act_foreign {t' : τ} (hne : t' ≠ t) (hact : Act L t s s') {k : κ} {v : ρ}
    (h : (s k).writer = some (t', v)) : s' k = s k := by
  cases hact with
  | skip => rfl
  | write k' f hfree hlawful =>
      by_cases hk : k = k'
      · subst hk
        exact absurd (hfree t' v h) hne
      · exact write_other t k' k f s hk
  | undo k' =>
      by_cases hk : k = k'
      · subst hk
        simp only [undo, Function.update_self, release_foreign hne h]
      · simp only [undo, Function.update_of_ne hk]
  | commit =>
      rcases publish_cases t (s k) with ⟨w, hw, _⟩ | ⟨_, hp⟩
      · rw [h] at hw
        exact absurd (Prod.mk.inj (Option.some.inj hw)).1 hne
      · exact hp
  | rollback => exact release_foreign hne h

end Acts

section Layers

/-- `v` is in the row: as the committed value, or as what the transaction `t`
    has written there for `some t`. -/
def Layer (c : Cell τ ρ) : Option τ → ρ → Prop
  | none, v => c.committed = v
  | some t, v => c.writer = some (t, v)

variable [DecidableEq τ] {t : τ} {s : Store κ τ ρ} {k k' : κ} {o : Option τ} {v : ρ}

omit [DecidableEq τ] in
theorem layer_blank {x : ρ} (h : Layer ((blank x : Store κ τ ρ) k) o v) : o = none ∧ v = x := by
  cases o with
  | none => exact ⟨rfl, h.symm⟩
  | some t => cases h

/-- What a transaction sees is committed or its own. -/
theorem layer_visible (t : τ) (c : Cell τ ρ) :
    ∃ o, (o = none ∨ o = some t) ∧ Layer c o (visible t c) := by
  rcases c with ⟨x, _ | ⟨t', w⟩⟩
  · exact ⟨none, Or.inl rfl, rfl⟩
  · by_cases ht : t' = t
    · subst ht
      refine ⟨some t', Or.inr rfl, ?_⟩
      simp only [Layer, visible, if_true]
    · refine ⟨none, Or.inl rfl, ?_⟩
      simp only [Layer, visible, if_neg ht]

theorem layer_write [DecidableEq κ] {f : ρ → ρ} (h : Layer (write t k f s k') o v) :
    Layer (s k') o v ∨ (k' = k ∧ o = some t ∧ v = f (visible t (s k))) := by
  by_cases hk : k' = k
  · subst hk
    rw [write_self] at h
    cases o with
    | none => exact Or.inl h
    | some t' =>
        have heq := Prod.mk.inj (Option.some.inj h)
        exact Or.inr ⟨rfl, by rw [heq.1], heq.2.symm⟩
  · rw [write_other t k k' f s hk] at h
    exact Or.inl h

theorem layer_write_self [DecidableEq κ] (f : ρ → ρ) :
    Layer (write t k f s k) (some t) (f (visible t (s k))) := by
  rw [write_self]
  rfl

/-- Writing over nothing covers nothing. -/
theorem layer_write_of_unwritten [DecidableEq κ] {f : ρ → ρ} (hnew : ∀ o, ¬ Layer (s k) o v)
    (h : Layer (s k') o v) : Layer (write t k f s k') o v := by
  rw [write_other]
  · exact h
  · rintro rfl
    exact hnew o h

theorem layer_release {c : Cell τ ρ} (h : Layer (release t c) o v) :
    Layer c o v ∧ o ≠ some t := by
  cases o with
  | none =>
      have hc : (release t c).committed = v := h
      rw [release_committed] at hc
      exact ⟨hc, fun hc => by cases hc⟩
  | some t' =>
      rcases release_writer h with ⟨hw, hne⟩
      exact ⟨hw, fun hc => hne (Option.some.inj hc)⟩

theorem layer_undo [DecidableEq κ] (h : Layer (undo t k s k') o v) :
    Layer (s k') o v ∧ ¬ (k' = k ∧ o = some t) := by
  by_cases hk : k' = k
  · subst hk
    simp only [undo, Function.update_self] at h
    rcases layer_release h with ⟨hl, hne⟩
    exact ⟨hl, fun hc => hne hc.2⟩
  · simp only [undo, Function.update_of_ne hk] at h
    exact ⟨h, fun hc => hk hc.1⟩

/-- Every other value of the store survives. -/
theorem layer_undo_of_ne [DecidableEq κ] (h : Layer (s k') o v) (hne : ¬ (k' = k ∧ o = some t)) :
    Layer (undo t k s k') o v := by
  by_cases hk : k' = k
  · subst hk
    simp only [undo, Function.update_self]
    cases o with
    | none => exact (release_committed t (s k')).trans h
    | some t' =>
        have ht : t' ≠ t := fun heq => hne ⟨rfl, congrArg some heq⟩
        rw [release_foreign ht h]
        exact h
  · simp only [undo, Function.update_of_ne hk]
    exact h

theorem layer_rollback (h : Layer (rollback t s k) o v) : Layer (s k) o v ∧ o ≠ some t :=
  layer_release h

/-- A value after a commit was there before; `t`'s own have been published. -/
theorem layer_commit (h : Layer (commit t s k) o v) :
    (Layer (s k) o v ∧ o ≠ some t) ∨ (o = none ∧ Layer (s k) (some t) v) := by
  simp only [commit] at h
  rcases publish_cases t (s k) with ⟨w, hw, hp⟩ | ⟨hnone, hp⟩
  · rw [hp] at h
    cases o with
    | none =>
        have hwv : w = v := h
        exact Or.inr ⟨rfl, hwv ▸ hw⟩
    | some t' => cases h
  · rw [hp] at h
    refine Or.inl ⟨h, fun ho => ?_⟩
    subst ho
    exact hnone v h

end Layers

end RowStore

end MmrEngine
