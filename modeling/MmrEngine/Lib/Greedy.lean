import Mathlib.Data.List.Induction
import Mathlib.Data.List.Nodup

/-!
# One-Pass Greedy Assignment

A pass over a list that pairs its items up. Every item is visited once, in
list order. One that is still unpaired searches among the unpaired items, and
if the search settles on a partner both leave the pool at once; otherwise the
item stays in it, free to be chosen by a later one.

The pass knows nothing about how a search decides. Two assumptions are enough
to say everything here: a search answers with the item it was asked for
(`origin`), and it only settles on members of the pool it was given, never on
the item itself (`Honest`).

The state after a prefix of the list is `pass` of that prefix, so a moment of
the run is a splitting of the list. That is what `mem_picks` and
`passed_over` are phrased with: every pick was made at one moment, and an item
of the prefix that is still in the pool had its turn and found nobody.

## Main definitions

* `Search`: Keys, the search itself, and how its answers are read.
* `Progress`: The keys already paired, and the answers accepted.
* `available`: The pool.
* `visit`: One item's turn.
* `pass`: The state after a list of turns.
* `Honest`: A search settles on another member of its pool.

## Theorems

* `used_mono`: Nobody returns to the pool.
* `mem_picks`: Every accepted answer was given at one moment of the pass.
* `used_perm`: The paired keys are exactly those of the accepted answers.
* `nodup_picks`: No key occurs twice among the accepted answers.
* `passed_over`: Who is still in the pool had a turn and found nobody.
* `second_pass_pick`: What a second pass picks had a turn in the first.
-/

namespace MmrEngine

namespace Greedy

variable {ι κ ρ : Type*}

/-- How items are told apart, how one searches, and what an answer says. -/
structure Search (ι κ ρ : Type*) where
  key : ι → κ
  search : ι → List ι → ρ
  origin : ρ → κ
  target : ρ → Option κ

/-- The keys paired so far, and the accepted answers in order. -/
structure Progress (κ ρ : Type*) where
  used : List κ
  picks : List ρ

/-- Nobody has had a turn. -/
def start : Progress κ ρ := { used := [], picks := [] }

/-- A search answers for its own item and settles on another one of its pool. -/
structure Honest (S : Search ι κ ρ) : Prop where
  origin_eq : ∀ s pool, S.origin (S.search s pool) = S.key s
  target_mem : ∀ s pool k, S.target (S.search s pool) = some k →
    ∃ c ∈ pool, S.key c = k ∧ k ≠ S.key s

variable [DecidableEq κ] (S : Search ι κ ρ) (all : List ι)

/-- The items whose key is not used. -/
def available (used : List κ) : List ι := all.filter (fun c => decide (S.key c ∉ used))

/-- One item's turn. -/
def visit (st : Progress κ ρ) (s : ι) : Progress κ ρ :=
  if S.key s ∈ st.used then st
  else
    match S.target (S.search s (available S all st.used)) with
    | none => st
    | some k =>
      { used := st.used ++ [S.key s, k]
        picks := st.picks ++ [S.search s (available S all st.used)] }

/-- The state after the given turns. -/
def pass (turns : List ι) : Progress κ ρ := turns.foldl (visit S all) start

@[simp] theorem mem_available {used : List κ} {c : ι} :
    c ∈ available S all used ↔ c ∈ all ∧ S.key c ∉ used := by
  simp only [available, List.mem_filter, decide_eq_true_eq]

@[simp] theorem pass_nil : pass S all [] = start := rfl

theorem pass_concat (pre : List ι) (s : ι) :
    pass S all (pre ++ [s]) = visit S all (pass S all pre) s := by
  simp only [pass, List.foldl_append, List.foldl_cons, List.foldl_nil]

/-- What a turn can do: nothing, or accept the answer of the item's search. -/
theorem visit_cases (st : Progress κ ρ) (s : ι) :
    (visit S all st s = st ∧ (S.key s ∈ st.used ∨
        S.target (S.search s (available S all st.used)) = none)) ∨
      ∃ k, S.key s ∉ st.used ∧ S.target (S.search s (available S all st.used)) = some k ∧
        visit S all st s =
          { used := st.used ++ [S.key s, k]
            picks := st.picks ++ [S.search s (available S all st.used)] } := by
  unfold visit
  by_cases hs : S.key s ∈ st.used
  · exact Or.inl ⟨if_pos hs, Or.inl hs⟩
  · simp only [if_neg hs]
    cases ht : S.target (S.search s (available S all st.used)) with
    | none => exact Or.inl ⟨rfl, Or.inr rfl⟩
    | some k => exact Or.inr ⟨k, hs, rfl, rfl⟩

theorem visit_used_subset (st : Progress κ ρ) (s : ι) : st.used ⊆ (visit S all st s).used := by
  rcases visit_cases S all st s with ⟨h, _⟩ | ⟨k, _, _, h⟩
  · rw [h]
    exact List.Subset.refl _
  · rw [h]
    exact List.subset_append_left _ _

/-- Nobody returns to the pool. -/
theorem used_mono (pre post : List ι) :
    (pass S all pre).used ⊆ (pass S all (pre ++ post)).used := by
  induction post using List.reverseRecOn with
  | nil =>
      rw [List.append_nil]
      exact List.Subset.refl _
  | append_singleton xs s ih =>
      rw [← List.append_assoc, pass_concat]
      exact List.Subset.trans ih (visit_used_subset S all _ s)

/-- A pool of a later moment is part of the pool of an earlier one. -/
theorem available_antitone (pre post : List ι) :
    available S all (pass S all (pre ++ post)).used ⊆ available S all (pass S all pre).used := by
  intro c hc
  rw [mem_available] at hc ⊢
  exact ⟨hc.1, fun h => hc.2 (used_mono S all pre post h)⟩

/-- The accepted answers are exactly those given, with a partner, by an
    unpaired item at its turn. -/
theorem mem_picks (turns : List ι) (r : ρ) :
    r ∈ (pass S all turns).picks ↔
      ∃ pre s post, turns = pre ++ s :: post ∧ S.key s ∉ (pass S all pre).used ∧
        r = S.search s (available S all (pass S all pre).used) ∧ ∃ k, S.target r = some k := by
  induction turns using List.reverseRecOn with
  | nil =>
      simp only [pass_nil, start, List.not_mem_nil, List.nil_eq_append_iff, reduceCtorEq, and_false,
        false_and, exists_false]
  | append_singleton xs x ih =>
      rw [pass_concat]
      constructor
      · intro hr
        have hcase : r ∈ (pass S all xs).picks ∨
            (S.key x ∉ (pass S all xs).used ∧
              r = S.search x (available S all (pass S all xs).used) ∧
              ∃ k, S.target r = some k) := by
          rcases visit_cases S all (pass S all xs) x with ⟨h, _⟩ | ⟨k, hx, ht, h⟩
          · rw [h] at hr
            exact Or.inl hr
          · rw [h, List.mem_append, List.mem_singleton] at hr
            exact hr.imp id fun heq => ⟨hx, heq, k, heq ▸ ht⟩
        rcases hcase with hold | ⟨hx, hr', ht⟩
        · rcases ih.mp hold with ⟨pre, s, post, hsplit, hs, hrs, ht⟩
          exact ⟨pre, s, post ++ [x], by rw [hsplit, List.append_assoc, List.cons_append], hs, hrs,
            ht⟩
        · exact ⟨xs, x, [], rfl, hx, hr', ht⟩
      · rintro ⟨pre, s, post, hsplit, hs, hrs, k, ht⟩
        have hpicks : (pass S all xs).picks ⊆ (visit S all (pass S all xs) x).picks := by
          rcases visit_cases S all (pass S all xs) x with ⟨h, _⟩ | ⟨_, _, _, h⟩
          · rw [h]
            exact List.Subset.refl _
          · rw [h]
            exact List.subset_append_left _ _
        -- The turn of `s` is the last one, or already part of `xs`.
        rcases List.eq_nil_or_concat post with hpost | ⟨post', y, hpost⟩
        · rw [hpost] at hsplit
          rcases List.append_inj' hsplit rfl with ⟨hpre, hlast⟩
          rw [← hpre] at hs hrs
          have hxs : x = s := (List.cons.inj hlast).1
          rw [← hxs] at hs hrs
          rcases visit_cases S all (pass S all xs) x with ⟨_, hno⟩ | ⟨k', _, _, h⟩
          · rcases hno with hno | hno
            · exact absurd hno hs
            · rw [← hrs, ht] at hno
              exact absurd hno (by simp only [reduceCtorEq, not_false_eq_true])
          · rw [h, hrs]
            exact List.mem_append_right _ List.mem_cons_self
        · rw [hpost, List.concat_eq_append, ← List.cons_append, ← List.append_assoc] at hsplit
          rcases List.append_inj' hsplit rfl with ⟨hxs, _⟩
          exact hpicks (ih.mpr ⟨pre, s, post', hxs, hs, hrs, k, ht⟩)

/-- The two keys an answer pairs up. -/
def keysOf (r : ρ) : List κ := S.origin r :: (S.target r).toList

/-- The paired keys are those of the accepted answers. -/
theorem used_eq (hS : Honest S) (turns : List ι) :
    (pass S all turns).used = (pass S all turns).picks.flatMap (keysOf S) := by
  induction turns using List.reverseRecOn with
  | nil => rfl
  | append_singleton xs s ih =>
      rw [pass_concat]
      rcases visit_cases S all (pass S all xs) s with ⟨h, _⟩ | ⟨k, _, ht, h⟩
      · rw [h]
        exact ih
      · have hkeys : keysOf S (S.search s (available S all (pass S all xs).used))
            = [S.key s, k] := by
          simp only [keysOf, hS.origin_eq, ht, Option.toList_some]
        rw [h]
        simp only [List.flatMap_append, List.flatMap_cons, List.flatMap_nil, List.append_nil, hkeys]
        exact congrArg (· ++ [S.key s, k]) ih

/-- No key is paired twice. -/
theorem nodup_used (hS : Honest S) (turns : List ι) : (pass S all turns).used.Nodup := by
  induction turns using List.reverseRecOn with
  | nil => exact List.nodup_nil
  | append_singleton xs s ih =>
      rw [pass_concat]
      rcases visit_cases S all (pass S all xs) s with ⟨h, _⟩ | ⟨k, hs, ht, h⟩
      · rw [h]
        exact ih
      · rw [h]
        rcases hS.target_mem _ _ _ ht with ⟨c, hc, hck, hne⟩
        have hk : k ∉ (pass S all xs).used := hck ▸ ((mem_available S all).mp hc).2
        refine List.nodup_append.mpr ⟨ih, ?_, ?_⟩
        · exact List.nodup_cons.mpr ⟨fun h => hne (List.mem_singleton.mp h).symm,
            List.nodup_singleton k⟩
        · intro a ha b hb hab
          subst hab
          rcases List.mem_cons.mp hb with hb | hb
          · exact hs (hb ▸ ha)
          · exact hk (List.mem_singleton.mp hb ▸ ha)

/-- No key occurs twice among the accepted answers. -/
theorem nodup_picks (hS : Honest S) (turns : List ι) :
    ((pass S all turns).picks.flatMap (keysOf S)).Nodup := by
  rw [← used_eq S all hS]
  exact nodup_used S all hS turns

/-- An item of the prefix that is still in the pool had its turn, and its
    search found nobody. -/
theorem passed_over {pre : List ι} {x : ι} (hx : x ∈ pre)
    (hfree : S.key x ∉ (pass S all pre).used) :
    ∃ pre₁ post₁, pre = pre₁ ++ x :: post₁ ∧ S.key x ∉ (pass S all pre₁).used ∧
      S.target (S.search x (available S all (pass S all pre₁).used)) = none := by
  rcases List.append_of_mem hx with ⟨pre₁, post₁, hsplit⟩
  refine ⟨pre₁, post₁, hsplit, ?_, ?_⟩
  · rw [hsplit] at hfree
    exact fun h => hfree (used_mono S all pre₁ _ h)
  · have hafter : S.key x ∉ (pass S all (pre₁ ++ [x])).used := by
      intro h
      apply hfree
      rw [hsplit, List.append_cons]
      exact used_mono S all (pre₁ ++ [x]) post₁ h
    rw [pass_concat] at hafter
    rcases visit_cases S all (pass S all pre₁) x with ⟨h, hno⟩ | ⟨k, _, _, h⟩
    · rcases hno with hno | hno
      · rw [h] at hafter
        exact absurd hno hafter
      · exact hno
    · rw [h] at hafter
      exact absurd (List.mem_append_right _ List.mem_cons_self) hafter

/-- What a second pass over the items left over picks was asked for before: the
    item had a turn in the first pass, found nobody in a larger pool, and finds
    somebody now that the pool is smaller. -/
theorem second_pass_pick {r : ρ}
    (hr : r ∈ (pass S (available S all (pass S all all).used)
      (available S all (pass S all all).used)).picks) :
    ∃ pre s post, all = pre ++ s :: post ∧ S.key s ∉ (pass S all pre).used ∧
      S.target (S.search s (available S all (pass S all pre).used)) = none ∧
      ∃ pool, pool ⊆ available S all (pass S all pre).used ∧ r = S.search s pool ∧
        ∃ k, S.target r = some k := by
  rcases (mem_picks S _ _ r).mp hr with ⟨pre', s, post', hsplit, _, hsearch, htarget⟩
  have hs : s ∈ available S all (pass S all all).used := by
    rw [hsplit]
    exact List.mem_append_right _ List.mem_cons_self
  rcases (mem_available S all).mp hs with ⟨hall, hfree⟩
  rcases passed_over S all hall hfree with ⟨pre, post, hturn, hkey, hnone⟩
  refine ⟨pre, s, post, hturn, hkey, hnone, _, ?_, hsearch, htarget⟩
  -- Its pool is part of what was left over, which was available all along.
  have hleft : available S all (pass S all all).used ⊆ available S all (pass S all pre).used := by
    have h := available_antitone S all pre (s :: post)
    rw [← hturn] at h
    exact h
  intro c hc
  exact hleft ((mem_available S _).mp hc).1

end Greedy

end MmrEngine
