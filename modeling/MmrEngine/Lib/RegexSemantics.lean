import MmrEngine.Lib.Regex

/-!
# What Patterns Match

The matcher of `Lib.Regex` enumerates matches in the order it prefers them.
Most questions about a pattern do not care for the order: which stretches of a
text match at all, and what is left of a text when they are replaced. This is
the meaning of patterns without the matcher.

`Matches r b w a` says that `r` matches `w` between `b`, what comes before it
with the nearest character first, and `a`, what comes after. `run_sound` and
`run_complete` are the agreement with the matcher. `Subst` is what `re.sub`
does to a text, up to the choice between the matches at one place.

The last rule is about text that a substitution has not made. A stretch of the
result that is neither inside a replacement nor reaches into one stood in the
text before, and no match began where it begins (`origin`).

## Main definitions

* `Matches`: A pattern matches a stretch between two others.
* `plain`: A pattern that does not look around.
* `within`: A pattern whose matches are of one kind of character.
* `Found`: A pattern matches somewhere in a text.
* `search`: Whether it does.
* `Subst`: Some matches of a text are replaced, and no match was passed over.
* `Foreign`: A stretch no part of which comes from a replacement.

## Theorems

* `run_sound`, `run_complete`: The matcher finds the matches.
* `matches_plus_char`, `matches_times_char`, `matches_literal`: What repeated
  characters and literal texts match.
* `found_iff_search`: A search finds what there is.
* `subst_sub`: `sub` substitutes.
* `subst_of_not_found`, `sub_of_not_found`: Without a match nothing changes.
* `subst_head`, `subst_last`: The ends of the result.
* `origin`: Where a foreign stretch of the result comes from.
* `not_found_sub`, `not_found_of_sub`: What a substitution removes and keeps away.
-/

namespace MmrEngine

namespace Regex

/-- Any number of matches one after another, none of them empty. -/
inductive Rounds (m : List Char → List Char → List Char → Prop) :
    List Char → List Char → List Char → Prop
  | nil (b a : List Char) : Rounds m b [] a
  | cons (b u v a : List Char) (hne : u ≠ []) (hm : m b u (v ++ a))
      (hrest : Rounds m (u.reverse ++ b) v a) : Rounds m b (u ++ v) a

/-- The pattern matches `w` after `b` and before `a`. -/
def Matches : Regex → List Char → List Char → List Char → Prop
  | .empty, _, w, _ => w = []
  | .char p, _, w, _ => ∃ c, w = [c] ∧ p c = true
  | .seq r s, b, w, a => ∃ u v, w = u ++ v ∧ Matches r b u (v ++ a) ∧
      Matches s (u.reverse ++ b) v a
  | .alt r s, b, w, a => Matches r b w a ∨ Matches s b w a
  | .star r, b, w, a => Rounds (Matches r) b w a
  | .notAfter p, b, w, _ => w = [] ∧ b.head?.any p = false
  | .notBefore p, _, w, a => w = [] ∧ a.head?.any p = false

/-- What `run` says of a place and an end. -/
def Stretch (m : List Char → List Char → List Char → Prop) (p q : Place) : Prop :=
  ∃ w, p.after = w ++ q.after ∧ q.before = w.reverse ++ p.before ∧ m p.before w q.after

theorem repeated_sound {m : List Char → List Char → List Char → Prop} {round : Place → List Place}
    (hround : ∀ p q, q ∈ round p → Stretch m p q) :
    ∀ (n : Nat) (p q : Place), q ∈ repeated round n p → Stretch (Rounds m) p q := by
  intro n
  induction n with
  | zero =>
      intro p q hq
      rw [List.mem_singleton.mp hq]
      exact ⟨[], rfl, rfl, Rounds.nil _ _⟩
  | succ n ih =>
      intro p q hq
      -- Either another round is made, or the repetition stops here.
      rcases List.mem_append.mp hq with hmore | hstop
      · rcases List.mem_flatMap.mp hmore with ⟨next, hnext, hq'⟩
        rcases List.mem_filter.mp hnext with ⟨hmem, hshorter⟩
        rcases hround p next hmem with ⟨u, hpu, hnu, hm⟩
        rcases ih next q hq' with ⟨v, hnv, hqv, hrounds⟩
        refine ⟨u ++ v, ?_, ?_, Rounds.cons _ u v _ ?_ ?_ ?_⟩
        · rw [hpu, hnv, List.append_assoc]
        · rw [hqv, hnu, List.reverse_append, List.append_assoc]
        · intro hu
          rw [hpu, hu, List.nil_append] at hshorter
          exact absurd (of_decide_eq_true hshorter) (Nat.lt_irrefl _)
        · rw [← hnv]
          exact hm
        · rw [← hnu]
          exact hrounds
      · rw [List.mem_singleton.mp hstop]
        exact ⟨[], rfl, rfl, Rounds.nil _ _⟩

/-- A place that is given up when a condition holds. -/
theorem mem_guarded {condition : Bool} {place q : Place}
    (hq : q ∈ if condition = true then [] else [place]) : q = place ∧ condition = false := by
  cases condition with
  | true => cases hq
  | false => exact ⟨List.mem_singleton.mp hq, rfl⟩

/-- Every end the matcher lists ends a match. -/
theorem run_sound (r : Regex) : ∀ p q : Place, q ∈ run r p → Stretch (Matches r) p q := by
  induction r with
  | empty =>
      intro p q hq
      rw [List.mem_singleton.mp hq]
      exact ⟨[], rfl, rfl, rfl⟩
  | char p =>
      intro place q hq
      -- A character is taken off the text after the place.
      cases hafter : place.after with
      | nil =>
          simp only [run, hafter, List.not_mem_nil] at hq
      | cons c rest =>
          simp only [run, hafter] at hq
          by_cases hc : p c = true
          · rw [if_pos hc, List.mem_singleton] at hq
            rw [hq]
            exact ⟨[c], hafter, rfl, c, rfl, hc⟩
          · rw [if_neg hc] at hq
            cases hq
  | seq r s ihr ihs =>
      intro p q hq
      -- The second half goes on from where the first ends.
      rcases List.mem_flatMap.mp hq with ⟨mid, hmid, hq'⟩
      rcases ihr p mid hmid with ⟨u, hpu, hmu, hm⟩
      rcases ihs mid q hq' with ⟨v, hmv, hqv, hm'⟩
      refine ⟨u ++ v, ?_, ?_, u, v, rfl, ?_, ?_⟩
      · rw [hpu, hmv, List.append_assoc]
      · rw [hqv, hmu, List.reverse_append, List.append_assoc]
      · rw [← hmv]
        exact hm
      · rw [← hmu]
        exact hm'
  | alt r s ihr ihs =>
      intro p q hq
      rcases List.mem_append.mp hq with hl | hr
      · rcases ihr p q hl with ⟨w, hp, hq', hm⟩
        exact ⟨w, hp, hq', Or.inl hm⟩
      · rcases ihs p q hr with ⟨w, hp, hq', hm⟩
        exact ⟨w, hp, hq', Or.inr hm⟩
  | star r ih =>
      intro p q hq
      exact repeated_sound ih p.after.length p q hq
  | notAfter p =>
      intro place q hq
      unfold run at hq
      rcases mem_guarded hq with ⟨rfl, hbeside⟩
      exact ⟨[], rfl, rfl, rfl, hbeside⟩
  | notBefore p =>
      intro place q hq
      unfold run at hq
      rcases mem_guarded hq with ⟨rfl, hbeside⟩
      exact ⟨[], rfl, rfl, rfl, hbeside⟩

theorem repeated_complete {m : List Char → List Char → List Char → Prop}
    {round : Place → List Place}
    (hround : ∀ b w a, m b w a →
      { before := w.reverse ++ b, after := a } ∈ round { before := b, after := w ++ a })
    {b w a : List Char} (h : Rounds m b w a) :
    ∀ n, w.length ≤ n → { before := w.reverse ++ b, after := a } ∈
      repeated round n { before := b, after := w ++ a } := by
  induction h with
  | nil b a =>
      intro n _
      cases n with
      | zero => exact List.mem_cons_self
      | succ n => exact List.mem_append_right _ List.mem_cons_self
  | cons b u v a hne hm hrest ih =>
      intro n hn
      -- A round takes at least one character, so there are no more rounds than characters.
      have hpos : 0 < u.length := List.length_pos_iff.mpr hne
      rw [List.length_append] at hn
      cases n with
      | zero => omega
      | succ n =>
          refine List.mem_append_left _ (List.mem_flatMap.mpr
            ⟨{ before := u.reverse ++ b, after := v ++ a }, List.mem_filter.mpr ⟨?_, ?_⟩, ?_⟩)
          · rw [List.append_assoc]
            exact hround b u (v ++ a) hm
          · rw [decide_eq_true_iff]
            simp only [List.length_append]
            omega
          · rw [List.reverse_append, List.append_assoc]
            exact ih n (by omega)

/-- Every match has its end in the list. -/
theorem run_complete (r : Regex) : ∀ b w a, Matches r b w a →
    { before := w.reverse ++ b, after := a } ∈ run r { before := b, after := w ++ a } := by
  induction r with
  | empty =>
      intro b w a h
      have hw : w = [] := h
      rw [hw]
      exact List.mem_cons_self
  | char p =>
      intro b w a h
      rcases h with ⟨c, rfl, hc⟩
      simp only [run, List.cons_append, List.nil_append, List.reverse_singleton, if_pos hc,
        List.mem_singleton]
  | seq r s ihr ihs =>
      intro b w a h
      rcases h with ⟨u, v, rfl, hr, hs⟩
      refine List.mem_flatMap.mpr ⟨{ before := u.reverse ++ b, after := v ++ a }, ?_, ?_⟩
      · rw [List.append_assoc]
        exact ihr b u (v ++ a) hr
      · rw [List.reverse_append, List.append_assoc]
        exact ihs (u.reverse ++ b) v a hs
  | alt r s ihr ihs =>
      intro b w a h
      rcases h with hr | hs
      · exact List.mem_append_left _ (ihr b w a hr)
      · exact List.mem_append_right _ (ihs b w a hs)
  | star r ih =>
      intro b w a h
      -- The matcher allows as many rounds as there are characters left.
      exact repeated_complete ih h (w ++ a).length (by rw [List.length_append]; omega)
  | notAfter p =>
      intro b w a h
      rcases h with ⟨rfl, hb⟩
      simp only [run, List.nil_append, List.reverse_nil, hb, Bool.false_eq_true, if_false,
        List.mem_singleton]
  | notBefore p =>
      intro b w a h
      rcases h with ⟨rfl, ha⟩
      simp only [run, List.nil_append, List.reverse_nil, ha, Bool.false_eq_true, if_false,
        List.mem_singleton]

/-- A repeated character matches stretches of such characters. -/
theorem matches_star_char {p : Char → Bool} {b w a : List Char}
    (h : Matches (.star (.char p)) b w a) : ∀ c ∈ w, p c = true := by
  have hrounds : Rounds (Matches (.char p)) b w a := h
  induction hrounds with
  | nil b a =>
      intro c hc
      cases hc
  | cons b u v a hne hm hrest ih =>
      intro c hc
      rcases List.mem_append.mp hc with hu | hv
      · rcases hm with ⟨d, rfl, hd⟩
        rw [List.mem_singleton.mp hu]
        exact hd
      · exact ih hrest c hv

theorem matches_plus_char {p : Char → Bool} {b w a : List Char}
    (h : Matches (plus (.char p)) b w a) : w ≠ [] ∧ ∀ c ∈ w, p c = true := by
  rcases h with ⟨u, v, rfl, ⟨d, rfl, hd⟩, hrest⟩
  refine ⟨List.cons_ne_nil _ _, fun c hc => ?_⟩
  rcases List.mem_append.mp hc with hu | hv
  · rw [List.mem_singleton.mp hu]
    exact hd
  · exact matches_star_char hrest c hv

/-- One such character is enough. -/
theorem matches_plus_singleton {p : Char → Bool} {c : Char} (hc : p c = true) (b a : List Char) :
    Matches (plus (.char p)) b [c] a :=
  ⟨[c], [], rfl, ⟨c, rfl, hc⟩, Rounds.nil _ _⟩

theorem matches_times_char {p : Char → Bool} (n : Nat) : ∀ b w a : List Char,
    Matches (times (.char p) n) b w a ↔ w.length = n ∧ ∀ c ∈ w, p c = true := by
  induction n with
  | zero =>
      intro b w a
      constructor
      · intro h
        have hw : w = [] := h
        rw [hw]
        exact ⟨rfl, fun c hc => absurd hc List.not_mem_nil⟩
      · intro h
        exact List.eq_nil_of_length_eq_zero h.1
  | succ n ih =>
      intro b w a
      constructor
      · rintro ⟨u, v, rfl, ⟨c, rfl, hc⟩, hrest⟩
        rcases (ih _ _ _).mp hrest with ⟨hlength, hall⟩
        refine ⟨by rw [List.cons_append, List.nil_append, List.length_cons, hlength], ?_⟩
        exact List.forall_mem_cons.mpr ⟨hc, hall⟩
      · rintro ⟨hlength, hall⟩
        -- The first of the `n + 1` characters, and `n` more.
        cases w with
        | nil => cases hlength
        | cons c v =>
            rw [List.forall_mem_cons] at hall
            rw [List.length_cons] at hlength
            exact ⟨[c], v, rfl, ⟨c, rfl, hall.1⟩, (ih _ _ _).mpr ⟨by omega, hall.2⟩⟩

theorem matches_literal (s : String) (b w a : List Char) :
    Matches (literal s) b w a ↔ w = s.toList := by
  unfold literal
  generalize s.toList = cs
  induction cs generalizing b w with
  | nil => exact Iff.rfl
  | cons c cs ih =>
      constructor
      · rintro ⟨u, v, rfl, ⟨d, rfl, hd⟩, hrest⟩
        rw [(ih _ _).mp hrest, of_decide_eq_true hd]
        rfl
      · intro hw
        rw [hw]
        exact ⟨[c], cs, rfl, ⟨c, rfl, decide_eq_true rfl⟩, (ih _ _).mpr rfl⟩

/-- The pattern does not look around. -/
def plain : Regex → Bool
  | .empty => true
  | .char _ => true
  | .seq r s => plain r && plain s
  | .alt r s => plain r && plain s
  | .star r => plain r
  | .notAfter _ => false
  | .notBefore _ => false

/-- A pattern that does not look around matches in any surroundings. -/
theorem matches_plain (r : Regex) (hr : plain r = true) : ∀ {b w a : List Char} (b' a' : List Char),
    Matches r b w a → Matches r b' w a' := by
  induction r with
  | empty => exact fun _ _ h => h
  | char p => exact fun _ _ h => h
  | seq r s ihr ihs =>
      rw [plain, Bool.and_eq_true] at hr
      rintro b w a b' a' ⟨u, v, rfl, hu, hv⟩
      exact ⟨u, v, rfl, ihr hr.1 _ _ hu, ihs hr.2 _ _ hv⟩
  | alt r s ihr ihs =>
      rw [plain, Bool.and_eq_true] at hr
      rintro b w a b' a' (h | h)
      · exact Or.inl (ihr hr.1 _ _ h)
      · exact Or.inr (ihs hr.2 _ _ h)
  | star r ih =>
      intro b w a b' a' h
      have hrounds : Rounds (Matches r) b w a := h
      clear h
      induction hrounds generalizing b' with
      | nil b a => exact Rounds.nil b' a'
      | cons b u v a hne hm hrest ihrest =>
          exact Rounds.cons b' u v a' hne (ih hr _ _ hm) (ihrest _)
  | notAfter p => cases hr
  | notBefore p => cases hr

/-- Every character the pattern can match is of a kind. -/
def within (kind : Char → Prop) : Regex → Prop
  | .empty => True
  | .char p => ∀ c, p c = true → kind c
  | .seq r s => within kind r ∧ within kind s
  | .alt r s => within kind r ∧ within kind s
  | .star r => within kind r
  | .notAfter _ => True
  | .notBefore _ => True

theorem matches_within {kind : Char → Prop} (r : Regex) (hr : within kind r) :
    ∀ {b w a : List Char}, Matches r b w a → ∀ c ∈ w, kind c := by
  induction r with
  | empty =>
      intro b w a h c hc
      have hw : w = [] := h
      rw [hw] at hc
      cases hc
  | char p =>
      rintro b w a ⟨d, rfl, hd⟩ c hc
      rw [List.mem_singleton.mp hc]
      exact hr d hd
  | seq r s ihr ihs =>
      rintro b w a ⟨u, v, rfl, hu, hv⟩ c hc
      rcases List.mem_append.mp hc with h | h
      · exact ihr hr.1 hu c h
      · exact ihs hr.2 hv c h
  | alt r s ihr ihs =>
      rintro b w a (h | h)
      · exact ihr hr.1 h
      · exact ihs hr.2 h
  | star r ih =>
      intro b w a h
      -- Over a repetition, by induction on its rounds.
      have hrounds : Rounds (Matches r) b w a := h
      clear h
      induction hrounds with
      | nil b a => exact fun c hc => absurd hc List.not_mem_nil
      | cons b u v a hne hm hrest ihrest =>
          intro c hc
          rcases List.mem_append.mp hc with h | h
          · exact ih hr hm c h
          · exact ihrest c h
  | notAfter p =>
      intro b w a h c hc
      rw [h.1] at hc
      cases hc
  | notBefore p =>
      intro b w a h c hc
      rw [h.1] at hc
      cases hc

/-- The pattern matches somewhere in the text. -/
def Found (r : Regex) (text : List Char) : Prop :=
  ∃ b w a, text = b ++ (w ++ a) ∧ Matches r b.reverse w a

/-- `re.search`, as far as whether there is a match. -/
def search (r : Regex) : List Char → List Char → Bool
  | b, [] => !(run r { before := b, after := [] }).isEmpty
  | b, c :: t => !(run r { before := b, after := c :: t }).isEmpty || search r (c :: b) t

/-- There is a match at a place when the matcher lists one. -/
theorem run_ne_nil_iff (r : Regex) (b t : List Char) :
    (!(run r { before := b, after := t }).isEmpty) = true ↔
      ∃ w a, t = w ++ a ∧ Matches r b w a := by
  rw [Bool.not_eq_true', List.isEmpty_eq_false_iff]
  constructor
  · intro hrun
    rcases List.exists_mem_of_ne_nil _ hrun with ⟨stop, hstop⟩
    rcases run_sound r _ stop hstop with ⟨w, ht, _, hm⟩
    exact ⟨w, stop.after, ht, hm⟩
  · rintro ⟨w, a, rfl, hm⟩
    exact List.ne_nil_of_mem (run_complete r b w a hm)

theorem search_iff (r : Regex) (b t : List Char) : search r b t = true ↔
    ∃ u w a, t = u ++ (w ++ a) ∧ Matches r (u.reverse ++ b) w a := by
  induction t generalizing b with
  | nil =>
      unfold search
      rw [run_ne_nil_iff]
      constructor
      · rintro ⟨w, a, ht, hm⟩
        exact ⟨[], w, a, ht, hm⟩
      · rintro ⟨u, w, a, ht, hm⟩
        rcases List.append_eq_nil_iff.mp ht.symm with ⟨rfl, hwa⟩
        exact ⟨w, a, hwa.symm, hm⟩
  | cons c t ih =>
      unfold search
      rw [Bool.or_eq_true, run_ne_nil_iff, ih]
      -- A match begins here or after the first character.
      constructor
      · rintro (⟨w, a, ht, hm⟩ | ⟨u, w, a, rfl, hm⟩)
        · exact ⟨[], w, a, ht, hm⟩
        · refine ⟨c :: u, w, a, by rw [List.cons_append], ?_⟩
          simpa only [List.reverse_cons, List.append_assoc, List.cons_append,
            List.nil_append] using hm
      · rintro ⟨u, w, a, ht, hm⟩
        cases u with
        | nil => exact Or.inl ⟨w, a, ht, hm⟩
        | cons d u =>
            rw [List.cons_append, List.cons.injEq] at ht
            refine Or.inr ⟨u, w, a, ht.2, ?_⟩
            rw [ht.1]
            simpa only [List.reverse_cons, List.append_assoc, List.cons_append,
              List.nil_append] using hm

/-- A search finds what there is. -/
theorem found_iff_search (r : Regex) (text : List Char) :
    Found r text ↔ search r [] text = true := by
  rw [search_iff]
  simp only [Found, List.append_nil]

instance (r : Regex) (text : List Char) : Decidable (Found r text) :=
  decidable_of_iff (search r [] text = true) (found_iff_search r text).symm

/-- Matches replaced from left to right, where there are any. -/
inductive Subst (r : Regex) (replacement : List Char) : List Char → List Char → List Char → Prop
  | done (b : List Char) : Subst r replacement b [] []
  | skip (b : List Char) (c : Char) (t out : List Char)
      (hno : ∀ w a, c :: t = w ++ a → ¬ Matches r b w a)
      (h : Subst r replacement (c :: b) t out) : Subst r replacement b (c :: t) (c :: out)
  | hit (b w t out : List Char) (hne : w ≠ []) (hm : Matches r b w t)
      (h : Subst r replacement (w.reverse ++ b) t out) :
      Subst r replacement b (w ++ t) (replacement ++ out)

variable {r : Regex} {replacement : List Char}

theorem subst_subFrom (hempty : ∀ b a, ¬ Matches r b [] a) :
    ∀ (n : Nat) (b t : List Char), t.length < n →
      Subst r replacement b t (subFrom r replacement n { before := b, after := t }) := by
  intro n
  induction n with
  | zero =>
      intro b t hn
      omega
  | succ n ih =>
      intro b t hn
      unfold subFrom
      cases hrun : (run r { before := b, after := t }).head? with
      | some stop =>
          -- The matcher found a match, and it is not empty.
          rcases run_sound r _ stop (List.mem_of_head? hrun) with ⟨w, ht, hb, hm⟩
          cases stop with
          | mk before after =>
          simp only at ht hb hm
          subst ht hb
          have hne : w ≠ [] := by
            intro hw
            rw [hw] at hm
            exact hempty _ _ hm
          have hpos : 0 < w.length := List.length_pos_iff.mpr hne
          rw [List.length_append] at hn
          have hshorter : after.length < (w ++ after).length := by
            rw [List.length_append]
            omega
          simp only [if_pos hshorter]
          exact Subst.hit b w after _ hne hm (ih _ after (by omega))
      | none =>
          have hnone : run r { before := b, after := t } = [] := List.head?_eq_none_iff.mp hrun
          cases t with
          | nil => exact Subst.done b
          | cons c rest =>
              refine Subst.skip b c rest _ (fun w a heq hm => ?_) ?_
              · -- Had there been a match, the matcher would have listed it.
                have hmem := run_complete r b w a hm
                rw [← heq, hnone] at hmem
                cases hmem
              · rw [List.length_cons] at hn
                exact ih (c :: b) rest (by omega)

/-- `sub` substitutes, for a pattern that does not match the empty text. -/
theorem subst_sub (hempty : ∀ b a, ¬ Matches r b [] a) (replacement text : String) :
    Subst r replacement.toList [] text.toList (sub r replacement text).toList := by
  rw [sub, String.toList_ofList]
  exact subst_subFrom hempty _ [] text.toList (Nat.lt_succ_self _)

/-- Where nothing matches, nothing is replaced. -/
theorem subst_of_not_found {b t out : List Char} (h : Subst r replacement b t out)
    (hno : ∀ u w a, t = u ++ (w ++ a) → ¬ Matches r (u.reverse ++ b) w a) : out = t := by
  induction h with
  | done b => rfl
  | skip b c t out _ h ih =>
      rw [ih fun u w a heq hm => hno (c :: u) w a (by rw [heq, List.cons_append]) ?_]
      simpa only [List.reverse_cons, List.append_assoc, List.cons_append, List.nil_append] using hm
  | hit b w t out hne hm h ih => exact absurd hm (hno [] w t rfl)

/-- The same of `sub`. -/
theorem sub_of_not_found (hempty : ∀ b a, ¬ Matches r b [] a) (replacement : String)
    {text : String} (hno : ¬ Found r text.toList) : sub r replacement text = text := by
  refine String.toList_inj.mp (subst_of_not_found (subst_sub hempty replacement text) ?_)
  intro u w a heq hm
  rw [List.append_nil] at hm
  exact hno ⟨u, w, a, heq, hm⟩

theorem subst_nil {b out : List Char} (h : Subst r replacement b [] out) : out = [] := by
  generalize ht : ([] : List Char) = t at h
  cases h with
  | done => rfl
  | skip c t out hno h => cases ht
  | hit w t out h hne hm => exact absurd (List.append_eq_nil_iff.mp ht.symm).1 hne

theorem subst_ne_nil (hreplacement : replacement ≠ []) {b t out : List Char}
    (h : Subst r replacement b t out) (ht : t ≠ []) : out ≠ [] := by
  cases h with
  | done => exact absurd rfl ht
  | skip c t out hno h => exact List.cons_ne_nil _ _
  | hit w t out hne hm h =>
      intro hout
      exact hreplacement (List.append_eq_nil_iff.mp hout).1

/-- The first character was the first, or is the first of a replacement. -/
theorem subst_head {kind : Char → Prop} (hreplacement : replacement ≠ [])
    (hfirst : ∀ c ∈ replacement.head?, kind c) {b t out : List Char}
    (h : Subst r replacement b t out) (ht : ∀ c ∈ t.head?, kind c) : ∀ c ∈ out.head?, kind c := by
  cases h with
  | done => exact ht
  | skip c t out hno h => exact ht
  | hit w t out hne hm h =>
      rw [List.head?_append_of_ne_nil _ hreplacement]
      exact hfirst

/-- And the same of the last. -/
theorem subst_last {kind : Char → Prop} (hreplacement : replacement ≠ [])
    (hlast : ∀ c ∈ replacement.getLast?, kind c) {b t out : List Char}
    (h : Subst r replacement b t out) (ht : ∀ c ∈ t.getLast?, kind c) :
    ∀ c ∈ out.getLast?, kind c := by
  induction h with
  | done b => exact ht
  | skip b c t out hno h ih =>
      -- The last character is copied, unless what is left after it is replaced.
      cases t with
      | nil =>
          rw [subst_nil h]
          exact ht
      | cons d t =>
          cases hout : out with
          | nil => exact absurd hout (subst_ne_nil hreplacement h (List.cons_ne_nil d t))
          | cons e out =>
              rw [hout] at ih
              rw [List.getLast?_cons_cons] at ht ⊢
              exact ih ht
  | hit b w t out hne hm h ih =>
      cases t with
      | nil =>
          rw [subst_nil h, List.append_nil]
          exact hlast
      | cons d t =>
          have hout := subst_ne_nil hreplacement h (List.cons_ne_nil d t)
          rw [List.getLast?_append_of_ne_nil _ hout]
          rw [List.getLast?_append_of_ne_nil _ (List.cons_ne_nil d t)] at ht
          exact ih ht

/-- A stretch that is neither inside the replacement nor reaches into it. -/
structure Foreign (replacement w : List Char) : Prop where
  nonempty : w ≠ []
  outside : ¬ w <:+: replacement
  first : ∀ c ∈ replacement.head?, c ∉ w
  last : ∀ c ∈ replacement.getLast?, c ∉ w

/-- A stretch before the next replacement is copied. -/
theorem copied {b t out : List Char} (h : Subst r replacement b t out)
    (hreplacement : replacement ≠ []) :
    ∀ w y, out = w ++ y → (∀ c ∈ replacement.head?, c ∉ w) →
      ∃ y', t = w ++ y' ∧ Subst r replacement (w.reverse ++ b) y' y := by
  induction h with
  | done b =>
      intro w y hout _
      rcases List.append_eq_nil_iff.mp hout.symm with ⟨rfl, rfl⟩
      exact ⟨[], rfl, Subst.done b⟩
  | skip b c t out hno h ih =>
      intro w y hout hfirst
      cases w with
      | nil =>
          rw [List.nil_append] at hout
          rw [← hout]
          exact ⟨c :: t, rfl, Subst.skip b c t out hno h⟩
      | cons d w =>
          rw [List.cons_append, List.cons.injEq] at hout
          rcases ih w y hout.2 (fun x hx hw => hfirst x hx (List.mem_cons_of_mem _ hw)) with
            ⟨y', ht, hrest⟩
          refine ⟨y', ?_, ?_⟩
          · rw [ht, hout.1, List.cons_append]
          · rw [← hout.1]
            simpa only [List.reverse_cons, List.append_assoc, List.cons_append,
              List.nil_append] using hrest
  | hit b v t out hne hm h ih =>
      intro w y hout hfirst
      cases w with
      | nil =>
          rw [List.nil_append] at hout
          rw [← hout]
          exact ⟨v ++ t, rfl, Subst.hit b v t out hne hm h⟩
      | cons d w =>
          -- The stretch would begin with the replacement.
          cases hr : replacement with
          | nil => exact absurd hr hreplacement
          | cons x xs =>
              rw [hr, List.cons_append, List.cons_append, List.cons.injEq] at hout
              refine absurd ?_ (hfirst x (by rw [hr]; rfl))
              rw [hout.1]
              exact List.mem_cons_self

/-- What stands before a foreign stretch: nothing, a character that was there
    before, or a match. -/
def Preceded (r : Regex) (b u u' a : List Char) : Prop :=
  (u = [] ∧ u' = []) ∨ (∃ c v v', u = v ++ [c] ∧ u' = v' ++ [c]) ∨
    ∃ v m, u' = v ++ m ∧ m ≠ [] ∧ Matches r (v.reverse ++ b) m a

/-- After a character that is copied. -/
theorem preceded_cons {b u u' a : List Char} {c : Char} (h : Preceded r (c :: b) u u' a) :
    Preceded r b (c :: u) (c :: u') a := by
  rcases h with ⟨rfl, rfl⟩ | ⟨d, v, v', rfl, rfl⟩ | ⟨v, m, rfl, hne, hm⟩
  · exact Or.inr (Or.inl ⟨c, [], [], rfl, rfl⟩)
  · exact Or.inr (Or.inl ⟨d, c :: v, c :: v', rfl, rfl⟩)
  · refine Or.inr (Or.inr ⟨c :: v, m, rfl, hne, ?_⟩)
    simpa only [List.reverse_cons, List.append_assoc, List.cons_append, List.nil_append] using hm

/-- After a match that is replaced. -/
theorem preceded_hit {b v u u' a : List Char} (hne : v ≠ []) (hm : Matches r b v (u' ++ a))
    (h : Preceded r (v.reverse ++ b) u u' a) :
    Preceded r b (replacement ++ u) (v ++ u') a := by
  rcases h with ⟨rfl, rfl⟩ | ⟨c, x, x', rfl, rfl⟩ | ⟨x, m, rfl, hm', hmatch⟩
  · exact Or.inr (Or.inr ⟨[], v, by rw [List.append_nil, List.nil_append], hne, hm⟩)
  · exact Or.inr (Or.inl ⟨c, replacement ++ x, v ++ x', by rw [List.append_assoc],
      by rw [List.append_assoc]⟩)
  · refine Or.inr (Or.inr ⟨v ++ x, m, by rw [List.append_assoc], hm', ?_⟩)
    rw [List.reverse_append, List.append_assoc]
    exact hmatch

/-- A foreign stretch stood in the text, and no match began where it begins. -/
theorem origin {b t out : List Char} (h : Subst r replacement b t out)
    (hreplacement : replacement ≠ []) :
    ∀ u w y, out = u ++ (w ++ y) → Foreign replacement w →
      ∃ u' y', t = u' ++ (w ++ y') ∧
        (∀ m a, w ++ y' = m ++ a → ¬ Matches r (u'.reverse ++ b) m a) ∧
        Subst r replacement (w.reverse ++ (u'.reverse ++ b)) y' y ∧
        Preceded r b u u' (w ++ y') := by
  induction h with
  | done b =>
      intro u w y hout hforeign
      rcases List.append_eq_nil_iff.mp hout.symm with ⟨_, hwy⟩
      exact absurd (List.append_eq_nil_iff.mp hwy).1 hforeign.nonempty
  | skip b c t out hno h ih =>
      intro u w y hout hforeign
      cases u with
      | nil =>
          rcases copied (Subst.skip b c t out hno h) hreplacement w y hout hforeign.first with
            ⟨y', ht, hrest⟩
          exact ⟨[], y', ht, fun m a heq => hno m a (ht.trans heq), hrest, Or.inl ⟨rfl, rfl⟩⟩
      | cons d u =>
          rw [List.cons_append, List.cons.injEq] at hout
          rcases ih u w y hout.2 hforeign with ⟨u', y', ht, hnone, hrest, hpre⟩
          have hbefore : (c :: u').reverse ++ b = u'.reverse ++ c :: b := by
            simp only [List.reverse_cons, List.append_assoc, List.cons_append, List.nil_append]
          refine ⟨c :: u', y', by rw [ht, List.cons_append], ?_, ?_, ?_⟩
          · rw [hbefore]
            exact hnone
          · rw [hbefore]
            exact hrest
          · rw [← hout.1]
            exact preceded_cons hpre
  | hit b v t out hne hm h ih =>
      intro u w y hout hforeign
      have hafter : ∀ z, u = replacement ++ z → out = z ++ (w ++ y) →
          ∃ u' y', v ++ t = u' ++ (w ++ y') ∧
            (∀ m a, w ++ y' = m ++ a → ¬ Matches r (u'.reverse ++ b) m a) ∧
            Subst r replacement (w.reverse ++ (u'.reverse ++ b)) y' y ∧
            Preceded r b u u' (w ++ y') := by
        intro z hu hz
        rcases ih z w y hz hforeign with ⟨u', y', ht, hnone, hrest, hpre⟩
        have hbefore : (v ++ u').reverse ++ b = u'.reverse ++ (v.reverse ++ b) := by
          rw [List.reverse_append, List.append_assoc]
        refine ⟨v ++ u', y', by rw [ht, List.append_assoc], ?_, ?_, ?_⟩
        · rw [hbefore]
          exact hnone
        · rw [hbefore]
          exact hrest
        · rw [hu]
          rw [ht] at hm
          exact preceded_hit hne hm hpre
      rcases List.append_eq_append_iff.mp hout with ⟨z, hu, hz⟩ | ⟨z, hr, hz⟩
      · exact hafter z hu hz
      · cases hcut : z with
        | nil =>
            rw [hcut, List.append_nil] at hr
            rw [hcut, List.nil_append] at hz
            exact hafter [] (by rw [List.append_nil, hr]) hz.symm
        | cons x xs =>
            -- The stretch would be inside the replacement, or begin in it and go on.
            rcases List.append_eq_append_iff.mp hz with ⟨rest, hin, _⟩ | ⟨rest, hover, _⟩
            · exact absurd ⟨u, rest, by rw [hr, hin, List.append_assoc]⟩ hforeign.outside
            · have hzne : z ≠ [] := by
                rw [hcut]
                exact List.cons_ne_nil x xs
              have hlast : replacement.getLast? = some (z.getLast hzne) := by
                rw [hr, List.getLast?_append_of_ne_nil _ hzne, List.getLast?_eq_some_getLast hzne]
              refine absurd ?_ (hforeign.last _ hlast)
              rw [hover]
              exact List.mem_append_left _ (List.getLast_mem hzne)

section Plain

variable {r' : Regex} {t out : List Char}

/-- What does not look around is found in a longer text too. -/
theorem found_of_infix (hr : plain r = true) (hin : t <:+: out) (h : Found r t) : Found r out := by
  rcases hin with ⟨p, s, rfl⟩
  rcases h with ⟨b, w, a, rfl, hm⟩
  exact ⟨p ++ b, w, a ++ s, by simp only [List.append_assoc], matches_plain r hr _ _ hm⟩

/-- Replacing what a pattern matches leaves none of it, when no match touches
    a replacement. -/
theorem not_found_sub (hr : plain r = true)
    (hforeign : ∀ b w a, Matches r b w a → Foreign replacement w)
    (hsub : Subst r replacement [] t out) (hreplacement : replacement ≠ []) : ¬ Found r out := by
  rintro ⟨b, w, a, hout, hm⟩
  rcases origin hsub hreplacement b w a hout (hforeign _ w a hm) with ⟨u, y, _, hnone, _⟩
  exact hnone w y rfl (matches_plain r hr _ _ hm)

/-- And replacing what another matches makes none of it. -/
theorem not_found_of_sub (hr' : plain r' = true)
    (hforeign : ∀ b w a, Matches r' b w a → Foreign replacement w)
    (hsub : Subst r replacement [] t out) (hreplacement : replacement ≠ []) (hno : ¬ Found r' t) :
    ¬ Found r' out := by
  rintro ⟨b, w, a, hout, hm⟩
  rcases origin hsub hreplacement b w a hout (hforeign _ w a hm) with ⟨u, y, ht, _⟩
  exact hno ⟨u, w, y, ht, matches_plain r' hr' _ _ hm⟩

end Plain

end Regex

end MmrEngine
