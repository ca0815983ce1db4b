import MmrEngine.Lib.RegexSemantics
import Mathlib.Data.List.DropRight

/-!
# Patterns over Whole Runs

A number in a text is a run of digits with no digit before it and none after.
Patterns for numbers look around themselves to find whole runs only, and then
ask the run to have some form: a length, a leading digit.

`RunPattern` is such a pattern, for any kind of character in the place of
digits. It may take something of another kind in front of the run along. What
it finds is decided by the runs of the text (`found_iff_hasRun`), so two such
patterns never find overlapping stretches, and to replace what one finds
neither makes a run nor joins two (`run_origin`). Cutting a text short can
make one run that was not there, the last (`hasRun_of_prefix`).

## Main definitions

* `Run`: A stretch of a kind with nothing of the kind beside it.
* `HasRun`: A text has a run of a form.
* `RunPattern`: A pattern that matches the runs of a form.

## Theorems

* `found_iff_hasRun`: The pattern is found where a run has the form.
* `run_origin`: A run of the result is a run the pattern passed over.
* `not_hasRun_sub`, `not_hasRun_of_sub`: What a substitution removes and keeps away.
* `hasRun_of_prefix`, `hasRun_rtakeWhile`: The runs of a text cut short.
-/

namespace MmrEngine

namespace Regex

/-- A stretch of one kind, as long as it goes. -/
structure Run (kind : Char → Bool) (b x a : List Char) : Prop where
  nonempty : x ≠ []
  all : ∀ c ∈ x, kind c = true
  left : b.head?.any kind = false
  right : a.head?.any kind = false

/-- A run of the text has the form. -/
def HasRun (kind : Char → Bool) (form : List Char → Prop) (text : List Char) : Prop :=
  ∃ b x a, text = b ++ (x ++ a) ∧ Run kind b.reverse x a ∧ form x

/-- The pattern matches the runs of a form, with something of another kind in
    front or without. -/
structure RunPattern (kind : Char → Bool) (r : Regex) (form : List Char → Prop) : Prop where
  sound : ∀ b w a, Matches r b w a → b.head?.any kind = false ∧
    ∃ f x, w = f ++ x ∧ Run kind (f.reverse ++ b) x a ∧ form x
  complete : ∀ b x a, Run kind b x a → form x → Matches r b x a

variable {kind : Char → Bool} {r : Regex} {form form' : List Char → Prop}

theorem HasRun.imp {text : List Char} (h : HasRun kind form text) (hform : ∀ x, form x → form' x) :
    HasRun kind form' text := by
  rcases h with ⟨b, x, a, htext, hrun, hx⟩
  exact ⟨b, x, a, htext, hrun, hform x hx⟩

theorem RunPattern.nonempty (hr : RunPattern kind r form) (b a : List Char) :
    ¬ Matches r b [] a := by
  intro hm
  rcases (hr.sound b [] a hm).2 with ⟨f, x, hw, hrun, _⟩
  exact hrun.nonempty (List.append_eq_nil_iff.mp hw.symm).2

/-- A match is a run, and a run of the form is a match. -/
theorem found_iff_hasRun (hr : RunPattern kind r form) (text : List Char) :
    Found r text ↔ HasRun kind form text := by
  constructor
  · rintro ⟨b, w, a, rfl, hm⟩
    rcases (hr.sound _ w a hm).2 with ⟨f, x, rfl, hrun, hx⟩
    refine ⟨b ++ f, x, a, by simp only [List.append_assoc], ?_, hx⟩
    rw [List.reverse_append]
    exact hrun
  · rintro ⟨b, x, a, rfl, hrun, hx⟩
    exact ⟨b, x, a, rfl, hr.complete _ x a hrun hx⟩

theorem any_head_append {x : List Char} (hne : x ≠ []) (hall : ∀ c ∈ x, kind c = true)
    (a : List Char) : (x ++ a).head?.any kind = true := by
  cases x with
  | nil => exact absurd rfl hne
  | cons c x => exact hall c List.mem_cons_self

section Substitution

variable {replacement t out : List Char}

/-- A run of the result was a run before, and the pattern did not match it. -/
theorem run_origin (hr : RunPattern kind r form) (hsub : Subst r replacement [] t out)
    (hreplacement : replacement ≠ []) (hother : ∀ c ∈ replacement, kind c = false)
    {u x y : List Char} (hout : out = u ++ (x ++ y)) (hrun : Run kind u.reverse x y) :
    ∃ u' y', t = u' ++ (x ++ y') ∧ Run kind u'.reverse x y' ∧ ¬ form x := by
  have houtside : ∀ c ∈ replacement, c ∉ x := by
    intro c hc hx
    have hkind := hother c hc
    rw [hrun.all c hx] at hkind
    cases hkind
  have hforeign : Foreign replacement x := by
    refine ⟨hrun.nonempty, fun hin => ?_, fun c hc => ?_, fun c hc => ?_⟩
    · cases x with
      | nil => exact hrun.nonempty rfl
      | cons c x => exact houtside c (hin.subset List.mem_cons_self) List.mem_cons_self
    · exact houtside c (List.mem_of_head? hc)
    · exact houtside c (List.mem_of_getLast? hc)
  rcases origin hsub hreplacement u x y hout hforeign with ⟨u', y', ht, hnone, hrest, hpre⟩
  rw [List.append_nil] at hnone hrest
  have hbefore : (x.reverse ++ u'.reverse).head?.any kind = true :=
    any_head_append (List.reverse_eq_nil_iff.not.mpr hrun.nonempty)
      (fun c hc => hrun.all c (List.mem_reverse.mp hc)) _
  -- No match follows the run, since it would look back at the run.
  have hright : y'.head?.any kind = false := by
    cases hrest with
    | done => exact hrun.right
    | skip c t out hno h => exact hrun.right
    | hit _ _ _ _ _ hm =>
        have hleft := (hr.sound _ _ _ hm).1
        rw [hbefore] at hleft
        cases hleft
  -- And none goes before it, since it would end in front of the kind.
  have hleft : u'.reverse.head?.any kind = false := by
    rcases hpre with ⟨_, rfl⟩ | ⟨c, v, v', rfl, rfl⟩ | ⟨v, m, rfl, _, hm⟩
    · rfl
    · have hc := hrun.left
      rw [List.reverse_append] at hc ⊢
      exact hc
    · rcases (hr.sound _ m _ hm).2 with ⟨f, z, _, hrun', _⟩
      have hend := hrun'.right
      rw [any_head_append hrun.nonempty hrun.all] at hend
      cases hend
  refine ⟨u', y', ht, ⟨hrun.nonempty, hrun.all, hleft, hright⟩, fun hx => ?_⟩
  exact hnone x y' rfl (hr.complete _ x y' ⟨hrun.nonempty, hrun.all, hleft, hright⟩ hx)

/-- A substitution leaves no run of its own form. -/
theorem not_hasRun_sub (hr : RunPattern kind r form) (hsub : Subst r replacement [] t out)
    (hreplacement : replacement ≠ []) (hother : ∀ c ∈ replacement, kind c = false) :
    ¬ HasRun kind form out := by
  rintro ⟨b, x, a, hout, hrun, hx⟩
  rcases run_origin hr hsub hreplacement hother hout hrun with ⟨_, _, _, _, hform⟩
  exact hform hx

/-- And makes no run of another. -/
theorem not_hasRun_of_sub (hr : RunPattern kind r form) (hsub : Subst r replacement [] t out)
    (hreplacement : replacement ≠ []) (hother : ∀ c ∈ replacement, kind c = false)
    (hno : ¬ HasRun kind form' t) : ¬ HasRun kind form' out := by
  rintro ⟨b, x, a, hout, hrun, hx⟩
  rcases run_origin hr hsub hreplacement hother hout hrun with ⟨u, y, ht, hrun', _⟩
  exact hno ⟨u, x, y, ht, hrun', hx⟩

end Substitution

/-- A run of a text cut short is a run of the text, or the last of what is left. -/
theorem hasRun_of_prefix {p s : List Char} (h : HasRun kind form p) :
    HasRun kind form (p ++ s) ∨ form (p.rtakeWhile kind) := by
  rcases h with ⟨b, x, a, rfl, hrun, hx⟩
  cases a with
  | nil =>
      right
      -- A run that reaches the cut is the last run of what is left.
      have hlast : (b ++ (x ++ [])).rtakeWhile kind = x := by
        rw [List.append_nil, List.rtakeWhile, List.reverse_append, List.takeWhile_append_of_pos,
          List.reverse_append, List.reverse_reverse]
        · cases hb : b.reverse with
          | nil => rfl
          | cons c cs =>
              have hc := hrun.left
              rw [hb] at hc
              rw [List.takeWhile_cons_of_neg (by rw [Bool.not_eq_true]; exact hc)]
              rfl
        · exact fun c hc => hrun.all c (List.mem_reverse.mp hc)
      rw [hlast]
      exact hx
  | cons c a =>
      left
      refine ⟨b, x, c :: a ++ s, by simp only [List.append_assoc], ?_, hx⟩
      exact ⟨hrun.nonempty, hrun.all, hrun.left, hrun.right⟩

/-- The last run of a text is one. -/
theorem hasRun_rtakeWhile {p : List Char} (hne : p.rtakeWhile kind ≠ [])
    (hform : form (p.rtakeWhile kind)) : HasRun kind form p := by
  refine ⟨p.rdropWhile kind, p.rtakeWhile kind, [], ?_, ⟨hne, ?_, ?_, rfl⟩, hform⟩
  · rw [List.append_nil, List.rdropWhile_append_rtakeWhile]
  · exact fun c hc => List.mem_rtakeWhile_imp hc
  · rw [List.rdropWhile, List.reverse_reverse]
    have hhead := List.head?_dropWhile_not kind p.reverse
    cases hdrop : (p.reverse.dropWhile kind).head? with
    | none => rfl
    | some c =>
        rw [hdrop] at hhead
        rw [Option.any_some]
        simpa only [Bool.not_eq_true] using hhead

/-- Text of another kind around it changes no run. -/
theorem hasRun_append {p m s : List Char} (hp : ∀ c ∈ p, kind c = false)
    (hs : ∀ c ∈ s, kind c = false) (h : HasRun kind form m) : HasRun kind form (p ++ (m ++ s)) := by
  rcases h with ⟨b, x, a, rfl, hrun, hx⟩
  refine ⟨p ++ b, x, a ++ s, by simp only [List.append_assoc], ?_, hx⟩
  refine ⟨hrun.nonempty, hrun.all, ?_, ?_⟩
  · rw [List.reverse_append]
    cases hb : b.reverse with
    | nil =>
        cases hrev : p.reverse with
        | nil => rfl
        | cons c cs => exact hp c (List.mem_reverse.mp (hrev ▸ List.mem_cons_self))
    | cons c cs =>
        have hc := hrun.left
        rw [hb] at hc
        exact hc
  · cases a with
    | nil =>
        cases s with
        | nil => rfl
        | cons c cs => exact hs c List.mem_cons_self
    | cons c cs => exact hrun.right

/-- In a text of another kind that ends in a run, this is the only one. -/
theorem hasRun_after {p d : List Char} (hp : ∀ c ∈ p, kind c = false)
    (hd : ∀ c ∈ d, kind c = true) (h : HasRun kind form (p ++ d)) : form d := by
  rcases h with ⟨b, x, a, htext, hrun, hx⟩
  -- Whatever the run leaves of `d` would stand beside it.
  have hwhole : d = x ++ a → form d := by
    intro hsplit
    cases a with
    | nil =>
        rw [hsplit, List.append_nil]
        exact hx
    | cons c a =>
        have hc := hd c (by rw [hsplit]; simp)
        have hright : kind c = false := hrun.right
        rw [hc] at hright
        cases hright
  rcases List.append_eq_append_iff.mp htext with ⟨z, hb, hsplit⟩ | ⟨z, hz, hsplit⟩
  · cases hrev : z.reverse with
    | nil =>
        rw [List.reverse_eq_nil_iff.mp hrev, List.nil_append] at hsplit
        exact hwhole hsplit
    | cons c cs =>
        have hc := hd c (by
          rw [hsplit]
          exact List.mem_append_left _ (List.mem_reverse.mp (hrev ▸ List.mem_cons_self)))
        have hleft := hrun.left
        rw [hb, List.reverse_append, hrev] at hleft
        rw [List.cons_append, List.head?_cons, Option.any_some, hc] at hleft
        cases hleft
  · cases z with
    | nil => exact hwhole hsplit.symm
    | cons c z =>
        cases x with
        | nil => exact absurd rfl hrun.nonempty
        | cons e x =>
            rw [List.cons_append, List.cons_append, List.cons.injEq] at hsplit
            have hc := hrun.all e List.mem_cons_self
            rw [hsplit.1, hp c (by rw [hz]; simp)] at hc
            cases hc

end Regex

end MmrEngine
