import Mathlib.Logic.Relation

/-!
# Transition Systems

Runs of a step relation, and the two rules every system of this development is
proved with.

A system is an initial-state predicate and a step relation, nothing else. A
run is Mathlib's `ReflTransGen` of the step relation, so its induction
principles are used as they are. What is added here is the pairing with the
initial states and the shape the proofs have: an invariant needs one lemma
about a single step, and so does a relation between an earlier and a later
state of one run.

`runs_rel` is the second rule. A statement such as "a closed row never changes
again" does not speak of one state but of two, and it is usually provable only
from states that satisfy an invariant, so the rule carries one along.

## Main definitions

* `Reachable`: The states that runs from an initial state end in.

## Theorems

* `reachable_of_init`: An initial state is reachable.
* `reachable_step`: A step from a reachable state is reachable.
* `reachable_mono`: More steps reach more states.
* `invariant_of_step`: What holds initially and survives a step holds of every
  reachable state.
* `runs_rel`: A reflexive and transitive relation every step respects relates
  the two ends of a run.
-/

namespace MmrEngine

namespace Transition

variable {σ : Type*}

/-- The states that runs of `step` from a state satisfying `init` end in. -/
def Reachable (init : σ → Prop) (step : σ → σ → Prop) (s : σ) : Prop :=
  ∃ s₀, init s₀ ∧ Relation.ReflTransGen step s₀ s

variable {init : σ → Prop} {step : σ → σ → Prop}

theorem reachable_of_init {s : σ} (h : init s) : Reachable init step s :=
  ⟨s, h, Relation.ReflTransGen.refl⟩

theorem reachable_step {s s' : σ} (h : Reachable init step s) (hstep : step s s') :
    Reachable init step s' := by
  rcases h with ⟨s₀, h₀, hrun⟩
  exact ⟨s₀, h₀, hrun.tail hstep⟩

/-- With more steps more states are reachable. -/
theorem reachable_mono {step' : σ → σ → Prop} (hsub : ∀ s s', step s s' → step' s s') {s : σ}
    (h : Reachable init step s) : Reachable init step' s := by
  rcases h with ⟨s₀, h₀, hrun⟩
  exact ⟨s₀, h₀, Relation.ReflTransGen.mono hsub s₀ s hrun⟩

/-- The invariant rule: one obligation for the initial states, one for a step. -/
theorem invariant_of_step {I : σ → Prop} (h₀ : ∀ s, init s → I s)
    (hstep : ∀ s s', I s → step s s' → I s') {s : σ} (h : Reachable init step s) : I s := by
  rcases h with ⟨s₀, hinit, hrun⟩
  induction hrun with
  | refl => exact h₀ s₀ hinit
  | tail _ hlast ih => exact hstep _ _ ih hlast

/-- The two-state rule: a preorder respected by every step from a state that
    satisfies the invariant relates the ends of every run. -/
theorem runs_rel {I : σ → Prop} {R : σ → σ → Prop} (hrefl : ∀ s, R s s)
    (htrans : ∀ a b c, R a b → R b c → R a c)
    (hstep : ∀ s s', I s → step s s' → I s' ∧ R s s') {s s' : σ} (hs : I s)
    (hrun : Relation.ReflTransGen step s s') : R s s' := by
  have h : I s' ∧ R s s' := by
    induction hrun with
    | refl => exact ⟨hs, hrefl s⟩
    | tail _ hlast ih =>
        rcases hstep _ _ ih.1 hlast with ⟨hI, hR⟩
        exact ⟨hI, htrans _ _ _ ih.2 hR⟩
  exact h.2

end Transition

end MmrEngine
