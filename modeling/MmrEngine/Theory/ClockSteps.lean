import MmrEngine.Theory.RateBound

/-!
# A Clock That Goes Back

What a bucket allows when the times it is asked at go forward and backward in
any order.

A backward step refills nothing, but it moves the bucket's reference point
back with it, so the next forward step refills a stretch of time that has been
refilled already. Whether a step does that is a matter of the state before it:
`RefillsOnce` says the clock stands still or goes back, or goes forward from
the highest time seen, or finds no room in the bucket for more than the time
above the highest one brings. `minted_le_iff` says this is exactly when a step
brings no more than that time is worth, and along a run of such steps what has
been allowed, together with what is left, is paid for by the capacity and the
time from the start to the highest time seen.

Where steps are not such, nothing is bounded: a clock that goes back and forth
over one minute gets a request allowed every time it comes back
(`back_and_forth_breaks`).

## Main definitions

* `allowedOf`: How many of a run of attempts a bucket allows.
* `highest`: The highest time seen.
* `RefillsOnce`, `EachRefillsOnce`: No stretch of time is refilled twice.

## Theorems

* `minted_le_iff`: The steps that bring no more than the time they add.
* `allowed_within_budget`: The potential argument, along a run.
* `back_and_forth_breaks`: A minute gone over again and again breaks the bound.
* `clock_steps_mint_nothing`: The bound, for every run of such steps.
-/

namespace MmrEngine

namespace RateLimit

/-- How many of a run of attempts a bucket allows. -/
def allowedOf (b : TokenBucket ℚ) : List ℚ → Nat
  | [] => 0
  | now :: nows => granted (b.consume now).1 + allowedOf (b.consume now).2 nows

/-- The highest of a time and those of a run of attempts. -/
def highest (start : ℚ) (nows : List ℚ) : ℚ := nows.foldl max start

/-- The attempt refills no stretch of time a second time, where `seen` is the
    highest time so far. -/
def RefillsOnce (b : TokenBucket ℚ) (seen now : ℚ) : Prop :=
  now ≤ b.lastRefill ∨ seen ≤ b.lastRefill ∨
    (b.capacity : ℚ) ≤ b.tokens + max 0 (now - seen) * b.capacity / 60

/-- No attempt of the run does. -/
def EachRefillsOnce (b : TokenBucket ℚ) (seen : ℚ) : List ℚ → Prop
  | [] => True
  | now :: nows =>
    RefillsOnce b seen now ∧ EachRefillsOnce (b.consume now).2 (max seen now) nows

/-- The time an attempt adds to the highest one. -/
theorem max_sub_seen (seen now : ℚ) : max seen now - seen = max 0 (now - seen) := by
  rcases le_total seen now with h | h
  · rw [max_eq_right h, max_eq_right (sub_nonneg.mpr h)]
  · rw [max_eq_left h, max_eq_left (sub_nonpos.mpr h), sub_self]

/-- From below the highest time, a step forward is longer than what it adds. -/
theorem added_lt_elapsed {lastRefill seen now : ℚ} (hlow : lastRefill < seen)
    (hforward : lastRefill < now) : max 0 (now - seen) < max 0 (now - lastRefill) := by
  rw [max_eq_right (sub_nonneg.mpr hforward.le)]
  exact max_lt (sub_pos.mpr hforward) (sub_lt_sub_left hlow now)

/-- An attempt brings no more than the time it adds is worth exactly when it
    refills no time twice. -/
theorem minted_le_iff {b : TokenBucket ℚ} {seen : ℚ} (hcap : 0 < b.capacity)
    (hseen : b.lastRefill ≤ seen) (now : ℚ) :
    b.refilled now ≤ b.tokens + max 0 (now - seen) * b.capacity / 60 ↔ RefillsOnce b seen now := by
  have hpos : (0 : ℚ) < b.capacity := Nat.cast_pos.mpr hcap
  unfold TokenBucket.refilled RefillsOnce
  rw [min_le_iff]
  constructor
  · intro h
    by_cases hforward : now ≤ b.lastRefill
    · exact Or.inl hforward
    · by_cases htop : seen ≤ b.lastRefill
      · exact Or.inr (Or.inl htop)
      · rcases h with hfull | hworth
        · exact Or.inr (Or.inr hfull)
        · -- The step is longer than what it adds, so it brings more.
          have hlt := added_lt_elapsed (not_le.mp htop) (not_le.mp hforward)
          have hmore := mul_lt_mul_of_pos_right hlt hpos
          linarith
  · intro h
    rcases h with hback | htop | hfull
    · have hzero : max 0 (now - b.lastRefill) = 0 := max_eq_left (sub_nonpos.mpr hback)
      have hgain : 0 ≤ max 0 (now - seen) * (b.capacity : ℚ) / 60 := by positivity
      rw [hzero]
      exact Or.inr (by linarith)
    · have heq : seen = b.lastRefill := le_antisymm htop hseen
      rw [heq]
      exact Or.inr le_rfl
    · exact Or.inl hfull

/-- A bucket created with more than its capacity counts as full. -/
theorem refilled_le_held {b : TokenBucket ℚ} {seen now : ℚ} (hseen : b.lastRefill ≤ seen)
    (h : RefillsOnce b seen now) :
    b.refilled now ≤ min (b.capacity : ℚ) b.tokens + max 0 (now - seen) * b.capacity / 60 := by
  have hgain : 0 ≤ max 0 (now - seen) * (b.capacity : ℚ) / 60 := by positivity
  have hfull := refilled_le_capacity b now
  rcases Nat.eq_zero_or_pos b.capacity with hzero | hpos
  · -- Without capacity there is nothing to refill.
    unfold TokenBucket.refilled
    simp [hzero]
  · have hworth := (minted_le_iff hpos hseen now).mpr h
    rcases le_total (b.capacity : ℚ) b.tokens with hmore | hless
    · rw [min_eq_left hmore]
      linarith
    · rw [min_eq_right hless]
      exact hworth

theorem consume_tokens_nonneg {b : TokenBucket ℚ} (h : 0 ≤ b.tokens) (now : ℚ) :
    0 ≤ (b.consume now).2.tokens := by
  have hgain : 0 ≤ max 0 (now - b.lastRefill) * (b.capacity : ℚ) / 60 := by positivity
  rcases consume_cases b now with ⟨henough, hc⟩ | ⟨-, hc⟩
  · rw [hc]
    exact sub_nonneg.mpr henough
  · rw [hc]
    exact le_min (Nat.cast_nonneg _) (by linarith)

/-- What has been allowed and what is left is paid for by the capacity and the
    time up to the highest one seen. -/
theorem allowed_within_budget (start : ℚ) (nows : List ℚ) :
    ∀ (b : TokenBucket ℚ) (seen : ℚ) (soFar : Nat), 0 ≤ b.tokens → b.lastRefill ≤ seen →
      soFar + min (b.capacity : ℚ) b.tokens ≤ b.capacity + b.capacity / 60 * (seen - start) →
      EachRefillsOnce b seen nows →
      ((soFar + allowedOf b nows : Nat) : ℚ)
        ≤ b.capacity + b.capacity / 60 * (highest seen nows - start) := by
  induction nows with
  | nil =>
      intro b seen soFar htokens _ hbudget _
      have hheld : 0 ≤ min (b.capacity : ℚ) b.tokens := le_min (Nat.cast_nonneg _) htokens
      simp only [allowedOf, highest, List.foldl_nil, Nat.add_zero]
      linarith
  | cons now nows ih =>
      intro b seen soFar htokens hseen hbudget honce
      rcases honce with ⟨hnow, hrest⟩
      have hbought := consume_budget b now
      have hgain := refilled_le_held hseen hnow
      have hleft := min_le_right (b.capacity : ℚ) (b.consume now).2.tokens
      have hadded := max_sub_seen seen now
      have hih := ih (b.consume now).2 (max seen now) (soFar + granted (b.consume now).1)
        (consume_tokens_nonneg htokens now) (by simp) ?_ hrest
      · rw [consume_capacity, Nat.add_assoc] at hih
        exact hih
      · -- The attempt pays with what it held and with the time it added.
        have hworth : max seen now = seen + max 0 (now - seen) := by linarith
        rw [consume_capacity, Nat.cast_add, hworth]
        linarith

theorem EachRefillsOnce.of_prefix {b : TokenBucket ℚ} {seen : ℚ} {made nows : List ℚ}
    (h : EachRefillsOnce b seen nows) (hmade : made <+: nows) : EachRefillsOnce b seen made := by
  induction made generalizing b seen nows with
  | nil => trivial
  | cons now made ih =>
      rcases hmade with ⟨rest, rfl⟩
      exact ⟨h.1, ih h.2 (List.prefix_append made rest)⟩

/-- Over one minute the bucket gets the whole capacity back. -/
theorem consume_after_minute {b : TokenBucket ℚ} (hcap : 1 ≤ b.capacity) (htokens : 0 ≤ b.tokens)
    {now : ℚ} (hminute : b.lastRefill + 60 ≤ now) : (b.consume now).1 = true := by
  have hone : (1 : ℚ) ≤ b.capacity := Nat.one_le_cast.mpr hcap
  have helapsed : (60 : ℚ) ≤ max 0 (now - b.lastRefill) := le_max_of_le_right (by linarith)
  have hrefill := mul_le_mul_of_nonneg_right helapsed (Nat.cast_nonneg (α := ℚ) b.capacity)
  have henough : 1 ≤ b.refilled now := le_min hone (by linarith)
  rcases consume_cases b now with ⟨-, hc⟩ | ⟨hless, -⟩
  · rw [hc]
  · exact absurd henough (not_le.mpr hless)

/-- A minute gone over `n` times. -/
def backAndForth (start : ℚ) : Nat → List ℚ
  | 0 => []
  | n + 1 => (start - 60) :: start :: backAndForth start n

theorem highest_backAndForth (start : ℚ) (n : Nat) :
    highest start (backAndForth start n) = start := by
  induction n with
  | zero => rfl
  | succ n ih =>
      have hback : max start (start - 60) = start := max_eq_left (by linarith)
      simp only [highest, backAndForth, List.foldl_cons, hback, max_self]
      exact ih

/-- A minute gone over again and again allows a request every time, though no
    time passes above the start. -/
theorem back_and_forth_mints (start : ℚ) (n : Nat) :
    ∀ b : TokenBucket ℚ, 1 ≤ b.capacity → 0 ≤ b.tokens →
      n ≤ allowedOf b (backAndForth start n) := by
  induction n with
  | zero => exact fun _ _ _ => Nat.zero_le _
  | succ n ih =>
      intro b hcap htokens
      have hback := consume_tokens_nonneg htokens (start - 60)
      have hagain : ((b.consume (start - 60)).2.consume start).1 = true :=
        consume_after_minute (by simpa using hcap) hback (by simp)
      have hrest := ih ((b.consume (start - 60)).2.consume start).2 (by simpa using hcap)
        (consume_tokens_nonneg hback start)
      simp only [backAndForth, allowedOf, hagain, granted, if_true]
      omega

theorem new_tokens_nonneg (capacity : Nat) (lastRefill tokens : ℚ) :
    0 ≤ (TokenBucket.new capacity lastRefill tokens).tokens := by
  unfold TokenBucket.new
  by_cases h : tokens < 0
  · simp [h]
  · simpa [h] using not_lt.mp h

/-- Going over one minute more often than there are tokens breaks the bound,
    whatever the capacity. -/
theorem back_and_forth_breaks {capacity : Nat} (hcap : 1 ≤ capacity) (start tokens : ℚ) :
    ¬ (allowedOf (TokenBucket.new capacity start tokens) (backAndForth start (capacity + 1)) : ℚ)
      ≤ capacity + capacity / 60 * (highest start (backAndForth start (capacity + 1)) - start) := by
  have hmany := back_and_forth_mints start (capacity + 1)
    (TokenBucket.new capacity start tokens) hcap (new_tokens_nonneg _ _ _)
  rw [highest_backAndForth, sub_self, mul_zero, add_zero, Nat.cast_le]
  exact Nat.not_le.mpr hmany

/-- A bucket of any capacity and tokens and any run of attempts none of which
    refills a stretch of time a second time: however far the run has come, it
    has been allowed at most the capacity and the refill from the start to the
    highest time seen. -/
theorem clock_steps_mint_nothing (capacity : Nat) (start tokens : ℚ) (nows : List ℚ)
    (honce : EachRefillsOnce (TokenBucket.new capacity start tokens) start nows) :
    ∀ made, made <+: nows →
      (allowedOf (TokenBucket.new capacity start tokens) made : ℚ)
        ≤ capacity + capacity / 60 * (highest start made - start) := by
  intro made hmade
  have hbudget := allowed_within_budget start made
    (TokenBucket.new capacity start tokens) start 0 (new_tokens_nonneg _ _ _) le_rfl
    (by simp) (honce.of_prefix hmade)
  rw [Nat.zero_add] at hbudget
  exact hbudget

/-- An empty bucket of one token over two minutes, with a step back at the
    end. -/
theorem clock_steps_mint_nothing_once :
    (allowedOf (TokenBucket.new 1 0 0) [60, 120, 120, 90] : ℚ)
      ≤ (1 : Nat) + (1 : Nat) / 60 * (highest 0 [60, 120, 120, 90] - 0) :=
  clock_steps_mint_nothing 1 0 0 [60, 120, 120, 90] (by
    refine ⟨Or.inr (Or.inl ?_), Or.inr (Or.inl ?_), Or.inl ?_, Or.inl ?_, trivial⟩ <;>
      decide +kernel) _ (List.prefix_refl _)

/-- One token, a second taken after the clock went back a minute and came to
    where it had been. -/
theorem clock_steps_mint_second :
    allowedOf (TokenBucket.new 1 100) [100, 40, 100] = 2 ∧
      ¬ (allowedOf (TokenBucket.new 1 100) [100, 40, 100] : ℚ)
        ≤ (1 : Nat) + (1 : Nat) / 60 * (highest 100 [100, 40, 100] - 100) := by
  have htwo : allowedOf (TokenBucket.new 1 100) [100, 40, 100] = 2 := by decide +kernel
  refine ⟨htwo, ?_⟩
  rw [htwo]
  norm_num [highest]

end RateLimit

end MmrEngine
