import MmrEngine.Api.RateLimit
import Mathlib.Data.Nat.Cast.Order.Field
import Mathlib.Data.Rat.Floor
import Mathlib.Tactic.Linarith
import Mathlib.Tactic.NormNum

/-!
# Retry-After

Whether a client that was refused and waits as long as it was told is let in.

The header gives the whole seconds one token takes, rounded down, and at least
one. The bucket is refilled for these seconds from the level it had when the
request was refused, unless other keys have pushed it out in the meantime; then
the key gets a full one. All of it is computed with floats here: the clock after
the seconds, the time that has passed, the refill and the level.

The worst level is an empty bucket (`enoughAt_iff`), so what is left is one
float, the refill of the header's seconds from the time of the refusal on. With
times that are added without rounding it is a token where a token takes a second
or less, or a whole number of them. With any times of a clock it is a token
from a capacity of 61 on, which has room for what the clock loses; below that
there is an uptime, of about a minute, at which all capacities fail together
(`waited_short`).

## Main definitions

* `waited`: What a bucket is refilled by while the client waits.
* `EnoughAt`: The header is enough for every bucket refused at a time.

## Theorems

* `retryAfter_eq`: What the header says for a capacity.
* `get?_of_afterAll`: Requests of other keys leave a key's bucket, or drop it.
* `consume_again_iff`: A refused bucket, asked again.
* `enoughAt_iff`: The header is enough if it is for an empty bucket.
* `enough_always_iff`, `enough_exactly_iff`: The capacities whose header is
  enough.
* `retry_after_enough_iff`: All of it, for the middleware.
-/

namespace MmrEngine

namespace RateLimit

open Binary64

/-- The rounding of the quotient does not reach the next integer. -/
theorem retryAfter_eq (capacity : Nat) : retryAfter capacity = max 1 (60 / capacity : Nat) := by
  have hfloor : ⌊round (60 / capacity)⌋ = ((60 / capacity : Nat) : ℤ) := by
    rcases Nat.eq_zero_or_pos capacity with rfl | hpos
    · rw [Nat.cast_zero, div_zero, round_of_isFloat isFloat_zero, Int.floor_zero, Nat.div_zero]
      rfl
    · have hcap : (0 : ℚ) < capacity := Nat.cast_pos.mpr hpos
      have hwhole : 60 / capacity ≤ 60 := Nat.div_le_self 60 capacity
      have hlow : ((60 / capacity : Nat) : ℚ) ≤ 60 / capacity := by
        exact_mod_cast Nat.cast_div_le (α := ℚ)
      -- A remainder is a sixtieth short of the next integer, or more.
      have hhigh : (60 / capacity : ℚ)
          ≤ (((64 * (60 / capacity : Nat) + 63 : Nat) : ℤ) : ℚ) / 2 ^ 6 := by
        rw [div_le_div_iff₀ hcap (by norm_num)]
        have hnat : 60 * 2 ^ 6 ≤ (64 * (60 / capacity) + 63) * capacity := by
          have hrest := Nat.div_add_mod 60 capacity
          have hmod := Nat.mod_lt 60 hpos
          have hmod60 := Nat.mod_le 60 capacity
          have hexpand : (64 * (60 / capacity) + 63) * capacity
              = 64 * (capacity * (60 / capacity)) + 63 * capacity := by ring
          omega
        exact_mod_cast hnat
      have hfloatlow : IsFloat ((60 / capacity : Nat) : ℤ) := by
        refine isFloat_intCast _ ?_
        rw [abs_of_nonneg (Int.natCast_nonneg _)]
        omega
      have hfloathigh : IsFloat ((((64 * (60 / capacity : Nat) + 63 : Nat) : ℤ) : ℚ) / 2 ^ 6) := by
        refine isFloat_div _ 6 ?_ (by norm_num)
        rw [abs_of_nonneg (Int.natCast_nonneg _)]
        omega
      have hge := le_round hfloatlow (by exact_mod_cast hlow)
      have hle := round_le hfloathigh hhigh
      rw [Int.floor_eq_iff]
      refine ⟨hge, lt_of_le_of_lt hle ?_⟩
      push_cast
      rw [div_lt_iff₀ (by norm_num)]
      linarith
  rw [retryAfter, hfloor]
  exact (Nat.cast_max 1 (60 / capacity)).symm

/-- The seconds of the header, which are few enough to be a float. -/
theorem retryAfter_cast (capacity : Nat) :
    ((retryAfter capacity : ℤ) : Binary64) = ((max 1 (60 / capacity) : Nat) : Binary64) := by
  rw [retryAfter_eq, Binary64.ext_iff]
  rfl

/-! ### One bucket -/

theorem neg_one_neg : (-1 : Binary64) < 0 := by
  have hexact : Binary64.round (-1) = -1 := by
    exact_mod_cast round_of_isFloat (isFloat_intCast (-1) (by norm_num))
  rw [← not_le, le_iff, val_zero, val_neg, val_one, hexact]
  norm_num

theorem one_le_natCast {n : Nat} (h : 1 ≤ n) : (1 : Binary64) ≤ (n : Binary64) := by
  have hcast := natCast_le_natCast (by norm_num) h
  rwa [le_iff, val_natCast (by norm_num), Nat.cast_one, ← val_one, ← le_iff] at hcast

/-- What is refilled in a time that is not negative is not negative. -/
theorem refill_nonneg {elapsed : Binary64} (h : 0 ≤ elapsed) (capacity : Nat) :
    0 ≤ elapsed * (capacity : Binary64) / 60 :=
  nonneg_div (nonneg_mul h (nonneg_natCast capacity)) (nonneg_natCast 60)

theorem get_capacity (s : BucketStore Binary64) (key : String) (capacity : Nat) (now : Binary64) :
    (s.get key capacity now).1.capacity = capacity := by
  rcases get_cases s key capacity now with ⟨-, hcap⟩ | hnew
  · exact hcap
  · rw [hnew]
    rfl

/-- A key without a bucket gets a full one. -/
theorem get_of_none {s : BucketStore Binary64} {key : String} {capacity : Nat} (now : Binary64)
    (h : s.buckets.get? key = none) :
    (s.get key capacity now).1 = TokenBucket.new capacity now := by
  rcases get_cases s key capacity now with ⟨hget, -⟩ | hnew
  · rw [h] at hget
    cases hget
  · exact hnew

/-- A full bucket has a token, whatever the time. -/
theorem new_consume {capacity : Nat} (hcap : 1 ≤ capacity) (openedAt now : Binary64) :
    ((TokenBucket.new capacity openedAt).consume now).1 = true := by
  have htokens : (TokenBucket.new capacity openedAt).tokens = (capacity : Binary64) :=
    if_pos neg_one_neg
  rw [consume_fst_iff, TokenBucket.refilled, htokens]
  have hfull := le_add (x := (capacity : Binary64))
    (refill_nonneg (le_max_left 0 (now - openedAt)) capacity)
  exact le_min (one_le_natCast hcap) ((one_le_natCast hcap).trans hfull)

/-- Requests of other keys leave a key's bucket alone, or drop it. -/
theorem get?_of_afterAll {key : String} {b : TokenBucket Binary64} {n : Nat} (hn : 0 < n)
    (others : List (Request Binary64)) :
    ∀ s : BucketStore Binary64, s.maxBuckets = n → (∀ r ∈ others, r.key ≠ key) →
      (afterAll s others).buckets.get? key = some b → s.buckets.get? key = some b := by
  induction others with
  | nil => exact fun _ _ _ h => h
  | cons r others ih =>
      intro s hmax hothers h
      have hrest := ih (serve s r).2 hmax (fun q hq => hothers q (List.mem_cons_of_mem _ hq)) h
      rw [serve_eq_touch s (by omega)] at hrest
      exact OrderedDict.get?_of_touch_other (hothers r List.mem_cons_self) hrest

/-- What a bucket is refilled by while the client waits from `now` on. -/
def waited (capacity : Nat) (now : Binary64) : Binary64 :=
  (now + ((max 1 (60 / capacity) : Nat) : Binary64) - now) * (capacity : Binary64) / 60

/-- The clock does not go back while the client waits. -/
theorem now_le_later (capacity : Nat) (now : Binary64) :
    now ≤ now + ((max 1 (60 / capacity) : Nat) : Binary64) := le_add (nonneg_natCast _)

/-- A refused bucket, asked again after the seconds of the header: what it held
    with the refill since its last one, and the refill of the wait, have to make
    one token. -/
theorem consume_again_iff {b : TokenBucket Binary64} (hcap : 1 ≤ b.capacity) {now : Binary64}
    (hrefused : (b.consume now).1 = false) :
    ((b.consume now).2.consume (now + ((retryAfter b.capacity : ℤ) : Binary64))).1 = true ↔
      1 ≤ b.tokens + max 0 (now - b.lastRefill) * (b.capacity : Binary64) / 60
        + waited b.capacity now := by
  have hone := one_le_natCast hcap
  rcases consume_cases b now with ⟨-, hc⟩ | ⟨hless, hc⟩
  · rw [hc] at hrefused
    cases hrefused
  · -- Less than a token is less than the capacity, so nothing was cut off.
    have hlevel : b.refilled now
        = b.tokens + max 0 (now - b.lastRefill) * (b.capacity : Binary64) / 60 := by
      refine min_eq_right ?_
      by_contra hcut
      rw [TokenBucket.refilled, min_eq_left (not_le.mp hcut).le] at hless
      exact absurd hone (not_le.mpr hless)
    have helapsed := max_eq_right (nonneg_sub (now_le_later b.capacity now))
    have hagain : (b.consume now).2.refilled (now + ((retryAfter b.capacity : ℤ) : Binary64))
        = min (b.capacity : Binary64) (b.refilled now + waited b.capacity now) := by
      rw [hc, TokenBucket.refilled, retryAfter_cast, helapsed, waited]
    rw [consume_fst_iff, hagain, hlevel, le_min_iff]
    exact and_iff_right hone

/-- The header of a capacity is enough for every bucket that is refused at
    `now`. -/
def EnoughAt (capacity : Nat) (now : Binary64) : Prop :=
  ∀ b : TokenBucket Binary64, b.capacity = capacity → 0 ≤ b.tokens → b.tokens ≤ capacity →
    (b.consume now).1 = false →
      ((b.consume now).2.consume (now + ((retryAfter capacity : ℤ) : Binary64))).1 = true

/-- It is if it is for an empty bucket. -/
theorem enoughAt_iff {capacity : Nat} (hcap : 1 ≤ capacity) (now : Binary64) :
    EnoughAt capacity now ↔ 1 ≤ waited capacity now := by
  constructor
  · intro h
    have hsame : now - now = 0 := by
      rw [Binary64.ext_iff, val_sub, sub_self, val_zero]
      exact round_of_isFloat isFloat_zero
    have hempty : (0 : Binary64) + max 0 (now - now) * (capacity : Binary64) / 60 = 0 := by
      rw [hsame, max_self]
      simp only [Binary64.ext_iff, val_add, val_div, val_mul, val_zero, zero_mul, zero_div,
        zero_add, round_of_isFloat isFloat_zero]
    have hrefused : ((TokenBucket.mk capacity (0 : Binary64) now).consume now).1 = false := by
      rw [← Bool.not_eq_true, consume_fst_iff, TokenBucket.refilled, hempty]
      intro hle
      have hzero := hle.trans (min_le_right _ _)
      rw [le_iff, val_one, val_zero] at hzero
      norm_num at hzero
    have hagain := h (TokenBucket.mk capacity 0 now) rfl le_rfl (nonneg_natCast capacity) hrefused
    rw [consume_again_iff hcap hrefused, hempty] at hagain
    refine hagain.trans (add_le ?_)
    rw [val_zero, zero_add]
  · rintro henough b rfl htokens - hrefused
    rw [consume_again_iff hcap hrefused]
    -- The level is not negative, whatever was there before.
    have hlevel := htokens.trans (le_add (x := b.tokens)
      (refill_nonneg (le_max_left 0 (now - b.lastRefill)) b.capacity))
    exact henough.trans (le_add_left hlevel)

/-! ### The capacities -/

/-- Rounded down, the seconds for a token bring one only where nothing was
    rounded off, or where one second is enough. -/
theorem sixty_le_mul_iff (capacity : Nat) :
    60 ≤ capacity * max 1 (60 / capacity) ↔ 60 ≤ capacity ∨ capacity ∣ 60 := by
  by_cases hlarge : 60 ≤ capacity
  · exact iff_of_true (hlarge.trans (Nat.le_mul_of_pos_right _ (by omega))) (Or.inl hlarge)
  · rcases Nat.eq_zero_or_pos capacity with rfl | hpos
    · decide
    · have hwhole : 1 ≤ 60 / capacity := (Nat.one_le_div_iff hpos).mpr (by omega)
      have hle := Nat.mul_div_le 60 capacity
      rw [max_eq_right hwhole]
      constructor
      · intro h
        exact Or.inr ⟨60 / capacity, le_antisymm h hle⟩
      · rintro (h | h)
        · exact absurd h hlarge
        · exact (Nat.mul_div_cancel' h).ge

/-- The wait is a minute at most. -/
theorem seconds_le (capacity : Nat) : max 1 (60 / capacity) ≤ 2 ^ 53 := by
  have hwhole : 60 / capacity ≤ 60 := Nat.div_le_self 60 capacity
  omega

/-- A time and a refill that come to sixty are a token. -/
theorem one_le_refill {capacity : Nat} {elapsed : Binary64}
    (h : 60 ≤ elapsed.val * (capacity : Binary64).val) :
    1 ≤ elapsed * (capacity : Binary64) / 60 := by
  have hsixty : (60 : Binary64).val = 60 := val_ofNat 60 (by norm_num)
  have hproduct : 60 ≤ (elapsed * (capacity : Binary64)).val :=
    le_round (isFloat_intCast 60 (by norm_num)) (by exact_mod_cast h)
  rw [le_iff, val_one, val_div, hsixty]
  have hone : ((1 : ℤ) : ℚ) ≤ (elapsed * (capacity : Binary64)).val / 60 := by
    rw [Int.cast_one, le_div_iff₀ (by norm_num)]
    linarith
  exact_mod_cast le_round (isFloat_intCast 1 (by norm_num)) hone

/-- Where the clock adds the seconds without rounding, the refill is a token for
    the capacities that lose nothing when the seconds are rounded down. -/
theorem waited_exact_iff {capacity : Nat} {now : Binary64}
    (hexact : (now + ((max 1 (60 / capacity) : Nat) : Binary64)).val
      = now.val + (max 1 (60 / capacity) : Nat)) :
    1 ≤ waited capacity now ↔ 60 ≤ capacity ∨ capacity ∣ 60 := by
  have hwait : (now + ((max 1 (60 / capacity) : Nat) : Binary64) - now).val
      = (max 1 (60 / capacity) : Nat) := by
    rw [val_sub, hexact, add_sub_cancel_left, ← val_natCast (seconds_le capacity)]
    exact round_of_isFloat (Binary64.isFloat _)
  rw [← sixty_le_mul_iff]
  constructor
  · intro h
    -- A product below sixty is an integer below sixty, and far enough from it.
    by_contra hless
    have hcap : capacity < 60 := by
      by_contra hlarge
      exact hless (Nat.mul_le_mul (not_lt.mp hlarge) (le_max_left 1 (60 / capacity)))
    have hproduct : (now + ((max 1 (60 / capacity) : Nat) : Binary64) - now).val
        * (capacity : Binary64).val ≤ 59 := by
      rw [hwait, val_natCast (by omega)]
      have hnat : max 1 (60 / capacity) * capacity ≤ 59 := by
        rw [Nat.mul_comm]
        omega
      exact_mod_cast hnat
    have hrounded : ((now + ((max 1 (60 / capacity) : Nat) : Binary64) - now)
        * (capacity : Binary64)).val ≤ 59 := by
      exact_mod_cast round_le (isFloat_intCast 59 (by norm_num)) (by exact_mod_cast hproduct)
    have hquotient : (waited capacity now).val ≤ ((63 : ℤ) : ℚ) / 2 ^ 6 := by
      refine round_le (isFloat_div 63 6 (by norm_num) (by norm_num)) ?_
      rw [val_ofNat 60 (by norm_num), div_le_iff₀ (by norm_num)]
      refine hrounded.trans ?_
      norm_num
    rw [le_iff, val_one] at h
    norm_num at hquotient
    linarith
  · intro h
    refine one_le_refill ?_
    rw [hwait]
    by_cases hlarge : capacity ≤ 2 ^ 53
    · rw [val_natCast hlarge, mul_comm]
      exact_mod_cast h
    · -- A capacity that is no float is rounded, but not to less than sixty.
      have hcap := natCast_le_natCast (m := 60) (n := capacity) (by norm_num) (by omega)
      rw [le_iff, val_natCast (by norm_num)] at hcap
      have hone : (1 : ℚ) ≤ (max 1 (60 / capacity) : Nat) := by
        exact_mod_cast le_max_left 1 (60 / capacity)
      have hmul := mul_le_mul hone hcap (by norm_num) (by linarith)
      push_cast at hmul ⊢
      linarith

/-- An uptime of a minute and three seconds. -/
def shortTime : Binary64 where
  val := ((8868487542757417 : ℤ) : ℚ) / 2 ^ 47
  isFloat := isFloat_div _ 47 (by norm_num) (by norm_num)

/-- At that time the clock loses so much that the seconds of no capacity up to
    sixty bring a token. -/
theorem waited_short : ∀ capacity < 61, ¬ 1 ≤ waited capacity shortTime := by decide +kernel

/-- With 61 a minute there is room for what a clock loses in a second: at an
    uptime of up to 2 ^ 40 seconds, less than a 4096th. -/
theorem one_le_waited {capacity : Nat} (hcap : 61 ≤ capacity) {now : Binary64} (hpos : 0 ≤ now)
    (hlate : now.val ≤ 2 ^ 40) : 1 ≤ waited capacity now := by
  rw [le_iff, val_zero] at hpos
  have hseconds : max 1 (60 / capacity) = 1 := by
    have hless : 60 / capacity = 0 := Nat.div_eq_of_lt (by omega)
    rw [hless]
    rfl
  have hclock : now.val + 1 - 1 / 2 ^ 12 ≤ (now + ((1 : Nat) : Binary64)).val := by
    rw [val_add, val_natCast (by norm_num), Nat.cast_one]
    refine floor_le_round 12 (by norm_num) ?_
    have hlow : 0 ≤ ⌊(now.val + 1) * 2 ^ 12⌋ := Int.floor_nonneg.mpr (by positivity)
    have hhigh : ⌊(now.val + 1) * 2 ^ 12⌋ ≤ 2 ^ 53 := by
      refine Int.floor_le_iff.mpr ?_
      push_cast
      linarith
    rwa [abs_of_nonneg hlow]
  have helapsed : ((4095 : ℤ) : ℚ) / 2 ^ 12 ≤ (now + ((1 : Nat) : Binary64) - now).val := by
    refine le_round (isFloat_div 4095 12 (by norm_num) (by norm_num)) ?_
    norm_num at hclock ⊢
    linarith
  have hcap' := natCast_le_natCast (m := 61) (n := capacity) (by norm_num) hcap
  rw [le_iff, val_natCast (by norm_num)] at hcap'
  have hmul := mul_le_mul helapsed hcap' (by norm_num) (le_trans (by norm_num) helapsed)
  rw [waited, hseconds]
  refine one_le_refill (le_trans ?_ hmul)
  norm_num

/-- The capacities whose header is enough whatever a clock shows. -/
theorem enough_always_iff {capacity : Nat} (hcap : 1 ≤ capacity) :
    (∀ now : Binary64, 0 ≤ now → now.val ≤ 2 ^ 40 → EnoughAt capacity now) ↔ 61 ≤ capacity := by
  constructor
  · intro h
    by_contra hless
    have hpos : (0 : ℚ) ≤ shortTime.val := by norm_num [shortTime]
    have hshort := h shortTime (by rwa [le_iff, val_zero]) (by norm_num [shortTime])
    rw [enoughAt_iff hcap] at hshort
    exact waited_short capacity (not_le.mp hless) hshort
  · intro hlarge now hpos hlate
    rw [enoughAt_iff hcap]
    exact one_le_waited hlarge hpos hlate

/-- The capacities whose header is enough where the clock adds the seconds
    without rounding. -/
theorem enough_exactly_iff {capacity : Nat} (hcap : 1 ≤ capacity) :
    (∀ now : Binary64, (now + ((max 1 (60 / capacity) : Nat) : Binary64)).val
        = now.val + (max 1 (60 / capacity) : Nat) → EnoughAt capacity now) ↔
      60 ≤ capacity ∨ capacity ∣ 60 := by
  constructor
  · intro h
    -- From zero on, the seconds are the time.
    have hzero : ((0 : Binary64) + ((max 1 (60 / capacity) : Nat) : Binary64)).val
        = (0 : Binary64).val + (max 1 (60 / capacity) : Nat) := by
      rw [val_add, val_zero, zero_add, zero_add, round_of_isFloat (Binary64.isFloat _),
        val_natCast (seconds_le capacity)]
    exact (waited_exact_iff hzero).mp ((enoughAt_iff hcap 0).mp (h 0 hzero))
  · intro hwhole now hexact
    rw [enoughAt_iff hcap]
    exact (waited_exact_iff hexact).mpr hwhole

/-! ### The middleware -/

/-- A refusal has gone through the bucket of the key, and says how long to
    wait. -/
theorem dispatch_refused {defaultCapacity : Nat} {s : BucketStore Binary64} {req : HttpRequest}
    {openedAt now : Binary64} {limit : Nat} {seconds : ℤ}
    (h : (dispatch defaultCapacity s req openedAt now).1 = .tooManyRequests limit seconds) :
    exempt req = false ∧ limit = (limitFor defaultCapacity req).2 ∧
      seconds = retryAfter limit ∧
      (serve s ⟨(limitFor defaultCapacity req).1, limit, openedAt, now⟩).1 = false := by
  unfold dispatch at h
  by_cases hexempt : exempt req = true
  · rw [if_pos hexempt] at h
    cases h
  · rw [if_neg hexempt] at h
    cases hserved : (serve s ⟨(limitFor defaultCapacity req).1, (limitFor defaultCapacity req).2,
        openedAt, now⟩).1 with
    | true =>
        simp only [hserved, if_true] at h
        cases h
    | false =>
        simp only [hserved, if_neg Bool.false_ne_true, Answer.tooManyRequests.injEq] at h
        rcases h with ⟨rfl, rfl⟩
        exact ⟨by simpa using hexempt, rfl, rfl, hserved⟩

/-- A request that is not exempt is passed exactly when its bucket gives a
    token. -/
theorem dispatch_passed_iff {defaultCapacity : Nat} (s : BucketStore Binary64) {req : HttpRequest}
    (openedAt now : Binary64) (hexempt : exempt req = false) :
    (dispatch defaultCapacity s req openedAt now).1
        = .passed (some (limitFor defaultCapacity req).2) ↔
      ((s.get (limitFor defaultCapacity req).1 (limitFor defaultCapacity req).2 openedAt).1.consume
        now).1 = true := by
  have hserve : (serve s ⟨(limitFor defaultCapacity req).1, (limitFor defaultCapacity req).2,
      openedAt, now⟩).1 = ((s.get (limitFor defaultCapacity req).1
        (limitFor defaultCapacity req).2 openedAt).1.consume now).1 := rfl
  unfold dispatch
  rw [if_neg (by simp [hexempt])]
  simp only [hserve]
  split
  · next h => exact iff_of_true rfl h
  · next h => exact iff_of_false (by simp) h

theorem dispatch_snd {defaultCapacity : Nat} {s : BucketStore Binary64} {req : HttpRequest}
    {openedAt now : Binary64} (hexempt : exempt req = false) :
    (dispatch defaultCapacity s req openedAt now).2
      = (serve s ⟨(limitFor defaultCapacity req).1, (limitFor defaultCapacity req).2, openedAt,
          now⟩).2 := by
  unfold dispatch
  rw [if_neg (by simp [hexempt])]
  simp only []
  split <;> rfl

/-- A key whose bucket has been refused, asked again after its seconds with
    requests of other keys in between. -/
theorem refused_again {s : BucketStore Binary64} {capacity : Nat} {openedAt now : Binary64}
    (key : String) (hcap : 1 ≤ capacity) (hmax : 0 < s.maxBuckets)
    (hrefused : (serve s ⟨key, capacity, openedAt, now⟩).1 = false)
    (others : List (Request Binary64)) (hothers : ∀ r ∈ others, r.key ≠ key)
    (reopenedAt : Binary64) :
    (((afterAll (serve s ⟨key, capacity, openedAt, now⟩).2 others).get key capacity
        reopenedAt).1.consume (now + ((retryAfter capacity : ℤ) : Binary64))).1 = true ↔
      (afterAll (serve s ⟨key, capacity, openedAt, now⟩).2 others).buckets.get? key = none ∨
        1 ≤ (s.get key capacity openedAt).1.tokens
          + max 0 (now - (s.get key capacity openedAt).1.lastRefill) * (capacity : Binary64) / 60
          + waited capacity now := by
  have hserve := serve_eq_touch s hmax ⟨key, capacity, openedAt, now⟩
  have hb := get_capacity s key capacity openedAt
  have hdenied : ((s.get key capacity openedAt).1.consume now).1 = false := by
    rw [hserve] at hrefused
    exact hrefused
  have hagain := consume_again_iff (by omega) hdenied
  rw [hb] at hagain
  cases hfound : (afterAll (serve s ⟨key, capacity, openedAt, now⟩).2 others).buckets.get? key with
  | none =>
      -- The key was pushed out and starts over with a full bucket.
      refine iff_of_true ?_ (Or.inl rfl)
      rw [get_of_none reopenedAt hfound]
      exact new_consume hcap _ _
  | some b =>
      -- What the refusal left is what the next request finds.
      have hleft := get?_of_afterAll hmax others _ (by rw [hserve]) hothers hfound
      rw [hserve] at hleft
      have hsame := (OrderedDict.recent_touch_self s.buckets hmax key
        ((s.get key capacity openedAt).1.consume now).2).get?
      have hbucket : b = ((s.get key capacity openedAt).1.consume now).2 :=
        Option.some.inj (hleft.symm.trans hsame)
      have hget := get_of_get? reopenedAt hfound
      rw [hbucket, consume_capacity, hb, ← hbucket] at hget
      rw [hget, hbucket, hagain]
      simp

/-- A client that is refused and comes back after the seconds of the header,
    with any requests of other keys in between. It is let in exactly when these
    have pushed its bucket out, or when what the bucket held, with what it was
    refilled since its last time and what it is refilled while the client waits,
    makes one token, all computed with floats. The header of a capacity is
    enough for every level a bucket refused at a time can have exactly when the
    refill of the wait alone makes one. For every time of a clock that is so
    exactly from a capacity of 61 on; for the times to which the clock adds the
    seconds without rounding, exactly for 60 and more and for what divides a
    minute. -/
theorem retry_after_enough_iff (defaultCapacity : Nat) (hdefault : 1 ≤ defaultCapacity) :
    (∀ (s : BucketStore Binary64) (req : HttpRequest) (openedAt now : Binary64) (limit : Nat)
        (seconds : ℤ) (others : List (Request Binary64)) (reopenedAt : Binary64),
      0 < s.maxBuckets →
      (dispatch defaultCapacity s req openedAt now).1 = .tooManyRequests limit seconds →
      (∀ r ∈ others, r.key ≠ (limitFor defaultCapacity req).1) →
      ((dispatch defaultCapacity
          (afterAll (dispatch defaultCapacity s req openedAt now).2 others) req reopenedAt
          (now + (seconds : Binary64))).1 = .passed (some limit) ↔
        (afterAll (dispatch defaultCapacity s req openedAt now).2 others).buckets.get?
            (limitFor defaultCapacity req).1 = none ∨
          1 ≤ (s.get (limitFor defaultCapacity req).1 limit openedAt).1.tokens
            + max 0 (now - (s.get (limitFor defaultCapacity req).1 limit
                openedAt).1.lastRefill) * (limit : Binary64) / 60
            + (now + ((max 1 (60 / limit) : Nat) : Binary64) - now) * (limit : Binary64) / 60)) ∧
    (∀ now : Binary64,
      (∀ b : TokenBucket Binary64, b.capacity = defaultCapacity → 0 ≤ b.tokens →
          b.tokens ≤ defaultCapacity → (b.consume now).1 = false →
            ((b.consume now).2.consume (now + (retryAfter defaultCapacity : Binary64))).1 = true) ↔
        1 ≤ (now + ((max 1 (60 / defaultCapacity) : Nat) : Binary64) - now)
          * (defaultCapacity : Binary64) / 60) ∧
    ((∀ now : Binary64, 0 ≤ now → now.val ≤ 2 ^ 40 → EnoughAt defaultCapacity now) ↔
      61 ≤ defaultCapacity) ∧
    ((∀ now : Binary64, (now + ((max 1 (60 / defaultCapacity) : Nat) : Binary64)).val
        = now.val + (max 1 (60 / defaultCapacity) : Nat) → EnoughAt defaultCapacity now) ↔
      60 ≤ defaultCapacity ∨ defaultCapacity ∣ 60) := by
  refine ⟨?_, enoughAt_iff hdefault, enough_always_iff hdefault, enough_exactly_iff hdefault⟩
  intro s req openedAt now limit seconds others reopenedAt hmax hrefused hothers
  -- The advice of a refusal is computed from the capacity alone.
  rcases dispatch_refused hrefused with ⟨hexempt, rfl, rfl, hserve⟩
  have hlimit := limitFor_pos hdefault req
  have hagain := refused_again (limitFor defaultCapacity req).1 hlimit hmax hserve others hothers
    reopenedAt
  rw [dispatch_snd hexempt, dispatch_passed_iff _ reopenedAt _ hexempt, hagain, waited]

/-- A worker whose only client has used up its bucket. -/
def emptied (capacity : Nat) : BucketStore Binary64 where
  maxBuckets := 100
  buckets := { entries := [("ip:a", { capacity := capacity, tokens := 0, lastRefill := 0 })],
               nodup := List.nodup_singleton _ }

def client : HttpRequest where
  method := "GET"
  path := "/v1/transactions"
  apiKeyId := none
  apiRole := none
  clientHost := some "a"

/-- Sixty a minute and a second to wait, while another client asks. -/
theorem retry_after_enough_sixty :
    (dispatch 60 (afterAll (dispatch 60 (emptied 60) client 0 0).2 [⟨"ip:b", 60, 0, 0⟩]) client 1
      (0 + ((1 : ℤ) : Binary64))).1 = .passed (some 60) := by
  have hrefused : (dispatch 60 (emptied 60) client 0 0).1 = .tooManyRequests 60 1 := by
    decide +kernel
  refine ((retry_after_enough_iff 60 (by decide)).1 (emptied 60) client 0 0 60 1
    [⟨"ip:b", 60, 0, 0⟩] 1 (by decide) hrefused (by decide +kernel)).mpr (Or.inr ?_)
  decide +kernel

/-- Seven a minute and eight seconds to wait, where a token takes more than
    eight and a half: the client is refused again. -/
theorem retry_after_short_of_seven :
    (dispatch 7 (emptied 7) client 0 0).1 = .tooManyRequests 7 8 ∧
      (dispatch 7 (dispatch 7 (emptied 7) client 0 0).2 client 8 (0 + ((8 : ℤ) : Binary64))).1
        = .tooManyRequests 7 8 := by
  decide +kernel

end RateLimit

end MmrEngine
