import MmrEngine.Api.RateLimit
import Mathlib.Tactic.Linarith
import Mathlib.Tactic.NormNum
import Mathlib.Tactic.Positivity

/-!
# The Rate Limit Holds

How many requests of a key are allowed in a stretch of time.

The argument has two halves. The potential half is about one bucket: what has
been allowed since the start of the stretch, plus the tokens left, never
exceeds the capacity plus what the refill brought since (`allowed_after`). The
other half is about the store: the bucket a request leaves is the bucket the
key's next request finds, because a key with fewer younger keys than the store
may hold is not dropped. `SpacedFrom` carries the second half along the
requests, with the set of other keys seen since the key's last one.

Before the key's first request in the stretch nothing is known about its
bucket but that it holds at most its capacity, and that is enough: it may have
been dropped and started over as often as one likes.

## Main definitions

* `TokenBucket.Within`: A bucket's tokens are between zero and its capacity.
* `allowedIn`: How many requests of a key are allowed in a stretch of time.
* `FewBetween`: Few other keys between two requests of a key.

## Theorems

* `consume_budget`: What an attempt takes is what it allows.
* `serve_within`: A request keeps every bucket within its bounds.
* `allowed_after`: The potential argument, from a request on.
* `rate_limit_holds`: The bounds on the store, its buckets and what it allows.
-/

namespace MmrEngine

namespace RateLimit

/-- The tokens are between zero and the capacity. -/
def TokenBucket.Within (b : TokenBucket ℚ) : Prop := 0 ≤ b.tokens ∧ b.tokens ≤ b.capacity

theorem new_within (capacity : Nat) (now : ℚ) : (TokenBucket.new capacity now).Within := by
  have htokens : (TokenBucket.new capacity now).tokens = capacity := by
    simp [TokenBucket.new]
  rw [TokenBucket.Within, htokens]
  exact ⟨Nat.cast_nonneg capacity, le_refl _⟩

theorem refilled_nonneg {b : TokenBucket ℚ} (h : b.Within) (now : ℚ) : 0 ≤ b.refilled now := by
  have hgain : 0 ≤ max 0 (now - b.lastRefill) * b.capacity / 60 := by positivity
  exact le_min (Nat.cast_nonneg _) (add_nonneg h.1 hgain)

theorem refilled_le_capacity (b : TokenBucket ℚ) (now : ℚ) : b.refilled now ≤ b.capacity :=
  min_le_left _ _

/-- The refill brings at most the capacity a minute. -/
theorem refilled_le {b : TokenBucket ℚ} {now : ℚ} (h : b.lastRefill ≤ now) :
    b.refilled now ≤ b.tokens + (now - b.lastRefill) * b.capacity / 60 := by
  have helapsed : max 0 (now - b.lastRefill) = now - b.lastRefill :=
    max_eq_right (sub_nonneg.mpr h)
  have hmin := min_le_right (b.capacity : ℚ)
    (b.tokens + max 0 (now - b.lastRefill) * b.capacity / 60)
  rw [helapsed] at hmin
  rw [TokenBucket.refilled, helapsed]
  exact hmin

/-- The number of requests an answer allows. -/
def granted (allowed : Bool) : Nat := if allowed then 1 else 0

/-- What an attempt leaves and what it allows together are what was there. -/
theorem consume_budget (b : TokenBucket ℚ) (now : ℚ) :
    (b.consume now).2.tokens + granted (b.consume now).1 = b.refilled now := by
  rcases consume_cases b now with ⟨-, h⟩ | ⟨-, h⟩
  · rw [h]
    simp [granted]
  · rw [h]
    simp [granted]

theorem consume_within {b : TokenBucket ℚ} (h : b.Within) (now : ℚ) :
    (b.consume now).2.Within := by
  have hle := refilled_le_capacity b now
  rcases consume_cases b now with ⟨henough, hc⟩ | ⟨-, hc⟩
  · rw [hc]
    exact ⟨sub_nonneg.mpr henough, by linarith⟩
  · rw [hc]
    exact ⟨refilled_nonneg h now, hle⟩

/-- Every bucket of the store is within its bounds. -/
def BucketStore.Within (s : BucketStore ℚ) : Prop :=
  ∀ entry ∈ s.buckets.entries, entry.2.Within

theorem get_within {s : BucketStore ℚ} (h : s.Within) (key : String) (capacity : Nat) (now : ℚ) :
    (s.get key capacity now).1.Within ∧ (s.get key capacity now).1.capacity = capacity := by
  rcases get_cases s key capacity now with ⟨hget, hcap⟩ | hnew
  · have hstored := h (key, (s.get key capacity now).1) (OrderedDict.mem_of_get? hget)
    exact ⟨hstored, hcap⟩
  · rw [hnew]
    exact ⟨new_within capacity now, rfl⟩

theorem serve_within {s : BucketStore ℚ} (hmax : 0 < s.maxBuckets) (h : s.Within) (r : Request ℚ) :
    (serve s r).2.Within := by
  rw [serve_eq_touch s hmax]
  intro entry hentry
  rcases OrderedDict.mem_touch hentry with rfl | hold
  · exact consume_within (get_within h r.key r.capacity r.openedAt).1 r.now
  · exact h entry hold

theorem serve_length_le {s : BucketStore ℚ} (hmax : 0 < s.maxBuckets) (r : Request ℚ) :
    (serve s r).2.buckets.length ≤ s.maxBuckets := by
  rw [serve_eq_touch s hmax]
  exact OrderedDict.length_touch_le _ _ _ _

/-- A run of requests keeps the store within its bound and its buckets within
    theirs. -/
theorem afterAll_bounds {s : BucketStore ℚ} (hmax : 0 < s.maxBuckets) (h : s.Within)
    (hlength : s.buckets.length ≤ s.maxBuckets) (requests : List (Request ℚ)) :
    (afterAll s requests).buckets.length ≤ s.maxBuckets ∧ (afterAll s requests).Within := by
  induction requests generalizing s with
  | nil => exact ⟨hlength, h⟩
  | cons r requests ih =>
      have hnext : 0 < (serve s r).2.maxBuckets := hmax
      exact ih hnext (serve_within hmax h r) (serve_length_le hmax r)

section Window

variable (key : String) (start T : ℚ)

/-- The decision allows a request of the key in the stretch `[start, start + T]`. -/
def counts (d : Request ℚ × Bool) : Bool :=
  d.2 && d.1.key = key && start ≤ d.1.now && d.1.now ≤ start + T

/-- How many requests of the key are allowed in the stretch. -/
def allowedIn (ds : List (Request ℚ × Bool)) : Nat := ds.countP (counts key start T)

/-- Between any two consecutive requests of the key there are fewer than `n`
    other keys. -/
def FewBetween (n : Nat) (requests : List (Request ℚ)) : Prop :=
  ∀ before r between r' after, requests = before ++ r :: (between ++ r' :: after) →
    r.key = key → r'.key = key → (∀ q ∈ between, q.key ≠ key) →
    (between.map Request.key).toFinset.card < n

/-- Each request of the key comes after fewer than `n` other keys, where `since`
    are the ones seen already. -/
def SpacedFrom (n : Nat) : Finset String → List (Request ℚ) → Prop
  | _, [] => True
  | since, r :: requests =>
    if r.key = key then since.card < n ∧ SpacedFrom n ∅ requests
    else SpacedFrom n (insert r.key since) requests

variable {key start T}

theorem FewBetween.tail {n : Nat} {r : Request ℚ} {requests : List (Request ℚ)}
    (h : FewBetween key n (r :: requests)) : FewBetween key n requests := by
  intro before r₁ between r₂ after hsplit
  refine h (r :: before) r₁ between r₂ after ?_
  rw [hsplit, List.cons_append]

/-- Few other keys between two requests is few since the last one, all along. -/
theorem spacedFrom_of_fewBetween {n : Nat} (requests : List (Request ℚ)) :
    ∀ (r : Request ℚ) (between : List (Request ℚ)), FewBetween key n (r :: (between ++ requests)) →
      r.key = key → (∀ q ∈ between, q.key ≠ key) →
      SpacedFrom key n (between.map Request.key).toFinset requests := by
  induction requests with
  | nil => exact fun _ _ _ _ _ => trivial
  | cons q requests ih =>
      intro r between hfew hr hbetween
      unfold SpacedFrom
      by_cases hq : q.key = key
      · rw [if_pos hq]
        refine ⟨hfew [] r between q requests rfl hr hq hbetween, ?_⟩
        -- From here on the last request of the key is this one.
        have hsuffix : FewBetween key n (q :: ([] ++ requests)) := by
          intro before r₁ between₁ r₂ after hsplit
          refine hfew (r :: (between ++ before)) r₁ between₁ r₂ after ?_
          rw [List.nil_append] at hsplit
          rw [hsplit, List.cons_append, List.append_assoc]
        exact ih q [] hsuffix hq (fun _ h => absurd h List.not_mem_nil)
      · rw [if_neg hq]
        have hmore : FewBetween key n (r :: ((between ++ [q]) ++ requests)) := by
          rw [List.append_assoc, List.singleton_append]
          exact hfew
        have hother : ∀ p ∈ between ++ [q], p.key ≠ key := by
          intro p hp
          rcases List.mem_append.mp hp with hin | hlast
          · exact hbetween p hin
          · rw [List.mem_singleton.mp hlast]
            exact hq
        have hspaced := ih r (between ++ [q]) hmore hr hother
        have hset : ((between ++ [q]).map Request.key).toFinset
            = insert q.key (between.map Request.key).toFinset := by
          ext k
          simp
        rwa [hset] at hspaced

/-- The first request counts if it is the key's, is in the stretch and is
    allowed. -/
theorem allowedIn_cons (s : BucketStore ℚ) (r : Request ℚ) (requests : List (Request ℚ)) :
    allowedIn key start T (decisions s (r :: requests))
      = (if r.key = key ∧ start ≤ r.now ∧ r.now ≤ start + T then granted (serve s r).1 else 0)
        + allowedIn key start T (decisions (serve s r).2 requests) := by
  rw [decisions, allowedIn, List.countP_cons, allowedIn, Nat.add_comm]
  congr 1
  cases hallowed : (serve s r).1 with
  | false => simp [counts, granted]
  | true => simp [counts, granted, and_assoc]

/-- Once a request is past the stretch, so is everything after it. -/
theorem over_of_head {r : Request ℚ} {requests : List (Request ℚ)}
    (hsorted : ∀ q ∈ requests, r.now ≤ q.now) (hover : ¬ r.now ≤ start + T) :
    ∀ q ∈ r :: requests, start + T < q.now := by
  intro q hq
  rcases List.mem_cons.mp hq with rfl | hrest
  · exact not_le.mp hover
  · exact lt_of_lt_of_le (not_le.mp hover) (hsorted q hrest)

/-- Nothing counts once the stretch is over. -/
theorem allowedIn_of_over {s : BucketStore ℚ} {requests : List (Request ℚ)}
    (h : ∀ r ∈ requests, start + T < r.now) : allowedIn key start T (decisions s requests) = 0 := by
  induction requests generalizing s with
  | nil => rfl
  | cons r requests ih =>
      have hr : ¬ r.now ≤ start + T := not_le.mpr (h r List.mem_cons_self)
      rw [allowedIn_cons, if_neg (fun hin => hr hin.2.2), Nat.zero_add]
      exact ih fun q hq => h q (List.mem_cons_of_mem _ hq)

/-- The bound, from a request of the key in the stretch on. What has been
    allowed so far and the tokens left are paid for by the capacity and the
    refill since the start. -/
theorem allowed_after {capacity n : Nat} (requests : List (Request ℚ)) :
    ∀ (s : BucketStore ℚ) (since : Finset String) (b : TokenBucket ℚ) (soFar : Nat),
      s.maxBuckets = n → 0 < n → (since.card < n → s.buckets.Recent key b since) →
      SpacedFrom key n since requests → (∀ r ∈ requests, r.key = key → r.capacity = capacity) →
      requests.Pairwise (fun r q => r.now ≤ q.now) → (∀ r ∈ requests, b.lastRefill ≤ r.now) →
      b.capacity = capacity → b.Within → start ≤ b.lastRefill → b.lastRefill ≤ start + T →
      soFar + b.tokens ≤ capacity + (b.lastRefill - start) * capacity / 60 →
      ((soFar + allowedIn key start T (decisions s requests) : Nat) : ℚ)
        ≤ capacity + capacity * T / 60 := by
  induction requests with
  | nil =>
      intro s since b soFar _ _ _ _ _ _ _ hcap hwithin hstart hend hbudget
      have htokens := hwithin.1
      -- The refill up to now is at most the refill of the whole stretch.
      have hrefill : (b.lastRefill - start) * capacity ≤ T * capacity :=
        mul_le_mul_of_nonneg_right (by linarith) (Nat.cast_nonneg capacity)
      simp only [decisions, allowedIn, List.countP_nil, Nat.add_zero]
      linarith
  | cons r requests ih =>
      intro s since b soFar hmax hn hrecent hspaced hcaps hsorted hlate hcap hwithin hstart hend
        hbudget
      rw [List.pairwise_cons] at hsorted
      have hnow : b.lastRefill ≤ r.now := hlate r List.mem_cons_self
      have hcaps' : ∀ q ∈ requests, q.key = key → q.capacity = capacity :=
        fun q hq => hcaps q (List.mem_cons_of_mem _ hq)
      have hserve := serve_eq_touch s (by omega) r
      unfold SpacedFrom at hspaced
      by_cases hkey : r.key = key
      · rw [if_pos hkey] at hspaced
        -- Too few other keys have come in between to evict the bucket.
        have hfound : s.buckets.get? r.key = some b := by
          rw [hkey]
          exact (hrecent hspaced.1).get?
        have hget : (s.get r.key r.capacity r.openedAt).1 = b := by
          rw [hcaps r List.mem_cons_self hkey, ← hcap]
          exact get_of_get? r.openedAt hfound
        rw [hget] at hserve
        by_cases hover : r.now ≤ start + T
        · -- What is allowed now comes out of the bucket.
          have hgain := refilled_le hnow
          have hbought := consume_budget b r.now
          have hgranted : (serve s r).1 = (b.consume r.now).1 := by rw [hserve]
          rw [allowedIn_cons, if_pos ⟨hkey, hstart.trans hnow, hover⟩, hgranted, ← Nat.add_assoc]
          refine ih (serve s r).2 ∅ (b.consume r.now).2 (soFar + granted (b.consume r.now).1)
            hmax hn (fun _ => ?_) hspaced.2 hcaps' hsorted.2 ?_ (by simpa using hcap)
            (consume_within hwithin r.now) (by simpa using hstart.trans hnow)
            (by simpa using hover) ?_
          · rw [hserve, ← hkey]
            exact OrderedDict.recent_touch_self _ (by omega) _ _
          · simpa using hsorted.1
          · rw [consume_lastRefill, Nat.cast_add]
            rw [hcap] at hgain
            linarith
        · -- The stretch is over, and so it is for everything that follows.
          have hrefill : (b.lastRefill - start) * capacity ≤ T * capacity :=
            mul_le_mul_of_nonneg_right (by linarith) (Nat.cast_nonneg capacity)
          have htokens := hwithin.1
          rw [allowedIn_of_over (over_of_head hsorted.1 hover), Nat.add_zero]
          linarith
      · rw [if_neg hkey] at hspaced
        rw [allowedIn_cons, if_neg (fun hin => hkey hin.1), Nat.zero_add]
        refine ih (serve s r).2 (insert r.key since) b soFar hmax hn (fun hroom => ?_) hspaced
          hcaps' hsorted.2 (fun q hq => hlate q (List.mem_cons_of_mem _ hq)) hcap hwithin hstart
          hend hbudget
        have hfew : since.card < n :=
          lt_of_le_of_lt (Finset.card_le_card (Finset.subset_insert _ _)) hroom
        rw [hserve]
        exact OrderedDict.recent_touch_other (hrecent hfew) hkey (by omega) _

/-- The bound, from any state of the store. Up to the key's first request in
    the stretch nothing counts, and that request finds a bucket that holds at
    most its capacity. -/
theorem allowedIn_le {capacity n : Nat} (hT : 0 ≤ T) (requests : List (Request ℚ)) :
    ∀ s : BucketStore ℚ, s.maxBuckets = n → 0 < n → s.Within → FewBetween key n requests →
      (∀ r ∈ requests, r.key = key → r.capacity = capacity) →
      requests.Pairwise (fun r q => r.now ≤ q.now) →
      (allowedIn key start T (decisions s requests) : ℚ) ≤ capacity + capacity * T / 60 := by
  have hbound : (0 : ℚ) ≤ capacity + capacity * T / 60 := by positivity
  induction requests with
  | nil =>
      intro s _ _ _ _ _ _
      simpa [decisions, allowedIn] using hbound
  | cons r requests ih =>
      intro s hmax hn hwithin hfew hcaps hsorted
      have hnext : (serve s r).2.Within := serve_within (by omega) hwithin r
      have hcaps' : ∀ q ∈ requests, q.key = key → q.capacity = capacity :=
        fun q hq => hcaps q (List.mem_cons_of_mem _ hq)
      have hsorted' := List.pairwise_cons.mp hsorted
      by_cases hin : r.key = key ∧ start ≤ r.now
      · rcases hin with ⟨hkey, hstart⟩
        have hcap := hcaps r List.mem_cons_self hkey
        rcases get_within hwithin r.key r.capacity r.openedAt with ⟨hfound, hfoundcap⟩
        by_cases hover : r.now ≤ start + T
        · -- The potential argument starts with the bucket this request leaves.
          have hspaced : SpacedFrom key n ∅ requests :=
            spacedFrom_of_fewBetween requests r [] hfew hkey fun _ h => absurd h List.not_mem_nil
          rw [allowedIn_cons, if_pos ⟨hkey, hstart, hover⟩, serve_eq_touch s (by omega) r]
          refine allowed_after requests _ ∅
            ((s.get r.key r.capacity r.openedAt).1.consume r.now).2 _ hmax hn (fun _ => ?_) hspaced
            hcaps' hsorted'.2 (by simpa using hsorted'.1) (by simpa [hfoundcap] using hcap)
            (consume_within hfound r.now) (by simpa using hstart) (by simpa using hover) ?_
          · rw [← hkey]
            exact OrderedDict.recent_touch_self _ (by omega) _ _
          · have hbought := consume_budget (s.get r.key r.capacity r.openedAt).1 r.now
            have hfull := refilled_le_capacity (s.get r.key r.capacity r.openedAt).1 r.now
            have hrefill : 0 ≤ (r.now - start) * (capacity : ℚ) / 60 :=
              div_nonneg (mul_nonneg (sub_nonneg.mpr hstart) (Nat.cast_nonneg _)) (by norm_num)
            have hcap' : (r.capacity : ℚ) = capacity := by rw [hcap]
            rw [hfoundcap, hcap'] at hfull
            rw [consume_lastRefill]
            simp only []
            linarith
        · rw [allowedIn_of_over (over_of_head hsorted'.1 hover)]
          simpa using hbound
      · rw [allowedIn_cons, if_neg (fun h => hin ⟨h.1, h.2.1⟩), Nat.zero_add]
        exact ih (serve s r).2 hmax hn hnext hfew.tail hcaps' hsorted'.2

end Window

theorem empty_within (maxBuckets : Nat) : (BucketStore.empty maxBuckets).Within :=
  fun _ h => absurd h List.not_mem_nil

/-- From an empty store, after any requests in the order of their times: the
    store holds at most `maxBuckets` buckets, each with tokens between zero and
    its capacity, and a key always requested with one capacity `C`, with fewer
    than `maxBuckets` other keys between two of its requests, is allowed at
    most `C + C * T / 60` requests in any `T` seconds. -/
theorem rate_limit_holds {maxBuckets : Nat} (hmax : 1 ≤ maxBuckets) (requests : List (Request ℚ))
    (htimes : requests.Pairwise fun r q => r.now ≤ q.now) :
    (afterAll (.empty maxBuckets) requests).buckets.length ≤ maxBuckets ∧
      (∀ entry ∈ (afterAll (.empty maxBuckets) requests).buckets.entries,
        0 ≤ entry.2.tokens ∧ entry.2.tokens ≤ entry.2.capacity) ∧
      ∀ (key : String) (C : Nat), 1 ≤ C → (∀ r ∈ requests, r.key = key → r.capacity = C) →
        FewBetween key maxBuckets requests → ∀ start T : ℚ, 0 ≤ T →
          (allowedIn key start T (decisions (.empty maxBuckets) requests) : ℚ) ≤ C + C * T / 60 := by
  have hbounds := afterAll_bounds (s := .empty maxBuckets) hmax (empty_within maxBuckets)
    (Nat.zero_le _) requests
  refine ⟨hbounds.1, hbounds.2, fun key C _ hcaps hfew start T hT => ?_⟩
  exact allowedIn_le hT requests (.empty maxBuckets) rfl hmax (empty_within maxBuckets) hfew hcaps
    htimes

/-- Two buckets of three tokens, and a client that asks six times in one
    second. -/
theorem rate_limit_holds_burst :
    (allowedIn "ip:a" 0 1 (decisions (.empty 2)
      (List.replicate 6 { key := "ip:a", capacity := 3, openedAt := 0, now := 0 })) : ℚ)
        ≤ 3 + 3 * 1 / 60 ∧
      allowedIn "ip:a" 0 1 (decisions (.empty 2)
        (List.replicate 6 { key := "ip:a", capacity := 3, openedAt := 0, now := 0 })) = 3 := by
  refine ⟨?_, by decide +kernel⟩
  have htimes : (List.replicate 6 ({ key := "ip:a", capacity := 3, openedAt := 0, now := 0 }
      : Request ℚ)).Pairwise fun r q => r.now ≤ q.now := by decide
  have hkeys : ∀ r ∈ List.replicate 6 ({ key := "ip:a", capacity := 3, openedAt := 0, now := 0 }
      : Request ℚ), r.key = "ip:a" ∧ r.capacity = 3 := by decide
  have hfew : FewBetween "ip:a" 2
      (List.replicate 6 { key := "ip:a", capacity := 3, openedAt := 0, now := 0 }) := by
    -- Nobody else asks, so nothing is between.
    intro before r between r' after hsplit _ _ hother
    cases between with
    | nil => decide
    | cons q between =>
        refine absurd (hkeys q ?_).1 (hother q List.mem_cons_self)
        rw [hsplit]
        simp
  exact (rate_limit_holds (by decide) _ htimes).2.2 "ip:a" 3 (by decide)
    (fun r hr _ => (hkeys r hr).2) hfew 0 1 (by norm_num)

end RateLimit

end MmrEngine
