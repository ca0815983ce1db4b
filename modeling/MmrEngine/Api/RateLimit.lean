import MmrEngine.Core.Binary64
import MmrEngine.Lib.OrderedDict

/-!
# The Rate Limiter

One worker's token buckets and the middleware in front of the API.

A bucket holds at most its capacity, is refilled continuously at its capacity
a minute and gives one token to each request it allows. The store keeps the
buckets by key in an LRU map of bounded size; a key that comes back with
another capacity starts over with a full bucket. Nothing awaits between
looking a bucket up and taking the token, so a request is one step.

Times are `time.monotonic()` seconds. They and the tokens are floats in the code;
here they are of a type `F` with the operations the code uses, which is
`Binary64` for what the code computes and `ℚ` for exact arithmetic. The header
with the tokens left is read once the response is there, after whatever other
requests did meanwhile, and is left out.

## Main definitions

* `TokenBucket`, `consume`: A bucket and the attempt to take a token.
* `BucketStore`, `BucketStore.get`: The LRU map of buckets.
* `serve`, `decisions`, `afterAll`: One request, and a run of them.
* `limitFor`, `retryAfter`, `dispatch`: The middleware.

## Theorems

* `consume_cases`: What an attempt does.
* `get_eq_touch`: A lookup is a use of the LRU map.
* `serve_eq_touch`: So is a whole request, with the bucket as it is left.
* `dispatch_eq_serve`: The middleware asks the store, or is not concerned.
-/

namespace MmrEngine

namespace RateLimit

/-- Token bucket refilled continuously at `capacity` tokens per 60 seconds. -/
structure TokenBucket (F : Type) where
  capacity : Nat
  tokens : F
  lastRefill : F
  deriving DecidableEq

/-- LRU-bounded map of bucket key to bucket. -/
structure BucketStore (F : Type) where
  maxBuckets : Nat
  buckets : OrderedDict String (TokenBucket F)

def BucketStore.empty {F : Type} (maxBuckets : Nat) : BucketStore F where
  maxBuckets := maxBuckets
  buckets := OrderedDict.empty

/-- A request as the limiter sees it: its key and capacity, when its bucket is
    looked up and when the token is taken. -/
structure Request (F : Type) where
  key : String
  capacity : Nat
  openedAt : F
  now : F
  deriving DecidableEq

section Buckets

variable {F : Type} [LinearOrder F] [NatCast F] [OfNat F 0] [OfNat F 1]

/-- `TokenBucket(capacity, tokens, last_refill)`: without tokens given it starts
    full. -/
def TokenBucket.new [Neg F] (capacity : Nat) (lastRefill : F) (tokens : F := -1) :
    TokenBucket F where
  capacity := capacity
  tokens := if tokens < 0 then (capacity : F) else tokens
  lastRefill := lastRefill

variable [Add F] [Sub F] [Mul F] [Div F] [OfNat F 60]

/-- What the bucket holds at a time: refilled, but never above its capacity. -/
def TokenBucket.refilled (b : TokenBucket F) (now : F) : F :=
  let elapsed := max 0 (now - b.lastRefill)
  min (b.capacity : F) (b.tokens + elapsed * (b.capacity : F) / 60)

/-- Try to take one token. Returns whether the request is allowed. -/
def TokenBucket.consume (b : TokenBucket F) (now : F) : Bool × TokenBucket F :=
  let tokens := b.refilled now
  if 1 ≤ tokens then (true, { b with tokens := tokens - 1, lastRefill := now })
  else (false, { b with tokens := tokens, lastRefill := now })

/-- An attempt takes a token where there is one. -/
theorem consume_cases (b : TokenBucket F) (now : F) :
    (1 ≤ b.refilled now ∧
        b.consume now = (true, { b with tokens := b.refilled now - 1, lastRefill := now })) ∨
      (b.refilled now < 1 ∧
        b.consume now = (false, { b with tokens := b.refilled now, lastRefill := now })) := by
  by_cases h : 1 ≤ b.refilled now
  · exact Or.inl ⟨h, if_pos h⟩
  · exact Or.inr ⟨not_le.mp h, if_neg h⟩

theorem consume_fst_iff (b : TokenBucket F) (now : F) :
    (b.consume now).1 = true ↔ 1 ≤ b.refilled now := by
  rcases consume_cases b now with ⟨henough, h⟩ | ⟨hfew, h⟩
  · rw [h]
    exact iff_of_true rfl henough
  · rw [h]
    exact iff_of_false Bool.false_ne_true (not_le.mpr hfew)

@[simp] theorem consume_capacity (b : TokenBucket F) (now : F) :
    (b.consume now).2.capacity = b.capacity := by
  rcases consume_cases b now with ⟨-, h⟩ | ⟨-, h⟩ <;> rw [h]

@[simp] theorem consume_lastRefill (b : TokenBucket F) (now : F) :
    (b.consume now).2.lastRefill = now := by
  rcases consume_cases b now with ⟨-, h⟩ | ⟨-, h⟩ <;> rw [h]

variable [Neg F]

/-- The bucket of a key, which becomes the most recently used one. -/
def BucketStore.get (s : BucketStore F) (key : String) (capacity : Nat) (now : F) :
    TokenBucket F × BucketStore F :=
  let placed :=
    match (s.buckets.get? key).filter fun bucket => bucket.capacity = capacity with
    | some bucket => (bucket, s.buckets)
    | none =>
      -- Nobody has the key, or somebody with another limit.
      let bucket := TokenBucket.new capacity now
      (bucket, s.buckets.setItem key bucket)
  (placed.1, { s with buckets := (placed.2.moveToEnd key).popOldest s.maxBuckets })

/-- Look the bucket up and try to take a token. The store holds the bucket
    itself, so it sees what the attempt leaves. -/
def serve (s : BucketStore F) (r : Request F) : Bool × BucketStore F :=
  let found := s.get r.key r.capacity r.openedAt
  let taken := found.1.consume r.now
  (taken.1, { found.2 with buckets := found.2.buckets.mutate r.key taken.2 })

/-- The store after the requests. -/
def afterAll (s : BucketStore F) (requests : List (Request F)) : BucketStore F :=
  requests.foldl (fun s r => (serve s r).2) s

/-- The requests with the answers they get, in order. -/
def decisions (s : BucketStore F) : List (Request F) → List (Request F × Bool)
  | [] => []
  | r :: requests => (r, (serve s r).1) :: decisions (serve s r).2 requests

end Buckets

/-- `ROLE_LIMITS.get(role or "", default)`. -/
def roleLimit (role : Option String) (defaultCapacity : Nat) : Nat :=
  match role with
  | some "admin" => 200
  | some "analyst" => 100
  | some "readonly" => 60
  | _ => defaultCapacity

/-- A request as the middleware gets it. -/
structure HttpRequest where
  method : String
  path : String
  apiKeyId : Option String
  apiRole : Option String
  clientHost : Option String

/-- Health checks, metrics and webhooks are not limited. -/
def exempt (req : HttpRequest) : Bool :=
  let path := (req.path.toList.reverse.dropWhile (· = '/')).reverse
  req.method = "OPTIONS" || path = "/health".toList || path = "/health/ready".toList ||
    path = "/metrics".toList || "/v1/webhooks".toList.isPrefixOf path

/-- The bucket key and the capacity: by API key and role, or by address. -/
def limitFor (defaultCapacity : Nat) (req : HttpRequest) : String × Nat :=
  match req.apiKeyId.filter (· ≠ "") with
  | some keyId => ("key:" ++ keyId, roleLimit req.apiRole defaultCapacity)
  | none => ("ip:" ++ req.clientHost.getD "unknown", defaultCapacity)

/-- Every limit is positive where the default is. -/
theorem limitFor_pos {defaultCapacity : Nat} (hdefault : 0 < defaultCapacity) (req : HttpRequest) :
    0 < (limitFor defaultCapacity req).2 := by
  unfold limitFor roleLimit
  split
  · split <;> omega
  · exact hdefault

/-- `max(1, int(60 / capacity))`: the quotient of the two integers is a float. -/
def retryAfter (capacity : Nat) : ℤ := max 1 ⌊Binary64.round (60 / capacity)⌋

/-- What a client gets. -/
inductive Answer where
  | passed (limit : Option Nat)
  | tooManyRequests (limit : Nat) (retryAfter : ℤ)
  deriving DecidableEq

section Requests

variable {F : Type} [LinearOrder F] [Add F] [Sub F] [Mul F] [Div F] [Neg F] [NatCast F]
  [OfNat F 0] [OfNat F 1] [OfNat F 60]

/-- The middleware's `dispatch`. -/
def dispatch (defaultCapacity : Nat) (s : BucketStore F) (req : HttpRequest) (openedAt now : F) :
    Answer × BucketStore F :=
  if exempt req then (.passed none, s)
  else
    let limit := limitFor defaultCapacity req
    let served := serve s { key := limit.1, capacity := limit.2, openedAt := openedAt, now := now }
    if served.1 then (.passed (some limit.2), served.2)
    else (.tooManyRequests limit.2 (retryAfter limit.2), served.2)

end Requests

section Lookup

variable {F : Type} [LinearOrder F] [Neg F] [NatCast F] [OfNat F 0] [OfNat F 1]

/-- The bucket a lookup returns: the one of the key if it has the capacity, and
    otherwise a full one. -/
theorem get_cases (s : BucketStore F) (key : String) (capacity : Nat) (now : F) :
    (s.buckets.get? key = some (s.get key capacity now).1 ∧
        (s.get key capacity now).1.capacity = capacity) ∨
      (s.get key capacity now).1 = TokenBucket.new capacity now := by
  unfold BucketStore.get
  cases h : (s.buckets.get? key).filter fun bucket => bucket.capacity = capacity with
  | none => exact Or.inr rfl
  | some bucket =>
      rcases Option.filter_eq_some_iff.mp h with ⟨hget, hcap⟩
      exact Or.inl ⟨hget, by simpa using hcap⟩

/-- A key that has a bucket of the capacity gets that one. -/
theorem get_of_get? {s : BucketStore F} {key : String} {b : TokenBucket F} (now : F)
    (h : s.buckets.get? key = some b) : (s.get key b.capacity now).1 = b := by
  simp [BucketStore.get, h, Option.filter]

/-- A lookup is a use of the LRU map. -/
theorem get_eq_touch (s : BucketStore F) (key : String) (capacity : Nat) (now : F) :
    (s.get key capacity now).2
      = { s with buckets := s.buckets.touch s.maxBuckets key (s.get key capacity now).1 } := by
  unfold BucketStore.get OrderedDict.touch
  cases h : (s.buckets.get? key).filter fun bucket => bucket.capacity = capacity with
  | none => rfl
  | some bucket =>
      -- The bucket stays where it is, which is where setting it would put it.
      have hget := (Option.filter_eq_some_iff.mp h).1
      simp only [OrderedDict.setItem_of_get? hget]

end Lookup

section Serving

variable {F : Type} [LinearOrder F] [Add F] [Sub F] [Mul F] [Div F] [Neg F] [NatCast F]
  [OfNat F 0] [OfNat F 1] [OfNat F 60]

/-- A whole request is one use of the LRU map, which is left with the bucket
    after the attempt. -/
theorem serve_eq_touch (s : BucketStore F) (hmax : 0 < s.maxBuckets) (r : Request F) :
    serve s r = (((s.get r.key r.capacity r.openedAt).1.consume r.now).1,
      { s with
        buckets := s.buckets.touch s.maxBuckets r.key
          ((s.get r.key r.capacity r.openedAt).1.consume r.now).2 }) := by
  simp only [serve, get_eq_touch, OrderedDict.mutate_touch _ hmax]

/-- Everything that is not exempt is one request of the store. -/
theorem dispatch_eq_serve {defaultCapacity : Nat} (hdefault : 0 < defaultCapacity)
    (s : BucketStore F) (req : HttpRequest) (openedAt now : F) :
    (exempt req = true ∧ dispatch defaultCapacity s req openedAt now = (.passed none, s)) ∨
      ∃ r : Request F, r.now = now ∧ 0 < r.capacity ∧
        (dispatch defaultCapacity s req openedAt now).2 = (serve s r).2 ∧
        ((dispatch defaultCapacity s req openedAt now).1 = .passed (some r.capacity) ↔
          (serve s r).1 = true) := by
  have hlimit := limitFor_pos hdefault req
  unfold dispatch
  by_cases hexempt : exempt req = true
  · rw [if_pos hexempt]
    exact Or.inl ⟨hexempt, rfl⟩
  · rw [if_neg hexempt]
    refine Or.inr ⟨⟨(limitFor defaultCapacity req).1, (limitFor defaultCapacity req).2, openedAt,
      now⟩, rfl, hlimit, ?_⟩
    cases hserved : (serve s ⟨(limitFor defaultCapacity req).1, (limitFor defaultCapacity req).2,
        openedAt, now⟩).1 with
    | true => simp [hserved]
    | false => simp [hserved]

end Serving

end RateLimit

end MmrEngine
