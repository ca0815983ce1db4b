import MmrEngine.Api.RateLimit
import MmrEngine.Connectors.Signatures
import MmrEngine.Flows.GoldCalls

/-!
# API Access

The way of a request through the API: authentication, rate limiting, the role
check of the route, and its handler.

The authentication middleware decides by `request.url.path`, which Starlette
puts together with the `Host` header, while the router goes by the path of the
scope. A client can make the two differ, so a request has both here and neither
says anything about the other. What the router and the validation of path and
body make of a request is given with it.

A key's row is counted up before it is looked at, in a transaction of its own,
which may fail before or after it took effect. Between that and the handler
other requests are served, and the owner of the database does with the keys
whatever he likes.

Of the handlers only the two that write are followed into the tables.

## Main definitions

* `Settings`: Environment and `api_auth_disabled`, as they are valid together.
* `ApiKeyRow`, `KeyTable`: `system_api_keys`.
* `dispatch`: The authentication middleware.
* `Operation`: The endpoints, with the roles they require.
* `handle`: The role check and the handler.
* `World`, `Step`: Keys, buckets, requests under way and Gold.
-/

namespace MmrEngine

namespace Access

open Gold

inductive Environment where
  | development
  | staging
  | production
  deriving DecidableEq, Repr

/-- The settings the middleware reads; authentication is only ever disabled in
    development. -/
structure Settings where
  environment : Environment
  apiAuthDisabled : Bool
  apiRateLimitPerMinute : Nat
  devOnly : apiAuthDisabled = true → environment = .development

/-- `auth_disable_only_in_development`. -/
def Settings.validate (environment : Environment) (apiAuthDisabled : Bool)
    (apiRateLimitPerMinute matchingPrimaryWindowHours matchingSecondaryWindowHours : Nat) :
    Except String Settings :=
  if h : apiAuthDisabled = true → environment = .development then
    if matchingPrimaryWindowHours > matchingSecondaryWindowHours then
      .error "primary matching window must not exceed the secondary window"
    else
      .ok { environment := environment
            apiAuthDisabled := apiAuthDisabled
            apiRateLimitPerMinute := apiRateLimitPerMinute
            devOnly := h }
  else .error "API_AUTH_DISABLED=true is only allowed when ENVIRONMENT=development"

/-! ### Keys and roles -/

inductive Scope where
  | read
  | write
  | admin
  deriving DecidableEq, Repr

inductive Role where
  | admin
  | analyst
  | readonly
  deriving DecidableEq, Repr

def Role.name : Role → String
  | .admin => "admin"
  | .analyst => "analyst"
  | .readonly => "readonly"

def roleFromScopes (scopes : List Scope) : Role :=
  if Scope.admin ∈ scopes then .admin
  else if Scope.write ∈ scopes then .analyst
  else .readonly

/-- A row of `system_api_keys`. -/
structure ApiKeyRow where
  id : String
  keyHash : String
  clientName : String
  scopes : List Scope
  isActive : Bool
  expiresAt : Option ℤ
  lastUsedAt : Option ℤ
  usageCount : Nat
  deriving DecidableEq

/-- `system_api_keys`, unique by hash. -/
abbrev KeyTable := UniqueTable ApiKeyRow.keyHash

/-- `row["expires_at"] < datetime.now(UTC)`. -/
def ApiKeyRow.expired (row : ApiKeyRow) (now : ℤ) : Bool := row.expiresAt.any fun t => t < now

/-- `SET last_used_at = NOW(), usage_count = usage_count + 1 WHERE key_hash = ...`. -/
def touch (keyHash : String) (dbNow : ℤ) (keys : KeyTable) : KeyTable :=
  keys.modify
    (fun row =>
      if row.keyHash = keyHash then
        { row with lastUsedAt := some dbNow, usageCount := row.usageCount + 1 }
      else row)
    (fun row => by split <;> rfl)

/-! ### Authentication -/

/-- What is read of an HTTP request, and the endpoint it is for. -/
structure Request (Op : Type) where
  method : String
  /-- `request.url.path`. -/
  urlPath : String
  /-- The `X-API-Key` header. -/
  apiKey : Option String
  clientHost : Option String
  /-- What the router and the validation make of path, query and body. -/
  operation : Option Op

/-- `request.state`. -/
structure RequestState where
  apiKeyId : Option String := none
  apiKeyName : Option String := none
  apiRole : Option Role := none
  deriving DecidableEq

/-- Why a request is rejected before it gets to the router. -/
inductive AuthError where
  | missingKey
  | unavailable
  | invalidKey
  | inactiveKey
  | expiredKey
  deriving DecidableEq, Repr

def AuthError.statusCode : AuthError → Nat
  | .missingKey => 401
  | .unavailable => 503
  | .invalidKey => 401
  | .inactiveKey => 403
  | .expiredKey => 403

def AuthError.detail : AuthError → String
  | .missingKey => "Missing X-API-Key header"
  | .unavailable => "Auth service unavailable"
  | .invalidKey => "Invalid API key"
  | .inactiveKey => "API key deactivated"
  | .expiredKey => "API key expired"

def publicPaths : List String :=
  ["/health", "/health/ready", "/metrics", "/v1/webhooks/paystack", "/v1/webhooks/flutterwave"]

def docsPaths : List String := ["/docs", "/redoc", "/openapi.json", "/docs/oauth2-redirect"]

/-- `path.rstrip("/") or "/"`. -/
def normalised (path : String) : String :=
  let stripped := String.ofList (path.toList.reverse.dropWhile (· = '/')).reverse
  if stripped = "" then "/" else stripped

def isPublicPath (path : String) (environment : Environment) : Bool :=
  normalised path ∈ publicPaths || environment ≠ .production && normalised path ∈ docsPaths

/-- How the transaction of the key goes wrong. -/
inductive KeyFault where
  | none
  | lost
  | answerLost
  deriving DecidableEq, Repr

/-- The state of a request without a key, where authentication is disabled. -/
def devState : RequestState where
  apiKeyName := some "dev-unauthenticated"
  apiRole := some .analyst

/-- The state of a request with a valid key. -/
def ApiKeyRow.state (row : ApiKeyRow) : RequestState where
  apiKeyId := some row.id
  apiKeyName := some row.clientName
  apiRole := some (roleFromScopes row.scopes)

section Dispatch

variable [Webhooks.DoorLibrary]

/-- `_hash_api_key`. -/
def hashApiKey (rawKey : String) : String := Webhooks.DoorLibrary.sha256Hex (Webhooks.utf8 rawKey)

/-- `APIKeyAuthMiddleware.dispatch`, up to `call_next`. -/
def dispatch {Op : Type} (settings : Settings) (fault : KeyFault) (dbNow now : ℤ)
    (request : Request Op) (keys : KeyTable) : KeyTable × Except AuthError RequestState :=
  -- CORS preflight never carries credentials.
  if request.method = "OPTIONS" then (keys, .ok {})
  else if isPublicPath request.urlPath settings.environment then (keys, .ok {})
  else
    match request.apiKey.filter (· ≠ "") with
    | none => (keys, if settings.apiAuthDisabled then .ok devState else .error .missingKey)
    | some apiKey =>
      let updated := touch (hashApiKey apiKey) dbNow keys
      match fault with
      | .lost => (keys, .error .unavailable)
      | .answerLost => (updated, .error .unavailable)
      | .none =>
        (updated,
          match updated.find? (hashApiKey apiKey) with
          | none => .error .invalidKey
          | some row =>
            if !row.isActive then .error .inactiveKey
            else if row.expired now then .error .expiredKey
            else .ok row.state)

end Dispatch

/-! ### Endpoints -/

/-- `ResolveRequest`. -/
structure ResolveRequest where
  resolutionNote : String
  outcome : Outcome
  hnote : 10 ≤ resolutionNote.length ∧ resolutionNote.length ≤ 2000

/-- `BulkResolveRequest`. -/
structure BulkResolveRequest extends ResolveRequest where
  ids : List Nat
  hids : 1 ≤ ids.length ∧ ids.length ≤ 100

/-- The endpoints that only read. -/
inductive ReadRoute where
  | summary
  | trend
  | pspHealth
  | pairs
  | discrepancies
  | discrepancyEvents
  | exposure
  | transactions
  | transaction
  | pair
  | exposureAging
  | pipelineRuns
  | search
  | dailyReports
  | dailyReport
  deriving DecidableEq, Repr

/-- Those without `require_role`. -/
inductive OpenRoute where
  | health
  | healthReady
  | metrics
  | paystackWebhook
  | flutterwaveWebhook
  deriving DecidableEq, Repr

/-- A request the router and the validation have let through. -/
inductive Operation where
  | open_ (route : OpenRoute)
  | read (route : ReadRoute)
  | resolveDiscrepancy (id : Nat) (body : ResolveRequest)
  | bulkResolveDiscrepancies (body : BulkResolveRequest)

def readRoles : List Role := [.admin, .analyst, .readonly]

def writeRoles : List Role := [.admin, .analyst]

/-- The argument of `require_role`, for the routes that have it. -/
def Operation.roles : Operation → Option (List Role)
  | .open_ _ => none
  | .read _ => some readRoles
  | .resolveDiscrepancy _ _ => some writeRoles
  | .bulkResolveDiscrepancies _ => some writeRoles

/-- `str(allowed_roles)`. -/
def rolesText (roles : List Role) : String :=
  "[" ++ ", ".intercalate (roles.map fun r => "'" ++ r.name ++ "'") ++ "]"

/-- `require_role`: who may go on, or the detail of the 403. -/
def checkRole (allowed : Option (List Role)) (state : RequestState) : Except String Unit :=
  match allowed with
  | none => .ok ()
  | some allowed =>
    if state.apiRole.any (· ∈ allowed) then .ok ()
    else .error ("Insufficient permissions. Required: " ++ rolesText allowed)

/-- `getattr(request.state, "api_key_name", None) or "unknown"`. -/
def actor (state : RequestState) : String := (state.apiKeyName.filter (· ≠ "")).getD "unknown"

/-- What a closing request writes. -/
def closing (state : RequestState) (body : ResolveRequest) : Closing where
  outcome := body.outcome
  actor := actor state
  note := body.resolutionNote

/-- What a request that got to the router is answered. -/
inductive Answer where
  | forbidden (detail : String)
  | ok
  | resolved (result : Except GoldCalls.ResolveError (Nat × Outcome))
  | bulkResolved (resolved : List Nat) (skipped : List (Nat × SkipReason))

section Handlers

variable {T : Type} [DecidableEq T]

/-- The role check of the route, and its handler. -/
def handle (now : ℤ) (state : RequestState) (operation : Operation) (gold : GoldCalls.Tables T) :
    GoldCalls.Tables T × Answer :=
  match checkRole operation.roles state with
  | .error detail => (gold, .forbidden detail)
  | .ok _ =>
    match operation with
    | .open_ _ => (gold, .ok)
    | .read _ => (gold, .ok)
    | .resolveDiscrepancy id body =>
      let result := GoldCalls.resolveDiscrepancy now id (closing state body) gold
      (result.1, .resolved result.2)
    | .bulkResolveDiscrepancies body =>
      let result := GoldCalls.bulkResolveDiscrepancies now body.ids
        (closing state body.toResolveRequest) gold
      (result.1, .bulkResolved result.2.1 result.2.2)

/-! ### The system -/

/-- A key that was found valid: its row then, and the time. -/
structure Grant where
  row : ApiKeyRow
  now : ℤ

/-- A request that has been let through, with its state and the key that was
    found valid for it. -/
structure Pending where
  request : Request Operation
  state : RequestState
  grant : Option Grant

/-- A handler that was run, for this request. -/
structure Served extends Pending where
  operation : Operation

/-- The keys, the buckets of the limiter, the requests under way and the Gold
    tables, with the keys that have been found valid so far and the handlers
    that have been run. -/
structure World (T : Type) where
  keys : KeyTable
  buckets : RateLimit.BucketStore Binary64
  pending : Nat → Option Pending
  gold : GoldCalls.Tables T
  granted : List Grant
  served : List Served

/-- What the rate limiter sees of a request. -/
def Pending.limited (p : Pending) : RateLimit.HttpRequest where
  method := p.request.method
  path := p.request.urlPath
  apiKeyId := p.state.apiKeyId
  apiRole := p.state.apiRole.map Role.name
  clientHost := p.request.clientHost

/-- The row an authentication went by, if a key was found valid. -/
def grantOf [Webhooks.DoorLibrary] {Op : Type} (now : ℤ) (request : Request Op)
    (keys : KeyTable) (result : Except AuthError RequestState) : Option Grant :=
  let found := (request.apiKey.filter (· ≠ "")).bind fun apiKey => keys.find? (hashApiKey apiKey)
  match result, found with
  | .ok state, some row => if state = row.state then some { row := row, now := now } else none
  | _, _ => none

/-- Whether the flows write the call; the API's own go through `handle`. -/
def pipelineCall : GoldCalls.Call T → Bool
  | .resolveDiscrepancy _ _ _ => false
  | .bulkResolveDiscrepancies _ _ _ => false
  | _ => true

/-- The request gets to its route, if it has one and its parameters are valid. -/
def World.route (w : World T) (dbNow : ℤ) (p : Pending) : World T :=
  match p.request.operation with
  | none => w
  | some operation =>
    { w with
      gold := (handle dbNow p.state operation w.gold).1
      served := w.served ++
        if (checkRole operation.roles p.state).isOk then
          [{ toPending := p, operation := operation }] else [] }

def Initial (w : World T) : Prop :=
  w.keys = UniqueTable.empty _ ∧ (∀ n, w.pending n = none) ∧
    w.gold.discrepancies = SerialTable.empty _ ∧ w.granted = [] ∧ w.served = []

variable [Webhooks.DoorLibrary] (settings : Settings)

/-- A step of a request, of the owner of the keys, or of the pipeline. -/
inductive Step : World T → World T → Prop
  /- Keys are issued, changed, revoked or deleted. -/
  | manageKeys (w : World T) (keys : KeyTable) : Step w { w with keys := keys }
  | authenticated (w : World T) (n : Nat) (request : Request Operation) (fault : KeyFault)
      (dbNow now : ℤ) (keys : KeyTable) (state : RequestState) (hnew : w.pending n = none)
      (h : dispatch settings fault dbNow now request w.keys = (keys, .ok state)) :
      Step w { w with
        keys := keys
        pending := Function.update w.pending n (some
          { request := request
            state := state
            grant := grantOf now request keys (.ok state) })
        granted := w.granted ++ (grantOf now request keys (.ok state)).toList }
  | rejected (w : World T) (request : Request Operation) (fault : KeyFault) (dbNow now : ℤ)
      (keys : KeyTable) (e : AuthError)
      (h : dispatch settings fault dbNow now request w.keys = (keys, .error e)) :
      Step w { w with keys := keys }
  | limited (w : World T) (n : Nat) (p : Pending) (openedAt now : Binary64) (limit : Nat)
      (retryAfter : ℤ) (buckets : RateLimit.BucketStore Binary64) (hp : w.pending n = some p)
      (h : RateLimit.dispatch settings.apiRateLimitPerMinute w.buckets p.limited openedAt now
        = (.tooManyRequests limit retryAfter, buckets)) :
      Step w { w with pending := Function.update w.pending n none, buckets := buckets }
  | passed (w : World T) (n : Nat) (p : Pending) (openedAt now : Binary64) (limit : Option Nat)
      (buckets : RateLimit.BucketStore Binary64) (dbNow : ℤ) (hp : w.pending n = some p)
      (h : RateLimit.dispatch settings.apiRateLimitPerMinute w.buckets p.limited openedAt now
        = (.passed limit, buckets)) :
      Step w { w.route dbNow p with
        pending := Function.update w.pending n none
        buckets := buckets }
  /- The client is gone. -/
  | dropped (w : World T) (n : Nat) : Step w { w with pending := Function.update w.pending n none }
  | pipeline (w : World T) (call : GoldCalls.Call T) (h : pipelineCall call = true) :
      Step w { w with gold := call.exec w.gold }

end Handlers

end Access

end MmrEngine
