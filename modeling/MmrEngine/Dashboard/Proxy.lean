import MmrEngine.Lib.UrlPath

/-!
# The Server-Side Proxy

`app/api/mmr/[...path]/route.ts`: what the dashboard's server makes of a request
of the browser.

The path comes in segments, which the framework has decoded, so a segment can
contain anything, slashes included. The framework calls the handler for `GET`,
`HEAD` and `POST` only. The query is that of a parsed URL. Reading the host of an
`Origin` is `new URL(origin).host`, which may fail.

What the API answers is passed on with the status and some of the headers; how
long it takes is not modelled.

## Main definitions

* `Request`, `Env`: The request, and the environment of the server.
* `Fetch`, `forward`: What is asked of the API, or why nothing is.
* `Upstream`, `Answer`, `proxy`: What the API answers, and the browser gets.
-/

namespace MmrEngine

namespace Proxy

open UrlPath

/-- The methods the route exports, and `HEAD`, which goes with `GET`. -/
inductive Method where
  | get
  | head
  | post
  deriving DecidableEq, Repr

def Method.name : Method → String
  | .get => "GET"
  | .head => "HEAD"
  | .post => "POST"

/-- A request of the browser. -/
structure Request where
  path : List String
  method : Method
  /-- The query of `req.nextUrl`. -/
  query : Option (List UInt8)
  /-- `req.headers.get`. -/
  header : String → Option String
  body : List UInt8
  noFragment : ∀ b ∈ query.getD [], b ≠ 35

/-- `process.env`. -/
structure Env where
  mmrApiUrl : Option String
  mmrApiKey : Option String

/-- A text that counts: neither missing nor empty. -/
def truthy (text : Option String) : Option String := text.filter (· ≠ "")

def allowedPrefixes : List String :=
  ["health/", "v1/reconciliation/", "v1/reports/", "v1/system/"]

def allowedExact : List String := ["health", "health/ready", "v1/search"]

def passResponseHeaders : List String :=
  ["content-type", "retry-after", "x-request-id", "cache-control"]

/-- `(process.env.MMR_API_URL || 'http://localhost:8000').replace(/\/+$/, '')`. -/
def upstreamBase (env : Env) : String :=
  String.ofList
    (((truthy env.mmrApiUrl).getD "http://localhost:8000").toList.reverse.dropWhile
      (· = '/')).reverse

/-- `path.join('/')`. -/
def joined (path : List String) : String := "/".intercalate path

/-- Only the read and resolve surface the dashboard uses. -/
def allowed (joined : String) : Bool :=
  joined ∈ allowedExact || allowedPrefixes.any fun p => p.toList.isPrefixOf joined.toList

/-- Why a request is not forwarded. -/
inductive Rejection where
  | invalidPath
  | notProxied
  | crossOrigin
  deriving DecidableEq, Repr

def Rejection.status : Rejection → Nat
  | .invalidPath => 400
  | .notProxied => 404
  | .crossOrigin => 403

def Rejection.detail : Rejection → String
  | .invalidPath => "Invalid path"
  | .notProxied => "Not proxied"
  | .crossOrigin => "Cross-origin request rejected"

/-- The arguments of `fetch`. -/
structure Fetch where
  target : List UInt8
  method : Method
  headers : List (String × String)
  body : Option (List UInt8)

/-- `req.nextUrl.search`, which is empty for an empty query. -/
def search (req : Request) : Option (List UInt8) := req.query.filter (· ≠ [])

/-- The target, with the path encoded segment by segment. -/
def target (env : Env) (req : Request) : List UInt8 :=
  Utf8.encode (upstreamBase env).toList
    ++ 47 :: [47].intercalate (req.path.map encodeURIComponent)
    ++ writeQuery (search req)

/-- The headers, built from scratch. -/
def forwardedHeaders (env : Env) (req : Request) : List (String × String) :=
  [("accept", (req.header "accept").getD "application/json")]
    ++ ((truthy (req.header "content-type")).map fun v => ("content-type", v)).toList
    ++ ((truthy (req.header "x-request-id")).map fun v => ("x-request-id", v)).toList
    ++ ((truthy env.mmrApiKey).map fun v => ("x-api-key", v)).toList

section Forward

/- `new URL(origin).host`, unless that throws. -/
variable (hostOf : String → Option String)

/-- The request comes from a page of this dashboard. -/
def sameOrigin (req : Request) : Bool :=
  match truthy ((truthy (req.header "origin")).bind hostOf) with
  | none => false
  | some originHost => req.header "host" = some originHost

def forward (env : Env) (req : Request) : Except Rejection Fetch :=
  if req.path.any fun segment => segment = ".." || segment = "." || segment = "" then
    .error .invalidPath
  else if !allowed (joined req.path) then .error .notProxied
  else if req.method = .post && !sameOrigin hostOf req then .error .crossOrigin
  else
    .ok
      { target := target env req
        method := req.method
        headers := forwardedHeaders env req
        body := if req.method = .post then some req.body else none }

end Forward

/-- What becomes of the request to the API. -/
inductive Upstream where
  | response (status : Nat) (header : String → Option String) (body : List UInt8)
  | timedOut
  | failed

/-- What the browser gets. -/
inductive Answer where
  | json (status : Nat) (detail : String)
  | passed (status : Nat) (headers : List (String × String)) (body : Option (List UInt8))

/-- The headers worth passing back. -/
def responseHeaders (header : String → Option String) : List (String × String) :=
  let kept := passResponseHeaders.filterMap fun name =>
    (truthy (header name)).map fun value => (name, value)
  if (kept.map Prod.fst).contains "cache-control" then kept
  else kept ++ [("cache-control", "no-store")]

def answer : Upstream → Answer
  | .timedOut => .json 504 "The MMR API did not respond in time."
  | .failed =>
    .json 502
      "Could not reach the MMR API. Check that it is running and that MMR_API_URL is correct."
  | .response status header body =>
    .passed status (responseHeaders header)
      (if status = 204 || status = 304 then none else some body)

def proxy (hostOf : String → Option String) (env : Env) (fetch : Fetch → Upstream)
    (req : Request) : Answer :=
  match forward hostOf env req with
  | .error rejection => .json rejection.status rejection.detail
  | .ok f => answer (fetch f)

end Proxy

end MmrEngine
