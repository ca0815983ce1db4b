import MmrEngine.Dashboard.Proxy
import MmrEngine.Theory.AccessControl

/-!
# What the Proxy Lets Through

The proxy checks the segments of a path and forwards them encoded. What counts is
what the API sees after the client's URL parser has resolved the path and the
server has decoded it, and that is the very path that was checked: no segment is
a dot segment, and the encoding neither makes one nor a separator.

A segment may contain a slash, or a query sign. The API then sees a path with
more segments than were checked, but it begins as it was checked to begin. That
is enough for the middleware of the API, which decides by a prefix of the path:
of the paths that need no key the proxy reaches those of the health checks only.

## Main definitions

* `IsOrigin`: The API's URL is a scheme and an authority.
* `starlettePath`: `request.url.path`, of the path in the scope.

## Theorems

* `forward_eq_ok`: When a request is forwarded.
* `parseUrl_forwarded`, `requestPath_forwarded`: What is parsed of the target.
* `forwarded_path_is_the_checked_one`: What the API is asked for.
* `public_through_proxy`: The public paths the proxy reaches.
* `proxied_request_needs_the_server_key`: Who the API takes a proxied request for.
-/

namespace MmrEngine

namespace Proxy

open UrlPath

section Forwarded

variable {hostOf : String → Option String} {env : Env} {req : Request} {f : Fetch}

/-- `http://` or `https://` and an authority. -/
def IsOrigin (base : String) (authority : List UInt8) : Prop :=
  (Utf8.encode base.toList = http ++ authority ∨ Utf8.encode base.toList = https ++ authority) ∧
    ∀ b ∈ authority, endsAuthority b = false

/-- When a request is forwarded, and as what. -/
theorem forward_eq_ok (h : forward hostOf env req = .ok f) :
    (∀ segment ∈ req.path, segment ≠ ".." ∧ segment ≠ "." ∧ segment ≠ "") ∧
      allowed (joined req.path) = true ∧ (req.method = .post → sameOrigin hostOf req = true) ∧
      f = { target := target env req
            method := req.method
            headers := forwardedHeaders env req
            body := if req.method = .post then some req.body else none } := by
  unfold forward at h
  split at h
  · cases h
  · next hsegments =>
      split at h
      · cases h
      · next hallowed =>
          split at h
          · cases h
          · next horigin =>
              refine ⟨fun segment hmem => ?_, by simpa using hallowed, fun hpost => ?_,
                (Except.ok.inj h).symm⟩
              · have hsegment : ¬(segment = ".." || segment = "." || segment = "") = true :=
                  fun hc => hsegments (List.any_eq_true.mpr ⟨segment, hmem, hc⟩)
                simp only [Bool.or_eq_true, decide_eq_true_eq, not_or] at hsegment
                exact ⟨hsegment.1.1, hsegment.1.2, hsegment.2⟩
              · by_contra hc
                rw [Bool.not_eq_true] at hc
                exact horigin (by simp [hpost, hc])

/-- The segments between slashes are the segments behind slashes. -/
theorem writePath_eq {segments : List String} (h : segments ≠ []) :
    writePath segments = 47 :: [47].intercalate (segments.map encodeURIComponent) := by
  induction segments with
  | nil => exact absurd rfl h
  | cons segment segments ih =>
      cases segments with
      | nil => simp [writePath]
      | cons next segments =>
          rw [List.map_cons, List.map_cons, List.intercalate_cons_cons, ← List.map_cons,
            List.append_assoc, List.singleton_append, ← ih (by simp)]
          rfl

/-- The path of the texts is the joined path behind a slash. -/
theorem flatMap_slash {segments : List String} (h : segments ≠ []) :
    (segments.flatMap fun segment => '/' :: segment.toList) = '/' :: (joined segments).toList := by
  rw [joined, String.toList_intercalate]
  induction segments with
  | nil => exact absurd rfl h
  | cons segment segments ih =>
      cases segments with
      | nil => simp
      | cons next segments =>
          rw [List.flatMap_cons, ih (by simp)]
          simp only [List.map_cons, List.intercalate_cons_cons, List.append_assoc]
          rfl

theorem path_ne_nil (h : allowed (joined req.path) = true) : req.path ≠ [] := by
  intro hc
  rw [hc] at h
  revert h
  decide

/-- A key is sent only if it is the server's. -/
theorem mem_forwardedHeaders {nv : String × String} (h : nv ∈ forwardedHeaders env req) :
    nv.1 ∈ ["accept", "content-type", "x-request-id", "x-api-key"] ∧
      (nv.1 = "x-api-key" → truthy env.mmrApiKey = some nv.2) := by
  simp only [forwardedHeaders, List.mem_append, List.mem_singleton, Option.mem_toList,
    Option.map_eq_some_iff] at h
  rcases h with ((rfl | ⟨v, _, rfl⟩) | ⟨v, _, rfl⟩) | ⟨v, hv, rfl⟩
  · exact ⟨by simp, fun hc => absurd hc (show ¬"accept" = "x-api-key" by decide)⟩
  · exact ⟨by simp, fun hc => absurd hc (show ¬"content-type" = "x-api-key" by decide)⟩
  · exact ⟨by simp, fun hc => absurd hc (show ¬"x-request-id" = "x-api-key" by decide)⟩
  · exact ⟨by simp, fun _ => hv⟩

theorem sameOrigin_hosts (h : sameOrigin hostOf req = true) : ∃ origin host,
    req.header "origin" = some origin ∧ hostOf origin = some host ∧
      req.header "host" = some host := by
  unfold sameOrigin at h
  split at h
  · cases h
  · next host hhost =>
      rcases Option.bind_eq_some_iff.mp (Option.filter_eq_some_iff.mp hhost).1 with
        ⟨origin, horigin, hof⟩
      exact ⟨origin, host, (Option.filter_eq_some_iff.mp horigin).1, hof, of_decide_eq_true h⟩

/-- The URL parser finds the segments that were checked and the query of the
    request. -/
theorem parseUrl_forwarded {authority : List UInt8} (hbase : IsOrigin (upstreamBase env) authority)
    (h : forward hostOf env req = .ok f) :
    parseUrl f.target = some
      { authority := authority
        path := req.path.map encodeURIComponent
        query := search req } := by
  rcases forward_eq_ok h with ⟨hsegments, hallowed, -, rfl⟩
  have hne := path_ne_nil hallowed
  have hquery : ∀ b ∈ (search req).getD [], b ≠ 35 := by
    intro b hb
    unfold search at hb
    cases hq : req.query.filter (· ≠ []) with
    | none =>
        rw [hq] at hb
        cases hb
    | some query =>
        rw [hq] at hb
        refine req.noFragment b ?_
        rw [(Option.filter_eq_some_iff.mp hq).1]
        exact hb
  have hparse := parse_written hbase.2 hne
    (fun segment hmem => ⟨(hsegments segment hmem).2.1, (hsegments segment hmem).1⟩) hquery
  show parseUrl (target env req) = _
  rw [target, ← writePath_eq hne, List.append_assoc, ← hparse]
  rcases hbase.1 with hscheme | hscheme
  · rw [hscheme, List.append_assoc]
    exact parseUrl_http _
  · rw [hscheme, List.append_assoc]
    exact parseUrl_https _

/-- The path that is decoded is the one of the allow list. -/
theorem requestPath_forwarded {authority : List UInt8}
    (hbase : IsOrigin (upstreamBase env) authority) (h : forward hostOf env req = .ok f) :
    (parseUrl f.target).map requestPath = some ("/" ++ joined req.path) ∧
      allowed (joined req.path) = true := by
  have hallowed := (forward_eq_ok h).2.1
  refine ⟨?_, hallowed⟩
  rw [parseUrl_forwarded hbase h, Option.map_some, requestPath_written rfl,
    flatMap_slash (path_ne_nil hallowed)]
  refine congrArg some (String.toList_injective ?_)
  rw [String.toList_ofList, String.toList_append]
  rfl

/-- What the API is asked for: the URL parser finds the segments that were checked
    and the query of the request, and the decoded path is the one of the allow
    list. A `POST` comes from the dashboard's own pages, and of the headers of the
    request no others than these three are sent along. -/
theorem forwarded_path_is_the_checked_one {authority : List UInt8}
    (hbase : IsOrigin (upstreamBase env) authority) (h : forward hostOf env req = .ok f) :
    parseUrl f.target = some
        { authority := authority
          path := req.path.map encodeURIComponent
          query := search req } ∧
      (parseUrl f.target).map requestPath = some ("/" ++ joined req.path) ∧
      allowed (joined req.path) = true ∧
      (f.method = .post → ∃ origin host, req.header "origin" = some origin ∧
        hostOf origin = some host ∧ req.header "host" = some host) ∧
      ∀ nv ∈ f.headers, nv.1 ∈ ["accept", "content-type", "x-request-id", "x-api-key"] ∧
        (nv.1 = "x-api-key" → truthy env.mmrApiKey = some nv.2) := by
  rcases requestPath_forwarded hbase h with ⟨hpath, hallowed⟩
  refine ⟨parseUrl_forwarded hbase h, hpath, hallowed, ?_⟩
  rcases forward_eq_ok h with ⟨-, -, horigin, rfl⟩
  exact ⟨fun hpost => sameOrigin_hosts (horigin hpost), fun nv hnv => mem_forwardedHeaders hnv⟩

end Forwarded

/-! ### The middleware of the API -/

section Middleware

open Access

/-- `request.url.path`: the path of the scope, behind scheme and host, as
    `urlsplit` takes it out again. -/
def starlettePath (path : String) : String :=
  String.ofList ((path.toList.filter fun c => c ≠ '\t' ∧ c ≠ '\n' ∧ c ≠ '\r').takeWhile
    fun c => c ≠ '?' ∧ c ≠ '#')

/-- Only slashes are cut off. -/
theorem normalised_append (path : String) :
    normalised path = "/" ∨ ∃ slashes, path.toList = (normalised path).toList ++ slashes := by
  unfold normalised
  by_cases hempty : String.ofList (path.toList.reverse.dropWhile (· = '/')).reverse = ""
  · exact Or.inl (if_pos hempty)
  · refine Or.inr ⟨(path.toList.reverse.takeWhile (· = '/')).reverse, ?_⟩
    simp only [if_neg hempty, String.toList_ofList]
    rw [← List.reverse_append, List.takeWhile_append_dropWhile, List.reverse_reverse]

/-- What `urlsplit` neither takes out nor cuts at. -/
def isPathChar (c : Char) : Bool := c ≠ '\t' ∧ c ≠ '\n' ∧ c ≠ '\r' ∧ c ≠ '?' ∧ c ≠ '#'

/-- What `urlsplit` leaves of a path keeps a beginning of such characters. -/
theorem starlettePath_append {path : String} {start rest : List Char}
    (h : path.toList = start ++ rest) (hstart : ∀ c ∈ start, isPathChar c = true) :
    ∃ rest', (starlettePath path).toList = start ++ rest' := by
  have hfilter : start.filter (fun c => c ≠ '\t' ∧ c ≠ '\n' ∧ c ≠ '\r') = start := by
    refine List.filter_eq_self.mpr fun c hc => ?_
    rcases of_decide_eq_true (hstart c hc) with ⟨htab, hline, hreturn, -, -⟩
    exact decide_eq_true ⟨htab, hline, hreturn⟩
  have htake : ∀ c ∈ start, decide (c ≠ '?' ∧ c ≠ '#') = true := fun c hc =>
    decide_eq_true (of_decide_eq_true (hstart c hc)).2.2.2
  refine ⟨(rest.filter fun c => c ≠ '\t' ∧ c ≠ '\n' ∧ c ≠ '\r').takeWhile
    fun c => c ≠ '?' ∧ c ≠ '#', ?_⟩
  rw [starlettePath, String.toList_ofList, h, List.filter_append, hfilter,
    List.takeWhile_append_of_pos htake]

/-- A path that begins like those of the allow list and reads as a public one is
    that of a health check: the others differ in the first five characters. -/
theorem health_of_prefix {path : String} {environment : Environment} {p : String}
    (hp : p ∈ allowedPrefixes) {rest : List Char}
    (h : path.toList = '/' :: p.toList ++ rest) (hpublic : isPublicPath path environment = true) :
    normalised path ∈ ["/health", "/health/ready"] := by
  have hlisted : normalised path ∈ publicPaths ++ docsPaths := by
    unfold isPublicPath at hpublic
    rw [List.mem_append]
    rcases Bool.or_eq_true_iff.mp hpublic with hmem | hmem
    · exact Or.inl (of_decide_eq_true hmem)
    · exact Or.inr (of_decide_eq_true (Bool.and_eq_true_iff.mp hmem).2)
  have hfive : ∀ q ∈ publicPaths ++ docsPaths, ∀ p ∈ allowedPrefixes,
      q.toList.take 5 = ('/' :: p.toList).take 5 → q ∈ ["/health", "/health/ready"] := by
    decide
  have hlong : ∀ q ∈ publicPaths ++ docsPaths, q ≠ "/" ∧ 5 ≤ q.toList.length := by
    decide
  have hlong' : ∀ p ∈ allowedPrefixes, 5 ≤ ('/' :: p.toList).length := by decide
  rcases normalised_append path with hroot | ⟨slashes, hslashes⟩
  · exact absurd hroot (hlong _ hlisted).1
  · have htake := congrArg (List.take 5) (hslashes.symm.trans h)
    rw [List.take_append_of_le_length (hlong _ hlisted).2,
      List.take_append_of_le_length (hlong' p hp)] at htake
    exact hfive _ hlisted p hp htake

/-- Of the paths that need no key the proxy reaches those of the health checks. -/
theorem public_through_proxy {path : List String} (hallowed : allowed (joined path) = true)
    {environment : Environment}
    (hpublic : isPublicPath (starlettePath ("/" ++ joined path)) environment = true) :
    normalised (starlettePath ("/" ++ joined path)) ∈ ["/health", "/health/ready"] := by
  unfold allowed at hallowed
  rcases Bool.or_eq_true_iff.mp hallowed with hexact | hprefix
  · have hthree : ∀ text ∈ allowedExact,
        normalised (starlettePath ("/" ++ text)) ∈ ["/health", "/health/ready"] ∨
          normalised (starlettePath ("/" ++ text)) ∉ publicPaths ++ docsPaths := by
      decide
    rcases hthree _ (of_decide_eq_true hexact) with hhealth | hnot
    · exact hhealth
    · unfold isPublicPath at hpublic
      rcases Bool.or_eq_true_iff.mp hpublic with hmem | hmem
      · exact absurd (List.mem_append_left _ (of_decide_eq_true hmem)) hnot
      · exact absurd (List.mem_append_right _
          (of_decide_eq_true (Bool.and_eq_true_iff.mp hmem).2)) hnot
  · rcases List.any_eq_true.mp hprefix with ⟨p, hp, hstart⟩
    rcases List.isPrefixOf_iff_prefix.mp hstart with ⟨rest, hrest⟩
    have hplain : (allowedPrefixes.all fun p => ('/' :: p.toList).all isPathChar) = true := by
      decide
    have htext : ("/" ++ joined path).toList = '/' :: p.toList ++ rest := by
      rw [String.toList_append, ← hrest]
      rfl
    rcases starlettePath_append htext (List.all_eq_true.mp (List.all_eq_true.mp hplain p hp)) with
      ⟨rest', hrest'⟩
    exact health_of_prefix hp hrest' hpublic

/-- The key sent along is that of the server. -/
theorem lookup_forwardedHeaders (env : Env) (req : Request) :
    (forwardedHeaders env req).lookup "x-api-key" = truthy env.mmrApiKey := by
  unfold forwardedHeaders
  rcases truthy (req.header "content-type") with _ | kind <;>
    rcases truthy (req.header "x-request-id") with _ | id <;>
    rcases truthy env.mmrApiKey with _ | key <;> rfl

/-- A request as the API gets it from the proxy. -/
structure SeenAs {Op : Type} (f : Fetch) (request : Access.Request Op) : Prop where
  method : request.method = f.method.name
  urlPath : (parseUrl f.target).map (fun url => starlettePath (requestPath url))
    = some request.urlPath
  apiKey : request.apiKey = f.headers.lookup "x-api-key"

variable [Webhooks.DoorLibrary] {hostOf : String → Option String} {env : Env} {req : Request}
  {f : Fetch}

/-- A request that was asked for a key has a role. -/
theorem role_of_dispatch {Op : Type} {settings : Settings} {fault : KeyFault} {dbNow now : ℤ}
    {request : Access.Request Op} {keys keys' : KeyTable} {state : RequestState}
    (hmethod : request.method ≠ "OPTIONS")
    (hpublic : ¬isPublicPath request.urlPath settings.environment = true)
    (h : dispatch settings fault dbNow now request keys = (keys', .ok state)) :
    state.apiRole ≠ none := by
  unfold dispatch at h
  rw [if_neg hmethod, if_neg hpublic] at h
  split at h
  · by_cases hdisabled : settings.apiAuthDisabled = true
    · rw [if_pos hdisabled] at h
      rw [← Except.ok.inj (Prod.mk.inj h).2]
      exact Option.some_ne_none _
    · rw [if_neg hdisabled] at h
      cases (Prod.mk.inj h).2
  · cases fault with
    | lost => cases (Prod.mk.inj h).2
    | answerLost => cases (Prod.mk.inj h).2
    | none =>
        have hresult := (Prod.mk.inj h).2
        split at hresult
        · cases hresult
        · next row _ =>
            split at hresult
            · cases hresult
            · split at hresult
              · cases hresult
              · rw [← Except.ok.inj hresult]
                exact Option.some_ne_none _

/-- Who the API takes a proxied request for, whatever the browser has sent: nobody,
    and then it is for a health check; where authentication is disabled, the
    analyst of development; or the holder of the server's key, active and not
    expired. -/
theorem proxied_request_needs_the_server_key {Op : Type} {settings : Settings} {fault : KeyFault}
    {dbNow now : ℤ} {request : Access.Request Op} {keys keys' : KeyTable} {state : RequestState}
    {authority : List UInt8} (hbase : IsOrigin (upstreamBase env) authority)
    (h : forward hostOf env req = .ok f) (hseen : SeenAs f request)
    (hdispatch : dispatch settings fault dbNow now request keys = (keys', .ok state)) :
    (state = {} ∧ normalised request.urlPath ∈ ["/health", "/health/ready"]) ∨
      (settings.environment = .development ∧ settings.apiAuthDisabled = true ∧
        state = devState) ∨
      ∃ key row, truthy env.mmrApiKey = some key ∧ keys'.find? (hashApiKey key) = some row ∧
        row.isActive = true ∧ row.expired now = false ∧ state = row.state := by
  have htarget := parseUrl_forwarded hbase h
  rcases requestPath_forwarded hbase h with ⟨hpath, hallowed⟩
  have hurl : request.urlPath = starlettePath ("/" ++ joined req.path) := by
    have hseenPath := hseen.urlPath
    rw [htarget] at hpath hseenPath
    rw [← Option.some.inj hpath]
    exact (Option.some.inj hseenPath).symm
  have hmethod : request.method ≠ "OPTIONS" := by
    rw [hseen.method]
    cases f.method with
    | get => decide
    | head => decide
    | post => decide
  have hkey : request.apiKey = truthy env.mmrApiKey := by
    rw [hseen.apiKey, (forward_eq_ok h).2.2.2]
    exact lookup_forwardedHeaders env req
  rcases dispatch_ok hdispatch with hempty | hdev | ⟨g, hg, hvalid, hstate⟩
  · refine Or.inl ⟨hempty, ?_⟩
    by_cases hpublic : isPublicPath request.urlPath settings.environment = true
    · rw [hurl] at hpublic ⊢
      exact public_through_proxy hallowed hpublic
    · -- It was asked for a key, so it would have a role.
      have hrole := role_of_dispatch hmethod hpublic hdispatch
      rw [hempty] at hrole
      exact absurd rfl hrole
  · exact Or.inr (Or.inl hdev)
  · rcases grantOf_eq_some hg with ⟨key, hpresented, hrow, hnow⟩
    rw [hkey] at hpresented
    have hexpired := hvalid.2
    rw [hnow] at hexpired
    exact Or.inr (Or.inr ⟨key, g.row, hpresented, hrow, hvalid.1, hexpired, hstate⟩)

end Middleware

/-! ### A discrepancy is resolved -/

section Exhibit

open Access

/-- The server, with the key that was issued to it. -/
def serverEnv : Env where
  mmrApiUrl := some "http://api:8000/"
  mmrApiKey := some "mmr_example"

/-- A page of the dashboard resolves a discrepancy, and sends a key of its own. -/
def resolveFromPage : Request where
  path := ["v1", "reconciliation", "discrepancies", "0", "resolve"]
  method := .post
  query := some []
  header name :=
    ([("origin", "http://dashboard:3000"), ("host", "dashboard:3000"),
      ("x-api-key", "mmr_stolen")] : List (String × String)).lookup name
  body := []
  noFragment := by
    intro b hb
    cases hb

/-- The host behind `http://`. -/
def hostBehindScheme (origin : String) : Option String :=
  if "http://".toList.isPrefixOf origin.toList then some (String.ofList (origin.toList.drop 7))
  else none

theorem isOrigin_server : IsOrigin (upstreamBase serverEnv) (Utf8.encode "api:8000".toList) :=
  ⟨Or.inl (by decide), by decide +kernel⟩

theorem forward_resolve : forward hostBehindScheme serverEnv resolveFromPage = .ok
    { target := target serverEnv resolveFromPage
      method := .post
      headers := [("accept", "application/json"), ("x-api-key", "mmr_example")]
      body := some [] } := by
  have hpath : (resolveFromPage.path.any fun segment =>
      segment = ".." || segment = "." || segment = "") = false := by decide
  have hallowed : allowed (joined resolveFromPage.path) = true := by decide
  have horigin : sameOrigin hostBehindScheme resolveFromPage = true := by decide
  rw [forward, hpath, hallowed, horigin]
  rfl

theorem forwarded_path_is_the_checked_one_resolve :
    (parseUrl (target serverEnv resolveFromPage)).map requestPath
      = some "/v1/reconciliation/discrepancies/0/resolve" := by
  have h := (forwarded_path_is_the_checked_one isOrigin_server forward_resolve).2.1
  rw [show "/" ++ joined resolveFromPage.path = "/v1/reconciliation/discrepancies/0/resolve" by
    decide] at h
  exact h

/-- The request as the API gets it. -/
def proxiedResolve : Access.Request Operation :=
  { resolveRequest with clientHost := some "10.0.0.2" }

theorem proxied_request_needs_the_server_key_resolve : letI := exhibitLibrary
    ∃ key row, truthy serverEnv.mmrApiKey = some key ∧
      (touch (hashApiKey "mmr_example") 7 exhibitKeys).find? (hashApiKey key) = some row ∧
      row.isActive = true ∧ writeKey.state = row.state := by
  let lib := exhibitLibrary
  have hseen : SeenAs { target := target serverEnv resolveFromPage
                        method := .post
                        headers := [("accept", "application/json"), ("x-api-key", "mmr_example")]
                        body := some [] } proxiedResolve :=
    { method := rfl
      urlPath := by decide
      apiKey := by decide }
  have hdispatch : dispatch exhibitSettings .none 7 8 proxiedResolve exhibitKeys
      = (touch (hashApiKey "mmr_example") 7 exhibitKeys, .ok writeKey.state) := rfl
  rcases proxied_request_needs_the_server_key isOrigin_server forward_resolve hseen hdispatch with
    ⟨hempty, _⟩ | ⟨_, hdisabled, _⟩ | ⟨key, row, hkey, hrow, hactive, _, hstate⟩
  · cases hempty
  · cases hdisabled
  · exact ⟨key, row, hkey, hrow, hactive, hstate⟩

end Exhibit

end Proxy

end MmrEngine
