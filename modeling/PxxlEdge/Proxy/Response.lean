import PxxlEdge.Proxy.Headers

/-!
Responses: the proxy's own answers with their error reasons, and what is done to
the headers and the body of an upstream's answer on its way to the client.

* `refuseWith_events`, `refuseDiagnostic_events`: an answer of the proxy's own sends
  nothing to an upstream.
-/

namespace PxxlEdge

open RustStd Http Handlers

/-! ### Reasons -/

inductive ProxyErrorReason where
  | routeNotRegistered
  | routeHasNoUpstreams
  | allUpstreamsUnhealthy
  | circuitBreakerOpen
  | upstreamDnsResolutionFailed
  | upstreamConnectionRefused
  | upstreamConnectionTimeout
  | upstreamPortIncorrect
  | upstreamPortNotListening
  | upstreamConfigurationInvalid
  | upstreamConnectionFailed
  | proxyInternal
deriving DecidableEq, Repr

namespace ProxyErrorReason

def code : ProxyErrorReason → Text
  | routeNotRegistered => "route_not_registered"
  | routeHasNoUpstreams => "route_has_no_upstreams"
  | allUpstreamsUnhealthy => "all_upstreams_unhealthy"
  | circuitBreakerOpen => "circuit_breaker_open"
  | upstreamDnsResolutionFailed => "upstream_dns_resolution_failed"
  | upstreamConnectionRefused => "upstream_connection_refused"
  | upstreamConnectionTimeout => "upstream_connection_timeout"
  | upstreamPortIncorrect => "upstream_port_incorrect"
  | upstreamPortNotListening => "upstream_port_not_listening"
  | upstreamConfigurationInvalid => "upstream_configuration_invalid"
  | upstreamConnectionFailed => "upstream_connection_failed"
  | proxyInternal => "proxy_internal_error"

def publicMessage : ProxyErrorReason → Text
  | routeNotRegistered =>
    "No route is registered for this domain yet. " ++
      "The deployment may still be connecting to the proxy."
  | routeHasNoUpstreams =>
    "This domain is registered, but it does not have a runtime container target yet."
  | allUpstreamsUnhealthy =>
    "The deployment and route exist, but no registered runtime replica is " ++
      "currently healthy. " ++
      "Pxxl will resume traffic when a healthy replica is available."
  | circuitBreakerOpen =>
    "The app route exists, but recent upstream failures temporarily opened " ++
      "the protection circuit."
  | upstreamDnsResolutionFailed =>
    "The route exists, but its runtime service name could not be resolved. " ++
      "Pxxl is retrying service discovery."
  | upstreamConnectionRefused =>
    "The route exists, but the runtime refused the connection. " ++
      "The app may still be starting or may only be bound to localhost."
  | upstreamConnectionTimeout =>
    "The route exists, but the runtime did not accept a connection before " ++
      "the timeout. The app or runtime network may be unavailable."
  | upstreamPortIncorrect =>
    "The deployment exists, but its registered runtime port does not match " ++
      "the route. Configure the app to listen on the PORT value supplied by Pxxl " ++
      "and bind to 0.0.0.0."
  | upstreamPortNotListening =>
    "The deployment exists, but nothing is listening on its registered runtime " ++
      "port. Make sure the app uses the PORT value supplied by Pxxl " ++
      "and binds to 0.0.0.0."
  | upstreamConfigurationInvalid =>
    "The route exists, but its runtime target is invalid. " ++
      "Review the deployment port and protocol, then redeploy the service."
  | upstreamConnectionFailed =>
    "The route exists, but Pxxl could not establish a connection to the " ++
      "runtime. The runtime may be restarting or temporarily unreachable."
  | proxyInternal => "The proxy hit an internal routing error while serving this request."

end ProxyErrorReason

def diagnosticCodes : List (ProxyErrorReason × List Text) :=
  [(.routeNotRegistered,
      ["route_not_registered", "route_missing", "global_route_missing", "domain_mapping_missing"]),
    (.routeHasNoUpstreams,
      ["route_has_no_upstreams", "deployment_mapping_issue", "container_missing",
        "allocated_port_missing", "published_port_missing"]),
    (.allUpstreamsUnhealthy,
      ["all_upstreams_unhealthy", "service_unhealthy", "deployment_unhealthy", "app_crashed"]),
    (.circuitBreakerOpen, ["circuit_breaker_open"]),
    (.upstreamDnsResolutionFailed,
      ["upstream_dns_resolution_failed", "dns_resolution_failed", "dns_error"]),
    (.upstreamConnectionRefused, ["upstream_connection_refused", "connection_refused"]),
    (.upstreamConnectionTimeout,
      ["upstream_connection_timeout", "connection_timeout", "upstream_timeout"]),
    (.upstreamPortIncorrect,
      ["upstream_port_incorrect", "incorrect_port", "wrong_port", "port_mismatch",
        "allocated_port_wrong"]),
    (.upstreamPortNotListening, ["upstream_port_not_listening", "no_listener"]),
    (.upstreamConfigurationInvalid, ["upstream_configuration_invalid", "stale_route_target"]),
    (.upstreamConnectionFailed, ["upstream_connection_failed", "upstream_tcp_unreachable"])]

def runtimeDiagnosticReason (value : Option Text) : Option ProxyErrorReason := do
  let value ← value
  let code := value.trim.toAsciiLowercase
  (diagnosticCodes.find? fun e => e.2.contains code).map Prod.fst

lemma runtimeDiagnosticReason_code (r : ProxyErrorReason) (h : r ≠ .proxyInternal) :
    runtimeDiagnosticReason (some r.code) = some r := by
  -- all reasons in one evaluation, which decodes the texts of the table once
  have hall : ((diagnosticCodes.map Prod.fst).all fun r =>
      runtimeDiagnosticReason (some r.code) == some r) = true := by
    decide
  have hmem : (diagnosticCodes.map Prod.fst).contains r = true := by
    cases r <;> first | exact absurd rfl h | rfl
  exact beq_iff_eq.1 (List.all_eq_true.1 hall r (List.contains_iff_mem.1 hmem))

def upstreamFailureReason : PxxlError → ProxyErrorReason
  | .upstreamDnsResolutionFailed _ => .upstreamDnsResolutionFailed
  | .upstreamConnectionRefused _ => .upstreamConnectionRefused
  | .upstreamConnectionTimeout _ => .upstreamConnectionTimeout
  | .upstreamConnectionFailed _ => .upstreamConnectionFailed
  | .invalidUpstream _ => .upstreamConfigurationInvalid
  | _ => .proxyInternal

/-! ### The proxy's own answers -/

def statusFromU16 (n : ℕ) : Option ℕ := if 100 ≤ n ∧ n ≤ 999 then some n else none

def isServerError (status : ℕ) : Bool := 500 ≤ status && status ≤ 599

def isClientError (status : ℕ) : Bool := 400 ≤ status && status ≤ 499

def isSuccess (status : ℕ) : Bool := 200 ≤ status && status ≤ 299

def insertStaticHeader (headers : HeaderMap) (name value : Text) : HeaderMap :=
  headers.insert name (.fromStatic value)

def insertStaticHeaderIfAbsent (headers : HeaderMap) (name value : Text) : HeaderMap :=
  if headers.containsKey name then headers else insertStaticHeader headers name value

def responseWithBody (status : ℕ) (contentType : Text) (body : Body) : Response where
  status
  headers :=
    ⟨[(Header.contentType, .fromStatic contentType),
      ("cache-control", .fromStatic "no-store"),
      ("x-content-type-options", .fromStatic "nosniff")]⟩
  body

def textResponse (status : ℕ) (message : Text) : Response :=
  responseWithBody status "text/plain; charset=utf-8" (.text message)

def Response.mapHeaders (r : Response) (f : HeaderMap → HeaderMap) : Response :=
  { r with headers := f r.headers }

section Answers

variable {G : Grammar} (W : World G)

def Response.insertText (r : Response) (name value : Text) : Response :=
  r.mapHeaders fun h => PxxlEdge.insertText G h name value

def errorBody (status : ℕ) (message reasonCode domain path : Text) : Response :=
  if W.errorPagesEnabled then
    responseWithBody status "text/html; charset=utf-8"
      (.page
        { status, message, reasonCode, domain, path
          requestId := W.requestId
          processingTimeMs := W.elapsedMicros / 1000 })
  else textResponse status message

def errorResponse (status : ℕ) (message domain path : Text) : Response :=
  errorBody W status message "proxy_error" domain path

def responseWithReasonCode (status : ℕ) (reason : ProxyErrorReason) (domain path : Text) :
    Response :=
  (errorBody W status reason.publicMessage reason.code domain path).insertText (G := G)
    "x-pxxl-error-code" reason.code

def bandwidthExceededResponse (status : ℕ) (domain path : Text)
    (bytesUsed bytesLimit resetDay : ℕ) :
    Response :=
  responseWithBody status "text/html; charset=utf-8"
    (.bandwidthPage
      { status, domain, path
        requestId := W.requestId
        processingTimeMs := W.elapsedMicros / 1000
        bytesUsed, bytesLimit, resetDay })

def attachRequestIdHeader (r : Response) : Response :=
  r.insertText (G := G) Header.requestId W.requestId

def answer {α : Type} (r : Response) : ProxyM G α := Handler.exit (attachRequestIdHeader W r)

def observeRequest (ctx : ProxyRequestContext) (status : ℕ) (upstream : Option Text)
    (bytesSent bytesReceived : ℕ) : ProxyM G Unit :=
  Handler.emit (.observed
    { context := ctx, status, latencyMs := W.elapsedMicros / 1000, upstream, bytesSent,
      bytesReceived })

def refuseWith {α : Type} (ctx : ProxyRequestContext) (r : Response) : ProxyM G α := do
  observeRequest W ctx r.status none 0 0
  answer W r

def refuse {α : Type} (ctx : ProxyRequestContext) (status : ℕ) (message : Text) : ProxyM G α :=
  refuseWith W ctx (errorResponse W status message ctx.domain ctx.path)

def fetchRuntimeDiagnostic (domain path : Text) : ProxyM G (Option Text) :=
  if W.diagnosticsEnabled then do
    Handler.emit (.diagnosticsRequest domain path)
    return W.diagnosticCode domain path
  else return none

def diagnosticErrorResponse (status : ℕ) (reason : ProxyErrorReason) (domain path : Text) :
    ProxyM G Response := do
  let diagnostic ← fetchRuntimeDiagnostic W domain path
  let reason := (runtimeDiagnosticReason diagnostic).getD reason
  return responseWithReasonCode W status reason domain "/"

def refuseDiagnostic {α : Type} (ctx : ProxyRequestContext) (status : ℕ)
    (reason : ProxyErrorReason) (upstream : Option Text) : ProxyM G α := do
  observeRequest W ctx status upstream 0 0
  let r ← diagnosticErrorResponse W status reason ctx.domain ctx.path
  answer W r

/-! ### Answers send nothing to upstreams -/

variable {W} {φ : Event G → Prop} {s : EdgeState} {ctx : ProxyRequestContext}

def Event.Bookkeeping : Event G → Prop
  | .diagnosticsRequest _ _ => True
  | .observed _ => True
  | .recoveryTimer _ _ => True
  | _ => False

lemma refuseWith_events {α : Type} (hφ : ∀ e : Event G, e.Bookkeeping → φ e) (r : Response) :
    AllEvents φ (refuseWith (α := α) W ctx r) s :=
  .bind (.emit (hφ _ trivial)) fun _ _ => .exit _

lemma refuseWith_returns {α : Type} {P : α → EdgeState → Prop} (r : Response) :
    Returns P (refuseWith W ctx r) s :=
  .bind (P := fun _ _ => True) (.emit trivial) fun _ _ _ => .exit _

section Diagnostic

variable {allowed : EdgeState → EdgeState → Prop}
  {Φ : (α : Type) → ProxyM G α → EdgeState → Prop}

lemma diagnosticErrorResponse_composes (h : Composes allowed Φ)
    (hasks : ∀ domain path, Φ Unit (Handler.emit (.diagnosticsRequest domain path)) s)
    (status : ℕ) (reason : ProxyErrorReason) (domain path : Text) :
    Φ Response (diagnosticErrorResponse W status reason domain path) s := by
  refine h.bind ?_ fun _ _ => h.pure _ _
  rw [fetchRuntimeDiagnostic]
  split
  · exact h.bind (hasks _ _) fun _ _ => h.pure _ _
  · exact h.pure _ _

end Diagnostic

lemma refuseDiagnostic_events {α : Type} (hφ : ∀ e : Event G, e.Bookkeeping → φ e) (status : ℕ)
    (reason : ProxyErrorReason) (upstream : Option Text) :
    AllEvents φ (refuseDiagnostic (α := α) W ctx status reason upstream) s :=
  .bind (.emit (hφ _ trivial)) fun _ _ =>
    .bind (diagnosticErrorResponse_composes AllEvents.composes
      (fun _ _ => .emit (hφ _ trivial)) _ _ _ _) fun _ _ => .exit _

lemma refuseDiagnostic_returns {α : Type} {P : α → EdgeState → Prop} (status : ℕ)
    (reason : ProxyErrorReason) (upstream : Option Text) :
    Returns P (refuseDiagnostic W ctx status reason upstream) s :=
  .bind (P := fun _ _ => True) (.emit trivial) fun _ _ _ =>
    .bind (P := fun _ _ => True) (fun _ _ => trivial) fun _ _ _ => .exit _

/-! ### Refusals for the length -/

def tooLargeMessage : Text := "request body is too large"

def Body.message : Body → Option Text
  | .text message => some message
  | .page p => some p.message
  | .bandwidthPage _ => none
  | .bytes _ => none
  | .stream _ _ => none

def TooLarge (r : Response) : Prop := r.status = 413 ∧ r.body.message = some tooLargeMessage

variable (W) in
lemma tooLarge_errorBody_iff {status : ℕ} {message reasonCode domain path : Text} :
    TooLarge (errorBody W status message reasonCode domain path) ↔
      status = 413 ∧ message = tooLargeMessage := by
  rw [errorBody]
  split
  · simp [TooLarge, responseWithBody, Body.message]
  · simp [TooLarge, textResponse, responseWithBody, Body.message]

lemma not_tooLarge_insertText {status : ℕ} {message domain path name value : Text}
    (h : status ≠ 413) :
    ¬ TooLarge ((errorResponse W status message domain path).insertText (G := G) name value) :=
  fun hlarge => h ((tooLarge_errorBody_iff W).mp hlarge).1

/-! ### Properties of all stages -/

def SameCounters (s s' : EdgeState) : Prop :=
  s'.policy.inFlightLimits = s.policy.inFlightLimits ∧ s'.loadBalancer = s.loadBalancer

structure StageProperty (W : World G) (ctx : ProxyRequestContext)
    (allowed : EdgeState → EdgeState → Prop)
    (Φ : (α : Type) → ProxyM G α → EdgeState → Prop) : Prop extends Composes allowed Φ where
  counters : ∀ {s s' : EdgeState}, SameCounters s s' → allowed s s'
  refuseWith : ∀ {α : Type} {r : Response} {s : EdgeState}, ¬ TooLarge r →
    Φ α (refuseWith W ctx r) s
  refuseDiagnostic : ∀ {α : Type} {status : ℕ} {reason : ProxyErrorReason}
    {upstream : Option Text} {s : EdgeState}, status ≠ 413 →
    Φ α (refuseDiagnostic W ctx status reason upstream) s

lemma StageProperty.refuse {allowed : EdgeState → EdgeState → Prop}
    {Φ : (α : Type) → ProxyM G α → EdgeState → Prop} (h : StageProperty W ctx allowed Φ) {α : Type}
    {status : ℕ} {message : Text} (hstatus : status ≠ 413) :
    Φ α (refuse W ctx status message) s :=
  h.refuseWith fun hlarge => hstatus ((tooLarge_errorBody_iff W).mp hlarge).1

lemma stageProperty_events (hφ : ∀ e : Event G, e.Bookkeeping → φ e) :
    StageProperty W ctx (fun _ _ => True) fun _ x s => AllEvents φ x s where
  toComposes := AllEvents.composes
  counters _ := trivial
  refuseWith _ := refuseWith_events hφ _
  refuseDiagnostic _ := refuseDiagnostic_events hφ _ _ _

end Answers

/-! ### Answers of upstreams -/

section Upstreams

variable (G : Grammar)

def corsOriginAllowed (origin : HeaderValue) (allowedOrigins : List Text) : Bool :=
  match G.toStr origin with
  | none => false
  | some origin =>
    allowedOrigins.any fun allowed => allowed == "*" || allowed.eqIgnoreAsciiCase origin

def contentSecurityPolicy : Text :=
  "default-src 'self'; base-uri 'self'; object-src 'none'; frame-ancestors 'none'; " ++
    "script-src 'self' 'unsafe-inline' 'wasm-unsafe-eval' https:; " ++
    "style-src 'self' 'unsafe-inline'; img-src 'self' data: blob: https:; " ++
    "font-src 'self' data:; connect-src 'self' data: https: wss:; " ++
    "frame-src 'self' https:; upgrade-insecure-requests"

def addSecurityHeaders (headers : HeaderMap) : HeaderMap :=
  let headers := insertStaticHeader headers "strict-transport-security"
    "max-age=31536000; includeSubDomains; preload"
  let headers := insertStaticHeader headers "cross-origin-opener-policy" "same-origin-allow-popups"
  let headers := insertStaticHeader headers "x-frame-options" "DENY"
  let headers := insertStaticHeader headers "x-content-type-options" "nosniff"
  let headers := insertStaticHeader headers "referrer-policy" "origin-when-cross-origin"
  let headers := insertStaticHeaderIfAbsent headers "permissions-policy"
    "camera=(), microphone=(), geolocation=()"
  insertStaticHeader headers "content-security-policy" contentSecurityPolicy

def insertJoined (headers : HeaderMap) (name : Text) (values : List Text) : HeaderMap :=
  if values = [] then headers else insertText G headers name (List.intercalate ", " values)

def applyCors (headers : HeaderMap) (rules : DomainRules) (requestOrigin : Option HeaderValue) :
    HeaderMap :=
  match requestOrigin with
  | some origin =>
    if corsOriginAllowed G origin rules.corsAllowedOrigins then
      let headers := headers.insert "access-control-allow-origin" origin
      let headers := insertStaticHeader headers "vary" "origin"
      let headers :=
        if rules.corsAllowCredentials then
          insertStaticHeader headers "access-control-allow-credentials" "true"
        else headers
      let headers :=
        insertJoined G headers "access-control-allow-methods" rules.corsAllowedMethods
      insertJoined G headers "access-control-allow-headers" rules.corsAllowedHeaders
    else headers
  | none =>
    if rules.corsAllowedOrigins.any fun origin => origin == "*" then
      insertStaticHeader headers "access-control-allow-origin" "*"
    else headers

def applyResponseRules (headers : HeaderMap) (rules : DomainRules)
    (requestOrigin : Option HeaderValue) : HeaderMap :=
  let headers := if rules.addSecurityHeaders then addSecurityHeaders headers else headers
  applyCors G (headers.insertAll (legalHeaders G rules.responseHeaders)) rules requestOrigin

def pathWithoutQuery (path : Text) : Text := (path.splitOn '?').head?.getD path

def isStaticAssetPath (path : Text) : Bool :=
  let lower := (pathWithoutQuery path).toAsciiLowercase
  (["/assets/", "/fonts/", "/generated/website-assets/", "/_build/"].any fun front =>
      lower.startsWith front.toList) ||
    [".avif", ".webp", ".png", ".jpg", ".jpeg", ".svg", ".gif", ".ico", ".css", ".js", ".mjs",
      ".woff", ".woff2", ".ttf", ".otf", ".wasm", ".map"].any fun suffix =>
        lower.endsWith suffix.toList

def isHtmlDocumentPath (path : Text) : Bool :=
  let clean := pathWithoutQuery path
  clean == "/" || clean.endsWith ".html" ||
    (!clean.startsWith "/api/" && !List.contains clean '.')

def applyDefaultCacheHeaders (headers : HeaderMap) (path : Text) : HeaderMap :=
  if isStaticAssetPath path then
    insertStaticHeader
      (insertStaticHeader headers "cache-control" "public, max-age=31536000, immutable")
      "expires" "Thu, 31 Dec 2037 23:55:55 GMT"
  else if isHtmlDocumentPath path then insertStaticHeader headers "cache-control" "no-cache"
  else headers

structure BufferedResponse where
  status : ℕ
  headers : HeaderMap
  body : List UInt8
deriving DecidableEq, Repr

def responseIsCompressible (headers : HeaderMap) (compression : CompressionConfig) : Bool :=
  match headerText G headers Header.contentType with
  | none => true
  | some contentType =>
    if compression.contentTypes ≠ [] then
      compression.contentTypes.any fun expected => contentTypeMatches contentType expected
    else
      contentType.startsWith "text/" || contentTypeMatches contentType "application/json" ||
        contentTypeMatches contentType "application/javascript" ||
        contentTypeMatches contentType "image/svg+xml"

def acceptsGzip (value : Option HeaderValue) : Bool :=
  (value.bind G.toStr).any fun value =>
    (value.splitOn ',').any fun part => (Text.trim part).startsWith "gzip"

variable {G}

def applyResponseMiddleware (W : World G) (r : BufferedResponse) (middleware : EffectiveMiddleware)
    (gzipAccepted : Bool) : BufferedResponse :=
  let r :=
    if middleware.contentTypeAutodetect.enabled then
      { r with headers := applyContentTypeDetection r.headers [] (some r.body) }
    else r
  if !middleware.compression.enabled || !gzipAccepted ||
      decide (r.body.length < middleware.compression.minBytes) ||
      r.headers.containsKey "content-encoding" ||
      !responseIsCompressible G r.headers middleware.compression then r
  else
    match W.gzip r.body with
    | none => r
    | some body =>
      let headers := insertStaticHeader r.headers "content-encoding" "gzip"
      let headers := headers.remove Header.contentLength
      { r with body, headers := insertStaticHeader headers "vary" "accept-encoding" }

def fnv1a (bytes : List UInt8) : UInt64 :=
  bytes.foldl (fun hash byte => (hash ^^^ byte.toUInt64) * 0x100000001b3) 0xcbf29ce484222325

def stickyUpstreamId (upstream : Text) : Text := Nat.toDigits 16 (fnv1a upstream.asBytes).toNat

def stickyCookie (sticky : StickySessionConfig) (upstream : Upstream) : Text :=
  sticky.cookieName ++ "=".toList ++ stickyUpstreamId upstream.url ++ "; Path=/".toList ++
    (if sticky.httpOnly then "; HttpOnly".toList else []) ++
    (if sticky.secure then "; Secure".toList else []) ++
    (sticky.sameSite.map fun sameSite => "; SameSite=".toList ++ sameSite).getD [] ++
    (sticky.maxAgeSeconds.map fun maxAge => "; Max-Age=".toList ++ Nat.toDigits 10 maxAge).getD []

def applyStickyCookie (G : Grammar) (headers : HeaderMap) (sticky : StickySessionConfig)
    (upstream : Upstream) : HeaderMap :=
  if sticky.enabled then insertText G headers "set-cookie" (stickyCookie sticky upstream)
  else headers

def cookieValue (cookie name : Text) : Option Text :=
  (cookie.splitOn ';').findSome? fun part => do
    let (cookieName, value) ← Text.splitOnce '=' (Text.trim part)
    if cookieName = name then some value else none

def stickyUpstream (G : Grammar) (headers : HeaderMap) (upstreams : List Upstream)
    (sticky : StickySessionConfig) : Option Upstream :=
  if sticky.enabled then do
    let cookie ← headerText G headers Header.cookie
    let wanted ← cookieValue cookie sticky.cookieName
    upstreams.find? fun upstream => stickyUpstreamId upstream.url == wanted
  else none

end Upstreams

end PxxlEdge
