import PxxlEdge.Proxy.Message
import PxxlEdge.Proxy.Middleware

/-!
The headers of a forwarded request, from the client's to the upstream's: the
rules of the route, the trace headers, detection of the content type, removal of
hop-by-hop and forwarding headers, and the headers that forwarding writes.

A header map is observed name by name, so each step has one lemma that gives the
values of every name after it.

* `getAll_applyRequestRules`: a route's own value, else nothing if the route
  strips the name, else the client's values.
* `getAll_stripHopByHop`: names of the fixed list and names that a `Connection`
  header nominates are gone.
* `getAll_insertForwardingHeaders`: the values that forwarding writes last.
-/

namespace PxxlEdge

open RustStd Http HeaderMap

/-! ### Names -/

namespace Header

def acceptEncoding : Text := "accept-encoding"
def authorization : Text := "authorization"
def connection : Text := "connection"
def contentLength : Text := "content-length"
def contentType : Text := "content-type"
def cookie : Text := "cookie"
def host : Text := "host"
def origin : Text := "origin"
def requestId : Text := "x-request-id"
def traceparent : Text := "traceparent"
def upgrade : Text := "upgrade"
def userAgent : Text := "user-agent"
def xForwardedFor : Text := "x-forwarded-for"
def xForwardedHost : Text := "x-forwarded-host"
def xForwardedProto : Text := "x-forwarded-proto"

end Header

def insertText (G : Grammar) (h : HeaderMap) (name value : Text) : HeaderMap :=
  match G.parseValue value with
  | some v => h.insert name v
  | none => h

section Predicates

variable (G : Grammar) (headers : HeaderMap)

def headerText (name : Text) : Option Text := (headers.get name).bind G.toStr

def isWebsocketUpgrade : Bool :=
  ((headerText G headers Header.connection).any fun value =>
      (value.splitOn ',').any fun part => (Text.trim part).eqIgnoreAsciiCase "upgrade") &&
    (headerText G headers Header.upgrade).any fun value => value.eqIgnoreAsciiCase "websocket"

def contentLength : Option ℕ :=
  (headerText G headers Header.contentLength).bind fun value => parseUnsigned 10 64 value

def contentTypeMatches (actual expected : Text) : Bool :=
  (Text.trim ((actual.splitOn ';').head?.getD actual)).eqIgnoreAsciiCase expected.trim

def headerPresent (name : Text) : Bool := (G.parseName name).any headers.containsKey

def headerValue (name : Text) : Option Text := (G.parseName name).bind (headerText G headers)

end Predicates

/-! ### The rules of a route -/

section Rules

variable (G : Grammar)

def legalHeaders (m : Map Text Text) : List (Text × HeaderValue) :=
  m.entries.filterMap fun e => do
    let name ← G.parseName e.1
    let value ← G.parseValue e.2
    return (name, value)

def applyRequestRules (headers : HeaderMap) (rules : DomainRules) : HeaderMap :=
  (headers.removeAll (rules.stripRequestHeaders.filterMap G.parseName)).insertAll
    (legalHeaders G rules.addRequestHeaders)

def DomainRules.addedValue (rules : DomainRules) (n : Text) : Option HeaderValue :=
  HeaderMap.lastValue (legalHeaders G rules.addRequestHeaders) n

def DomainRules.Strips (rules : DomainRules) (n : Text) : Prop :=
  n ∈ rules.stripRequestHeaders.filterMap G.parseName

instance (rules : DomainRules) (n : Text) : Decidable (rules.Strips G n) :=
  inferInstanceAs (Decidable (n ∈ _))

def DomainRules.ruledValues (rules : DomainRules) (h : HeaderMap) (n : Text) : List HeaderValue :=
  (rules.addedValue G n).elim (if rules.Strips G n then [] else h.getAll n) fun v => [v]

lemma getAll_applyRequestRules (h : HeaderMap) (rules : DomainRules) (n : Text) :
    (applyRequestRules G h rules).getAll n = rules.ruledValues G h n := by
  rw [applyRequestRules, getAll_insertAll, getAll_removeAll]
  rfl

end Rules

/-! ### Hop-by-hop headers -/

section Strip

variable (G : Grammar)

def connectionTokens (values : List HeaderValue) : List Text :=
  ((values.filterMap G.toStr).flatMap fun value => (value.splitOn ',').map Text.trim).filter
    fun token => token ≠ []

def nominated (values : List HeaderValue) : List Text :=
  (connectionTokens G values).filterMap G.parseName

def stripHopByHop (names : List Text) (headers : HeaderMap) : HeaderMap :=
  (headers.removeAll (nominated G (headers.getAll Header.connection))).removeAll names

def strippedRequestHeaders : List Text :=
  [Header.connection, Header.host, Header.upgrade, "te", "trailer", "proxy-authorization",
    "proxy-connection", "keep-alive", "transfer-encoding", "forwarded", Header.xForwardedFor,
    Header.xForwardedHost, Header.xForwardedProto, "x-forwarded-prefix", "x-real-ip",
    "x-original-url", "x-rewrite-url", "x-client-ip"]

def stripForwardedRequestHeaders (headers : HeaderMap) : HeaderMap :=
  stripHopByHop G strippedRequestHeaders headers

def strippedResponseHeaders : List Text :=
  [Header.connection, Header.host, Header.upgrade, "te", "trailer", "proxy-authenticate",
    "proxy-authorization", "proxy-connection", "keep-alive", "transfer-encoding"]

def stripHopByHopResponseHeaders (headers : HeaderMap) : HeaderMap :=
  stripHopByHop G strippedResponseHeaders headers

lemma getAll_stripHopByHop (names : List Text) (h : HeaderMap) (n : Text) :
    (stripHopByHop G names h).getAll n =
      if n ∈ names ∨ n ∈ nominated G (h.getAll Header.connection) then [] else h.getAll n := by
  rw [stripHopByHop, getAll_removeAll, getAll_removeAll]
  by_cases hn : n ∈ names <;> simp [hn]

def preserveWebsocketUpgradeHeaders (headers : HeaderMap) : HeaderMap :=
  (headers.insert Header.connection (.fromStatic "Upgrade")).insert Header.upgrade
    (.fromStatic "websocket")

end Strip

/-! ### Trace headers and the content type -/

section Trace

variable {G : Grammar}

def ensureTraceHeaders (W : World G) (headers : HeaderMap) : HeaderMap :=
  let headers :=
    if headers.containsKey Header.traceparent then headers
    else insertText G headers Header.traceparent W.traceparent
  insertText G headers Header.requestId W.requestId

lemma getAll_insertText (h : HeaderMap) (name value n : Text) :
    (insertText G h name value).getAll n =
      if n = name then
        match G.parseValue value with
        | some v => [v]
        | none => h.getAll n
      else h.getAll n := by
  rw [insertText]
  cases G.parseValue value with
  | some v => exact getAll_insert h name n v
  | none => simp

def tracedValues (W : World G) (n : Text) (values : List HeaderValue) : List HeaderValue :=
  if n = Header.requestId then [Text.asBytes W.requestId]
  else if n = Header.traceparent ∧ values = [] then [Text.asBytes W.traceparent]
  else values

lemma getAll_ensureTraceHeaders (W : World G) (h : HeaderMap) (n : Text) :
    (ensureTraceHeaders W h).getAll n = tracedValues W n (h.getAll n) := by
  rw [ensureTraceHeaders, getAll_insertText, G.parseValue_visible W.requestId_visible,
    tracedValues]
  by_cases hid : n = Header.requestId
  · rw [if_pos hid, if_pos hid]
  · rw [if_neg hid, if_neg hid]
    by_cases hkey : h.containsKey Header.traceparent = true
    · -- the client's own trace context is kept
      rw [if_pos hkey]
      rw [containsKey_iff] at hkey
      rw [if_neg]
      rintro ⟨rfl, hnil⟩
      exact hkey hnil
    · rw [if_neg hkey, getAll_insertText, G.parseValue_visible W.traceparent_visible]
      rw [containsKey_iff, not_not] at hkey
      by_cases htrace : n = Header.traceparent
      · subst htrace
        rw [if_pos rfl, if_pos ⟨rfl, hkey⟩]
      · rw [if_neg htrace, if_neg (fun h => htrace h.1)]

def isAsciiWhitespace (b : UInt8) : Bool := b == 9 || b == 10 || b == 12 || b == 13 || b == 32

def detectContentType (path : Text) (body : Option (List UInt8)) : Option Text :=
  let lower := path.toAsciiLowercase
  let endsIn (suffixes : List Text) : Bool := suffixes.any fun suffix => lower.endsWith suffix
  if endsIn [".json"] then some "application/json"
  else if endsIn [".html", ".htm"] then some "text/html; charset=utf-8"
  else if endsIn [".css"] then some "text/css; charset=utf-8"
  else if endsIn [".js", ".mjs"] then some "application/javascript"
  else if endsIn [".svg"] then some "image/svg+xml"
  else if endsIn [".txt"] then some "text/plain; charset=utf-8"
  else do
    let body ← body
    let trimmed := (body.dropWhile isAsciiWhitespace).take 16
    if trimmed.head? = some 0x7b ∨ trimmed.head? = some 0x5b then some "application/json"
    else if (Text.asBytes "<!doctype").isPrefixOf trimmed ∨
        (Text.asBytes "<html").isPrefixOf trimmed then
      some "text/html; charset=utf-8"
    else none

def applyContentTypeDetection (headers : HeaderMap) (path : Text) (body : Option (List UInt8)) :
    HeaderMap :=
  if headers.containsKey Header.contentType then headers
  else
    match detectContentType path body with
    | some contentType => headers.insert Header.contentType (.fromStatic contentType)
    | none => headers

def detectedValues (path : Text) (body : Option (List UInt8)) (n : Text)
    (values : List HeaderValue) : List HeaderValue :=
  if n = Header.contentType ∧ values = [] then
    ((detectContentType path body).map HeaderValue.fromStatic).toList
  else values

lemma getAll_applyContentTypeDetection (h : HeaderMap) (path : Text)
    (body : Option (List UInt8)) (n : Text) :
    (applyContentTypeDetection h path body).getAll n = detectedValues path body n (h.getAll n) := by
  rw [applyContentTypeDetection, detectedValues]
  by_cases hkey : h.containsKey Header.contentType = true
  · rw [if_pos hkey]
    rw [containsKey_iff] at hkey
    split
    · next hn => exact absurd hn.2 (hn.1 ▸ hkey)
    · rfl
  · rw [if_neg hkey]
    rw [containsKey_iff, not_not] at hkey
    by_cases hn : n = Header.contentType
    · subst hn
      cases detectContentType path body with
      | some t => simp [getAll_insert, hkey]
      | none => simp [hkey]
    · rw [if_neg (fun h => hn h.1)]
      cases detectContentType path body with
      | some t => exact (getAll_insert _ _ _ _).trans (if_neg hn)
      | none => rfl

end Trace

/-! ### The headers that forwarding writes -/

structure ForwardContext where
  matched : RouteMatch
  upstream : Upstream
  remoteIp : Option IpAddr
  scheme : RequestScheme
  middleware : EffectiveMiddleware
  clientCertPem : Option Text

section Forwarding

variable {G : Grammar}

def Upstream.authority (U : UrlParser) (upstream : Upstream) : Except PxxlError Text :=
  match U.parse upstream.url with
  | .error _ => .error (.invalidUpstream upstream.url)
  | .ok parsed =>
    match U.hostStr parsed with
    | none => .error (.invalidUpstream upstream.url)
    | some host =>
      .ok (match parsed.port with
        | some port => host ++ ":".toList ++ Nat.toDigits 10 port
        | none => host)

def hostValue (W : World G) (upstream : Upstream) : Except PxxlError HeaderValue := do
  let authority ← upstream.authority W.urls
  match G.parseValue authority with
  | some v => .ok v
  | none => .error (.invalidUpstream upstream.url)

def clientCertHeader (G : Grammar) (config : ClientCertForwardingConfig) (pem : Option Text) :
    Option (Text × HeaderValue) :=
  if config.enabled then do
    let cert ← pem
    let name ← G.parseName config.headerName
    let value ← G.parseValue cert
    return (name, value)
  else none

def ForwardContext.certHeader (G : Grammar) (ctx : ForwardContext) :
    Option (Text × HeaderValue) :=
  clientCertHeader G ctx.middleware.clientCertForwarding ctx.clientCertPem

def ForwardContext.ipHeader (G : Grammar) (ctx : ForwardContext) : Option (Text × HeaderValue) := do
  let ip ← ctx.remoteIp
  let value ← G.parseValue ip.display
  return (Header.xForwardedFor, value)

def ForwardContext.hostHeader (W : World G) (ctx : ForwardContext) :
    Except PxxlError (Option (Text × HeaderValue)) :=
  if ctx.matched.route.rules.preserveHostHeader then .ok none
  else (hostValue W ctx.upstream).map fun v => some (Header.host, v)

def forwardingHeaders (W : World G) (ctx : ForwardContext) :
    Except PxxlError (List (Text × HeaderValue)) := do
  let host ← ctx.hostHeader W
  match G.parseValue ctx.matched.route.domain with
  | none => .error .invalidHost
  | some domain =>
    .ok (host.toList ++
      [(Header.xForwardedHost, domain),
        (Header.xForwardedProto, .fromStatic ctx.scheme.asStr)] ++
      (ctx.ipHeader G).toList ++ (ctx.certHeader G).toList)

def valueFor (n : Text) (header : Option (Text × HeaderValue)) : Option HeaderValue :=
  HeaderMap.lastValue header.toList n

def ForwardContext.written (W : World G) (ctx : ForwardContext) (n : Text) : Option HeaderValue :=
  (valueFor n (ctx.certHeader G)).or <|
    if n = Header.xForwardedFor then ctx.remoteIp.bind fun ip => G.parseValue ip.display
    else if n = Header.xForwardedProto then some (.fromStatic ctx.scheme.asStr)
    else if n = Header.xForwardedHost then G.parseValue ctx.matched.route.domain
    else if n = Header.host ∧ ctx.matched.route.rules.preserveHostHeader = false then
      (hostValue W ctx.upstream).toOption
    else none

lemma valueFor_eq_some {n : Text} {header : Option (Text × HeaderValue)} {v : HeaderValue} :
    valueFor n header = some v ↔ header = some (n, v) := by
  cases header with
  | none => simp [valueFor, HeaderMap.lastValue]
  | some e =>
    obtain ⟨m, w⟩ := e
    by_cases hn : n = m <;> simp [valueFor, HeaderMap.lastValue, hn, eq_comm]

lemma valueFor_ipHeader (ctx : ForwardContext) (n : Text) :
    valueFor n (ctx.ipHeader G) =
      if n = Header.xForwardedFor then ctx.remoteIp.bind fun ip => G.parseValue ip.display
      else none := by
  rw [ForwardContext.ipHeader]
  cases ctx.remoteIp with
  | none => simp [valueFor, HeaderMap.lastValue]
  | some ip =>
    cases hv : G.parseValue ip.display <;>
      simp [valueFor, HeaderMap.lastValue, hv]

lemma valueFor_hostHeader {W : World G} {ctx : ForwardContext}
    {host : Option (Text × HeaderValue)} (hhost : ctx.hostHeader W = .ok host) (n : Text) :
    valueFor n host =
      if n = Header.host ∧ ctx.matched.route.rules.preserveHostHeader = false then
        (hostValue W ctx.upstream).toOption
      else none := by
  rw [ForwardContext.hostHeader] at hhost
  cases hkeep : ctx.matched.route.rules.preserveHostHeader with
  | true =>
    rw [hkeep, if_pos rfl] at hhost
    cases hhost
    simp [valueFor, HeaderMap.lastValue]
  | false =>
    rw [hkeep, if_neg (by simp)] at hhost
    cases hv : hostValue W ctx.upstream with
    | error e => simp [hv, Except.map] at hhost
    | ok v =>
      rw [hv] at hhost
      cases hhost
      simp [valueFor, HeaderMap.lastValue, Except.toOption]

lemma getAll_insertForwardingHeaders {W : World G} {ctx : ForwardContext}
    {es : List (Text × HeaderValue)} (hes : forwardingHeaders W ctx = .ok es) (h : HeaderMap)
    (n : Text) :
    (h.insertAll es).getAll n = (ctx.written W n).elim (h.getAll n) fun v => [v] := by
  rw [getAll_insertAll]
  suffices hlast : HeaderMap.lastValue es n = ctx.written W n by rw [hlast]
  rw [forwardingHeaders] at hes
  cases hhost : ctx.hostHeader W with
  | error e => simp [hhost, bind, Except.bind] at hes
  | ok host =>
    cases hdomain : G.parseValue ctx.matched.route.domain with
    | none => simp [hhost, hdomain, bind, Except.bind] at hes
    | some domain =>
      simp only [hhost, hdomain, bind, Except.bind, Except.ok.injEq] at hes
      subst hes
      have hip := valueFor_ipHeader (G := G) ctx n
      have hval := valueFor_hostHeader hhost n
      rw [valueFor] at hip hval
      rw [ForwardContext.written, valueFor, lastValue_append,
        lastValue_append, lastValue_append, hip, hval, hdomain]
      congr 1
      -- the other names are distinct, so at most one of them applies
      have hpf : Header.xForwardedProto ≠ Header.xForwardedFor := by decide
      have hhf : Header.xForwardedHost ≠ Header.xForwardedFor := by decide
      have hhp : Header.xForwardedHost ≠ Header.xForwardedProto := by decide
      have hof : Header.host ≠ Header.xForwardedFor := by decide
      have htwo : HeaderMap.lastValue [(Header.xForwardedHost, domain),
          (Header.xForwardedProto, HeaderValue.fromStatic ctx.scheme.asStr)] n =
          if n = Header.xForwardedProto then some (.fromStatic ctx.scheme.asStr)
          else if n = Header.xForwardedHost then some domain else none := rfl
      rw [htwo]
      by_cases hf : n = Header.xForwardedFor
      · simp [hf, hpf.symm, hhf.symm, hof.symm]
      · by_cases hp : n = Header.xForwardedProto
        · simp [hp, hpf]
        · by_cases hh : n = Header.xForwardedHost
          · simp [hh, hhf, hhp]
          · simp [hf, hp, hh]

end Forwarding

end PxxlEdge
