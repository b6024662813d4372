import PxxlEdge.Proxy.Handle

/-!
The headers of the answer that a client gets for a forwarded request, from those of the
upstream's answer.

An answer passes the rules of the route, the defaults for caches, on the buffered path the
compression, the cookie of a sticky session, the removal of hop-by-hop headers and at last
gets the identifier of the request.  Each stage but the removals is a list of writes.

* `ruleWrites`, `stickyWrites` and their siblings: the writes of the stages.
-/

namespace PxxlEdge

open RustStd Http Handlers List HeaderMap

/-! ### The writes of the stages -/

variable {n : Text}

section Writes

variable (G : Grammar)

def textWrite (name value : Text) : List (Text × HeaderValue) :=
  ((G.parseValue value).map fun v => (name, v)).toList

def staticWrite (name value : Text) : Text × HeaderValue := (name, .fromStatic value)

def securityWrites (rules : DomainRules) : List (Text × HeaderValue) :=
  if rules.addSecurityHeaders then
    [staticWrite "strict-transport-security" "max-age=31536000; includeSubDomains; preload",
      staticWrite "cross-origin-opener-policy" "same-origin-allow-popups",
      staticWrite "x-frame-options" "DENY",
      staticWrite "x-content-type-options" "nosniff",
      staticWrite "referrer-policy" "origin-when-cross-origin",
      staticWrite "content-security-policy" contentSecurityPolicy]
  else []

def joinedWrite (name : Text) (values : List Text) : List (Text × HeaderValue) :=
  if values = [] then [] else textWrite G name (List.intercalate ", " values)

def corsWrites (rules : DomainRules) (requestOrigin : Option HeaderValue) :
    List (Text × HeaderValue) :=
  match requestOrigin with
  | some origin =>
    if corsOriginAllowed G origin rules.corsAllowedOrigins then
      [("access-control-allow-origin".toList, origin), staticWrite "vary" "origin"] ++
        (if rules.corsAllowCredentials then
          [staticWrite "access-control-allow-credentials" "true"] else []) ++
        joinedWrite G "access-control-allow-methods" rules.corsAllowedMethods ++
        joinedWrite G "access-control-allow-headers" rules.corsAllowedHeaders
    else []
  | none =>
    if rules.corsAllowedOrigins.any fun origin => origin == "*" then
      [staticWrite "access-control-allow-origin" "*"]
    else []

def cacheWrites (path : Text) : List (Text × HeaderValue) :=
  if isStaticAssetPath path then
    [staticWrite "cache-control" "public, max-age=31536000, immutable",
      staticWrite "expires" "Thu, 31 Dec 2037 23:55:55 GMT"]
  else if isHtmlDocumentPath path then [staticWrite "cache-control" "no-cache"]
  else []

def ruleWrites (rules : DomainRules) (requestOrigin : Option HeaderValue) (path : Text) :
    List (Text × HeaderValue) :=
  legalHeaders G rules.responseHeaders ++ corsWrites G rules requestOrigin ++ cacheWrites path

def stickyWrites (sticky : StickySessionConfig) (upstream : Upstream) :
    List (Text × HeaderValue) :=
  if sticky.enabled then textWrite G "set-cookie" (stickyCookie sticky upstream) else []

def gzipWrites : List (Text × HeaderValue) :=
  [staticWrite "content-encoding" "gzip", staticWrite "vary" "accept-encoding"]

variable {G}

lemma insertText_eq_insertAll (h : HeaderMap) (name value : Text) :
    insertText G h name value = h.insertAll (textWrite G name value) := by
  rw [insertText, textWrite]
  cases G.parseValue value <;> rfl

lemma insertJoined_eq_insertAll (h : HeaderMap) (name : Text) (values : List Text) :
    insertJoined G h name values = h.insertAll (joinedWrite G name values) := by
  rw [insertJoined, joinedWrite]
  split
  · rfl
  · exact insertText_eq_insertAll h name _

lemma applyCors_eq_insertAll (h : HeaderMap) (rules : DomainRules)
    (requestOrigin : Option HeaderValue) :
    applyCors G h rules requestOrigin = h.insertAll (corsWrites G rules requestOrigin) := by
  rw [applyCors.eq_def, corsWrites.eq_def]
  cases requestOrigin with
  | none =>
    dsimp only
    split <;> rfl
  | some origin =>
    dsimp only
    split
    · rw [insertAll_append, insertAll_append, insertAll_append,
        insertJoined_eq_insertAll, insertJoined_eq_insertAll]
      congr 2
      split <;> rfl
    · rfl

lemma applyDefaultCacheHeaders_eq_insertAll (h : HeaderMap) (path : Text) :
    applyDefaultCacheHeaders h path = h.insertAll (cacheWrites path) := by
  rw [applyDefaultCacheHeaders, cacheWrites]
  split
  · rfl
  · split <;> rfl

lemma applyStickyCookie_eq_insertAll (h : HeaderMap) (sticky : StickySessionConfig)
    (upstream : Upstream) :
    applyStickyCookie G h sticky upstream = h.insertAll (stickyWrites G sticky upstream) := by
  rw [applyStickyCookie, stickyWrites]
  split
  · exact insertText_eq_insertAll h _ _
  · rfl

def permissionsPolicy : Text := "permissions-policy"

def secured (rules : DomainRules) (h : HeaderMap) : HeaderMap :=
  if rules.addSecurityHeaders then addSecurityHeaders h else h

lemma getAll_secured (rules : DomainRules) (h : HeaderMap) (hn : n ≠ permissionsPolicy) :
    (secured rules h).getAll n =
      (HeaderMap.lastValue (securityWrites rules) n).elim (h.getAll n) fun v => [v] := by
  rw [secured, securityWrites]
  split
  · -- the policy for permissions is looked up between the other writes
    have hkeep : ∀ h' : HeaderMap,
        (insertStaticHeaderIfAbsent h' permissionsPolicy
          "camera=(), microphone=(), geolocation=()").getAll n = h'.getAll n := by
      intro h'
      rw [insertStaticHeaderIfAbsent]
      split
      · rfl
      · exact (getAll_insert _ _ _ _).trans (if_neg hn)
    rw [← getAll_insertAll]
    change (HeaderMap.insert _ _ _).getAll n = (HeaderMap.insert _ _ _).getAll n
    rw [getAll_insert, getAll_insert]
    exact if_congr Iff.rfl rfl (hkeep _)
  · rfl

variable (req : Request G) (adm : Admission) (h : HeaderMap)

def routeWrites : List (Text × HeaderValue) :=
  securityWrites adm.matched.route.rules ++
    ruleWrites G adm.matched.route.rules (req.headers.get Header.origin) adm.path

lemma responseHeaders_eq_insertAll :
    responseHeaders req adm h = (secured adm.matched.route.rules h).insertAll
      (ruleWrites G adm.matched.route.rules (req.headers.get Header.origin) adm.path) := by
  rw [responseHeaders, applyDefaultCacheHeaders_eq_insertAll, applyResponseRules,
    applyCors_eq_insertAll, ruleWrites, insertAll_append, insertAll_append]
  rfl

lemma getAll_responseHeaders_of_some {v : HeaderValue}
    (hv : HeaderMap.lastValue (routeWrites req adm) n = some v) :
    (responseHeaders req adm h).getAll n = [v] := by
  rw [responseHeaders_eq_insertAll, getAll_insertAll]
  rw [routeWrites, lastValue_append] at hv
  cases hrule : HeaderMap.lastValue (ruleWrites G adm.matched.route.rules
      (req.headers.get Header.origin) adm.path) n with
  | some v' =>
    rw [hrule, Option.some_or] at hv
    rw [Option.some.inj hv]
    rfl
  | none =>
    rw [hrule, Option.none_or] at hv
    have hn : n ≠ permissionsPolicy := by
      rintro rfl
      have hmem : HeaderMap.lastValue (securityWrites adm.matched.route.rules)
          permissionsPolicy = none := by
        rw [lastValue_eq_none, securityWrites]
        split <;> decide
      rw [hmem] at hv
      cases hv
    rw [Option.elim_none, getAll_secured _ _ hn, hv, Option.elim_some]

lemma getAll_responseHeaders_of_none (hn : n ≠ permissionsPolicy)
    (hnone : HeaderMap.lastValue (routeWrites req adm) n = none) :
    (responseHeaders req adm h).getAll n = h.getAll n := by
  rw [routeWrites, lastValue_append, Option.or_eq_none_iff] at hnone
  rw [responseHeaders_eq_insertAll, getAll_insertAll, hnone.1, Option.elim_none,
    getAll_secured _ _ hn, hnone.2, Option.elim_none]

def securityNames : List Text :=
  ["strict-transport-security", "cross-origin-opener-policy", "x-frame-options",
    "x-content-type-options", "referrer-policy", "content-security-policy"]

def originAndCacheNames : List Text :=
  ["access-control-allow-origin", "vary", "access-control-allow-credentials",
    "access-control-allow-methods", "access-control-allow-headers", "cache-control", "expires"]

def corsNames : List Text :=
  ["access-control-allow-origin", "vary", "access-control-allow-credentials",
    "access-control-allow-methods", "access-control-allow-headers"]

def edgeWrittenNames : List Text := securityNames ++ originAndCacheNames

lemma mem_textWrite {name value n : Text} (hn : n ∈ (textWrite G name value).map Prod.fst) :
    n = name := by
  rw [textWrite] at hn
  cases hvalue : G.parseValue value with
  | none => simp [hvalue] at hn
  | some v => simpa [hvalue] using hn

lemma mem_joinedWrite {name n : Text} {values : List Text}
    (hn : n ∈ (joinedWrite G name values).map Prod.fst) : n = name := by
  rw [joinedWrite] at hn
  split at hn
  · cases hn
  · exact mem_textWrite hn

lemma mem_corsNames_of_corsWrites {rules : DomainRules} {requestOrigin : Option HeaderValue}
    (hn : n ∈ (corsWrites G rules requestOrigin).map Prod.fst) : n ∈ corsNames := by
  rw [corsWrites.eq_def] at hn
  cases requestOrigin with
  | none =>
    dsimp only at hn
    split at hn
    · obtain rfl : n = "access-control-allow-origin".toList := by simpa [staticWrite] using hn
      decide
    · cases hn
  | some origin =>
    dsimp only at hn
    split at hn
    · simp only [map_append, mem_append] at hn
      rcases hn with ((hn | hn) | hn) | hn
      · have hboth : ["access-control-allow-origin".toList, "vary".toList] ⊆ corsNames := by
          decide
        exact hboth hn
      · split at hn
        · obtain rfl := mem_singleton.mp hn
          decide
        · cases hn
      · obtain rfl := mem_joinedWrite hn
        decide
      · obtain rfl := mem_joinedWrite hn
        decide
    · cases hn

lemma mem_corsWrites {rules : DomainRules} {requestOrigin : Option HeaderValue}
    (hn : n ∈ (corsWrites G rules requestOrigin).map Prod.fst) : n ∈ originAndCacheNames :=
  mem_append_left ["cache-control".toList, "expires".toList] (mem_corsNames_of_corsWrites hn)

lemma mem_cacheWrites {path n : Text} (hn : n ∈ (cacheWrites path).map Prod.fst) :
    n ∈ originAndCacheNames := by
  have hboth : ["cache-control".toList, "expires".toList] ⊆ originAndCacheNames := by
    decide
  refine hboth ?_
  rw [cacheWrites] at hn
  split at hn
  · exact hn
  · split at hn
    · exact mem_of_mem_head? (mem_singleton.mp hn ▸ rfl)
    · cases hn

lemma mem_securityWrites {rules : DomainRules}
    (hn : n ∈ (securityWrites rules).map Prod.fst) : n ∈ securityNames := by
  rw [securityWrites] at hn
  split at hn
  · exact hn
  · cases hn

lemma lastValue_routeWrites (hn : n ∉ edgeWrittenNames) :
    HeaderMap.lastValue (routeWrites req adm) n =
      HeaderMap.lastValue (legalHeaders G adm.matched.route.rules.responseHeaders) n := by
  have hsecurity : HeaderMap.lastValue (securityWrites adm.matched.route.rules) n = none :=
    lastValue_eq_none.mpr fun hmem =>
      hn (mem_append_left _ (mem_securityWrites hmem))
  have hcors : HeaderMap.lastValue (corsWrites G adm.matched.route.rules
      (req.headers.get Header.origin)) n = none :=
    lastValue_eq_none.mpr fun hmem =>
      hn (mem_append_right _ (mem_corsWrites hmem))
  have hcache : HeaderMap.lastValue (cacheWrites adm.path) n = none :=
    lastValue_eq_none.mpr fun hmem =>
      hn (mem_append_right _ (mem_cacheWrites hmem))
  rw [routeWrites, ruleWrites, lastValue_append, lastValue_append,
    lastValue_append, hsecurity, hcors, hcache, Option.none_or, Option.none_or,
    Option.or_none]

end Writes

/-! ### The response -/

section Response

variable {G : Grammar}

def typedHeaders (middleware : EffectiveMiddleware) (r : BufferedResponse) : HeaderMap :=
  if middleware.contentTypeAutodetect.enabled then
    applyContentTypeDetection r.headers [] (some r.body)
  else r.headers

def compressedBody (W : World G) (r : BufferedResponse) (middleware : EffectiveMiddleware)
    (gzipAccepted : Bool) : Option (List UInt8) :=
  if !middleware.compression.enabled || !gzipAccepted ||
      decide (r.body.length < middleware.compression.minBytes) ||
      (typedHeaders middleware r).containsKey "content-encoding" ||
      !responseIsCompressible G (typedHeaders middleware r) middleware.compression then none
  else W.gzip r.body

def compressedHeaders (h : HeaderMap) : HeaderMap :=
  insertStaticHeader ((insertStaticHeader h "content-encoding" "gzip").remove Header.contentLength)
    "vary" "accept-encoding"

lemma applyResponseMiddleware_eq (W : World G) (r : BufferedResponse)
    (middleware : EffectiveMiddleware) (gzipAccepted : Bool) :
    applyResponseMiddleware W r middleware gzipAccepted =
      match compressedBody W r middleware gzipAccepted with
      | none => { r with headers := typedHeaders middleware r }
      | some body => { r with body, headers := compressedHeaders (typedHeaders middleware r) } := by
  have htyped : (if middleware.contentTypeAutodetect.enabled then
      { r with headers := applyContentTypeDetection r.headers [] (some r.body) } else r) =
      { r with headers := typedHeaders middleware r } := by
    rw [typedHeaders]
    split <;> rfl
  rw [applyResponseMiddleware, htyped, compressedBody]
  dsimp only
  split
  · rfl
  · cases W.gzip r.body <;> rfl

lemma headers_applyResponseMiddleware (W : World G) (r : BufferedResponse)
    (middleware : EffectiveMiddleware) (gzipAccepted : Bool) :
    (applyResponseMiddleware W r middleware gzipAccepted).headers =
      if (compressedBody W r middleware gzipAccepted).isSome then
        compressedHeaders (typedHeaders middleware r)
      else typedHeaders middleware r := by
  rw [applyResponseMiddleware_eq]
  cases compressedBody W r middleware gzipAccepted <;> rfl

lemma status_applyResponseMiddleware (W : World G) (r : BufferedResponse)
    (middleware : EffectiveMiddleware) (gzipAccepted : Bool) :
    (applyResponseMiddleware W r middleware gzipAccepted).status = r.status := by
  rw [applyResponseMiddleware_eq]
  cases compressedBody W r middleware gzipAccepted <;> rfl

lemma body_applyResponseMiddleware (W : World G) (r : BufferedResponse)
    (middleware : EffectiveMiddleware) (gzipAccepted : Bool) :
    (applyResponseMiddleware W r middleware gzipAccepted).body =
      (compressedBody W r middleware gzipAccepted).getD r.body := by
  rw [applyResponseMiddleware_eq]
  cases compressedBody W r middleware gzipAccepted <;> rfl

variable (W : World G) (req : Request G) (adm : Admission) (upstream : Upstream)
  (a : BufferedResponse)

def upgrades : Bool :=
  !buffers adm.matched && isWebsocketUpgrade G (preparedHeaders W req adm none) && a.status == 101

def receivedHeaders : HeaderMap :=
  if buffers adm.matched || upgrades W req adm a then a.headers
  else stripHopByHopResponseHeaders G a.headers

def ruledAnswer : BufferedResponse :=
  { a with headers := responseHeaders req adm (receivedHeaders W req adm a) }

def compresses : Bool :=
  buffers adm.matched && (compressedBody W (ruledAnswer W req adm a) adm.matched.middleware
    (acceptsGzip G (req.headers.get Header.acceptEncoding))).isSome

def middlewareHeaders : HeaderMap :=
  if buffers adm.matched then
    (applyResponseMiddleware W (ruledAnswer W req adm a) adm.matched.middleware
      (acceptsGzip G (req.headers.get Header.acceptEncoding))).headers
  else (ruledAnswer W req adm a).headers

def unstrippedHeaders : HeaderMap :=
  applyStickyCookie G (middlewareHeaders W req adm a) adm.matched.middleware.stickySessions upstream

def finishedHeaders (h : HeaderMap) : HeaderMap :=
  insertText G (if upgrades W req adm a then h else stripHopByHopResponseHeaders G h)
    Header.requestId W.requestId

def clientResponseHeaders : HeaderMap :=
  finishedHeaders W req adm a (unstrippedHeaders W req adm upstream a)

def lateWrites : List (Text × HeaderValue) :=
  (if compresses W req adm a then gzipWrites else []) ++
    stickyWrites G adm.matched.middleware.stickySessions upstream

variable {W req adm upstream a}

lemma getAll_unstrippedHeaders (n : Text) :
    (unstrippedHeaders W req adm upstream a).getAll n =
      (HeaderMap.lastValue (stickyWrites G adm.matched.middleware.stickySessions upstream) n).elim
        ((middlewareHeaders W req adm a).getAll n) fun v => [v] := by
  rw [unstrippedHeaders, applyStickyCookie_eq_insertAll, getAll_insertAll]

lemma getAll_typedHeaders {middleware : EffectiveMiddleware} {r : BufferedResponse}
    (hn : n ≠ Header.contentType ∨ r.headers.getAll n ≠ []) :
    (typedHeaders middleware r).getAll n = r.headers.getAll n := by
  rw [typedHeaders]
  split
  · rw [getAll_applyContentTypeDetection, detectedValues, if_neg (by tauto)]
  · rfl

lemma getAll_compressedHeaders (h : HeaderMap) (hlength : n ≠ Header.contentLength) :
    (compressedHeaders h).getAll n =
      (HeaderMap.lastValue gzipWrites n).elim (h.getAll n) fun v => [v] := by
  rw [← getAll_insertAll]
  change (HeaderMap.insert _ _ _).getAll n = (HeaderMap.insert _ _ _).getAll n
  rw [getAll_insert, getAll_insert, getAll_remove, if_neg hlength]
  rfl

lemma getAll_middlewareHeaders
    (hn : n ≠ Header.contentType ∨ (ruledAnswer W req adm a).headers.getAll n ≠ [])
    (hlength : ¬ (compresses W req adm a = true ∧ n = Header.contentLength)) :
    (middlewareHeaders W req adm a).getAll n =
      (HeaderMap.lastValue (if compresses W req adm a then gzipWrites else []) n).elim
        ((ruledAnswer W req adm a).headers.getAll n) fun v => [v] := by
  have hcompresses : compresses W req adm a = (buffers adm.matched &&
    (compressedBody W (ruledAnswer W req adm a) adm.matched.middleware
      (acceptsGzip G (req.headers.get Header.acceptEncoding))).isSome) := rfl
  rw [middlewareHeaders]
  by_cases hbuffers : buffers adm.matched = true
  · rw [hbuffers, Bool.true_and] at hcompresses
    rw [if_pos hbuffers, headers_applyResponseMiddleware, ← hcompresses]
    by_cases hzip : compresses W req adm a = true
    · rw [if_pos hzip, if_pos hzip, getAll_compressedHeaders _ fun hcl => hlength ⟨hzip, hcl⟩,
        getAll_typedHeaders hn]
    · rw [if_neg hzip, if_neg hzip, getAll_typedHeaders hn]
      rfl
  · have hzip : ¬ compresses W req adm a = true := by simp [hcompresses, hbuffers]
    rw [if_neg hbuffers, if_neg hzip]
    rfl

lemma getAll_unstripped_of_some {v : HeaderValue}
    (hv : HeaderMap.lastValue (routeWrites req adm ++ lateWrites W req adm upstream a) n = some v)
    (hroute : HeaderMap.lastValue (routeWrites req adm) n ≠ none)
    (hlength : ¬ (compresses W req adm a = true ∧ n = Header.contentLength)) :
    (unstrippedHeaders W req adm upstream a).getAll n = [v] := by
  obtain ⟨v', hv'⟩ := Option.ne_none_iff_exists'.mp hroute
  have hruled : (ruledAnswer W req adm a).headers.getAll n = [v'] :=
    getAll_responseHeaders_of_some req adm _ hv'
  rw [lastValue_append, lateWrites, lastValue_append, hv', Option.or_assoc]
    at hv
  rw [getAll_unstrippedHeaders, getAll_middlewareHeaders (.inr (by simp [hruled])) hlength, hruled]
  generalize HeaderMap.lastValue (stickyWrites G _ upstream) n = sticky at hv ⊢
  generalize HeaderMap.lastValue (if compresses W req adm a then gzipWrites else []) n = zip at hv ⊢
  cases sticky with
  | some c => simpa using hv
  | none => cases zip <;> simpa using hv

lemma getAll_middleware_plain (hedge : n ∉ edgeWrittenNames)
    (hother : n ∉ [permissionsPolicy, Header.contentType, Header.contentLength,
      "content-encoding".toList]) :
    (middlewareHeaders W req adm a).getAll n =
      (HeaderMap.lastValue (legalHeaders G adm.matched.route.rules.responseHeaders) n).elim
        ((receivedHeaders W req adm a).getAll n) fun v => [v] := by
  simp only [mem_cons, not_mem_nil, or_false, not_or] at hother
  obtain ⟨hpolicy, htype, hlength, hencoding⟩ := hother
  have hzip : HeaderMap.lastValue (if compresses W req adm a then gzipWrites else []) n = none := by
    rw [lastValue_eq_none]
    split
    · have hvary : n ≠ "vary".toList := by
        rintro rfl
        exact hedge (by decide)
      change n ∉ ["content-encoding".toList, "vary".toList]
      rw [mem_pair]
      exact not_or.mpr ⟨hencoding, hvary⟩
    · simp
  rw [getAll_middlewareHeaders (.inl htype) fun h => hlength h.2, hzip, Option.elim_none,
    ← lastValue_routeWrites req adm hedge]
  cases hroute : HeaderMap.lastValue (routeWrites req adm) n with
  | some v => exact getAll_responseHeaders_of_some req adm _ hroute
  | none => exact getAll_responseHeaders_of_none req adm _ hpolicy hroute

def connectionValues (W : World G) (req : Request G) (adm : Admission) (a : BufferedResponse) :
    List HeaderValue :=
  (HeaderMap.lastValue (legalHeaders G adm.matched.route.rules.responseHeaders)
    Header.connection).elim ((receivedHeaders W req adm a).getAll Header.connection) fun v => [v]

def Stripped (W : World G) (req : Request G) (adm : Admission) (a : BufferedResponse) (n : Text) :
    Prop :=
  upgrades W req adm a = false ∧
    (n ∈ strippedResponseHeaders ∨ n ∈ nominated G (connectionValues W req adm a))

instance (n : Text) : Decidable (Stripped W req adm a n) := inferInstanceAs (Decidable (_ ∧ _))

lemma mem_stickyWrites {sticky : StickySessionConfig}
    (hn : n ∈ (stickyWrites G sticky upstream).map Prod.fst) : n = "set-cookie" := by
  rw [stickyWrites] at hn
  split at hn
  · exact mem_textWrite hn
  · cases hn

lemma getAll_connection_middleware :
    (middlewareHeaders W req adm a).getAll Header.connection = connectionValues W req adm a :=
  getAll_middleware_plain (by decide) (by decide)

lemma getAll_connection_unstripped :
    (unstrippedHeaders W req adm upstream a).getAll Header.connection =
      connectionValues W req adm a := by
  have hsticky : HeaderMap.lastValue (stickyWrites G adm.matched.middleware.stickySessions upstream)
      Header.connection = none :=
    lastValue_eq_none.mpr fun hmem => absurd (mem_stickyWrites hmem) (by decide)
  rw [getAll_unstrippedHeaders, hsticky, Option.elim_none, getAll_connection_middleware]

lemma getAll_finishedHeaders {h : HeaderMap}
    (hconnection : h.getAll Header.connection = connectionValues W req adm a) (n : Text) :
    (finishedHeaders W req adm a h).getAll n =
      if n = Header.requestId then [Text.asBytes W.requestId]
      else if Stripped W req adm a n then [] else h.getAll n := by
  rw [finishedHeaders, getAll_insertText, G.parseValue_visible W.requestId_visible]
  refine if_congr Iff.rfl rfl ?_
  cases hup : upgrades W req adm a with
  | true =>
    rw [if_pos rfl, if_neg]
    rintro ⟨hfalse, -⟩
    rw [hup] at hfalse
    cases hfalse
  | false =>
    rw [if_neg (by decide), stripHopByHopResponseHeaders, getAll_stripHopByHop, hconnection]
    exact if_congr (by simp [Stripped, hup]) rfl rfl

lemma getAll_clientResponseHeaders (n : Text) :
    (clientResponseHeaders W req adm upstream a).getAll n =
      if n = Header.requestId then [Text.asBytes W.requestId]
      else if Stripped W req adm a n then []
      else (unstrippedHeaders W req adm upstream a).getAll n :=
  getAll_finishedHeaders getAll_connection_unstripped n

end Response

/-! ### The answers of upstreams -/

section Answers

variable {G : Grammar} {W : World G} {conn : Connection} {req : Request G} {s : EdgeState}

def Gives (W : World G) (upstream : Upstream) (a : BufferedResponse) : Prop :=
  ∃ attempt message frames, message.upstream = upstream ∧
    W.answer attempt message = .ok (a.status, a.headers, frames)

def Collects (W : World G) (limit : ℕ) (upstream : Upstream) (a : BufferedResponse) : Prop :=
  ∃ attempt message frames, message.upstream = upstream ∧
    W.answer attempt message = .ok (a.status, a.headers, frames) ∧
    collectBodyWithLimit limit [] frames = .ok a.body

lemma Collects.gives {limit : ℕ} {upstream : Upstream} {a : BufferedResponse}
    (h : Collects W limit upstream a) : Gives W upstream a := by
  obtain ⟨attempt, message, frames, hupstream, hanswer, -⟩ := h
  exact ⟨attempt, message, frames, hupstream, hanswer⟩

structure AnswerOf (W : World G) (req : Request G) (s : EdgeState) (r : Response)
    (adm : Admission) (upstream : Upstream) (a : BufferedResponse) : Prop where
  routed : Routed s req adm
  given : Gives W upstream a
  status : r.status = a.status
  headers : r.headers = clientResponseHeaders W req adm upstream a

lemma forwardStreaming_answers {ctx : ForwardContext} {req' : Request G} {limit : ℕ} :
    Returns (fun result _ => ∀ r, result = .ok r → ∃ a, Gives W ctx.upstream a ∧
        r.status = a.status ∧
        r.headers = if isWebsocketUpgrade G req'.headers ∧ a.status = 101 then a.headers
          else stripHopByHopResponseHeaders G a.headers)
      (forwardStreaming W ctx req' limit) s := by
  rw [forwardStreaming]
  split
  · exact .pure fun r hr => by cases hr
  · next message hmessage =>
    have hupstream := (relayed_of_relayMessage hmessage).upstream
    refine .skip fun _ _ => ?_
    split
    · exact .pure fun r hr => by cases hr
    · next status headers frames hanswer =>
      have hgives : Gives W ctx.upstream ⟨status, headers, []⟩ :=
        ⟨1, message, frames, hupstream, hanswer⟩
      split
      · next hup =>
        refine .pure fun r hr => ⟨_, hgives, ?_⟩
        obtain rfl := Except.ok.inj hr
        exact ⟨rfl, (if_pos hup).symm⟩
      · next hup =>
        refine .pure fun r hr => ⟨_, hgives, ?_⟩
        obtain rfl := Except.ok.inj hr
        exact ⟨rfl, (if_neg hup).symm⟩

lemma forwardBuffered_answers {destination : Destination} {ctx : ForwardContext}
    {request : BufferedRequest G} {attempt : ℕ} :
    Returns (fun result _ => ∀ a, result = .ok a →
        Collects W ctx.middleware.responseBuffering.maxResponseBytes ctx.upstream a)
      (forwardBuffered W destination ctx request attempt) s := by
  rw [forwardBuffered]
  split
  · exact .pure fun r hr => by cases hr
  · next message hmessage =>
    have hupstream := (relayed_of_relayMessage hmessage).upstream
    refine .skip fun _ _ => ?_
    split
    · exact .pure fun r hr => by cases hr
    · next status headers frames hanswer =>
      split
      · exact .pure fun r hr => by cases hr
      · next body hbody =>
        refine .pure fun a ha => ?_
        obtain rfl := Except.ok.inj ha
        exact ⟨attempt, message, frames, hupstream, hanswer, hbody⟩

lemma forwardWithRetry_answers {ctx : ForwardContext} {request : BufferedRequest G} :
    Returns (fun result _ => ∀ a, result = .ok a →
        Collects W ctx.middleware.responseBuffering.maxResponseBytes ctx.upstream a)
      (forwardWithRetry W ctx request) s := by
  suffices h : ∀ further attempt s, Returns (fun result _ => ∀ a, result = .ok a →
      Collects W ctx.middleware.responseBuffering.maxResponseBytes ctx.upstream a)
        (retryLoop W ctx request further attempt) s from h _ _ s
  intro further
  induction further with
  | zero => exact fun attempt s => forwardBuffered_answers
  | succ further ih =>
    intro attempt s
    refine .bind forwardBuffered_answers fun result _ hresult => ?_
    split
    · next response =>
      split
      · exact ih _ _
      · refine .pure fun a ha => ?_
        obtain rfl := Except.ok.inj ha
        exact hresult _ rfl
    · exact ih _ _

lemma upgrades_iff {adm : Admission} {a : BufferedResponse}
    (hstreams : buffers adm.matched = false) :
    upgrades W req adm a = true ↔
      isWebsocketUpgrade G (preparedHeaders W req adm none) = true ∧ a.status = 101 := by
  simp [upgrades, hstreams]

lemma serveStreaming_answers {adm : Admission} (hstreams : buffers adm.matched = false) :
    Returns (fun r _ => ∃ upstream a, Gives W upstream a ∧ r.status = a.status ∧
        r.headers = clientResponseHeaders W req adm upstream a)
      (serveStreaming W conn req adm) s := by
  refine .skip fun pool _ => ?_
  refine .skip fun upstream _ => ?_
  refine .skip fun key _ => ?_
  refine .skip fun _ _ => ?_
  refine .bind forwardStreaming_answers fun result _ hresult => ?_
  split
  · next r =>
    refine .skip fun _ _ => ?_
    refine .skip fun _ _ => .pure ?_
    obtain ⟨a, hgives, hstatus, hheaders⟩ := hresult r rfl
    refine ⟨upstream, a, hgives, hstatus, ?_⟩
    have hup : upgrades W req adm a = true ↔ _ := upgrades_iff hstreams
    have hmiddle : middlewareHeaders W req adm a = (ruledAnswer W req adm a).headers :=
      if_neg (by simp [hstreams])
    have hreceived : receivedHeaders W req adm a = r.headers := by
      rw [receivedHeaders, hstreams, Bool.false_or, hheaders]
      exact if_congr hup rfl rfl
    change insertText G (if _ ∧ r.status = 101 then _ else _) Header.requestId W.requestId = _
    rw [clientResponseHeaders, finishedHeaders, unstrippedHeaders, hmiddle, ruledAnswer,
      hreceived, hstatus]
    congr 1
    exact if_congr hup.symm rfl rfl
  · refine .skip fun _ _ => ?_
    exact refuseDiagnostic_returns _ _ _

variable (W req) in
def clientBody (adm : Admission) (a : BufferedResponse) : List UInt8 :=
  (compressedBody W (ruledAnswer W req adm a) adm.matched.middleware
    (acceptsGzip G (req.headers.get Header.acceptEncoding))).getD a.body

lemma serveBuffered_answers {adm : Admission} (hbuffers : buffers adm.matched = true) :
    Returns (fun r _ => ∃ upstream a,
        Collects W adm.matched.middleware.responseBuffering.maxResponseBytes upstream a ∧
        r.status = a.status ∧ r.headers = clientResponseHeaders W req adm upstream a ∧
        r.body = .bytes (clientBody W req adm a))
      (serveBuffered W conn req adm) s := by
  refine .skip fun request _ => ?_
  refine .skip fun pool _ => ?_
  refine .skip fun _ _ => ?_
  refine .skip fun upstream _ => ?_
  refine .skip fun key _ => ?_
  refine .skip fun _ _ => ?_
  refine .bind forwardWithRetry_answers fun result _ hresult => ?_
  split
  · next a =>
    refine .skip fun _ _ => ?_
    refine .skip fun _ _ => .pure ?_
    have hreceived : receivedHeaders W req adm a = a.headers := by
      rw [receivedHeaders, hbuffers]
      rfl
    have hplain : upgrades W req adm a = false := by
      rw [upgrades, hbuffers]
      rfl
    have hruled : ruledAnswer W req adm a =
        { a with headers := responseHeaders req adm a.headers } := by
      rw [ruledAnswer, hreceived]
    refine ⟨upstream, a, hresult a rfl, status_applyResponseMiddleware _ _ _ _, ?_, ?_⟩
    · change insertText G _ Header.requestId W.requestId = _
      rw [clientResponseHeaders, finishedHeaders, hplain, unstrippedHeaders, middlewareHeaders,
        if_pos hbuffers, hruled]
      rfl
    · change Body.bytes (applyResponseMiddleware W _ _ _).body = _
      rw [clientBody, hruled, body_applyResponseMiddleware]
  · refine .skip fun _ _ => ?_
    exact refuseDiagnostic_returns _ _ _

theorem handle_answerOf {r : Response} (h : (handle W conn req s).result = .ok r) :
    ∃ adm upstream a, AnswerOf W req s r adm upstream a := by
  have hreturns : Returns (fun r _ => ∃ adm upstream a, AnswerOf W req s r adm upstream a)
      (handle W conn req) s := by
    refine .bind admitRequest_returns fun adm s' hadm => ?_
    split
    · next hbuffers =>
      intro r hr
      obtain ⟨upstream, a, hcollects, hstatus, hheaders, -⟩ := serveBuffered_answers hbuffers r hr
      exact ⟨adm, upstream, a, hadm.toRouted, hcollects.gives, hstatus, hheaders⟩
    · next hstreams =>
      intro r hr
      obtain ⟨upstream, a, hgives, hstatus, hheaders⟩ :=
        serveStreaming_answers (eq_false_of_ne_true hstreams) r hr
      exact ⟨adm, upstream, a, hadm.toRouted, hgives, hstatus, hheaders⟩
  exact hreturns r h

end Answers

end PxxlEdge
