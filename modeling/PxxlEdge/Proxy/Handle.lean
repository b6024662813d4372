import PxxlEdge.Proxy.Admission

/-!
The handling of a request: it is admitted, prepared and then forwarded, streamed
or buffered.
-/

namespace PxxlEdge

open RustStd Http Handlers

/-! ### Preparation -/

section Prepare

variable {G : Grammar} (W : World G) (req : Request G) (adm : Admission)

def canonicalForwardUri (G : Grammar) (canonicalPath : Text) (query : Option Text) :
    Except PxxlError (Uri G) :=
  match Uri.parse G (withQuery canonicalPath query) with
  | some uri => .ok uri
  | none => .error (.invalidPath canonicalPath)

def forwardUri (path : Text) : Uri G :=
  match canonicalForwardUri G path req.uri.query with
  | .ok uri => uri
  | .error _ => req.uri

def EffectiveMiddleware.consumesAuthorization (middleware : EffectiveMiddleware) : Bool :=
  (middleware.basicAuth.any fun config => config.enabled) ||
    middleware.digestAuth.any fun config => config.enabled

def clientHeaders (middleware : EffectiveMiddleware) : HeaderMap :=
  if middleware.consumesAuthorization then req.headers.remove Header.authorization else req.headers

def detected (middleware : EffectiveMiddleware) (headers : HeaderMap) (uri : Uri G)
    (body : Option (List UInt8)) : HeaderMap :=
  if middleware.contentTypeAutodetect.enabled then applyContentTypeDetection headers uri.path body
  else headers

def prepareRequest : Request G :=
  let middleware := adm.matched.middleware
  let uri := forwardUri req adm.path
  let headers := applyRequestRules G (clientHeaders req middleware) adm.matched.route.rules
  { req with uri, headers := detected middleware headers uri none }

def preparedHeaders (body : Option (List UInt8)) : HeaderMap :=
  let headers := ensureTraceHeaders W (prepareRequest req adm).headers
  match body with
  | none => headers
  | some body => detected adm.matched.middleware headers (forwardUri req adm.path) (some body)

end Prepare

def buffers (matched : RouteMatch) : Bool :=
  requiresBufferedForwarding matched.middleware matched.route.rules.maxBodyBytes.isSome

def bodyLimit (matched : RouteMatch) : ℕ := requestBodyLimit matched.route.rules matched.middleware

/-! ### An upstream for the request -/

section Upstream

variable {G : Grammar} (W : World G) (ctx : ProxyRequestContext) (matched : RouteMatch)

def selectPool : ProxyM G (Text × List Upstream) :=
  Handler.update fun s =>
    let (pool, loadBalancer) := selectUpstreamPool s.loadBalancer matched ctx.location
    (pool, { s with loadBalancer })

def takeUpstream (routeKey : Text) (upstreams : List Upstream) (headers : HeaderMap) :
    ProxyM G Upstream := do
  let choice ← Handler.update fun s =>
    selectAvailableUpstream W s routeKey matched upstreams ctx.remoteIp headers matched.middleware
  match choice with
  | some upstream => return upstream
  | none => do
      let reason ← Handler.update fun s =>
        let (reason, policy) := routeUnavailableReason W s.policy matched upstreams
        (reason, { s with policy })
      refuseDiagnostic W ctx 503 reason none

def acquireInFlight (upstream : Upstream) : ProxyM G (Option Text) := do
  let acquired ← Handler.update fun s =>
    let (acquired, policy) :=
      s.policy.tryAcquireInFlight matched.middleware.inFlightLimit matched upstream
    (acquired, { s with policy })
  match acquired with
  | .ok key => return key
  | .error _ => refuse W ctx 429 "too many in-flight requests"

def beginRequest (routeKey : Text) (upstream : Upstream) : ProxyM G Unit :=
  Handler.update fun s =>
    ((), { s with loadBalancer := s.loadBalancer.beginRequest routeKey upstream.url })

def concludeForward (routeKey : Text) (upstream : Upstream) (inFlightKey : Option Text)
    (status : ℕ) (error : Bool) : ProxyM G Unit := do
  let middleware := matched.middleware
  Handler.update fun s =>
    ((), { s with
      policy := s.policy.releaseInFlight inFlightKey
      loadBalancer := s.loadBalancer.endRequest routeKey upstream.url W.elapsedMicros })
  let timer ← Handler.update fun s =>
    recordPassiveHealth s middleware.passiveHealth ctx.domain matched.path.pathPrefix upstream.url
      status error
  match timer with
  | some update =>
    Handler.emit (.recoveryTimer update (max middleware.passiveHealth.recoverySeconds 1))
  | none => pure ()
  Handler.update fun s =>
    ((), { s with
      policy := s.policy.recordCircuitResult (W.clock .circuitResult 0) middleware.circuitBreaker
        matched upstream.url status error })

end Upstream

/-! ### The two paths -/

section Serve

variable {G : Grammar} (W : World G) (conn : Connection) (req : Request G) (adm : Admission)

def sendContext (destination : Destination) (upstream : Upstream) : ForwardContext :=
  match destination with
  | .upstream =>
    { matched := adm.matched
      upstream
      remoteIp := remoteIp W conn req
      scheme := conn.scheme
      middleware := adm.matched.middleware
      clientCertPem := conn.clientCertPem }
  | .mirror => mirrorContext adm.matched upstream

def responseHeaders (headers : HeaderMap) : HeaderMap :=
  applyDefaultCacheHeaders
    (applyResponseRules G headers adm.matched.route.rules (req.headers.get Header.origin)) adm.path

def serveStreaming : ProxyM G Response := do
  let ctx := targetContext W conn req adm.host adm.path
  let middleware := adm.matched.middleware
  let req' : Request G :=
    { prepareRequest req adm with headers := preparedHeaders W req adm none }
  let (suffix, upstreams) ← selectPool ctx adm.matched
  let routeKey := baseRouteKey adm.matched ++ suffix
  let upstream ← takeUpstream W ctx adm.matched routeKey upstreams req'.headers
  let inFlightKey ← acquireInFlight W ctx adm.matched upstream
  beginRequest routeKey upstream
  match ← forwardStreaming W (sendContext W conn req adm .upstream upstream) req'
      (bodyLimit adm.matched) with
  | .ok r => do
      concludeForward W ctx adm.matched routeKey upstream inFlightKey r.status false
      let headers := applyStickyCookie G (responseHeaders req adm r.headers)
        middleware.stickySessions upstream
      let headers :=
        if isWebsocketUpgrade G req'.headers ∧ r.status = 101 then headers
        else stripHopByHopResponseHeaders G headers
      observeRequest W ctx r.status (some upstream.url)
        ((contentLength G req'.headers).getD 0) ((contentLength G headers).getD 0)
      return attachRequestIdHeader W { r with headers }
  | .error e => do
      concludeForward W ctx adm.matched routeKey upstream inFlightKey 502 true
      refuseDiagnostic W ctx 502 (upstreamFailureReason e) (some upstream.url)

def bufferRequest : ProxyM G (BufferedRequest G) :=
  let ctx := targetContext W conn req adm.host adm.path
  match BufferedRequest.fromRequest (prepareRequest req adm) (bodyLimit adm.matched) with
  | .ok request =>
    return { request with headers := preparedHeaders W req adm (some request.body) }
  | .error .tooLarge => refuse W ctx 413 "request body is too large"
  | .error (.body _) => refuse W ctx 400 "failed to read request body"

def serveBuffered : ProxyM G Response := do
  let ctx := targetContext W conn req adm.host adm.path
  let middleware := adm.matched.middleware
  let request ← bufferRequest W conn req adm
  let (suffix, upstreams) ← selectPool ctx adm.matched
  let routeKey := baseRouteKey adm.matched ++ suffix
  mirrorRequest W request adm.matched middleware.trafficMirroring ctx.domain
  let upstream ← takeUpstream W ctx adm.matched routeKey upstreams request.headers
  let inFlightKey ← acquireInFlight W ctx adm.matched upstream
  beginRequest routeKey upstream
  match ← forwardWithRetry W (sendContext W conn req adm .upstream upstream) request with
  | .ok r => do
      concludeForward W ctx adm.matched routeKey upstream inFlightKey r.status false
      let r := applyResponseMiddleware W { r with headers := responseHeaders req adm r.headers }
        middleware (acceptsGzip G (req.headers.get Header.acceptEncoding))
      let headers := applyStickyCookie G r.headers middleware.stickySessions upstream
      observeRequest W ctx r.status (some upstream.url) request.body.length r.body.length
      return attachRequestIdHeader W
        ⟨r.status, stripHopByHopResponseHeaders G headers, .bytes r.body⟩
  | .error e => do
      concludeForward W ctx adm.matched routeKey upstream inFlightKey 502 true
      refuseDiagnostic W ctx 502 (upstreamFailureReason e) (some upstream.url)

def handle : ProxyM G Response := do
  let adm ← admitRequest W conn req
  if buffers adm.matched then serveBuffered W conn req adm else serveStreaming W conn req adm

end Serve

/-! ### What is sent -/

section Sent

variable {G : Grammar} {W : World G} {conn : Connection} {req : Request G} {s : EdgeState}
  {adm : Admission} {ctx : ProxyRequestContext} {matched : RouteMatch} {φ : Event G → Prop}

def passedHeaders (W : World G) (req : Request G) (adm : Admission) (body : Option (List UInt8)) :
    HeaderMap :=
  match body with
  | none => streamedHeaders G (preparedHeaders W req adm none)
  | some body => bufferedHeaders G (preparedHeaders W req adm (some body)) body

def forwardedBody (matched : RouteMatch) (frames : List Frame) : Option (List UInt8) :=
  if buffers matched then (collectBodyWithLimit (bodyLimit matched) [] frames).toOption else none

structure Sent (W : World G) (conn : Connection) (req : Request G) (s : EdgeState)
    (o : Outgoing G) (adm : Admission) (upstream : Upstream) : Prop where
  admitted : Admitted W conn req s adm
  buffered : (forwardedBody adm.matched req.body).isSome = buffers adm.matched
  relayed : Relayed W o.destination (sendContext W conn req adm o.destination upstream)
    (forwardUri req adm.path) (passedHeaders W req adm (forwardedBody adm.matched req.body)) o

/-! ### Properties of the parts -/

variable {upstream : Upstream} {routeKey : Text}

section Parts

variable {allowed : EdgeState → EdgeState → Prop}
  {Φ : (α : Type) → ProxyM G α → EdgeState → Prop}

lemma StageProperty.takeUpstream (h : StageProperty W ctx allowed Φ)
    (hall : ∀ s s', allowed s s') {upstreams : List Upstream}
    {headers : HeaderMap} :
    Φ Upstream (takeUpstream W ctx matched routeKey upstreams headers) s := by
  refine h.bind (h.update _ _ (hall _ _)) fun choice _ => ?_
  split
  · exact h.pure _ _
  · exact h.bind (h.update _ _ (hall _ _)) fun _ _ => h.refuseDiagnostic (by decide)

lemma StageProperty.acquireInFlight (h : StageProperty W ctx allowed Φ)
    (hall : ∀ s s', allowed s s') :
    Φ (Option Text) (acquireInFlight W ctx matched upstream) s := by
  refine h.bind (h.update _ _ (hall _ _)) fun acquired _ => ?_
  split
  · exact h.pure _ _
  · exact h.refuse (by decide)

lemma concludeForward_composes (h : Composes allowed Φ) (hall : ∀ s s', allowed s s')
    (htimer : ∀ update seconds s, Φ Unit (Handler.emit (.recoveryTimer update seconds)) s)
    {key : Option Text} {status : ℕ} {error : Bool} :
    Φ Unit (concludeForward W ctx matched routeKey upstream key status error) s := by
  refine h.bind (h.update _ _ (hall _ _)) fun _ _ => ?_
  refine h.bind (h.update _ _ (hall _ _)) fun timer _ => ?_
  split
  · exact h.bind (htimer _ _ _) fun _ _ => h.update _ _ (hall _ _)
  · exact h.update _ _ (hall _ _)

end Parts

lemma takeUpstream_events (hφ : ∀ e : Event G, e.Bookkeeping → φ e)
    {upstreams : List Upstream} {headers : HeaderMap} :
    AllEvents φ (takeUpstream W ctx matched routeKey upstreams headers) s :=
  (stageProperty_events hφ).takeUpstream fun _ _ => trivial

lemma acquireInFlight_events (hφ : ∀ e : Event G, e.Bookkeeping → φ e) :
    AllEvents φ (acquireInFlight W ctx matched upstream) s :=
  (stageProperty_events hφ).acquireInFlight fun _ _ => trivial

lemma concludeForward_events (hφ : ∀ e : Event G, e.Bookkeeping → φ e) {key : Option Text}
    {status : ℕ} {error : Bool} :
    AllEvents φ (concludeForward W ctx matched routeKey upstream key status error) s :=
  concludeForward_composes AllEvents.composes (fun _ _ => trivial)
    fun _ _ _ => .emit (hφ _ trivial)

lemma serveStreaming_events (hφ : ∀ e : Event G, e.Bookkeeping → φ e)
    (hsent : ∀ upstream o, streamingMessage W (sendContext W conn req adm .upstream upstream)
      { prepareRequest req adm with headers := preparedHeaders W req adm none }
      (bodyLimit adm.matched) = .ok o → φ (.forwarded o)) :
    AllEvents φ (serveStreaming W conn req adm) s := by
  refine .bind (.update _) fun pool _ => ?_
  refine .bind (takeUpstream_events hφ) fun upstream _ => ?_
  refine .bind (acquireInFlight_events hφ) fun key _ => ?_
  refine .bind (.update _) fun _ _ => ?_
  refine .bind (forwardStreaming_composes AllEvents.composes fun o ho =>
    .emit (hsent upstream o ho)) fun r _ => ?_
  split
  · exact .bind (concludeForward_events hφ) fun _ _ =>
      .bind (.emit (hφ _ trivial)) fun _ _ => .pure _
  · exact .bind (concludeForward_events hφ) fun _ _ => refuseDiagnostic_events hφ _ _ _

lemma bufferRequest_events (hφ : ∀ e : Event G, e.Bookkeeping → φ e) :
    AllEvents φ (bufferRequest W conn req adm) s := by
  rw [bufferRequest]
  split
  · exact .pure _
  · exact refuseWith_events hφ _
  · exact refuseWith_events hφ _

lemma fromRequest_prepareRequest :
    BufferedRequest.fromRequest (prepareRequest req adm) (bodyLimit adm.matched) =
      (collectBodyWithLimit (bodyLimit adm.matched) [] req.body).map fun body =>
        ⟨req.method, forwardUri req adm.path, (prepareRequest req adm).headers, body⟩ := rfl

lemma bufferRequest_returns :
    Returns (fun request _ =>
        collectBodyWithLimit (bodyLimit adm.matched) [] req.body = .ok request.body ∧
        request.uri = forwardUri req adm.path ∧
        request.headers = preparedHeaders W req adm (some request.body))
      (bufferRequest W conn req adm) s := by
  rw [bufferRequest, fromRequest_prepareRequest]
  cases hbody : collectBodyWithLimit (bodyLimit adm.matched) [] req.body with
  | error e =>
    cases e with
    | tooLarge => exact refuseWith_returns _
    | body error => exact refuseWith_returns _
  | ok body => exact .pure ⟨rfl, rfl, rfl⟩

lemma serveBuffered_events (hφ : ∀ e : Event G, e.Bookkeeping → φ e)
    (hsent : ∀ body upstream o,
      collectBodyWithLimit (bodyLimit adm.matched) [] req.body = .ok body →
      Relayed W o.destination (sendContext W conn req adm o.destination upstream)
        (forwardUri req adm.path) (passedHeaders W req adm (some body)) o → φ (.forwarded o)) :
    AllEvents φ (serveBuffered W conn req adm) s := by
  refine .bindReturns (bufferRequest_events hφ) bufferRequest_returns ?_
  rintro ⟨method, uri, headers, body⟩ _ ⟨hbody, huri, hheaders⟩
  change uri = forwardUri req adm.path at huri
  change headers = preparedHeaders W req adm (some body) at hheaders
  subst huri hheaders
  have hrelayed : ∀ {destination upstream o}, Relayed W destination
      (sendContext W conn req adm destination upstream) (forwardUri req adm.path)
      (passedHeaders W req adm (some body)) o → φ (.forwarded o) := by
    intro destination upstream o ho
    refine hsent body upstream o hbody ?_
    rw [ho.destination]
    exact ho
  refine .bind (.update _) fun pool _ => ?_
  refine .bind (mirrorRequest_composes AllEvents.composes fun upstream o s ho =>
    .emit (hrelayed (relayed_of_relayMessage ho))) fun _ _ => ?_
  refine .bind (takeUpstream_events hφ) fun upstream _ => ?_
  refine .bind (acquireInFlight_events hφ) fun key _ => ?_
  refine .bind (.update _) fun _ _ => ?_
  refine .bind (forwardWithRetry_composes AllEvents.composes fun o s ho =>
    .emit (hrelayed (relayed_of_relayMessage ho))) fun r _ => ?_
  split
  · exact .bind (concludeForward_events hφ) fun _ _ =>
      .bind (.emit (hφ _ trivial)) fun _ _ => .pure _
  · exact .bind (concludeForward_events hφ) fun _ _ => refuseDiagnostic_events hφ _ _ _

lemma handle_events (hφ : ∀ e : Event G, e.Bookkeeping → φ e)
    (hauth : ∀ adm config, Routed s req adm →
      adm.matched.middleware.forwardAuth = some config → config.enabled = true →
      φ (.authRequest config.url (forwardAuthHeaders req config)))
    (hsent : ∀ o adm upstream, Sent W conn req s o adm upstream → φ (.forwarded o)) :
    AllEvents φ (handle W conn req) s := by
  refine .bindReturns (admitRequest_events hφ hauth) admitRequest_returns fun adm _ hadm => ?_
  split
  · next hbuffers =>
    refine serveBuffered_events hφ fun body upstream o hbody ho => ?_
    have hforwarded : forwardedBody adm.matched req.body = some body := by
      rw [forwardedBody, if_pos hbuffers, hbody]
      rfl
    exact hsent o adm upstream
      ⟨hadm, by rw [hforwarded, hbuffers]; rfl, hforwarded.symm ▸ ho⟩
  · next hstreams =>
    refine serveStreaming_events hφ fun upstream o ho => ?_
    have hrelayed := relayed_of_relayMessage ho
    have hforwarded : forwardedBody adm.matched req.body = none := if_neg hstreams
    refine hsent o adm upstream ⟨hadm, ?_, hforwarded.symm ▸ hrelayed.destination ▸ hrelayed⟩
    rw [hforwarded, eq_false_of_ne_true hstreams]
    rfl

lemma handle_sends {o : Outgoing G} (h : .forwarded o ∈ (handle W conn req s).log) :
    ∃ adm upstream, Sent W conn req s o adm upstream := by
  have hall : AllEvents (fun e => ∀ o, e = .forwarded o →
      ∃ adm upstream, Sent W conn req s o adm upstream) (handle W conn req) s := by
    refine handle_events (fun e he o ho => ?_) (fun _ _ _ _ _ o ho => nomatch ho) ?_
    · subst ho
      exact he.elim
    · rintro o adm upstream hsent _ ⟨⟩
      exact ⟨adm, upstream, hsent⟩
  exact hall _ h o rfl

theorem handle_sends_routed (hr : Routed s req adm) {o : Outgoing G}
    (h : .forwarded o ∈ (handle W conn req s).log) :
    ∃ upstream, Sent W conn req s o adm upstream := by
  obtain ⟨adm', upstream, hsent⟩ := handle_sends h
  obtain rfl : adm = adm' := hr.unique hsent.admitted.toRouted
  exact ⟨upstream, hsent⟩

theorem handle_asks (hr : Routed s req adm) {url : Text} {headers : HeaderMap}
    (h : .authRequest url headers ∈ (handle W conn req s).log) :
    ∃ config, adm.matched.middleware.forwardAuth = some config ∧ config.enabled = true ∧
      url = config.url ∧ headers = forwardAuthHeaders req config := by
  have hall : AllEvents (fun e => ∀ url headers, e = .authRequest url headers →
      ∃ config, adm.matched.middleware.forwardAuth = some config ∧ config.enabled = true ∧
        url = config.url ∧ headers = forwardAuthHeaders req config) (handle W conn req) s := by
    refine handle_events (fun e he url headers h => ?_) ?_ (fun _ _ _ _ _ _ h => nomatch h)
    · subst h
      exact he.elim
    · rintro adm' config hr' hconfig henabled _ _ ⟨⟩
      obtain rfl : adm = adm' := hr.unique hr'
      exact ⟨config, hconfig, henabled, rfl, rfl⟩
  exact hall _ h url headers rfl

end Sent

/-! ### An edge that runs -/

section Sample

def sampleWorld : World .http1 where
  urls := .basic
  sha256Hex t := Nat.toDigits 16 (fnv1a t.asBytes).toNat
  base64Decode t := if t = "dTpw" then some (Text.asBytes "u:p") else none
  requestId := "8c5e2f0a-0b1d-4b6e-9d53-3f1f0c2a7e11"
  requestId_visible := by decide
  traceparent := "00-8c5e2f0a0b1d4b6e9d533f1f0c2a7e11-17c6a1b2c3d4e5f6-01"
  traceparent_visible := by decide
  authAnswer _ _ := some 200
  answer _ _ := .ok (200, ⟨[]⟩, [])

def sampleState (rules : DomainRules) (middlewares : List Text) : EdgeState where
  table := .new
    [{ id := "r", domain := "a.io", rules, source := .static,
       paths := [{ pathPrefix := "/", upstreams := [{ url := "http://app:80" }], middlewares }] }]

lemma isSome_find_sample (rules : DomainRules) (middlewares : List Text) :
    (find (sampleState rules middlewares).table "a.io" "/").isSome = true := by
  rfl

def sampleMatch (rules : DomainRules) (middlewares : List Text) : RouteMatch :=
  (find (sampleState rules middlewares).table "a.io" "/").get (isSome_find_sample rules middlewares)

def sampleRequest (path : Text)
    (legal : (path.all fun c => c ≠ '?' ∧ c ≠ '#' ∧ Grammar.http1.pathChar c = true) = true)
    (headers : List (Text × Text)) : Request .http1 where
  method := "GET"
  uri :=
    { path
      path_legal := fun c hc => of_decide_eq_true (List.all_eq_true.mp legal c hc)
      query_legal := by simp }
  headers := ⟨(Header.host, .fromStatic "a.io") :: headers.map fun e => (e.1, .fromStatic e.2)⟩

def rootRequest (headers : List (Text × Text)) : Request .http1 :=
  sampleRequest "/" (by decide) headers

lemma routed_sample (rules : DomainRules) (middlewares : List Text)
    (headers : List (Text × Text)) :
    Routed (sampleState rules middlewares) (rootRequest headers)
      ⟨"a.io", "/", sampleMatch rules middlewares⟩ where
  path :=
    have hpath : canonicalizePath "/" = .ok "/".toList := by decide
    hpath
  host := by
    have hget : (rootRequest headers).headers.get Header.host =
        some (.fromStatic "a.io") := rfl
    have htext : Grammar.http1.toStr (.fromStatic "a.io") = some "a.io".toList := by
      decide
    rw [requestHost, headerText, hget, Option.bind_some, htext]
    rfl
  matched := (Option.some_get (isSome_find_sample rules middlewares)).symm

def sampleConnection : Connection := { peer := some (.v4 ⟨9, 9, 9, 9⟩), scheme := .http }

end Sample

end PxxlEdge
