import PxxlEdge.Proxy.Forward

/-!
The way of a request up to the point where it may be forwarded: its target is
read, the security engine is asked, the route is found, the rules of the domain
are checked, and the authentications of the middleware are run.  Each stage
answers the request itself or lets it pass.
-/

namespace PxxlEdge

open RustStd Http Handlers

/-! ### The stages -/

section Stages

variable {G : Grammar} (W : World G) (conn : Connection) (req : Request G)

def remoteIp : Option IpAddr := resolveEffectiveClientIp G req.headers conn.peer W.trusted

def requestHost : Option Text := (headerText G req.headers Header.host).or req.uri.authority

def requestContext (domain path : Text) (location : GeoLocation) : ProxyRequestContext where
  requestId := W.requestId
  domain
  method := req.method
  path
  remoteIp := remoteIp W conn req
  scheme := conn.scheme
  location
  timestampUnixMs := W.unixMs .request

def requestLocation : GeoLocation := ((remoteIp W conn req).map W.geoip).getD {}

def targetContext (host path : Text) : ProxyRequestContext :=
  requestContext W conn req (normalizeDomain host) path (requestLocation W conn req)

def readTarget : ProxyM G (Text × Text) :=
  match canonicalizePath req.uri.path with
  | .error _ =>
    refuse W (requestContext W conn req "unknown" req.uri.originForm {}) 400
      "invalid request path"
  | .ok path =>
    match requestHost req with
    | none =>
      refuse W (requestContext W conn req "unknown" path (requestLocation W conn req)) 400
        "missing host header"
    | some host => return (host, path)

def acmeChallengePrefix : Text := "/.well-known/acme-challenge/"

def serveAcmeHttp01Challenge (path : Text) : Option Response := do
  let token ← path.stripPrefix acmeChallengePrefix
  if token = [] ∨ '/' ∈ token ∨ '\\' ∈ token ∨ token.startsWith "." then
    some (textResponse 400 "invalid acme challenge token")
  else
    match W.acmeFile token with
    | some content => some (responseWithBody 200 "text/plain; charset=utf-8" (.text content))
    | none => some (textResponse 404 "acme challenge not found")

def serveAcme (ctx : ProxyRequestContext) : ProxyM G Unit :=
  match serveAcmeHttp01Challenge W ctx.path with
  | some r => refuseWith W ctx r
  | none => return ()

def retryAfterText (seconds : ℚ) : Text := Nat.toDigits 10 (max seconds.floor.toNat 1)

def checkSecurity (ctx : ProxyRequestContext) : ProxyM G Unit :=
  match ctx.remoteIp with
  | none => return ()
  | some ip => do
      let decision ← Handler.update fun s =>
        let (decision, security) :=
          s.security.check (W.unixMs .security) (W.clock .security) ctx.domain ip
        (decision, { s with security })
      match decision with
      | .allowed => return ()
      | .blocked _ => refuse W ctx 403 "request blocked"
      | .rateLimited retryAfter =>
        refuseWith W ctx
          ((errorResponse W 429 "rate limited" ctx.domain ctx.path).insertText (G := G)
            "retry-after" (retryAfterText retryAfter))

def findRoute (host : Text) (ctx : ProxyRequestContext) : ProxyM G RouteMatch := do
  let s ← Handler.get
  match find s.table host ctx.path with
  | some matched => return matched
  | none => refuseDiagnostic W ctx 404 .routeNotRegistered none

def redirectsToApex (rules : DomainRules) (domain routeDomain : Text) : Bool :=
  rules.redirectWwwToApex && rules.wwwAlias && domain != routeDomain &&
    (domain.stripPrefix "www.").any fun base => base == routeDomain

def redirectWwwToApex (ctx : ProxyRequestContext) (matched : RouteMatch) : ProxyM G Unit :=
  let rules := matched.route.rules
  if redirectsToApex rules ctx.domain matched.route.domain then
    let scheme : Text :=
      if rules.redirectHttpToHttps || rules.requireHttps then "https" else ctx.scheme.asStr
    let location := scheme ++ "://".toList ++ matched.route.domain ++ ctx.path ++
      match req.uri.query with
      | some query => '?' :: query
      | none => []
    refuseWith W ctx
      ((responseWithBody 308 "text/plain; charset=utf-8" (.text [])).insertText (G := G)
        "location" location)
  else return ()

def rejectionResponse (ctx : ProxyRequestContext) (rules : DomainRules)
    (rejection : PolicyRejection) : Response :=
  let r :=
    if rejection.status = 204 then
      responseWithBody rejection.status "text/plain; charset=utf-8" (.text [])
    else errorResponse W rejection.status rejection.message ctx.domain ctx.path
  let r := (rejection.location.map fun location =>
    r.insertText (G := G) "location" location).getD r
  let r := (rejection.retryAfter.map fun retryAfter =>
    r.insertText (G := G) "retry-after" (retryAfterText retryAfter)).getD r
  r.mapHeaders fun h => applyResponseRules G h rules (req.headers.get Header.origin)

def checkRules (ctx : ProxyRequestContext) (rules : DomainRules) : ProxyM G Unit := do
  let rejection ← Handler.update fun s =>
    let (rejection, policy) := s.policy.evaluate W req rules ctx
    (rejection, { s with policy })
  match rejection with
  | none => return ()
  | some rejection => refuseWith W ctx (rejectionResponse W req ctx rules rejection)

def checkBandwidth (ctx : ProxyRequestContext) (rules : DomainRules) : ProxyM G Unit :=
  match rules.bandwidthLimit, W.bandwidth with
  | some limit, some tracker =>
    if limit.enabled ∧ (tracker.checkLimit ctx.domain limit.maxBytesPerMonth
        limit.maxBytesPerDay).getD true = false then
      refuseWith W ctx
        (bandwidthExceededResponse W
          ((statusFromU16 (limit.exceededStatusCode.getD 509)).getD 429) ctx.domain ctx.path
          ((tracker.monthlyUsage ctx.domain).getD 0)
          ((limit.maxBytesPerMonth.or limit.maxBytesPerDay).getD 0) limit.resetDayOfMonth)
    else return ()
  | _, _ => return ()

def checkBasicAuth (ctx : ProxyRequestContext) (middleware : EffectiveMiddleware) :
    ProxyM G Unit :=
  match middleware.basicAuth.bind fun config =>
      evaluateBasicAuth W req config ctx.domain ctx.path with
  | some r => refuseWith W ctx r
  | none => return ()

def checkDigestAuth (ctx : ProxyRequestContext) (middleware : EffectiveMiddleware) :
    ProxyM G Unit :=
  match middleware.digestAuth with
  | none => return ()
  | some config => do
      let refusal ← Handler.update fun s =>
        let (refusal, policy) := s.policy.evaluateDigestAuth W req config ctx.domain ctx.path
        (refusal, { s with policy })
      match refusal with
      | some r => refuseWith W ctx r
      | none => return ()

def checkForwardAuth (ctx : ProxyRequestContext) (middleware : EffectiveMiddleware)
    (source : RouteSource) : ProxyM G Unit :=
  match middleware.forwardAuth with
  | none => return ()
  | some config => do
      match ← runForwardAuth W req config source with
      | .ok true => return ()
      | .ok false => refuse W ctx 401 "forward auth denied the request"
      | .error _ => refuse W ctx 502 "forward auth request failed"

structure Admission where
  host : Text
  path : Text
  matched : RouteMatch

def RouteMatch.middleware (m : RouteMatch) : EffectiveMiddleware :=
  .fromRules m.route.rules m.path.middlewares

def admitRequest : ProxyM G Admission := do
  let (host, path) ← readTarget W conn req
  let ctx := targetContext W conn req host path
  serveAcme W ctx
  checkSecurity W ctx
  let matched ← findRoute W host ctx
  redirectWwwToApex W req ctx matched
  checkRules W req ctx matched.route.rules
  checkBandwidth W ctx matched.route.rules
  checkBasicAuth W req ctx matched.middleware
  checkDigestAuth W req ctx matched.middleware
  checkForwardAuth W req ctx matched.middleware matched.route.source
  return ⟨host, path, matched⟩

end Stages

/-! ### What a stage that lets a request pass has checked -/

section Checked

variable {G : Grammar} {W : World G} {conn : Connection} {req : Request G} {s : EdgeState}
  {ctx : ProxyRequestContext}

lemma readTarget_returns :
    Returns (fun t s' => s' = s ∧ canonicalizePath req.uri.path = .ok t.2 ∧
      requestHost req = some t.1) (readTarget W conn req) s := by
  rw [readTarget]
  split
  · exact refuseWith_returns _
  · next path hpath =>
    split
    · exact refuseWith_returns _
    · next host hhost => exact .pure ⟨rfl, hpath, hhost⟩

lemma serveAcme_returns : Returns (fun _ s' => s' = s) (serveAcme W ctx) s := by
  rw [serveAcme]
  split
  · exact refuseWith_returns _
  · exact .pure rfl

lemma checkSecurity_returns :
    Returns (fun _ s' => s'.table = s.table ∧ s'.policy = s.policy ∧
      ∀ ip, ctx.remoteIp = some ip →
        s.security.Allows (W.unixMs .security) (W.clock .security) ctx.domain ip)
      (checkSecurity W ctx) s := by
  rw [checkSecurity]
  split
  · next hnone => exact .pure ⟨rfl, rfl, fun ip hip => nomatch hnone.symm.trans hip⟩
  · next ip hip =>
    refine .bind (P := fun decision s' => s'.table = s.table ∧ s'.policy = s.policy ∧
        decision = (s.security.check (W.unixMs .security) (W.clock .security) ctx.domain ip).1)
      (.update ⟨rfl, rfl, rfl⟩) ?_
    rintro decision s' ⟨htable, hpolicy, hdecision⟩
    split
    · refine .pure ⟨htable, hpolicy, fun ip' hip' => ?_⟩
      obtain rfl : ip = ip' := Option.some.inj (hip.symm.trans hip')
      exact SecurityEngine.check_allowed hdecision.symm
    · exact refuseWith_returns _
    · exact refuseWith_returns _

lemma findRoute_returns {host : Text} :
    Returns (fun m s' => s' = s ∧ find s.table host ctx.path = some m)
      (findRoute W host ctx) s := by
  refine .bind (P := fun a s' => a = s ∧ s' = s) (.get ⟨rfl, rfl⟩) ?_
  rintro _ _ ⟨rfl, rfl⟩
  split
  · next m hm => exact .pure ⟨rfl, hm⟩
  · exact refuseDiagnostic_returns _ _ _

lemma redirectWwwToApex_returns {matched : RouteMatch} :
    Returns (fun _ s' => s' = s) (redirectWwwToApex W req ctx matched) s := by
  rw [redirectWwwToApex]
  split
  · exact refuseWith_returns _
  · exact .pure rfl

variable {rules : DomainRules}

lemma checkRules_returns :
    Returns (fun _ s' => s'.policy.digestReplays = s.policy.digestReplays ∧
      RulesHold W s.policy req rules ctx) (checkRules W req ctx rules) s := by
  obtain ⟨rates, bots, hframe⟩ := evaluate_frame W s.policy req rules ctx
  refine .bind (P := fun rejection s' => s'.policy.digestReplays = s.policy.digestReplays ∧
    rejection = (s.policy.evaluate W req rules ctx).1) (.update ⟨?_, rfl⟩) ?_
  · have hreplays := congrArg PolicyEnforcer.digestReplays hframe
    exact hreplays
  · rintro rejection s' ⟨hreplays, hrejection⟩
    split
    · exact .pure ⟨hreplays, evaluate_eq_none hrejection.symm⟩
    · exact refuseWith_returns _

lemma checkBandwidth_returns :
    Returns (fun _ s' => s' = s) (checkBandwidth W ctx rules) s := by
  rw [checkBandwidth]
  split
  · split
    · exact refuseWith_returns _
    · exact .pure rfl
  · exact .pure rfl

variable {middleware : EffectiveMiddleware}

lemma checkBasicAuth_returns :
    Returns (fun _ s' => s' = s ∧ ∀ config, middleware.basicAuth = some config →
      config.enabled = true → BasicAccepts W req config)
      (checkBasicAuth W req ctx middleware) s := by
  rw [checkBasicAuth]
  split
  · exact refuseWith_returns _
  · next hnone =>
    refine .pure ⟨rfl, fun config hconfig henabled => ?_⟩
    rw [hconfig] at hnone
    exact basicAccepts_of_evaluate henabled hnone

lemma checkDigestAuth_returns :
    Returns (fun _ _ => ∀ config, middleware.digestAuth = some config →
      config.enabled = true → DigestAccepts W req s.policy config ctx.path)
      (checkDigestAuth W req ctx middleware) s := by
  rw [checkDigestAuth]
  split
  · next hnone => exact .pure fun config hconfig => nomatch hnone.symm.trans hconfig
  · next config hconfig =>
    refine .bind (P := fun refusal _ =>
        refusal = (s.policy.evaluateDigestAuth W req config ctx.domain ctx.path).1)
      (.update rfl) ?_
    intro refusal s' hrefusal
    split
    · exact refuseWith_returns _
    · refine .pure fun config' hconfig' henabled => ?_
      obtain rfl : config = config' := Option.some.inj (hconfig.symm.trans hconfig')
      exact digestAccepts_of_evaluate henabled hrefusal.symm

lemma checkForwardAuth_returns {source : RouteSource} :
    Returns (fun _ _ => ∀ config, middleware.forwardAuth = some config →
      config.enabled = true → ForwardAuthAccepts W req config)
      (checkForwardAuth W req ctx middleware source) s := by
  rw [checkForwardAuth]
  split
  · next hnone => exact .pure fun config hconfig => nomatch hnone.symm.trans hconfig
  · next config hconfig =>
    refine .bind runForwardAuth_returns ?_
    rintro r s' ⟨-, haccepts⟩
    split
    · refine .pure fun config' hconfig' henabled => ?_
      obtain rfl : config = config' := Option.some.inj (hconfig.symm.trans hconfig')
      exact haccepts rfl henabled
    · exact refuseWith_returns _
    · exact refuseWith_returns _

structure Routed (s : EdgeState) (req : Request G) (adm : Admission) : Prop where
  path : canonicalizePath req.uri.path = .ok adm.path
  host : requestHost req = some adm.host
  matched : find s.table adm.host adm.path = some adm.matched

lemma Routed.unique {adm adm' : Admission} (h : Routed s req adm) (h' : Routed s req adm') :
    adm = adm' := by
  obtain ⟨host, path, matched⟩ := adm
  obtain ⟨host', path', matched'⟩ := adm'
  obtain rfl : path = path' := Except.ok.inj (h.path.symm.trans h'.path)
  obtain rfl : host = host' := Option.some.inj (h.host.symm.trans h'.host)
  obtain rfl : matched = matched' := Option.some.inj (h.matched.symm.trans h'.matched)
  rfl

structure Admitted (W : World G) (conn : Connection) (req : Request G) (s : EdgeState)
    (adm : Admission) : Prop extends Routed s req adm where
  security : ∀ ip, remoteIp W conn req = some ip →
    s.security.Allows (W.unixMs .security) (W.clock .security) (normalizeDomain adm.host) ip
  rules : RulesHold W s.policy req adm.matched.route.rules
    (targetContext W conn req adm.host adm.path)
  basicAuth : ∀ config, adm.matched.middleware.basicAuth = some config →
    config.enabled = true → BasicAccepts W req config
  digestAuth : ∀ config, adm.matched.middleware.digestAuth = some config →
    config.enabled = true → DigestAccepts W req s.policy config adm.path
  forwardAuth : ∀ config, adm.matched.middleware.forwardAuth = some config →
    config.enabled = true → ForwardAuthAccepts W req config

lemma admitRequest_returns :
    Returns (fun adm _ => Admitted W conn req s adm) (admitRequest W conn req) s := by
  refine .bind readTarget_returns ?_
  rintro ⟨host, path⟩ _ ⟨rfl, hpath, hhost⟩
  refine .bind serveAcme_returns ?_
  rintro _ _ rfl
  refine .bind checkSecurity_returns ?_
  rintro _ s₁ ⟨htable, hpolicy, hsecurity⟩
  refine .bind findRoute_returns ?_
  rintro m _ ⟨rfl, hm⟩
  refine .bind redirectWwwToApex_returns ?_
  rintro _ _ rfl
  refine .bind checkRules_returns ?_
  rintro _ s₂ ⟨hreplays, hrules⟩
  refine .bind checkBandwidth_returns ?_
  rintro _ _ rfl
  refine .bind checkBasicAuth_returns ?_
  rintro _ _ ⟨rfl, hbasic⟩
  refine .bind checkDigestAuth_returns ?_
  intro _ _ hdigest
  refine .bind checkForwardAuth_returns ?_
  intro _ _ hforward
  refine .pure ?_
  exact
    { path := hpath
      host := hhost
      matched := htable ▸ hm
      security := hsecurity
      rules := hpolicy ▸ hrules
      basicAuth := hbasic
      digestAuth := fun config hconfig henabled =>
        (hdigest config hconfig henabled).congr (hreplays.trans (by rw [hpolicy]))
      forwardAuth := hforward }

/-! ### Properties of the stages -/

section Properties

variable {allowed : EdgeState → EdgeState → Prop}
  {Φ : (α : Type) → ProxyM G α → EdgeState → Prop}

section Stages

variable (h : StageProperty W ctx allowed Φ)

include h

lemma StageProperty.serveAcme : Φ Unit (serveAcme W ctx) s := by
  have hstatus : ∀ r, serveAcmeHttp01Challenge W ctx.path = some r → r.status ≠ 413 := by
    intro r hr
    rw [serveAcmeHttp01Challenge, Option.bind_eq_bind, Option.bind_eq_some_iff] at hr
    obtain ⟨token, -, hr⟩ := hr
    split at hr
    · obtain rfl := Option.some.inj hr
      decide
    · split at hr <;>
      · obtain rfl := Option.some.inj hr
        simp [textResponse, responseWithBody]
  rw [PxxlEdge.serveAcme]
  split
  · next r hr => exact h.refuseWith fun hlarge => hstatus r hr hlarge.1
  · exact h.pure _ _

lemma StageProperty.checkSecurity : Φ Unit (checkSecurity W ctx) s := by
  rw [PxxlEdge.checkSecurity]
  split
  · exact h.pure _ _
  · refine h.bind (h.update _ _ (h.counters ⟨rfl, rfl⟩)) fun decision _ => ?_
    split
    · exact h.pure _ _
    · exact h.refuse (by decide)
    · exact h.refuseWith (not_tooLarge_insertText (by decide))

lemma StageProperty.findRoute {host : Text} : Φ RouteMatch (findRoute W host ctx) s := by
  refine h.bind (h.get _) fun s' _ => ?_
  split
  · exact h.pure _ _
  · exact h.refuseDiagnostic (by decide)

lemma StageProperty.redirectWwwToApex {matched : RouteMatch} :
    Φ Unit (redirectWwwToApex W req ctx matched) s := by
  rw [PxxlEdge.redirectWwwToApex]
  split
  · exact h.refuseWith fun hlarge => absurd hlarge.1 (by decide : ¬ 308 = 413)
  · exact h.pure _ _

lemma StageProperty.checkRules
    (hrejects : ∀ rejection s', (s.policy.evaluate W req rules ctx).1 = some rejection →
      Φ Unit (PxxlEdge.refuseWith W ctx (rejectionResponse W req ctx rules rejection)) s') :
    Φ Unit (checkRules W req ctx rules) s := by
  obtain ⟨rates, bots, hframe⟩ := evaluate_frame W s.policy req rules ctx
  have hsame := congrArg PolicyEnforcer.inFlightLimits hframe
  refine h.bind (h.update _ _ (h.counters ⟨hsame, rfl⟩)) fun rejection hrejection => ?_
  cases rejection with
  | none => exact h.pure _ _
  | some rejection => exact hrejects rejection _ (Except.ok.inj hrejection)

lemma StageProperty.checkBandwidth :
    Φ Unit (checkBandwidth W ctx rules) s := by
  rw [PxxlEdge.checkBandwidth]
  split
  · split
    -- the status is configured, but the page is another one
    · exact h.refuseWith fun hlarge => nomatch hlarge.2
    · exact h.pure _ _
  · exact h.pure _ _

lemma StageProperty.checkBasicAuth :
    Φ Unit (checkBasicAuth W req ctx middleware) s := by
  rw [PxxlEdge.checkBasicAuth]
  split
  · next r hr =>
    obtain ⟨config, -, hr⟩ := Option.bind_eq_some_iff.mp hr
    rw [evaluateBasicAuth] at hr
    split at hr
    · cases hr
    · split at hr
      · cases hr
      · obtain rfl := Option.some.inj hr
        exact h.refuseWith (not_tooLarge_insertText (by decide))
  · exact h.pure _ _

lemma StageProperty.checkDigestAuth :
    Φ Unit (checkDigestAuth W req ctx middleware) s := by
  rw [PxxlEdge.checkDigestAuth]
  split
  · exact h.pure _ _
  · next config _ =>
    obtain ⟨hother, replays, hframe⟩ :=
      evaluateDigestAuth_frame W req s.policy config ctx.domain ctx.path
    have hsame := congrArg PolicyEnforcer.inFlightLimits hframe
    refine h.bind (h.update _ _ (h.counters ⟨hsame, rfl⟩)) fun refusal hrefusal => ?_
    cases refusal with
    | none => exact h.pure _ _
    | some r => exact h.refuseWith (hother r (Except.ok.inj hrefusal))

lemma StageProperty.checkForwardAuth {source : RouteSource}
    (hasks : ∀ config, middleware.forwardAuth = some config → config.enabled = true →
      Φ Unit (Handler.emit (.authRequest config.url (forwardAuthHeaders req config))) s) :
    Φ Unit (checkForwardAuth W req ctx middleware source) s := by
  rw [PxxlEdge.checkForwardAuth]
  split
  · exact h.pure _ _
  · next config hconfig =>
    refine h.bind (runForwardAuth_composes h.toComposes (hasks config hconfig)) fun r _ => ?_
    split
    · exact h.pure _ _
    · exact h.refuse (by decide)
    · exact h.refuse (by decide)

end Stages

lemma admitRequest_composes (h : Composes allowed Φ) (hreads : Φ _ (readTarget W conn req) s)
    (hstages : ∀ host path, canonicalizePath req.uri.path = .ok path →
      requestHost req = some host → StageProperty W (targetContext W conn req host path) allowed Φ)
    (hrejects : ∀ adm policy rejection s', Routed s req adm →
      (PolicyEnforcer.evaluate policy W req adm.matched.route.rules
        (targetContext W conn req adm.host adm.path)).1 = some rejection →
      Φ Unit (refuseWith W (targetContext W conn req adm.host adm.path)
        (rejectionResponse W req (targetContext W conn req adm.host adm.path)
          adm.matched.route.rules rejection)) s')
    (hasks : ∀ adm config s', Routed s req adm →
      adm.matched.middleware.forwardAuth = some config → config.enabled = true →
      Φ Unit (Handler.emit (.authRequest config.url (forwardAuthHeaders req config))) s') :
    Φ Admission (admitRequest W conn req) s := by
  refine h.bind hreads ?_
  rintro ⟨host, path⟩ htarget
  obtain ⟨hs, hpath, hhost⟩ := readTarget_returns _ htarget
  have hstage := hstages host path hpath hhost
  refine hstage.bind hstage.serveAcme fun _ hacme => ?_
  refine hstage.bind hstage.checkSecurity fun _ hsecurity => ?_
  refine hstage.bind hstage.findRoute fun m hm => ?_
  have htable := (checkSecurity_returns _ hsecurity).1
  have hrouted : Routed s req ⟨host, path, m⟩ := by
    refine ⟨hpath, hhost, ?_⟩
    have hfind := (findRoute_returns m hm).2
    rw [htable, serveAcme_returns _ hacme, hs] at hfind
    exact hfind
  have hrejects' := fun policy rejection s' => hrejects _ policy rejection s' hrouted
  have hasks' := fun config s' => hasks _ config s' hrouted
  refine hstage.bind hstage.redirectWwwToApex fun _ _ => ?_
  refine hstage.bind (hstage.checkRules (hrejects' _)) fun _ _ => ?_
  refine hstage.bind hstage.checkBandwidth fun _ _ => ?_
  refine hstage.bind hstage.checkBasicAuth fun _ _ => ?_
  refine hstage.bind hstage.checkDigestAuth fun _ _ => ?_
  exact hstage.bind (hstage.checkForwardAuth fun config => hasks' config _) fun _ _ => h.pure _ _

end Properties

/-! ### What the stages send -/

variable {φ : Event G → Prop}

lemma readTarget_events (hφ : ∀ e : Event G, e.Bookkeeping → φ e) :
    AllEvents φ (readTarget W conn req) s := by
  rw [readTarget]
  split
  · exact refuseWith_events hφ _
  · split
    · exact refuseWith_events hφ _
    · exact .pure _

lemma admitRequest_events (hφ : ∀ e : Event G, e.Bookkeeping → φ e)
    (hauth : ∀ adm config, Routed s req adm →
      adm.matched.middleware.forwardAuth = some config → config.enabled = true →
      φ (.authRequest config.url (forwardAuthHeaders req config))) :
    AllEvents φ (admitRequest W conn req) s :=
  admitRequest_composes AllEvents.composes (readTarget_events hφ)
    (fun _ _ _ _ => stageProperty_events hφ) (fun _ _ _ _ _ _ => refuseWith_events hφ _)
    fun adm config _ hr hconfig henabled => .emit (hauth adm config hr hconfig henabled)

end Checked

end PxxlEdge
