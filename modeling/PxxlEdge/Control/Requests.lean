import PxxlEdge.Common.Validate

/-!
The route writes that come in at run time: the events of the runtime, the
internal route updates and the domains posted to the admin API.  Each of them
asks for one API route, which passes the checks of the control plane before it
enters the registry.

Bodies are taken as they come out of the JSON decoder; `project_id`,
`deployment_id` and `container_id` of an event are only logged.
-/

namespace PxxlEdge

open RustStd

/-! ### Runtime events -/

structure RuntimeRouteEvent where
  eventType : Text := []
  domain : Text := []
  path : Text := []
  upstreamUrl : Text := []
  runtimeServerIp : Text := []
  publishedPort : Text := []
deriving DecidableEq, Repr

def runtimeRouteUpstreamUrl (event : RuntimeRouteEvent) : Text :=
  if event.upstreamUrl.trim ≠ [] then event.upstreamUrl.trim
  else if event.runtimeServerIp.trim = [] ∨ event.publishedPort.trim = [] then []
  else "http://" ++ event.runtimeServerIp.trim ++ ":" ++ event.publishedPort.trim

def routeEventTypes : List Text := ["container.started", "container.healthy", "route.promote"]

def RuntimeRouteEvent.eventDomain (event : RuntimeRouteEvent) : Text :=
  (event.domain.trim.trimEndMatches '.').toAsciiLowercase

def RuntimeRouteEvent.eventPath (event : RuntimeRouteEvent) : Text :=
  if event.path.trim = [] then "/" else event.path.trim

def RuntimeRouteEvent.newRoute (now : Int) (event : RuntimeRouteEvent) : Route :=
  { Route.new ("runtime-" ++ event.eventDomain) now event.eventDomain
      [PathRoute.new event.eventPath [Upstream.new (runtimeRouteUpstreamUrl event)]] .api with
    tls := true }

def RuntimeRouteEvent.intoRoute (U : UrlParser) (vars : EnvVars) (now : Int)
    (event : RuntimeRouteEvent) : Except Text (Option Route) :=
  if ¬ routeEventTypes.contains event.eventType.trim then .ok none
  else if event.eventDomain = [] then .ok none
  else if runtimeRouteUpstreamUrl event = [] then .ok none
  else
    match (event.newRoute now).validateForDynamicControlPlane U vars with
    | .error reason =>
      .error ("invalid runtime route event for " ++ event.eventDomain ++ ": " ++
        reason)
    | .ok () => .ok (some (event.newRoute now))

/-! ### Internal route updates -/

structure InternalRouteBody where
  host : Option Text := none
  domain : Option Text := none
  path : Option Text := none
  projectId : Option Text := none
  deploymentId : Option Text := none
  containerId : Option Text := none
  upstream : Option Text := none
  upstreamUrl : Option Text := none
  upstreamHost : Option Text := none
  upstreamPort : Option ℕ := none
  routeVersion : Option ℕ := none
  status : Option Text := none
  tls : Option Bool := none
  rules : DomainRules := {}

def InternalRouteBody.requestedUrl (body : InternalRouteBody) : Option Text :=
  match ((body.upstream.or body.upstreamUrl).map Text.trim).filter fun value => value ≠ [] with
  | some upstream =>
    if Text.startsWith upstream "http://" ∨ Text.startsWith upstream "https://" then some upstream
    else some ("http://" ++ upstream)
  | none => do
      let host ← body.upstreamHost
      let port ← body.upstreamPort
      if host.trim = [] ∨ port = 0 then none
      else some ("http://" ++ host.trim ++ ":" ++ Nat.toDigits 10 port)

def insertHeader (name : Text) (field : Option Text) (headers : Map Text Text) : Map Text Text :=
  match field.filter fun value => value.trim ≠ [] with
  | some value => headers.insert name value
  | none => headers

def InternalRouteBody.routeRules (body : InternalRouteBody) : DomainRules :=
  { body.rules with
    allowWebsocket := true
    wwwAlias := true
    addRequestHeaders :=
      insertHeader "x-pxxl-route-status" body.status <|
      insertHeader "x-pxxl-container-id" body.containerId <|
      insertHeader "x-pxxl-deployment-id" body.deploymentId <|
      insertHeader "x-pxxl-project-id" body.projectId body.rules.addRequestHeaders }

def InternalRouteBody.routeDomain (body : InternalRouteBody) (fallbackHost : Text) : Text :=
  normalizeDomain ((body.host.or body.domain).getD fallbackHost)

def InternalRouteBody.newRoute (now : Int) (unixNow : ℕ) (body : InternalRouteBody)
    (domain upstreamUrl : Text) : Route :=
  { Route.new ("runtime-" ++ domain) now domain
      [PathRoute.new (body.path.getD "/") [Upstream.new upstreamUrl]] .api with
    tls := body.tls.getD true
    routeVersion := body.routeVersion.getD unixNow
    rules := body.routeRules }

def InternalRouteBody.intoRoute (U : UrlParser) (vars : EnvVars) (now : Int) (unixNow : ℕ)
    (body : InternalRouteBody) (fallbackHost : Text) : Except Text Route :=
  if body.routeDomain fallbackHost = [] then .error "host is required"
  else
    match body.requestedUrl with
    | none => .error "upstream or upstreamHost/upstreamPort is required for route update"
    | some upstreamUrl => do
        let route := body.newRoute now unixNow (body.routeDomain fallbackHost) upstreamUrl
        route.validateForDynamicControlPlane U vars
        return route

def internalRouteHost (path : Text) : Text :=
  normalizeDomain ((Text.trimStartText "/internal/routes/" path).trimMatches '/')

/-! ### Posted domains -/

structure UpstreamBody where
  url : Text
  weight : ℕ := 1
  backup : Bool := false
  transport : UpstreamTransport := {}
deriving DecidableEq, Repr

def UpstreamBody.intoUpstream (body : UpstreamBody) : Upstream where
  url := body.url
  weight := max body.weight 1
  healthy := true
  backup := body.backup
  transport := body.transport

structure PathBody where
  pathPrefix : Text := "/"
  upstreams : List UpstreamBody := []
  middlewares : List Text := []
deriving DecidableEq, Repr

structure DomainRouteBody where
  domain : Text
  id : Option Text := none
  path : Option Text := none
  tls : Option Bool := none
  algorithm : LoadBalancingAlgorithm := .roundRobin
  upstreams : List UpstreamBody := []
  paths : List PathBody := []
  rules : DomainRules := {}

def PathBody.intoPath (body : PathBody) : Except Text PathRoute :=
  if body.upstreams = [] then .error "each path needs at least one upstream"
  else
    .ok
      { pathPrefix := normalizePathPrefix body.pathPrefix
        upstreams := body.upstreams.map UpstreamBody.intoUpstream
        middlewares := body.middlewares }

def DomainRouteBody.routePaths (body : DomainRouteBody) : Except Text (List PathRoute) :=
  if body.paths = [] then
    if body.upstreams = [] then .error "at least one upstream is required"
    else
      .ok
        [{ pathPrefix := normalizePathPrefix (body.path.getD "/")
           upstreams := body.upstreams.map UpstreamBody.intoUpstream }]
  else body.paths.mapM PathBody.intoPath

def DomainRouteBody.newRoute (now : Int) (body : DomainRouteBody) (paths : List PathRoute) :
    Route :=
  { Route.new (body.id.getD ("api-" ++ normalizeDomain body.domain)) now
      (normalizeDomain body.domain) paths .api with
    tls := body.tls.getD true
    algorithm := body.algorithm
    rules := body.rules }

def DomainRouteBody.intoRoute (U : UrlParser) (vars : EnvVars) (now : Int)
    (body : DomainRouteBody) : Except Text Route := do
  if normalizeDomain body.domain = [] then .error "domain is required"
  let paths ← body.routePaths
  let route := body.newRoute now paths
  route.validateForDynamicControlPlane U vars
  return route

/-! ### The network check -/

def validateApiRouteNetworkSafety (U : UrlParser) (vars : EnvVars) (lookup : Resolver)
    (route : Route) : Except Text Unit := do
  route.allUpstreams.forM fun upstream =>
    validateApiUpstreamNetworkSafety U vars lookup upstream.url
  forForwardAuth (fun forwardAuth =>
    validateApiUpstreamNetworkSafety U vars lookup forwardAuth.url) route.rules

/-! ### What all of them ask for -/

lemma RuntimeRouteEvent.intoRoute_eq_some {U : UrlParser} {vars : EnvVars} {now : Int}
    {event : RuntimeRouteEvent} {route : Route}
    (h : event.intoRoute U vars now = .ok (some route)) :
    (event.newRoute now).validateForDynamicControlPlane U vars = .ok () ∧
      route = event.newRoute now := by
  rw [intoRoute] at h
  split_ifs at h
  · cases h
  · cases h
  · cases hvalid : (event.newRoute now).validateForDynamicControlPlane U vars with
    | error reason => simp [hvalid] at h
    | ok u =>
      simp only [hvalid, Except.ok.injEq, Option.some.injEq] at h
      exact ⟨rfl, h.symm⟩
  · cases h

lemma InternalRouteBody.intoRoute_eq_ok {U : UrlParser} {vars : EnvVars} {now : Int}
    {unixNow : ℕ} {body : InternalRouteBody} {fallbackHost : Text} {route : Route}
    (h : body.intoRoute U vars now unixNow fallbackHost = .ok route) :
    route.validateForDynamicControlPlane U vars = .ok () ∧ route.source = .api := by
  rw [intoRoute] at h
  split_ifs at h
  cases hurl : body.requestedUrl with
  | none => simp [hurl] at h
  | some url =>
    simp only [hurl] at h
    cases hvalid : (body.newRoute now unixNow (body.routeDomain fallbackHost)
        url).validateForDynamicControlPlane U vars with
    | error reason => simp [hvalid, bind, Except.bind] at h
    | ok u =>
      simp only [hvalid, bind, Except.bind, pure, Except.pure, Except.ok.injEq] at h
      rw [← h]
      exact ⟨hvalid, rfl⟩

lemma DomainRouteBody.intoRoute_eq_ok {U : UrlParser} {vars : EnvVars} {now : Int}
    {body : DomainRouteBody} {route : Route}
    (h : body.intoRoute U vars now = .ok route) :
    route.validateForDynamicControlPlane U vars = .ok () ∧ route.source = .api := by
  rw [intoRoute] at h
  split_ifs at h
  · cases h
  · cases hpaths : body.routePaths with
    | error reason => simp [hpaths, bind, Except.bind] at h
    | ok paths =>
      cases hvalid : (body.newRoute now paths).validateForDynamicControlPlane U vars with
      | error reason => simp [hpaths, hvalid, bind, Except.bind] at h
      | ok u =>
        simp only [hpaths, hvalid, bind, Except.bind, pure, Except.pure,
          Except.ok.injEq] at h
        rw [← h]
        exact ⟨hvalid, rfl⟩

end PxxlEdge
