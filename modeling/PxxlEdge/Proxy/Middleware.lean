import PxxlEdge.Core.FindSpec

/-!
The middleware of a request: the names attached to the matched path are expanded
through chains and looked up in the rules of the matched route.
-/

namespace PxxlEdge

open RustStd List

/-! ### Effective middleware -/

structure EffectiveMiddleware where
  requestBuffering : BufferingConfig := {}
  responseBuffering : BufferingConfig := {}
  compression : CompressionConfig := {}
  contentTypeAutodetect : ContentTypeAutoDetectConfig := {}
  retry : RetryConfig := {}
  circuitBreaker : CircuitBreakerConfig := {}
  inFlightLimit : InFlightLimitConfig := {}
  stickySessions : StickySessionConfig := {}
  passiveHealth : PassiveHealthConfig := {}
  trafficMirroring : TrafficMirrorConfig := {}
  clientCertForwarding : ClientCertForwardingConfig := {}
  basicAuth : Option BasicAuthConfig := none
  digestAuth : Option DigestAuthConfig := none
  forwardAuth : Option ForwardAuthConfig := none

def expandMiddlewareNames (rules : DomainRules) : ℕ → List Text → List Text
  | 0, _ => []
  | levels + 1, names =>
    names.flatMap fun name =>
      match rules.middlewareChains.lookup name with
      | some chain => expandMiddlewareNames rules levels chain
      | none =>
        name ::
          match rules.middlewares.lookup name with
          | some middleware => expandMiddlewareNames rules levels middleware.chain
          | none => []

def middlewareLevels : ℕ := 9

def appliedMiddlewares (rules : DomainRules) (names : List Text) :
    List (Text × MiddlewareDefinition) :=
  (expandMiddlewareNames rules middlewareLevels names).filterMap fun name =>
    (rules.middlewares.lookup name).map fun middleware => (name, middleware)

def EffectiveMiddleware.apply (effective : EffectiveMiddleware)
    (middleware : MiddlewareDefinition) : EffectiveMiddleware :=
  { effective with
    basicAuth := middleware.basicAuth <|> effective.basicAuth
    forwardAuth := middleware.forwardAuth <|> effective.forwardAuth
    digestAuth := middleware.digestAuth <|> effective.digestAuth
    requestBuffering := middleware.requestBuffering.getD effective.requestBuffering
    responseBuffering := middleware.responseBuffering.getD effective.responseBuffering
    compression := middleware.compression.getD effective.compression
    contentTypeAutodetect :=
      middleware.contentTypeAutodetect.getD effective.contentTypeAutodetect
    retry := middleware.retry.getD effective.retry
    circuitBreaker := middleware.circuitBreaker.getD effective.circuitBreaker
    inFlightLimit := middleware.inFlightLimit.getD effective.inFlightLimit
    clientCertForwarding := middleware.passTlsClientCert.getD effective.clientCertForwarding }

def EffectiveMiddleware.fromRules (rules : DomainRules) (names : List Text) :
    EffectiveMiddleware :=
  (appliedMiddlewares rules names).foldl (fun effective e => effective.apply e.2)
    { requestBuffering := rules.requestBuffering
      responseBuffering := rules.responseBuffering
      compression := rules.compression
      contentTypeAutodetect := rules.contentTypeAutodetect
      retry := rules.retry
      circuitBreaker := rules.circuitBreaker
      inFlightLimit := rules.inFlightLimit
      stickySessions := rules.stickySessions
      passiveHealth := rules.passiveHealth
      trafficMirroring := rules.trafficMirroring
      clientCertForwarding := rules.clientCertForwarding }

def requestBodyLimit (rules : DomainRules) (middleware : EffectiveMiddleware) : ℕ :=
  min (rules.maxBodyBytes.getD middleware.requestBuffering.maxRequestBytes)
    middleware.requestBuffering.maxRequestBytes

def requiresBufferedForwarding (middleware : EffectiveMiddleware) (strictBodyLimit : Bool) :
    Bool :=
  strictBodyLimit || middleware.requestBuffering.enabled || middleware.responseBuffering.enabled ||
    middleware.retry.enabled || middleware.compression.enabled ||
    middleware.contentTypeAutodetect.enabled ||
    (middleware.trafficMirroring.enabled && !middleware.trafficMirroring.upstreams.isEmpty &&
      decide (0 < middleware.trafficMirroring.percent))

/-! ### Which definitions are applied -/

section Expansion

variable {rules : DomainRules} {names : List Text} {name : Text}

lemma mem_expandMiddlewareNames (hname : name ∈ names)
    (hchain : rules.middlewareChains.lookup name = none) (levels : ℕ) :
    name ∈ expandMiddlewareNames rules (levels + 1) names := by
  rw [expandMiddlewareNames, mem_flatMap]
  exact ⟨name, hname, by simp [hchain]⟩

lemma not_mem_expandMiddlewareNames {chain : List Text}
    (hchain : rules.middlewareChains.lookup name = some chain) (levels : ℕ) (names : List Text) :
    name ∉ expandMiddlewareNames rules levels names := by
  induction levels generalizing names with
  | zero => simp [expandMiddlewareNames]
  | succ levels ih =>
    rw [expandMiddlewareNames, mem_flatMap]
    rintro ⟨n, -, hn⟩
    cases hc : rules.middlewareChains.lookup n with
    | some c =>
      rw [hc] at hn
      exact ih c hn
    | none =>
      simp only [hc] at hn
      rcases mem_cons.mp hn with rfl | hn
      · simp [hchain] at hc
      · cases hm : rules.middlewares.lookup n with
        | some mw =>
          rw [hm] at hn
          exact ih mw.chain hn
        | none => simp [hm] at hn

lemma mem_appliedMiddlewares {d : MiddlewareDefinition} :
    (name, d) ∈ appliedMiddlewares rules names ↔
      name ∈ expandMiddlewareNames rules middlewareLevels names ∧
        rules.middlewares.lookup name = some d := by
  simp only [appliedMiddlewares, mem_filterMap, Option.map_eq_some_iff, Prod.mk.injEq]
  constructor
  · rintro ⟨n, hn, d', hd', rfl, rfl⟩
    exact ⟨hn, hd'⟩
  · rintro ⟨hn, hd⟩
    exact ⟨name, hn, d, hd, rfl, rfl⟩

lemma mem_appliedMiddlewares_iff (hname : name ∈ names) {d : MiddlewareDefinition} :
    (name, d) ∈ appliedMiddlewares rules names ↔
      rules.middlewareChains.lookup name = none ∧ rules.middlewares.lookup name = some d := by
  rw [mem_appliedMiddlewares]
  cases hchain : rules.middlewareChains.lookup name with
  | none => simp [mem_expandMiddlewareNames hname hchain, middlewareLevels]
  | some chain => simp [not_mem_expandMiddlewareNames hchain]

end Expansion

lemma foldl_apply_isSome {β : Type} (get : EffectiveMiddleware → Option β)
    (getDef : MiddlewareDefinition → Option β)
    (hget : ∀ e d, get (EffectiveMiddleware.apply e d) = (getDef d <|> get e))
    (l : List (Text × MiddlewareDefinition)) (e : EffectiveMiddleware)
    (h : (get e).isSome = true ∨ ∃ x ∈ l, (getDef x.2).isSome = true) :
    (get (l.foldl (fun effective x => effective.apply x.2) e)).isSome = true := by
  induction l generalizing e with
  | nil => simpa using h
  | cons x l ih =>
    refine ih (e.apply x.2) ?_
    rw [hget]
    cases hx : getDef x.2 with
    | some b => exact .inl rfl
    | none =>
      rcases h with h | ⟨y, hy, hsome⟩
      · exact .inl (by simpa using h)
      · rcases mem_cons.mp hy with rfl | hy
        · simp [hx] at hsome
        · exact .inr ⟨y, hy, hsome⟩

lemma fromRules_auth {rules : DomainRules} {names : List Text} {name : Text}
    {d : MiddlewareDefinition} (h : (name, d) ∈ appliedMiddlewares rules names) :
    (d.basicAuth.isSome = true → (EffectiveMiddleware.fromRules rules names).basicAuth.isSome) ∧
    (d.digestAuth.isSome = true → (EffectiveMiddleware.fromRules rules names).digestAuth.isSome) ∧
    (d.forwardAuth.isSome = true →
      (EffectiveMiddleware.fromRules rules names).forwardAuth.isSome) :=
  ⟨fun hd => foldl_apply_isSome (·.basicAuth) (·.basicAuth) (fun _ _ => rfl) _ _
      (.inr ⟨_, h, hd⟩),
    fun hd => foldl_apply_isSome (·.digestAuth) (·.digestAuth) (fun _ _ => rfl) _ _
      (.inr ⟨_, h, hd⟩),
    fun hd => foldl_apply_isSome (·.forwardAuth) (·.forwardAuth) (fun _ _ => rfl) _ _
      (.inr ⟨_, h, hd⟩)⟩

/-! ### Middleware of merged routes -/

def Contributes (table : RouteTable) (host path : Text) (n : ℕ) (name : Text)
    (d : MiddlewareDefinition) : Prop :=
  ∃ r p, Selected table host path n r ∧ r.bestPath path = some p ∧ name ∈ p.middlewares ∧
    r.rules.middlewares.lookup name = some d

lemma find_rules_and_names {table : RouteTable} {host path : Text} {n : ℕ} {m : RouteMatch}
    {first : Route} (hn : LongestPrefix table (normalizeDomain host) path n)
    (hm : find table host path = some m)
    (hfirst : (selectedRoutes table (normalizeDomain host) path n).head? = some first) :
    m.route.rules = first.rules ∧
      ∀ name d, Contributes table (normalizeDomain host) path n name d →
        name ∈ m.path.middlewares := by
  obtain ⟨hlongest, first', hfirst', hroute, -, -, hnames⟩ := find_eq_some hm
  obtain rfl := hn.unique hlongest
  rw [← map_route_selectMatches hn, head?_map, hfirst', Option.map_some,
    Option.some.injEq] at hfirst
  refine ⟨by rw [hroute, hfirst], ?_⟩
  rintro name d ⟨r, p, hr, hp, hname, -⟩
  exact (hnames name).mpr ⟨⟨r, p⟩, (mem_selectMatches_findMatches hn).mpr ⟨hr, hp⟩, hname⟩

def container (id : Text) (rules : DomainRules) (middlewares : List Text) : Route where
  id
  domain := "a.com"
  source := .docker
  rules
  paths := [{ pathPrefix := "/", upstreams := [{ url := "http://" ++ id }], middlewares }]

def authRules : DomainRules where
  middlewares := Map.ofList [("auth", { basicAuth := some {} })]

end PxxlEdge
