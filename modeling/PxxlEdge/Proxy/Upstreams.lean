import PxxlEdge.Proxy.Auth

/-!
The choice of an upstream, and what is remembered about it: circuit breakers,
requests in flight and passive health.

Functions that read the clock for each upstream take their readings one by one.

* `mem_availableUpstreams`: only healthy upstreams of the pool are available, and
  primary and backup ones are kept apart.
-/

namespace PxxlEdge

open RustStd Http

def joinKey (parts : List Text) : Text := List.intercalate ":" parts

def circuitKey (routeId pathPrefix upstream : Text) : Text :=
  joinKey [routeId, pathPrefix, upstream]

def routeHealthKey (domain pathPrefix upstream : Text) : Text :=
  joinKey [domain, pathPrefix, upstream]

/-! ### Circuit breakers -/

def PolicyEnforcer.circuitIsOpen (policy : PolicyEnforcer) (now : ℕ) (matched : RouteMatch)
    (upstream : Text) : Bool × PolicyEnforcer :=
  let key := circuitKey matched.route.id matched.path.pathPrefix upstream
  match policy.circuitBreakers.get key with
  | none => (false, policy)
  | some breaker =>
    if breaker.openUntil.any fun openUntil => decide (now < openUntil) then (true, policy)
    else
      (false,
        { policy with
          circuitBreakers := policy.circuitBreakers.insert key
            { breaker with openUntil := none } })

def PolicyEnforcer.availableUpstreams (matched : RouteMatch) (backup : Bool) (clock : ℕ → ℕ) :
    ℕ → PolicyEnforcer → List Upstream → List Upstream × PolicyEnforcer
  | _, policy, [] => ([], policy)
  | i, policy, upstream :: upstreams =>
    if upstream.backup = backup ∧ upstream.healthy then
      let (isOpen, policy) := policy.circuitIsOpen (clock i) matched upstream.url
      let (rest, policy) := availableUpstreams matched backup clock (i + 1) policy upstreams
      (if isOpen then rest else upstream :: rest, policy)
    else availableUpstreams matched backup clock (i + 1) policy upstreams

lemma mem_availableUpstreams {matched : RouteMatch} {backup : Bool} {clock : ℕ → ℕ} {i : ℕ}
    {policy : PolicyEnforcer} {upstreams : List Upstream} {u : Upstream}
    (hu : u ∈ (PolicyEnforcer.availableUpstreams matched backup clock i policy upstreams).1) :
    u ∈ upstreams ∧ u.backup = backup ∧ u.healthy = true := by
  induction upstreams generalizing i policy with
  | nil => simp [PolicyEnforcer.availableUpstreams] at hu
  | cons x upstreams ih =>
    rw [PolicyEnforcer.availableUpstreams] at hu
    split at hu
    · next hx =>
      dsimp only at hu
      split at hu
      · exact (ih hu).imp_left (List.mem_cons_of_mem _)
      · rcases List.mem_cons.mp hu with rfl | hu
        · exact ⟨List.mem_cons_self, hx⟩
        · exact (ih hu).imp_left (List.mem_cons_of_mem _)
    · exact (ih hu).imp_left (List.mem_cons_of_mem _)

def PolicyEnforcer.recordCircuitResult (policy : PolicyEnforcer) (now : ℕ)
    (config : CircuitBreakerConfig) (matched : RouteMatch) (upstream : Text) (status : ℕ)
    (error : Bool) : PolicyEnforcer :=
  if ¬ config.enabled then policy
  else
    let key := circuitKey matched.route.id matched.path.pathPrefix upstream
    let breaker := (policy.circuitBreakers.get key).getD {}
    let breaker : CircuitBreakerState :=
      if error || isServerError status then
        let failures := min (breaker.failures + 1) (2 ^ 32 - 1)
        if max config.failureThreshold 1 ≤ failures then
          ⟨failures, some (now + max config.openSeconds 1 * 1000000000)⟩
        else { breaker with failures }
      else ⟨0, none⟩
    { policy with circuitBreakers := policy.circuitBreakers.insert key breaker }

/-! ### Requests in flight -/

def inFlightKey (limit : InFlightLimitConfig) (matched : RouteMatch) (upstream : Upstream) : Text :=
  match limit.scope with
  | .domain => matched.route.domain
  | .upstream => joinKey [matched.route.id, matched.path.pathPrefix, upstream.url]
  | .route => joinKey [matched.route.id, matched.path.pathPrefix]

def PolicyEnforcer.tryAcquireInFlight (policy : PolicyEnforcer) (limit : InFlightLimitConfig)
    (matched : RouteMatch) (upstream : Upstream) :
    Except InFlightLimitScope (Option Text) × PolicyEnforcer :=
  if ¬ limit.enabled then (.ok none, policy)
  else
    match limit.max with
    | none => (.ok none, policy)
    | some max =>
      let key := inFlightKey limit matched upstream
      let current := (policy.inFlightLimits.get key).getD 0
      if max ≤ current then
        (.error limit.scope,
          { policy with inFlightLimits := policy.inFlightLimits.insert key current })
      else
        (.ok (some key),
          { policy with inFlightLimits := policy.inFlightLimits.insert key (current + 1) })

def PolicyEnforcer.releaseInFlight (policy : PolicyEnforcer) (key : Option Text) :
    PolicyEnforcer :=
  match key with
  | none => policy
  | some key =>
    match policy.inFlightLimits.get key with
    | none => policy
    | some n => { policy with inFlightLimits := policy.inFlightLimits.insert key (n - 1) }

/-! ### Passive health -/

def recordPassiveHealth (s : EdgeState) (config : PassiveHealthConfig)
    (domain pathPrefix upstream : Text) (status : ℕ) (error : Bool) :
    Option RouteUpstreamHealth × EdgeState :=
  if ¬ config.enabled then (none, s)
  else
    let failed := error || config.failureStatuses.any (· == status) || isServerError status
    let key := routeHealthKey domain pathPrefix upstream
    let failures :=
      if failed then min ((s.policy.passiveHealth.get key).getD 0 + 1) (2 ^ 32 - 1) else 0
    let s := { s with
      policy := { s.policy with passiveHealth := s.policy.passiveHealth.insert key failures } }
    if failed ∧ max config.failureThreshold 1 ≤ failures then
      let update : RouteUpstreamHealth := ⟨domain, pathPrefix, upstream, false⟩
      let s :=
        if update.ignored then s
        else { s with table := .new (withRouteUpstreamHealth update s.table.routes) }
      (some { update with healthy := true }, s)
    else (none, s)

/-! ### Pools -/

def matchingTrafficSplits (rules : DomainRules) (location : GeoLocation) : List TrafficSplitRule :=
  rules.trafficSplits.filter fun rule =>
    !rule.upstreams.isEmpty &&
      (rule.countries.isEmpty || locationCodeMatches location.countryCode rule.countries) &&
      (rule.continents.isEmpty || locationCodeMatches location.continentCode rule.continents)

def locationUpstreams (rules : DomainRules) (location : GeoLocation) :
    Option (Text × List Upstream) :=
  rules.locationRoutes.findSome? fun rule =>
    if rule.upstreams.isEmpty then none
    else if (rule.countries.isEmpty || locationCodeMatches location.countryCode rule.countries) &&
        (rule.continents.isEmpty ||
          locationCodeMatches location.continentCode rule.continents) then
      some
        (rule.name.getD
          (joinKey ["geo", List.intercalate "_" rule.countries,
            List.intercalate "_" rule.continents]),
          rule.upstreams)
    else none

def baseRouteKey (matched : RouteMatch) : Text :=
  joinKey [matched.route.id, matched.path.pathPrefix]

def selectUpstreamPool (lb : LoadBalancer) (matched : RouteMatch) (location : GeoLocation) :
    (Text × List Upstream) × LoadBalancer :=
  let byLocation : Text × List Upstream :=
    match locationUpstreams matched.route.rules location with
    | some (name, upstreams) => (":location:" ++ name, upstreams)
    | none => ([], matched.path.upstreams)
  let splits := matchingTrafficSplits matched.route.rules location
  if splits = [] then (byLocation, lb)
  else
    let (index, lb) := lb.selectWeightedIndex (baseRouteKey matched ++ ":traffic_split")
      (splits.map fun split => split.weight)
    match index.bind fun i => (splits[i]?).map fun split => (i, split) with
    | some (i, split) =>
      let name := split.name.getD ("weighted-" ++ Nat.toDigits 10 i)
      ((":split:" ++ name, split.upstreams), lb)
    | none => (byLocation, lb)

lemma exists_of_locationUpstreams {rules : DomainRules} {location : GeoLocation} {name : Text}
    {upstreams : List Upstream} (h : locationUpstreams rules location = some (name, upstreams)) :
    ∃ rule ∈ rules.locationRoutes, rule.upstreams = upstreams := by
  obtain ⟨rule, hrule, hsome⟩ := List.exists_of_findSome?_eq_some h
  split at hsome
  · cases hsome
  · split at hsome
    · exact ⟨rule, hrule, congrArg Prod.snd (Option.some.inj hsome)⟩
    · cases hsome

lemma selectUpstreamPool_cases (lb : LoadBalancer) (matched : RouteMatch)
    (location : GeoLocation) :
    (∃ split ∈ matchingTrafficSplits matched.route.rules location,
        (selectUpstreamPool lb matched location).1.2 = split.upstreams) ∨
      (∃ rule ∈ matched.route.rules.locationRoutes,
        (selectUpstreamPool lb matched location).1.2 = rule.upstreams) ∨
      (selectUpstreamPool lb matched location).1.2 = matched.path.upstreams := by
  rw [selectUpstreamPool]
  dsimp only
  split
  · split
    · next hlocation =>
      obtain ⟨rule, hrule, rfl⟩ := exists_of_locationUpstreams hlocation
      exact .inr (.inl ⟨rule, hrule, rfl⟩)
    · exact .inr (.inr rfl)
  · split
    · next i split hindex =>
      obtain ⟨j, -, hsplit⟩ := Option.bind_eq_some_iff.mp hindex
      obtain ⟨split', hsplit', heq⟩ := Option.map_eq_some_iff.mp hsplit
      obtain rfl : split' = split := congrArg Prod.snd heq
      exact .inl ⟨split', List.mem_of_getElem? hsplit', rfl⟩
    · split
      · next hlocation =>
        obtain ⟨rule, hrule, rfl⟩ := exists_of_locationUpstreams hlocation
        exact .inr (.inl ⟨rule, hrule, rfl⟩)
      · exact .inr (.inr rfl)

/-! ### The choice -/

section Choice

variable {G : Grammar} (W : World G)

def stickyChoice (policy : PolicyEnforcer) (matched : RouteMatch) (upstreams : List Upstream)
    (headers : HeaderMap) (middleware : EffectiveMiddleware) :
    Option Upstream × PolicyEnforcer :=
  match stickyUpstream G headers upstreams middleware.stickySessions with
  | none => (none, policy)
  | some upstream =>
    if upstream.healthy then
      let (isOpen, policy) := policy.circuitIsOpen (W.clock .circuit 0) matched upstream.url
      (if isOpen then none else some upstream, policy)
    else (none, policy)

def selectAvailableUpstream (s : EdgeState) (routeKey : Text) (matched : RouteMatch)
    (upstreams : List Upstream) (remoteIp : Option IpAddr) (headers : HeaderMap)
    (middleware : EffectiveMiddleware) : Option Upstream × EdgeState :=
  match stickyChoice W s.policy matched upstreams headers middleware with
  | (some upstream, policy) => (some upstream, { s with policy })
  | (none, policy) =>
    let (primary, policy) :=
      PolicyEnforcer.availableUpstreams matched false (W.clock .circuit) 1 policy upstreams
    match s.loadBalancer.select W.hashes routeKey matched.route.algorithm primary remoteIp with
    | (some upstream, loadBalancer) => (some upstream, { s with policy, loadBalancer })
    | (none, loadBalancer) =>
      let (backup, policy) :=
        PolicyEnforcer.availableUpstreams matched true (W.clock .circuit)
          (upstreams.length + 1) policy upstreams
      let (upstream, loadBalancer) :=
        loadBalancer.select W.hashes routeKey matched.route.algorithm backup remoteIp
      (upstream, { s with policy, loadBalancer })

def PolicyEnforcer.allOpen (matched : RouteMatch) (clock : ℕ → ℕ) :
    ℕ → PolicyEnforcer → List Upstream → Bool × PolicyEnforcer
  | _, policy, [] => (true, policy)
  | i, policy, upstream :: upstreams =>
    let (isOpen, policy) := policy.circuitIsOpen (clock i) matched upstream.url
    if isOpen then allOpen matched clock (i + 1) policy upstreams else (false, policy)

def routeUnavailableReason (policy : PolicyEnforcer) (matched : RouteMatch)
    (upstreams : List Upstream) : ProxyErrorReason × PolicyEnforcer :=
  let healthy := upstreams.filter fun upstream => upstream.healthy
  if upstreams = [] then (.routeHasNoUpstreams, policy)
  else if healthy = [] then (.allUpstreamsUnhealthy, policy)
  else
    let (allOpen, policy) :=
      PolicyEnforcer.allOpen matched (W.clock .circuit) (2 * upstreams.length + 1) policy healthy
    (if allOpen then .circuitBreakerOpen else .allUpstreamsUnhealthy, policy)

end Choice

end PxxlEdge
