import PxxlEdge.Control.Requests
import PxxlEdge.Core.Published

/-!
The route writes at run time: an event, an internal route update or a posted
domain changes the registry first and writes the route to Redis afterwards.

A Redis entry is modelled by the route it decodes to.
-/

namespace PxxlEdge

open RustStd Atomic

/-! ### The registry and Redis -/

def upsertApiRoute (table : RouteTable) (route : Route) : RouteTable × Bool :=
  if table.routes.any fun existing => apiRoutesEquivalent existing route then (table, false)
  else ((Call.upsertApiRoute route).prog.exec table, true)

structure Stores where
  table : RouteTable
  redis : Map Text Route

inductive HsetOutcome where
  | unreachable (error : Text)
  | failed (error : Text) (made : Bool)
  | stored

structure WriteEnv where
  now : Int := 0
  unixNow : ℕ := 0
  lookup : Resolver := fun _ _ => none
  hset : HsetOutcome := .stored
  saveError : Option Text := none

section Writes

variable (U : UrlParser) (vars : EnvVars)

def persistedRoute (route : Route) : Route :=
  { route with source := .api, domain := normalizeDomain route.domain }

def redisUpsertRoute (hset : HsetOutcome) (route : Route) (redis : Map Text Route) :
    Except Text Unit × Map Text Route :=
  let persisted := persistedRoute route
  match hset with
  | .unreachable error => (.error error, redis)
  | .failed error made =>
    match persisted.validateForDynamicControlPlane U vars with
    | .error reason =>
      (.error ("invalid route " ++ persisted.domain ++ ": " ++ reason), redis)
    | .ok () => (.error error, if made then redis.insert persisted.domain persisted else redis)
  | .stored =>
    match persisted.validateForDynamicControlPlane U vars with
    | .error reason =>
      (.error ("invalid route " ++ persisted.domain ++ ": " ++ reason), redis)
    | .ok () => (.ok (), redis.insert persisted.domain persisted)

def commitRoute (env : WriteEnv) (route : Route) (s : Stores) : Except Text Bool × Stores :=
  let upserted := upsertApiRoute s.table route
  if upserted.2 then
    let written := redisUpsertRoute U vars env.hset route s.redis
    (written.1.map fun _ => true, ⟨upserted.1, written.2⟩)
  else (.ok false, ⟨upserted.1, s.redis⟩)

/-! ### The writes -/

def applyRuntimeRouteEvent (env : WriteEnv) (event : RuntimeRouteEvent) (s : Stores) :
    Except Text Unit × Stores :=
  match event.intoRoute U vars env.now with
  | .error error => (.error error, s)
  | .ok none => (.ok (), s)
  | .ok (some route) =>
    let committed := commitRoute U vars env route s
    match committed.1 with
    | .error error => (.error error, committed.2)
    | .ok false => (.ok (), committed.2)
    | .ok true =>
      match env.saveError with
      | some error => (.error ("persist route snapshot: " ++ error), committed.2)
      | none => (.ok (), committed.2)

structure ApiResponse where
  status : ℕ
  error : Option Text := none
deriving DecidableEq, Repr

def internalRoute (now : Int) (unixNow : ℕ) (path : Text) (body : InternalRouteBody) :
    Except Text Route :=
  if internalRouteHost path = [] then .error "missing host"
  else
    match body.intoRoute U vars now unixNow (internalRouteHost path) with
    | .error error => .error error
    | .ok route =>
      if route.domain ≠ internalRouteHost path then .error "route host does not match URL host"
      else .ok route

def staleUpdate (table : RouteTable) (route : Route) : Bool :=
  match findDomain table route.domain with
  | some existing => existing.source == .api && decide (route.routeVersion < existing.routeVersion)
  | none => false

def upsertInternalRoute (env : WriteEnv) (path : Text) (body : InternalRouteBody) (s : Stores) :
    ApiResponse × Stores :=
  match internalRoute U vars env.now env.unixNow path body with
  | .error error => (⟨400, some error⟩, s)
  | .ok route =>
    if staleUpdate s.table route then (⟨409, some "stale route update"⟩, s)
    else
      match validateApiRouteNetworkSafety U vars env.lookup route with
      | .error error => (⟨400, some error⟩, s)
      | .ok () =>
        let committed := commitRoute U vars env route s
        match committed.1 with
        | .error error =>
          (⟨502, some ("failed to persist Redis route: " ++ error)⟩, committed.2)
        | .ok _ => (⟨200, none⟩, committed.2)

def quotaExceeded (table : RouteTable) (route : Route) : Bool :=
  let existingApiRoutes := table.routes.filter fun r => r.source = .api
  !(existingApiRoutes.any fun existing => existing.domain == route.domain) &&
    decide (maxRoutesPerSource ≤ existingApiRoutes.length)

def createDomain (env : WriteEnv) (body : DomainRouteBody) (s : Stores) : ApiResponse × Stores :=
  match body.intoRoute U vars env.now with
  | .error error => (⟨400, some error⟩, s)
  | .ok route =>
    match validateApiRouteNetworkSafety U vars env.lookup route with
    | .error error => (⟨400, some error⟩, s)
    | .ok () =>
      if quotaExceeded s.table route then
        (⟨413, some ("api route quota exceeded: max " ++
          Nat.toDigits 10 maxRoutesPerSource)⟩, s)
      else
        let committed := commitRoute U vars env route s
        match committed.1 with
        | .error error =>
          (⟨502, some ("failed to persist Redis route: " ++ error)⟩, committed.2)
        | .ok true => (⟨201, none⟩, committed.2)
        | .ok false => (⟨200, none⟩, committed.2)

end Writes

/-! ### The table after a write -/

def apiRoutesOf (table : RouteTable) (domain : Text) : List Route :=
  table.routes.filter fun r => r.source = .api ∧ r.domain = domain

def otherRoutes (table : RouteTable) (domain : Text) : List Route :=
  table.routes.filter fun r => ¬ (r.source = .api ∧ r.domain = domain)

abbrev Reachable (table : RouteTable) : Prop := Published (fun _ => True) table

lemma apiRoutesEquivalent_key {existing next : Route}
    (h : apiRoutesEquivalent existing next = true) :
    existing.source = .api ∧ next.source = .api ∧ existing.domain = next.domain := by
  simp only [apiRoutesEquivalent, Bool.and_eq_true, beq_iff_eq] at h
  exact ⟨h.1.1.1.1.1.1.1.1, h.1.1.1.1.1.1.1.2, h.1.1.1.1.1.2⟩

variable {table : RouteTable}

lemma Reachable.upsert (h : Reachable table) (route : Route) :
    Reachable (upsertApiRoute table route).1 := by
  rw [upsertApiRoute]
  split
  · exact h
  · exact ((Call.upsertApiRoute route).keeps fun _ _ => trivial).exec h

variable {route : Route}

lemma routes_upsertApiRoute (h : Reachable table)
    (hroute : route.source = .api) (hchanged : (upsertApiRoute table route).2 = true) :
    (upsertApiRoute table route).1.routes = withApiRoute route table.routes := by
  rw [upsertApiRoute] at hchanged ⊢
  split at hchanged
  · cases hchanged
  · next hany =>
    rw [if_neg hany, ← dedupeRoutes_withApiRoute h.nodup hroute, Call.prog, Prog.exec,
      if_neg hany]
    rfl

lemma upsertApiRoute_unchanged (h : (upsertApiRoute table route).2 = false) :
    (upsertApiRoute table route).1 = table ∧
      ∃ existing ∈ table.routes, apiRoutesEquivalent existing route = true := by
  rw [upsertApiRoute] at h ⊢
  split at h
  · next hany =>
    rw [if_pos hany]
    exact ⟨rfl, List.any_eq_true.mp hany⟩
  · cases h

lemma apiRoutesOf_eq (h : Reachable table) {r : Route}
    (hr : r ∈ table.routes) (hapi : r.source = .api) : apiRoutesOf table r.domain = [r] := by
  have hmem : r ∈ apiRoutesOf table r.domain := List.mem_filter.mpr ⟨hr, by simp [hapi]⟩
  exact eq_singleton_of_mem hmem (h.invariant.oneApi r.domain)

lemma upsertApiRoute_frame (h : Reachable table) (hroute : route.source = .api) :
    otherRoutes (upsertApiRoute table route).1 route.domain = otherRoutes table route.domain ∧
      ∃ installed, apiRoutesOf (upsertApiRoute table route).1 route.domain = [installed] ∧
        (installed = route ∨
          installed ∈ table.routes ∧ apiRoutesEquivalent installed route = true) := by
  cases hchanged : (upsertApiRoute table route).2 with
  | false =>
    obtain ⟨hsame, existing, hmem, hequiv⟩ := upsertApiRoute_unchanged hchanged
    obtain ⟨hapi, -, hdomain⟩ := apiRoutesEquivalent_key hequiv
    rw [hsame, ← hdomain]
    exact ⟨rfl, existing, apiRoutesOf_eq h hmem hapi, .inr ⟨hmem, hequiv⟩⟩
  | true =>
    have hroutes := routes_upsertApiRoute h hroute hchanged
    refine ⟨?_, route, ?_, .inl rfl⟩
    · rw [otherRoutes, otherRoutes, hroutes, withApiRoute, withoutApiDomain_eq,
        List.filter_append, List.filter_filter]
      simp [hroute]
    · have hmem : route ∈ (upsertApiRoute table route).1.routes := by
        rw [hroutes, withApiRoute]
        simp
      exact apiRoutesOf_eq (h.upsert route) hmem hroute

lemma apiRoutesOf_eq_filter {domain d : Text} (hne : d ≠ domain) (table : RouteTable) :
    apiRoutesOf table d =
      (otherRoutes table domain).filter fun r => r.source = .api ∧ r.domain = d := by
  rw [otherRoutes, List.filter_filter, apiRoutesOf]
  refine List.filter_congr fun r _ => ?_
  rw [Bool.eq_iff_iff, Bool.and_eq_true, decide_eq_true_iff, decide_eq_true_iff]
  exact ⟨fun h => ⟨h, fun h' => hne (h.2.symm.trans h'.2)⟩, fun h => h.1⟩

lemma apiRoutesOf_upsert_of_ne (h : Reachable table)
    (hroute : route.source = .api) {d : Text} (hne : d ≠ route.domain) :
    apiRoutesOf (upsertApiRoute table route).1 d = apiRoutesOf table d := by
  rw [apiRoutesOf_eq_filter hne, apiRoutesOf_eq_filter hne, (upsertApiRoute_frame h hroute).1]

lemma apiRoutesOf_upsert_changed (h : Reachable table)
    (hroute : route.source = .api) (hchanged : (upsertApiRoute table route).2 = true) :
    apiRoutesOf (upsertApiRoute table route).1 route.domain = [route] := by
  refine apiRoutesOf_eq (h.upsert route) ?_ hroute
  rw [routes_upsertApiRoute h hroute hchanged, withApiRoute]
  simp

def deleteApiDomain (table : RouteTable) (domain : Text) : RouteTable :=
  (Call.deleteApiDomain domain).prog.exec table

lemma Reachable.delete (h : Reachable table) (domain : Text) :
    Reachable (deleteApiDomain table domain) :=
  ((Call.deleteApiDomain domain).keeps fun _ _ => trivial).exec h

lemma routes_deleteApiDomain (h : Reachable table) (domain : Text) :
    (deleteApiDomain table domain).routes = otherRoutes table domain := by
  have hkept : dedupeRoutes (withoutApiDomain domain table.routes) =
      withoutApiDomain domain table.routes :=
    lastByKey_of_nodup (h.nodup.sublist (List.filter_sublist.map dedupeKey))
  rw [otherRoutes, ← withoutApiDomain_eq, ← hkept]
  rfl

lemma apiRoutesOf_delete (h : Reachable table) (domain : Text) :
    apiRoutesOf (deleteApiDomain table domain) domain = [] := by
  rw [apiRoutesOf, routes_deleteApiDomain h, otherRoutes, List.filter_filter]
  simp

lemma apiRoutesOf_delete_of_ne (h : Reachable table) {d domain : Text}
    (hne : d ≠ domain) : apiRoutesOf (deleteApiDomain table domain) d = apiRoutesOf table d := by
  rw [apiRoutesOf_eq_filter hne table, apiRoutesOf, routes_deleteApiDomain h]

lemma persistedRoute_eq (hsource : route.source = .api)
    (hnormal : normalizeDomain route.domain = route.domain) : persistedRoute route = route := by
  cases route
  simp_all [persistedRoute]

lemma intoRoute_of_internalRoute {U : UrlParser} {vars : EnvVars} {now : Int} {unixNow : ℕ}
    {path : Text} {body : InternalRouteBody}
    (h : internalRoute U vars now unixNow path body = .ok route) :
    body.intoRoute U vars now unixNow (internalRouteHost path) = .ok route ∧
      route.domain = internalRouteHost path := by
  rw [internalRoute] at h
  split_ifs at h
  cases hinto : body.intoRoute U vars now unixNow (internalRouteHost path) with
  | error error => simp [hinto] at h
  | ok route' =>
    simp only [hinto] at h
    split_ifs at h with hdomain
    obtain rfl := Except.ok.inj h
    exact ⟨rfl, not_not.mp hdomain⟩

lemma internalRoute_eq_ok {U : UrlParser} {vars : EnvVars} {now : Int} {unixNow : ℕ}
    {path : Text} {body : InternalRouteBody}
    (h : internalRoute U vars now unixNow path body = .ok route) :
    route.source = .api ∧ route.domain = internalRouteHost path := by
  obtain ⟨hinto, hdomain⟩ := intoRoute_of_internalRoute h
  exact ⟨(body.intoRoute_eq_ok hinto).2, hdomain⟩

/-! ### Events -/

section Events

variable (U : UrlParser) (vars : EnvVars)

lemma table_commitRoute (env : WriteEnv) (route : Route) (s : Stores) :
    (commitRoute U vars env route s).2.table = (upsertApiRoute s.table route).1 := by
  rw [commitRoute]
  cases (upsertApiRoute s.table route).2 with
  | false => rfl
  | true => rfl

lemma stores_applyRuntimeRouteEvent {env : WriteEnv} {event : RuntimeRouteEvent}
    (h : event.intoRoute U vars env.now = .ok (some route)) (s : Stores) :
    (applyRuntimeRouteEvent U vars env event s).2 = (commitRoute U vars env route s).2 := by
  rw [applyRuntimeRouteEvent, h]
  dsimp only
  split
  · rfl
  · rfl
  · split <;> rfl

lemma apiRoutesEquivalent_self (hsource : route.source = .api)
    (hrules : route.rules = {}) : apiRoutesEquivalent route route = true := by
  have hself : (route.rules == route.rules) = true := by
    rw [hrules]
    rfl
  simp [apiRoutesEquivalent, hsource, hself]

/-- **What an event changes.**  The route of the event takes the place of the API route of
its domain (or an equivalent one is there already): its only path is the one of the event,
with the event's upstream, and its rules are the default ones.  Every other route stays, in
its place. -/
theorem event_replaces_route (env : WriteEnv) (event : RuntimeRouteEvent) (route : Route)
    (s : Stores) (hreachable : Reachable s.table)
    (haccepted : event.intoRoute U vars env.now = .ok (some route)) :
    otherRoutes (applyRuntimeRouteEvent U vars env event s).2.table route.domain =
        otherRoutes s.table route.domain ∧
      (∃ installed,
        apiRoutesOf (applyRuntimeRouteEvent U vars env event s).2.table route.domain =
          [installed] ∧ apiRoutesEquivalent installed route = true) ∧
      route.paths = [PathRoute.new event.eventPath
        [Upstream.new (runtimeRouteUpstreamUrl event)]] ∧
      route.rules = {} := by
  obtain ⟨-, rfl⟩ := event.intoRoute_eq_some haccepted
  have hsource : (event.newRoute env.now).source = .api := rfl
  obtain ⟨hother, installed, hinstalled, hroute⟩ := upsertApiRoute_frame hreachable hsource
  rw [stores_applyRuntimeRouteEvent U vars haccepted, table_commitRoute]
  refine ⟨hother, ⟨installed, hinstalled, ?_⟩, rfl, rfl⟩
  rcases hroute with rfl | ⟨-, hequiv⟩
  · exact apiRoutesEquivalent_self hsource rfl
  · exact hequiv

end Events

def guardedRoute : Route where
  id := "api-a.com"
  domain := "a.com"
  source := .api
  paths := [{ pathPrefix := "/", upstreams := [{ url := "http://web.example" }] },
    { pathPrefix := "/api", upstreams := [{ url := "http://api.example" }] }]
  rules := { waf := { enabled := true } }

def containerStarted : RuntimeRouteEvent where
  eventType := "container.started"
  domain := "a.com"
  upstreamUrl := "http://new.example"

theorem event_replaces_route_container_started :
    ∃ route, containerStarted.intoRoute .basic (fun _ => none) 0 = .ok (some route) ∧
      otherRoutes (applyRuntimeRouteEvent .basic (fun _ => none) {} containerStarted
          ⟨RouteTable.new [guardedRoute], ∅⟩).2.table route.domain = [] ∧
      ∃ installed,
        apiRoutesOf (applyRuntimeRouteEvent .basic (fun _ => none) {} containerStarted
          ⟨RouteTable.new [guardedRoute], ∅⟩).2.table route.domain = [installed] ∧
        apiRoutesEquivalent installed route = true := by
  have hvalid : (containerStarted.newRoute 0).validateForDynamicControlPlane .basic
      (fun _ => none) = .ok () := by
    decide
  have haccepted : containerStarted.intoRoute .basic (fun _ => none) 0 =
      .ok (some (containerStarted.newRoute 0)) := by
    rw [RuntimeRouteEvent.intoRoute, hvalid]
    rfl
  obtain ⟨hother, hinstalled, -⟩ := event_replaces_route .basic (fun _ => none) {}
    containerStarted _ ⟨RouteTable.new [guardedRoute], ∅⟩ ⟨[guardedRoute], fun _ _ => trivial, rfl⟩
    haccepted
  exact ⟨_, haccepted, hother.trans rfl, hinstalled⟩

/-- The event for `/` removes the path `/api` and switches the firewall off. -/
theorem event_drops_paths_and_rules :
    (apiRoutesOf (RouteTable.new [guardedRoute]) "a.com").map
        (fun r => (r.paths.map PathRoute.pathPrefix, r.rules.waf.enabled)) =
      [(["/".toList, "/api".toList], true)] ∧
    (apiRoutesOf (applyRuntimeRouteEvent .basic (fun _ => none) {} containerStarted
        ⟨RouteTable.new [guardedRoute], ∅⟩).2.table "a.com").map
        (fun r => (r.paths.map PathRoute.pathPrefix, r.rules.waf.enabled)) =
      [(["/".toList], false)] := by
  decide

end PxxlEdge
