import PxxlEdge.Common.Path
import PxxlEdge.Lib.Iter

/-!
The route registry: one table of routes with an index by domain, replaced as a
whole by every update, and searched by host and path.

* `find`: the lookup of a request, with its fall-back to the `www.` alias of a
  base domain and the merge of the best matches.
* `findDomain`: the lookup of a domain, with all its paths.
* the mutators, each as the function from the routes it has read to the routes
  it writes; the steps in which they read and write are in `Core.Concurrent`.
-/

namespace PxxlEdge

open RustStd

/-! ### The table -/

def RouteSource.debug : RouteSource → Text
  | .static => "Static"
  | .docker => "Docker"
  | .podman => "Podman"
  | .api => "Api"

def dedupeKey (route : Route) : Text :=
  match route.source with
  | .api => "api:" ++ route.domain
  | source => source.debug ++ ":" ++ route.domain ++ ":" ++ route.id

def dedupeStep (acc : List Route × Map Text ℕ) (route : Route) : List Route × Map Text ℕ :=
  let key := dedupeKey route
  match acc.2.lookup key with
  | some index => (acc.1.set index route, acc.2)
  | none => (acc.1 ++ [route], acc.2.insert key acc.1.length)

def dedupeRoutes (routes : List Route) : List Route :=
  (routes.foldl dedupeStep ([], ∅)).1

def indexStep (byDomain : Map Text (List Route)) (route : Route) : Map Text (List Route) :=
  byDomain.insert route.domain ((byDomain.lookup route.domain).getD [] ++ [route])

def routesOf (byDomain : Map Text (List Route)) (domain : Text) : List Route :=
  (byDomain.lookup domain).getD []

lemma routesOf_indexStep (byDomain : Map Text (List Route)) (route : Route) (domain : Text) :
    routesOf (indexStep byDomain route) domain =
      routesOf byDomain domain ++ if route.domain = domain then [route] else [] := by
  rw [routesOf, indexStep]
  by_cases hd : route.domain = domain
  · subst hd
    simp [routesOf]
  · have hne : domain ≠ route.domain := fun h => hd h.symm
    simp [routesOf, AList.lookup_insert_ne hne, hd]

lemma routesOf_foldl_indexStep (routes : List Route) (byDomain : Map Text (List Route))
    (domain : Text) :
    routesOf (routes.foldl indexStep byDomain) domain =
      routesOf byDomain domain ++ routes.filter fun r => r.domain = domain := by
  induction routes generalizing byDomain with
  | nil => simp
  | cons route routes ih =>
    rw [List.foldl_cons, ih, routesOf_indexStep, List.append_assoc, List.filter_cons]
    by_cases hd : route.domain = domain <;> simp [hd]

structure RouteTable where
  routes : List Route
  byDomain : Map Text (List Route)
  indexed : ∀ domain, routesOf byDomain domain = routes.filter fun r => r.domain = domain

def RouteTable.new (routes : List Route) : RouteTable where
  routes := dedupeRoutes routes
  byDomain := (dedupeRoutes routes).foldl indexStep ∅
  indexed := fun domain => by
    rw [routesOf_foldl_indexStep]
    simp [routesOf]

/-! ### Lookup -/

def Route.bestPath (route : Route) (path : Text) : Option PathRoute :=
  maxByKey (fun p => p.pathPrefix.len) (route.paths.filter fun p => p.matches path)

def sourcePriority : RouteSource → ℕ
  | .static => 1
  | .docker => 2
  | .podman => 2
  | .api => 3

def wwwAliasBase (domain : Text) : Option Text :=
  (domain.stripPrefix "www.").filter fun base => base ≠ [] ∧ ¬ base.startsWith "www."

def isApexLikeDomain (domain : Text) : Bool :=
  ((domain.splitOn '.').filter fun part => part ≠ []).length == 2

def routeAllowsWwwAlias (domain : Text) (wwwAlias : Bool) : Bool :=
  wwwAlias && !domain.startsWith "www." && isApexLikeDomain domain

def matchingRoutes (table : RouteTable) (domain path : Text) (requireWwwAlias : Bool) :
    List RouteMatch :=
  ((routesOf table.byDomain domain).filter fun route =>
      !requireWwwAlias || routeAllowsWwwAlias route.domain route.rules.wwwAlias).filterMap
    fun route => (route.bestPath path).map fun p => { route, path := p }

def extendUniqueUpstreams (target upstreams : List Upstream) : List Upstream :=
  extendUniqueBy Upstream.url target upstreams

def extendUniqueMiddlewares (target middlewares : List Text) : List Text :=
  extendUniqueBy id target middlewares

def RouteMatch.absorb (merged matched : RouteMatch) : RouteMatch where
  route := merged.route
  path :=
    { merged.path with
      upstreams := extendUniqueUpstreams merged.path.upstreams matched.path.upstreams
      middlewares := extendUniqueMiddlewares merged.path.middlewares matched.path.middlewares }

def selectMatches (ms : List RouteMatch) : List RouteMatch :=
  match (ms.map fun m => m.path.pathPrefix.len).max? with
  | none => []
  | some bestPrefixLen =>
    match ((ms.filter fun m => m.path.pathPrefix.len == bestPrefixLen).map fun m =>
        sourcePriority m.route.source).max? with
    | none => []
    | some bestPriority =>
      ms.filter fun m => m.path.pathPrefix.len == bestPrefixLen &&
        sourcePriority m.route.source == bestPriority

def mergeBestRouteMatches (ms : List RouteMatch) : Option RouteMatch :=
  match selectMatches ms with
  | [] => none
  | first :: rest =>
    let merged := rest.foldl RouteMatch.absorb first
    some { merged with route := { merged.route with paths := [merged.path] } }

def findMatches (table : RouteTable) (normalizedHost path : Text) : List RouteMatch :=
  let ms := matchingRoutes table normalizedHost path false
  if ms.isEmpty then
    match wwwAliasBase normalizedHost with
    | some baseDomain => matchingRoutes table baseDomain path true
    | none => ms
  else ms

def find (table : RouteTable) (host path : Text) : Option RouteMatch :=
  let normalizedHost := normalizeDomain host
  if normalizedHost = [] then none
  else mergeBestRouteMatches (findMatches table normalizedHost path)

def mergeDomainPath (paths : Map Text PathRoute) (path : PathRoute) : Map Text PathRoute :=
  let entry := (paths.lookup path.pathPrefix).getD { path with upstreams := [] }
  paths.insert path.pathPrefix
    { entry with
      upstreams := extendUniqueUpstreams entry.upstreams path.upstreams
      middlewares := extendUniqueMiddlewares entry.middlewares path.middlewares }

def mergeBestDomainRoutes (routes : List Route) : Option Route :=
  match (routes.map fun r => sourcePriority r.source).max? with
  | none => none
  | some bestPriority =>
    match routes.filter fun r => sourcePriority r.source == bestPriority with
    | [] => none
    | [route] => some route
    | first :: rest =>
      let paths := ((first :: rest).flatMap Route.paths).foldl mergeDomainPath ∅
      -- a `BTreeMap` is read in the order of its keys
      some { first with
        paths := (paths.entries.map fun e => e.2).insertionSort fun p q =>
          Text.isLe p.pathPrefix q.pathPrefix = true }

def findDomain (table : RouteTable) (domain : Text) : Option Route :=
  let normalized := normalizeDomain domain
  match mergeBestDomainRoutes (routesOf table.byDomain normalized) with
  | some route => some route
  | none =>
    (wwwAliasBase normalized).bind fun baseDomain =>
      mergeBestDomainRoutes <| (routesOf table.byDomain baseDomain).filter fun route =>
        routeAllowsWwwAlias route.domain route.rules.wwwAlias

/-! ### Updates -/

def apiRoutesEquivalent (existing next : Route) : Bool :=
  existing.source == .api && next.source == .api && existing.id == next.id &&
    existing.domain == next.domain && existing.paths == next.paths &&
    existing.tls == next.tls && existing.algorithm == next.algorithm &&
    existing.rules == next.rules && existing.routeVersion == next.routeVersion

def withSource (source : RouteSource) (routes snapshot : List Route) : List Route :=
  (snapshot.filter fun r => r.source != source) ++ routes

def withoutApiDomain (domain : Text) (snapshot : List Route) : List Route :=
  snapshot.filter fun r => !(r.source == .api && r.domain == domain)

def withApiRoute (route : Route) (snapshot : List Route) : List Route :=
  withoutApiDomain route.domain snapshot ++ [route]

def Route.mapUpstreams (route : Route) (onPath : PathRoute → Bool) (f : Upstream → Upstream) :
    Route :=
  { route with
    paths := route.paths.map fun p =>
      if onPath p then { p with upstreams := p.upstreams.map f } else p
    rules :=
      { route.rules with
        trafficSplits := route.rules.trafficSplits.map fun s =>
          { s with upstreams := s.upstreams.map f }
        locationRoutes := route.rules.locationRoutes.map fun l =>
          { l with upstreams := l.upstreams.map f } } }

def withUpstreamHealth (health : Map Text Bool) (snapshot : List Route) : List Route :=
  snapshot.map fun route =>
    route.mapUpstreams (fun _ => true) fun u =>
      match health.lookup u.url with
      | some healthy => { u with healthy }
      | none => u

structure RouteUpstreamHealth where
  domain : Text
  pathPrefix : Text
  upstreamUrl : Text
  healthy : Bool
deriving DecidableEq, Repr

def RouteUpstreamHealth.ignored (update : RouteUpstreamHealth) : Bool :=
  normalizeDomain update.domain == [] || update.upstreamUrl.trim == []

def withRouteUpstreamHealth (update : RouteUpstreamHealth) (snapshot : List Route) :
    List Route :=
  snapshot.map fun route =>
    if route.domain ≠ normalizeDomain update.domain then route
    else
      route.mapUpstreams (fun p => p.pathPrefix == update.pathPrefix) fun u =>
        if u.url = update.upstreamUrl then { u with healthy := update.healthy } else u

def withRouteUpstreamHealthMany (updates : List RouteUpstreamHealth) (snapshot : List Route) :
    List Route :=
  updates.foldl
    (fun routes update =>
      if update.ignored then routes else withRouteUpstreamHealth update routes) snapshot

end PxxlEdge
