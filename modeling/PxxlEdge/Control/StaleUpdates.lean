import PxxlEdge.Control.Versions

/-!
When an internal update is turned down as stale.  The check asks for the route
of the host the way a lookup does: it brings the host into its normal form, takes
the routes of the highest source, and where the host has no route at all it goes
on to the base domain whose `www.` alias the host is.
-/

namespace PxxlEdge

open RustStd List

/-! ### The routes of a domain -/

lemma mergeBestDomainRoutes_eq_none_iff {routes : List Route} :
    mergeBestDomainRoutes routes = none ↔ routes = [] := by
  constructor
  · intro h
    by_contra hne
    obtain ⟨best, hbest⟩ : ∃ best, (routes.map fun r => sourcePriority r.source).max? = some best :=
      Option.isSome_iff_exists.mp (by simpa [isSome_max?_iff] using hne)
    obtain ⟨r, hr, hpriority⟩ := mem_map.mp (max?_mem hbest)
    have hmem : r ∈ routes.filter fun r => sourcePriority r.source == best :=
      mem_filter.mpr ⟨hr, by simp [hpriority]⟩
    rw [mergeBestDomainRoutes, hbest] at h
    dsimp only at h
    split at h
    · next hnil => simp [hnil] at hmem
    · cases h
    · cases h
  · rintro rfl
    rfl

lemma source_of_mergeBestDomainRoutes {routes : List Route} {merged : Route}
    (h : mergeBestDomainRoutes routes = some merged) : ∃ r ∈ routes, merged.source = r.source := by
  rw [mergeBestDomainRoutes] at h
  split at h
  · cases h
  · next best hbest =>
    split at h
    · cases h
    · next route hroutes =>
      obtain rfl := Option.some.inj h
      exact ⟨route, (mem_filter.mp (hroutes ▸ mem_singleton_self route)).1, rfl⟩
    · next first rest _ hroutes =>
      obtain rfl := Option.some.inj h
      exact ⟨first, (mem_filter.mp (hroutes ▸ mem_cons_self)).1, rfl⟩

lemma newer_mergeBestDomainRoutes_iff {routes : List Route} (version : ℕ)
    (hone : (routes.filter fun r => r.source = .api).length ≤ 1) :
    (∃ merged, mergeBestDomainRoutes routes = some merged ∧ merged.source = .api ∧
        version < merged.routeVersion) ↔
      ∃ r ∈ routes, r.source = .api ∧ version < r.routeVersion := by
  constructor
  · rintro ⟨merged, hmerged, hapi, hnewer⟩
    obtain ⟨r, hr, hsource⟩ := source_of_mergeBestDomainRoutes hmerged
    have hmem : r ∈ routes.filter fun r => r.source = .api :=
      mem_filter.mpr ⟨hr, by simp [← hsource, hapi]⟩
    have hsingle := eq_singleton_of_mem hmem hone
    obtain rfl := Option.some.inj ((mergeBestDomainRoutes_api hsingle).symm.trans hmerged)
    exact ⟨r, hr, hapi, hnewer⟩
  · rintro ⟨r, hr, hapi, hnewer⟩
    have hmem : r ∈ routes.filter fun r => r.source = .api :=
      mem_filter.mpr ⟨hr, by simp [hapi]⟩
    have hsingle := eq_singleton_of_mem hmem hone
    exact ⟨r, mergeBestDomainRoutes_api hsingle, hapi, hnewer⟩

/-! ### What the check reads -/

def NewerRoute (table : RouteTable) (host : Text) (version : ℕ) : Prop :=
  ∃ r ∈ table.routes, r.source = .api ∧ r.domain = host ∧ version < r.routeVersion

def NewerAlias (table : RouteTable) (host : Text) (version : ℕ) : Prop :=
  (∀ r ∈ table.routes, r.domain ≠ host) ∧
    ∃ r ∈ table.routes, r.source = .api ∧ wwwAliasBase host = some r.domain ∧
      routeAllowsWwwAlias r.domain r.rules.wwwAlias = true ∧ version < r.routeVersion

section Check

variable {table : RouteTable} {host : Text} {version : ℕ}

lemma mem_routesOf_iff {domain : Text} {r : Route} :
    r ∈ routesOf table.byDomain domain ↔ r ∈ table.routes ∧ r.domain = domain := by
  rw [table.indexed, mem_filter, decide_eq_true_iff]

lemma newerRoute_iff : NewerRoute table host version ↔
    ∃ r ∈ routesOf table.byDomain host, r.source = .api ∧ version < r.routeVersion := by
  constructor
  · rintro ⟨r, hr, hapi, hdomain, hnewer⟩
    exact ⟨r, mem_routesOf_iff.mpr ⟨hr, hdomain⟩, hapi, hnewer⟩
  · rintro ⟨r, hr, hapi, hnewer⟩
    exact ⟨r, (mem_routesOf_iff.mp hr).1, hapi, (mem_routesOf_iff.mp hr).2, hnewer⟩

lemma not_newerAlias_of_mem {r : Route} (h : r ∈ routesOf table.byDomain host) :
    ¬ NewerAlias table host version :=
  fun halias => halias.1 r (mem_routesOf_iff.mp h).1 (mem_routesOf_iff.mp h).2

lemma newerAlias_iff (h : routesOf table.byDomain host = []) :
    NewerAlias table host version ↔
      ∃ base, wwwAliasBase host = some base ∧
        ∃ r ∈ (routesOf table.byDomain base).filter fun r =>
            routeAllowsWwwAlias r.domain r.rules.wwwAlias,
          r.source = .api ∧ version < r.routeVersion := by
  constructor
  · rintro ⟨-, r, hr, hapi, hbase, halias, hnewer⟩
    exact ⟨r.domain, hbase, r, mem_filter.mpr ⟨mem_routesOf_iff.mpr ⟨hr, rfl⟩, halias⟩,
      hapi, hnewer⟩
  · rintro ⟨base, hbase, r, hr, hapi, hnewer⟩
    obtain ⟨hmem, halias⟩ := mem_filter.mp hr
    obtain ⟨hroute, rfl⟩ := mem_routesOf_iff.mp hmem
    refine ⟨fun r' hr' hdomain => ?_, r, hroute, hapi, hbase, halias, hnewer⟩
    exact not_mem_nil (h ▸ mem_routesOf_iff.mpr ⟨hr', hdomain⟩)

lemma length_api_le_one (htable : Reachable table) {domain : Text} {part : List Route}
    (hpart : part.Sublist (routesOf table.byDomain domain)) :
    (part.filter fun r => r.source = .api).length ≤ 1 := by
  have hsub : (part.filter fun r => r.source = .api).Sublist
      (table.routes.filter fun r => r.source = .api ∧ r.domain = domain) := by
    have hfilter := hpart.filter fun r => decide (r.source = .api)
    rw [table.indexed, filter_filter] at hfilter
    simpa using hfilter
  exact hsub.length_le.trans (htable.invariant.oneApi domain)

lemma newer_findDomain_iff (htable : Reachable table) (domain : Text) :
    (∃ found, findDomain table domain = some found ∧ found.source = .api ∧
        version < found.routeVersion) ↔
      NewerRoute table (normalizeDomain domain) version ∨
        NewerAlias table (normalizeDomain domain) version := by
  set host := normalizeDomain domain with hhost
  rw [findDomain, ← hhost]
  cases hmerged : mergeBestDomainRoutes (routesOf table.byDomain host) with
  | some route =>
    obtain ⟨r, hr, -⟩ := source_of_mergeBestDomainRoutes hmerged
    have hown := newer_mergeBestDomainRoutes_iff version
      (length_api_le_one htable (List.Sublist.refl (routesOf table.byDomain host)))
    rw [hmerged] at hown
    rw [or_iff_left (not_newerAlias_of_mem hr), newerRoute_iff, ← hown]
  | none =>
    have hnil := mergeBestDomainRoutes_eq_none_iff.mp hmerged
    have hroute : ¬ NewerRoute table host version := by
      simp [newerRoute_iff, hnil]
    rw [or_iff_right hroute, newerAlias_iff hnil]
    cases wwwAliasBase host with
    | none => simp
    | some base =>
      have halias := newer_mergeBestDomainRoutes_iff version
        (length_api_le_one htable (filter_sublist (l := routesOf table.byDomain base)
          (p := fun r => routeAllowsWwwAlias r.domain r.rules.wwwAlias)))
      simpa using halias

lemma staleUpdate_iff (htable : Reachable table) (route : Route) :
    staleUpdate table route = true ↔
      NewerRoute table (normalizeDomain route.domain) route.routeVersion ∨
        NewerAlias table (normalizeDomain route.domain) route.routeVersion := by
  rw [← newer_findDomain_iff htable, staleUpdate]
  cases findDomain table route.domain with
  | none => simp
  | some found => simp

end Check

/-! ### Updates -/

section Updates

variable (U : UrlParser) (vars : EnvVars)

def staleAnswer : ApiResponse := ⟨409, some "stale route update"⟩

lemma upsertInternalRoute_stale_iff {env : WriteEnv} {path : Text} {body : InternalRouteBody}
    {route : Route} (hroute : internalRoute U vars env.now env.unixNow path body = .ok route)
    (s : Stores) :
    (upsertInternalRoute U vars env path body s).1 = staleAnswer ↔
      staleUpdate s.table route = true := by
  rw [upsertInternalRoute, hroute]
  dsimp only
  cases hstale : staleUpdate s.table route with
  | true => simp [staleAnswer]
  | false =>
    rw [if_neg (by simp)]
    cases validateApiRouteNetworkSafety U vars env.lookup route with
    | error error => simp [staleAnswer]
    | ok u =>
      cases (commitRoute U vars env route s).1 with
      | error error => simp [staleAnswer]
      | ok changed => simp [staleAnswer]

/-- **Stale updates.**  An update is answered as stale exactly if the normal form of its host has
a newer API route, or has none at all and the base domain stands in with a newer one.  So for a
host in its normal form the answer tells a newer API route of the host exactly unless the base
domain stands in. -/
theorem put_stale_iff (env : WriteEnv) (path : Text) (body : InternalRouteBody) (route : Route)
    (s : Stores) (htable : Reachable s.table)
    (hroute : internalRoute U vars env.now env.unixNow path body = .ok route) :
    route.domain = internalRouteHost path ∧
    ((upsertInternalRoute U vars env path body s).1 = staleAnswer ↔
      NewerRoute s.table (normalizeDomain route.domain) route.routeVersion ∨
        NewerAlias s.table (normalizeDomain route.domain) route.routeVersion) ∧
    (normalizeDomain route.domain = route.domain →
      (((upsertInternalRoute U vars env path body s).1 = staleAnswer ↔
          NewerRoute s.table route.domain route.routeVersion) ↔
        ¬ NewerAlias s.table route.domain route.routeVersion)) := by
  have hanswer : (upsertInternalRoute U vars env path body s).1 = staleAnswer ↔
      NewerRoute s.table (normalizeDomain route.domain) route.routeVersion ∨
        NewerAlias s.table (normalizeDomain route.domain) route.routeVersion :=
    (upsertInternalRoute_stale_iff U vars hroute s).trans (staleUpdate_iff htable route)
  refine ⟨(internalRoute_eq_ok hroute).2, hanswer, fun hnormal => ?_⟩
  rw [hnormal] at hanswer
  rw [hanswer]
  constructor
  · rintro hsame halias
    obtain ⟨r, hr, -, hdomain, -⟩ := hsame.mp (.inr halias)
    exact halias.1 r hr hdomain
  · intro halias
    exact or_iff_left halias

end Updates

def tableWith (domain : Text) (version : ℕ) : RouteTable :=
  RouteTable.new [{
    id := "api"
    domain
    source := .api
    paths := [{ pathPrefix := "/", upstreams := [{ url := "http://web.example" }] }]
    rules := { wwwAlias := true }
    routeVersion := version }]

def answerWith (domain : Text) (version : ℕ) (request : PutRequest) : ApiResponse :=
  (upsertInternalRoute .basic (fun _ => none) request.env request.path request.body
    ⟨tableWith domain version, ∅⟩).1

def aliasUpdate : PutRequest where
  path := "/internal/routes/www.a.com"
  body := { upstream := some "http://new.example", routeVersion := some 1 }

theorem put_stale_newer_route :
    ∃ route, internalRoute .basic (fun _ => none) 0 0 (versionUpdate 1).path
        (versionUpdate 1).body = .ok route ∧
      (answerWith "a.com" 2 (versionUpdate 1) = staleAnswer ↔
        NewerRoute (tableWith "a.com" 2) route.domain route.routeVersion) := by
  have hok : (internalRoute .basic (fun _ => none) 0 0 (versionUpdate 1).path
      (versionUpdate 1).body).isOk = true := by
    decide
  cases hroute : internalRoute .basic (fun _ => none) 0 0 (versionUpdate 1).path
      (versionUpdate 1).body with
  | error error => simp [hroute, Except.isOk, Except.toBool] at hok
  | ok route =>
    obtain ⟨hhost, -, hiff⟩ := put_stale_iff .basic (fun _ => none) {} (versionUpdate 1).path
      (versionUpdate 1).body route ⟨tableWith "a.com" 2, ∅⟩ ⟨_, fun _ _ => trivial, rfl⟩ hroute
    have hdomain : route.domain = "a.com".toList := hhost.trans (by decide)
    refine ⟨route, rfl, (hiff (by rw [hdomain]; decide)).mpr fun halias => ?_⟩
    exact halias.1 _ mem_cons_self hdomain.symm

/-- The first route of `www.a.com` is turned down for the version of `a.com`, and one of `a:b`
for the version of `a`, while a newer route of `a:b` is not seen. -/
theorem apex_route_rejects_alias :
    (apiRoutesOf (tableWith "a.com" 5) "www.a.com" = [] ∧
      answerWith "a.com" 5 aliasUpdate = staleAnswer) ∧
    (apiRoutesOf (tableWith "a" 5) "a:b" = [] ∧
      answerWith "a" 5 (bracketUpdate 1) = staleAnswer) ∧
    hostVersion (tableWith "a:b" 5) "a:b" = some 5 ∧
      answerWith "a:b" 5 (bracketUpdate 1) = ⟨200, none⟩ := by
  refine ⟨⟨?_, ?_⟩, ⟨?_, ?_⟩, ?_, ?_⟩ <;> decide

end PxxlEdge
