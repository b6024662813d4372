import PxxlEdge.Core.Republish

/-!
What setting the health of an upstream does to the answers of the lookup.
-/

namespace PxxlEdge

open RustStd List

/-! ### The upstreams of a route -/

def DomainRules.poolUpstreams (rules : DomainRules) : List Upstream :=
  (rules.trafficSplits.flatMap fun s => s.upstreams) ++
    rules.locationRoutes.flatMap fun l => l.upstreams

def Route.upstreamsUnder (route : Route) (pathPrefix : Text) : List Upstream :=
  ((route.paths.filter fun p => p.pathPrefix == pathPrefix).flatMap fun p => p.upstreams) ++
    route.rules.poolUpstreams

def RouteMatch.offered (m : RouteMatch) : List Upstream :=
  m.path.upstreams ++ m.route.rules.poolUpstreams

section MapUpstreams

variable (route : Route) (f : Upstream → Upstream)

lemma poolUpstreams_mapUpstreams (onPath : PathRoute → Bool) :
    (route.mapUpstreams onPath f).rules.poolUpstreams = route.rules.poolUpstreams.map f := by
  simp only [Route.mapUpstreams, DomainRules.poolUpstreams, flatMap_map, map_append,
    map_flatMap]

lemma upstreamsUnder_mapUpstreams (pathPrefix : Text) :
    (route.mapUpstreams (fun p => p.pathPrefix == pathPrefix) f).upstreamsUnder pathPrefix =
      (route.upstreamsUnder pathPrefix).map f := by
  rw [Route.upstreamsUnder, poolUpstreams_mapUpstreams, Route.upstreamsUnder, map_append]
  congr 1
  rw [Route.mapUpstreams, filter_map, flatMap_map, map_flatMap]
  have hcomp : ((fun p : PathRoute => p.pathPrefix == pathPrefix) ∘ fun p =>
      if p.pathPrefix == pathPrefix then { p with upstreams := p.upstreams.map f } else p) =
        fun p => p.pathPrefix == pathPrefix := by
    funext p
    simp only [Function.comp_apply]
    split <;> rfl
  rw [hcomp]
  refine flatMap_congr fun p hp => ?_
  rw [if_pos (mem_filter.mp hp).2]

lemma mem_upstreamsUnder_mapUpstreams {onPath : PathRoute → Bool} {pathPrefix : Text}
    {v : Upstream} (hv : v ∈ (route.mapUpstreams onPath f).upstreamsUnder pathPrefix) :
    ∃ u ∈ route.upstreamsUnder pathPrefix, v = u ∨ v = f u := by
  rcases mem_append.mp hv with hv | hv
  · obtain ⟨p', hp', hv⟩ := mem_flatMap.mp hv
    obtain ⟨hp', hprefix⟩ := mem_filter.mp hp'
    obtain ⟨p, hp, rfl⟩ := mem_map.mp hp'
    have hunder : ∀ u ∈ p.upstreams, p.pathPrefix == pathPrefix →
        u ∈ route.upstreamsUnder pathPrefix := fun u hu hprefix =>
      mem_append_left _ (mem_flatMap.mpr ⟨p, mem_filter.mpr ⟨hp, hprefix⟩, hu⟩)
    split at hv
    · next honPath =>
      obtain ⟨u, hu, rfl⟩ := mem_map.mp hv
      rw [if_pos honPath] at hprefix
      exact ⟨u, hunder u hu hprefix, .inr rfl⟩
    · next honPath =>
      rw [if_neg honPath] at hprefix
      exact ⟨v, hunder v hv hprefix, .inl rfl⟩
  · rw [poolUpstreams_mapUpstreams] at hv
    obtain ⟨u, hu, rfl⟩ := mem_map.mp hv
    exact ⟨u, mem_append_right _ hu, .inr rfl⟩

lemma eraseHealth_mapUpstreams (hf : ∀ u, (f u).eraseHealth = u.eraseHealth)
    (onPath : PathRoute → Bool) :
    (route.mapUpstreams onPath f).eraseHealth = route.eraseHealth := by
  have hmap : ∀ l : List Upstream,
      (l.map f).map Upstream.eraseHealth = l.map Upstream.eraseHealth := by
    intro l
    rw [map_map]
    exact map_congr_left fun u _ => hf u
  have hpath : ∀ p : PathRoute, (if onPath p then { p with upstreams := p.upstreams.map f }
      else p).eraseHealth = p.eraseHealth := by
    intro p
    split
    · rw [PathRoute.eraseHealth, hmap, PathRoute.eraseHealth]
    · rfl
  simp only [Route.mapUpstreams, Route.eraseHealth, DomainRules.eraseHealth, map_map,
    Function.comp_def, hpath, hmap]

end MapUpstreams

/-! ### Marked upstreams -/

def HealthIs (healthy : Bool) (domain pathPrefix url : Text) (routes : List Route) : Prop :=
  ∀ r ∈ routes, r.domain = domain → ∀ u ∈ r.upstreamsUnder pathPrefix, u.url = url →
    u.healthy = healthy

def Marked (domain pathPrefix url : Text) (routes : List Route) : Prop :=
  ∀ r ∈ routes, r.domain = domain → ∀ u ∈ r.upstreamsUnder pathPrefix, u.url = url →
    u.healthy = false

section Marked

variable {healthy : Bool} {domain pathPrefix url : Text} {routes : List Route}
  {update : RouteUpstreamHealth}

lemma sameDefinitions_withRouteUpstreamHealth (update : RouteUpstreamHealth)
    (routes : List Route) :
    SameDefinitions (withRouteUpstreamHealth update routes) routes := by
  rw [SameDefinitions, withRouteUpstreamHealth, map_map]
  refine map_congr_left fun r _ => ?_
  rw [Function.comp_apply]
  split
  · rfl
  · refine eraseHealth_mapUpstreams r _ (fun u => ?_) _
    split <;> rfl

lemma healthIs_withRouteUpstreamHealth (update : RouteUpstreamHealth) (routes : List Route) :
    HealthIs update.healthy (normalizeDomain update.domain) update.pathPrefix update.upstreamUrl
      (withRouteUpstreamHealth update routes) := by
  intro r hr hdomain u hu hurl
  obtain ⟨r₀, hr₀, rfl⟩ := mem_map.mp hr
  split at hu
  · next hne =>
    rw [if_pos hne] at hdomain
    exact absurd hdomain hne
  · rw [upstreamsUnder_mapUpstreams] at hu
    obtain ⟨u₀, hu₀, rfl⟩ := mem_map.mp hu
    split at hurl
    · next hurl₀ => rw [if_pos hurl₀]
    · next hurl₀ => exact absurd hurl hurl₀

lemma HealthIs.withRouteUpstreamHealth (h : HealthIs healthy domain pathPrefix url routes)
    (hupdate : normalizeDomain update.domain = domain → update.upstreamUrl = url →
      update.healthy = healthy) :
    HealthIs healthy domain pathPrefix url (withRouteUpstreamHealth update routes) := by
  intro r hr hdomain v hv hurl
  obtain ⟨r₀, hr₀, rfl⟩ := mem_map.mp hr
  split at hv
  · next hne =>
    rw [if_pos hne] at hdomain
    exact h r₀ hr₀ hdomain v hv hurl
  · next hne =>
    rw [if_neg hne] at hdomain
    obtain ⟨u, hu, rfl | rfl⟩ := mem_upstreamsUnder_mapUpstreams r₀ _ hv
    · exact h r₀ hr₀ hdomain v hu hurl
    · split at hurl
      · next hurl₀ =>
        rw [if_pos hurl₀]
        exact hupdate ((not_not.mp hne).symm.trans hdomain) (hurl₀.symm.trans hurl)
      · next hurl₀ =>
        rw [if_neg hurl₀]
        exact h r₀ hr₀ hdomain u hu hurl

lemma marked_withRouteUpstreamHealth (hhealthy : update.healthy = false) :
    Marked (normalizeDomain update.domain) update.pathPrefix update.upstreamUrl
      (withRouteUpstreamHealth update routes) := by
  have h := healthIs_withRouteUpstreamHealth update routes
  rwa [hhealthy] at h

lemma Marked.withRouteUpstreamHealth (h : Marked domain pathPrefix url routes)
    (hhealthy : update.healthy = false) :
    Marked domain pathPrefix url (withRouteUpstreamHealth update routes) :=
  HealthIs.withRouteUpstreamHealth h fun _ _ => hhealthy

end Marked

/-! ### The table after an update -/

section Table

variable {table table' : RouteTable} {host path : Text}

lemma SameDefinitions.nodup {routes routes' : List Route} (h : SameDefinitions routes routes')
    (hnodup : (routes'.map dedupeKey).Nodup) : (routes.map dedupeKey).Nodup := by
  rwa [map_dedupeKey_of_sameDefinitions h]

lemma routes_new_withRouteUpstreamHealth (update : RouteUpstreamHealth)
    (hnodup : (table.routes.map dedupeKey).Nodup) :
    (RouteTable.new (withRouteUpstreamHealth update table.routes)).routes =
      withRouteUpstreamHealth update table.routes :=
  lastByKey_of_nodup ((sameDefinitions_withRouteUpstreamHealth update _).nodup hnodup)

lemma find_eraseHealth (h : SameDefinitions table'.routes table.routes) (host path : Text) :
    (find table' host path).map RouteMatch.eraseHealth =
      (find table host path).map RouteMatch.eraseHealth := by
  rw [find_eq_findIn, find_eq_findIn, ← findIn_eraseHealth, ← findIn_eraseHealth,
    show table'.routes.map Route.eraseHealth = _ from h]

structure OwnPrefix (table : RouteTable) (host path : Text) : Prop where
  own : ∃ r ∈ table.routes, r.domain = normalizeDomain host ∧ r.Serves path
  onePrefix : ∀ r ∈ table.routes, r.domain = normalizeDomain host → ∀ r' ∈ table.routes,
    r'.domain = normalizeDomain host → ∀ p ∈ r.paths, ∀ p' ∈ r'.paths,
      p.matches path = true → p'.matches path = true →
        p.pathPrefix.len = p'.pathPrefix.len → p.pathPrefix = p'.pathPrefix

lemma exists_of_sameDefinitions (h : SameDefinitions table'.routes table.routes) {r' : Route}
    (hr' : r' ∈ table'.routes) : ∃ r ∈ table.routes, r.eraseHealth = r'.eraseHealth := by
  have hmem : r'.eraseHealth ∈ table'.routes.map Route.eraseHealth := mem_map_of_mem hr'
  rw [show table'.routes.map Route.eraseHealth = _ from h] at hmem
  exact mem_map.mp hmem

lemma exists_path_of_eraseHealth_eq {r r' : Route} (h : r.eraseHealth = r'.eraseHealth)
    {p' : PathRoute} (hp' : p' ∈ r'.paths) : ∃ p ∈ r.paths, p.pathPrefix = p'.pathPrefix := by
  have hpaths : r.paths.map PathRoute.eraseHealth = r'.paths.map PathRoute.eraseHealth :=
    congrArg Route.paths h
  have hmem : p'.eraseHealth ∈ r'.paths.map PathRoute.eraseHealth := mem_map_of_mem hp'
  rw [← hpaths] at hmem
  obtain ⟨p, hp, heq⟩ := mem_map.mp hmem
  refine ⟨p, hp, ?_⟩
  show p.eraseHealth.pathPrefix = p'.eraseHealth.pathPrefix
  rw [heq]

lemma matches_congr {p p' : PathRoute} (h : p.pathPrefix = p'.pathPrefix) (path : Text) :
    p.matches path = p'.matches path := by
  rw [PathRoute.matches, PathRoute.matches, h]

lemma OwnPrefix.of_sameDefinitions (h : OwnPrefix table host path)
    (hsame : SameDefinitions table'.routes table.routes) : OwnPrefix table' host path where
  own := by
    obtain ⟨r, hr, hdomain, p, hp, hmatch⟩ := h.own
    obtain ⟨r', hr', heq⟩ := exists_of_sameDefinitions hsame.symm hr
    obtain ⟨p', hp', hprefix⟩ := exists_path_of_eraseHealth_eq heq hp
    exact ⟨r', hr', (congrArg Route.domain heq).trans hdomain, p', hp',
      (matches_congr hprefix path).trans hmatch⟩
  onePrefix := by
    intro r₁' hr₁' hd₁ r₂' hr₂' hd₂ p₁' hp₁' p₂' hp₂' hm₁ hm₂ hlen
    obtain ⟨r₁, hr₁, heq₁⟩ := exists_of_sameDefinitions hsame hr₁'
    obtain ⟨r₂, hr₂, heq₂⟩ := exists_of_sameDefinitions hsame hr₂'
    obtain ⟨p₁, hp₁, hprefix₁⟩ := exists_path_of_eraseHealth_eq heq₁ hp₁'
    obtain ⟨p₂, hp₂, hprefix₂⟩ := exists_path_of_eraseHealth_eq heq₂ hp₂'
    rw [← hprefix₁, ← hprefix₂] at hlen ⊢
    exact h.onePrefix r₁ hr₁ ((congrArg Route.domain heq₁).trans hd₁) r₂ hr₂
      ((congrArg Route.domain heq₂).trans hd₂) p₁ hp₁ p₂ hp₂
      ((matches_congr hprefix₁ path).trans hm₁) ((matches_congr hprefix₂ path).trans hm₂) hlen

end Table

/-! ### What the lookup offers -/

section Offered

variable {table : RouteTable} {host path url : Text} {m : RouteMatch}

lemma mem_upstreams_foldl_absorb {first : RouteMatch} {rest : List RouteMatch} {u : Upstream}
    (h : u ∈ (rest.foldl RouteMatch.absorb first).path.upstreams) :
    ∃ m' ∈ first :: rest, u ∈ m'.path.upstreams := by
  induction rest generalizing first with
  | nil => exact ⟨first, mem_cons_self, h⟩
  | cons m rest ih =>
    obtain ⟨m', hm', hu⟩ := ih h
    rcases mem_cons.mp hm' with rfl | hm'
    · rcases mem_of_mem_extendUniqueBy hu with hu | hu
      · exact ⟨first, mem_cons_self, hu⟩
      · exact ⟨m, by simp, hu⟩
    · exact ⟨m', by simp [hm'], hu⟩

lemma mem_upstreams_of_find (hfind : find table host path = some m) {u : Upstream}
    (hu : u ∈ m.path.upstreams) :
    ∃ m' ∈ selectMatches (findMatches table (normalizeDomain host) path),
      u ∈ m'.path.upstreams := by
  rw [find] at hfind
  split at hfind
  · cases hfind
  · rw [mergeBestRouteMatches] at hfind
    cases hsel : selectMatches (findMatches table (normalizeDomain host) path) with
    | nil => simp [hsel] at hfind
    | cons first rest =>
      simp only [hsel, Option.some.injEq] at hfind
      subst hfind
      exact mem_upstreams_foldl_absorb hu

lemma OwnPrefix.domain_eq (h : OwnPrefix table host path)
    (hm : m ∈ findMatches table (normalizeDomain host) path) :
    m.route.domain = normalizeDomain host := by
  obtain ⟨r, hr, hdomain, hserves⟩ := h.own
  rcases (mem_findMatches.mp hm).1.domain with hd | ⟨hnone, -⟩
  · exact hd
  · exact absurd hserves (hnone r hr hdomain)

lemma OwnPrefix.pathPrefix_eq (h : OwnPrefix table host path) {m₁ m₂ : RouteMatch}
    (h₁ : m₁ ∈ selectMatches (findMatches table (normalizeDomain host) path))
    (h₂ : m₂ ∈ selectMatches (findMatches table (normalizeDomain host) path)) :
    m₁.path.pathPrefix = m₂.path.pathPrefix := by
  obtain ⟨hmem₁, hmax₁, -⟩ := mem_selectMatches.mp h₁
  obtain ⟨hmem₂, hmax₂, -⟩ := mem_selectMatches.mp h₂
  obtain ⟨he₁, hp₁⟩ := mem_findMatches.mp hmem₁
  obtain ⟨he₂, hp₂⟩ := mem_findMatches.mp hmem₂
  obtain ⟨hpath₁, hmatch₁, -⟩ := bestPath_eq_some hp₁
  obtain ⟨hpath₂, hmatch₂, -⟩ := bestPath_eq_some hp₂
  exact h.onePrefix _ he₁.mem (h.domain_eq hmem₁) _ he₂.mem (h.domain_eq hmem₂) _ hpath₁ _ hpath₂
    hmatch₁ hmatch₂ (le_antisymm (hmax₂ _ hmem₁) (hmax₁ _ hmem₂))

theorem unhealthy_of_marked (hown : OwnPrefix table host path)
    (hfind : find table host path = some m)
    (hmarked : Marked (normalizeDomain host) m.path.pathPrefix url table.routes) :
    ∀ u ∈ m.offered, u.url = url → u.healthy = false := by
  intro u hu hurl
  obtain ⟨-, first, hfirst, hroute, hprefix, -⟩ := find_eq_some hfind
  have hselected := mem_of_head? hfirst
  have hmem : ∀ m' ∈ selectMatches (findMatches table (normalizeDomain host) path),
      m'.route ∈ table.routes ∧ m'.route.domain = normalizeDomain host ∧
        m'.path ∈ m'.route.paths := by
    intro m' hm'
    have hm' := (mem_selectMatches.mp hm').1
    obtain ⟨he, hp⟩ := mem_findMatches.mp hm'
    exact ⟨he.mem, hown.domain_eq hm', (bestPath_eq_some hp).1⟩
  rcases mem_append.mp hu with hu | hu
  · obtain ⟨m', hm', hu⟩ := mem_upstreams_of_find hfind hu
    obtain ⟨hr, hdomain, hp⟩ := hmem m' hm'
    have heq : m'.path.pathPrefix = m.path.pathPrefix :=
      (hown.pathPrefix_eq hm' hselected).trans hprefix.symm
    refine hmarked m'.route hr hdomain u (mem_append_left _ ?_) hurl
    exact mem_flatMap.mpr ⟨m'.path, mem_filter.mpr ⟨hp, by simp [heq]⟩, hu⟩
  · obtain ⟨hr, hdomain, -⟩ := hmem first hselected
    have hrules : m.route.rules = first.route.rules := by rw [hroute]
    rw [hrules] at hu
    exact hmarked first.route hr hdomain u (mem_append_right _ hu) hurl

end Offered

/-! ### What the flags do not matter for -/

section Checks

variable (U : UrlParser) (vars : EnvVars)

lemma validateUpstreams_eraseHealth (what : Text) (max : ℕ) (upstreams : List Upstream) :
    validateUpstreams U vars what max (upstreams.map Upstream.eraseHealth) =
      validateUpstreams U vars what max upstreams := by
  rw [validateUpstreams, validateUpstreams, length_map, forM_map]
  rfl

lemma validatePath_eraseHealth (path : PathRoute) :
    validatePath U vars path.eraseHealth = validatePath U vars path := by
  simp only [validatePath, PathRoute.eraseHealth, map_eq_nil_iff,
    validateUpstreams_eraseHealth]

lemma validateRulesForRuntime_eraseHealth (rules : DomainRules) :
    validateRulesForRuntime U vars rules.eraseHealth = validateRulesForRuntime U vars rules := by
  have hservices : rules.eraseHealth.services.entries = [] ↔ rules.services.entries = [] :=
    map_eq_nil_iff
  simp only [validateRulesForRuntime, ne_eq, hservices]
  simp only [DomainRules.eraseHealth, forM_map, validateUpstreams_eraseHealth]
  rfl

lemma allUpstreams_eraseHealth (route : Route) :
    route.eraseHealth.allUpstreams = route.allUpstreams.map Upstream.eraseHealth := by
  simp only [Route.allUpstreams, Route.eraseHealth, DomainRules.eraseHealth, map_append,
    flatMap_map, map_flatMap, PathRoute.eraseHealth]

lemma validateForDynamicControlPlane_eraseHealth (route : Route) :
    route.eraseHealth.validateForDynamicControlPlane U vars =
      route.validateForDynamicControlPlane U vars := by
  have hruntime : route.eraseHealth.validateForRuntime U vars =
      route.validateForRuntime U vars := by
    simp only [Route.validateForRuntime, Route.eraseHealth, map_eq_nil_iff, length_map,
      validateRulesForRuntime_eraseHealth, forM_map, validatePath_eraseHealth]
  rw [Route.validateForDynamicControlPlane, Route.validateForDynamicControlPlane, hruntime,
    allUpstreams_eraseHealth, forM_map]
  rfl

lemma healthBlind_of_eraseHealth {P : Route → Prop} (hP : ∀ r, P r.eraseHealth ↔ P r) :
    HealthBlind P := by
  intro route onPath f hf hroute
  have hsame : ∀ u, (f u).eraseHealth = u.eraseHealth := by
    intro u
    obtain ⟨healthy, hu⟩ := hf u
    rw [hu]
    rfl
  rw [← hP, eraseHealth_mapUpstreams route f hsame, hP]
  exact hroute

end Checks

end PxxlEdge
