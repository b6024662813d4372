import PxxlEdge.Core.Health

/-!
Health updates in batches, and the rounds of active health checks that send them.
-/

namespace PxxlEdge

open RustStd Atomic List

/-! ### Batches of updates -/

section Batches

variable {routes : List Route}

def Route.afterUpdate (route : Route) (update : RouteUpstreamHealth) : Route :=
  if update.ignored = true ∨ route.domain ≠ normalizeDomain update.domain then route
  else
    route.mapUpstreams (fun p => p.pathPrefix == update.pathPrefix) fun u =>
      if u.url = update.upstreamUrl then { u with healthy := update.healthy } else u

lemma map_afterUpdate (update : RouteUpstreamHealth) (routes : List Route) :
    routes.map (fun r => r.afterUpdate update) =
      if update.ignored = true then routes else withRouteUpstreamHealth update routes := by
  by_cases hignored : update.ignored = true
  · simp [Route.afterUpdate, hignored]
  · rw [if_neg hignored, withRouteUpstreamHealth]
    refine map_congr_left fun r _ => ?_
    simp only [Route.afterUpdate, hignored, Bool.false_eq_true, false_or]

lemma withRouteUpstreamHealthMany_eq_map (updates : List RouteUpstreamHealth)
    (routes : List Route) :
    withRouteUpstreamHealthMany updates routes =
      routes.map fun r => updates.foldl Route.afterUpdate r := by
  induction updates generalizing routes with
  | nil => simp [withRouteUpstreamHealthMany]
  | cons update updates ih =>
    have hcons : withRouteUpstreamHealthMany (update :: updates) routes =
        withRouteUpstreamHealthMany updates (routes.map fun r => r.afterUpdate update) := by
      rw [map_afterUpdate]
      rfl
    rw [hcons, ih, map_map]
    rfl

lemma eraseHealth_afterUpdate (route : Route) (update : RouteUpstreamHealth) :
    (route.afterUpdate update).eraseHealth = route.eraseHealth := by
  rw [Route.afterUpdate]
  split
  · rfl
  · refine eraseHealth_mapUpstreams route _ (fun u => ?_) _
    split <;> rfl

lemma eraseHealth_foldl_afterUpdate (updates : List RouteUpstreamHealth) (route : Route) :
    (updates.foldl Route.afterUpdate route).eraseHealth = route.eraseHealth := by
  induction updates generalizing route with
  | nil => rfl
  | cons update updates ih => exact (ih _).trans (eraseHealth_afterUpdate route update)

lemma sameDefinitions_withRouteUpstreamHealthMany (updates : List RouteUpstreamHealth)
    (routes : List Route) :
    SameDefinitions (withRouteUpstreamHealthMany updates routes) routes := by
  rw [SameDefinitions, withRouteUpstreamHealthMany_eq_map, map_map]
  exact map_congr_left fun r _ => eraseHealth_foldl_afterUpdate updates r

lemma exec_setRouteUpstreamHealth (update : RouteUpstreamHealth) (table : RouteTable) :
    (Call.setRouteUpstreamHealth update).prog.exec table =
      if update.ignored then table
      else RouteTable.new (withRouteUpstreamHealth update table.routes) := by
  rw [Call.prog]
  split <;> rfl

lemma routes_new_of_nodup (hnodup : (routes.map dedupeKey).Nodup) :
    (RouteTable.new routes).routes = routes :=
  lastByKey_of_nodup hnodup

lemma foldl_exec_setRouteUpstreamHealth (updates : List RouteUpstreamHealth)
    (hnodup : (routes.map dedupeKey).Nodup) :
    updates.foldl (fun table update => (Call.setRouteUpstreamHealth update).prog.exec table)
        (RouteTable.new routes) =
      RouteTable.new (withRouteUpstreamHealthMany updates routes) := by
  induction updates generalizing routes with
  | nil => rfl
  | cons update updates ih =>
    rw [foldl_cons, exec_setRouteUpstreamHealth, routes_new_of_nodup hnodup]
    by_cases hignored : update.ignored = true
    · rw [if_pos hignored, ih hnodup, withRouteUpstreamHealthMany, withRouteUpstreamHealthMany,
        foldl_cons, if_pos hignored]
    · -- the update keeps the keys apart
      have hnodup' :=
        (sameDefinitions_withRouteUpstreamHealth update routes).nodup hnodup
      rw [if_neg hignored, ih hnodup', withRouteUpstreamHealthMany, withRouteUpstreamHealthMany,
        foldl_cons, if_neg hignored]

lemma exec_setRouteUpstreamHealthMany (updates : List RouteUpstreamHealth)
    (hnodup : (routes.map dedupeKey).Nodup) :
    (Call.setRouteUpstreamHealthMany updates).prog.exec (RouteTable.new routes) =
      RouteTable.new (withRouteUpstreamHealthMany updates routes) := by
  rw [Call.prog]
  split
  · next hnil =>
    rw [hnil]
    rfl
  · show RouteTable.new (withRouteUpstreamHealthMany updates (RouteTable.new routes).routes) = _
    rw [routes_new_of_nodup hnodup]

end Batches

/-- **Batches of health updates.**  In every table that the registry publishes, a batch of updates
has the effect of the updates one by one.  It changes only health flags, in the list of routes as
in the index. -/
theorem health_batch_eq_fold {ι : Type} [DecidableEq ι] (initial : List Route)
    (ops : ι → RegistryOp) (schedule : List ι) (updates : List RouteUpstreamHealth) :
    (Call.setRouteUpstreamHealthMany updates).prog.exec (publishedTable initial ops schedule) =
        updates.foldl (fun table update => (Call.setRouteUpstreamHealth update).prog.exec table)
          (publishedTable initial ops schedule) ∧
      SameDefinitions
        ((Call.setRouteUpstreamHealthMany updates).prog.exec
          (publishedTable initial ops schedule)).routes
        (publishedTable initial ops schedule).routes ∧
      ∀ domain, SameDefinitions
        (routesOf ((Call.setRouteUpstreamHealthMany updates).prog.exec
          (publishedTable initial ops schedule)).byDomain domain)
        (routesOf (publishedTable initial ops schedule).byDomain domain) := by
  have hpublished : Published (fun _ => True) (publishedTable initial ops schedule) :=
    published_run (fun _ _ => trivial) (fun _ _ _ => trivial) schedule
  obtain ⟨written, -, htable⟩ := hpublished
  rw [htable, ← new_dedupeRoutes written]
  set routes := dedupeRoutes written
  have hnodup : (routes.map dedupeKey).Nodup := nodup_dedupeRoutes written
  have hsame := sameDefinitions_withRouteUpstreamHealthMany updates routes
  rw [exec_setRouteUpstreamHealthMany updates hnodup, foldl_exec_setRouteUpstreamHealth updates
    hnodup]
  refine ⟨rfl, ?_, fun domain => ?_⟩
  · rwa [routes_new_of_nodup (hsame.nodup hnodup), routes_new_of_nodup hnodup]
  · rw [RouteTable.indexed, RouteTable.indexed, routes_new_of_nodup (hsame.nodup hnodup),
      routes_new_of_nodup hnodup]
    have herase : ∀ l : List Route, (l.filter fun r => r.domain = domain).map Route.eraseHealth =
        (l.map Route.eraseHealth).filter fun r => r.domain = domain := by
      intro l
      rw [filter_map]
      rfl
    rw [SameDefinitions, herase, herase, show _ = _ from hsame]

/-! ### Rounds of active checks -/

structure UpstreamCheck where
  source : RouteSource
  domain : Text
  pathPrefix : Text
  url : Text
deriving DecidableEq, Repr

def RouteSource.rank : RouteSource → ℕ
  | .static => 0
  | .docker => 1
  | .podman => 2
  | .api => 3

def UpstreamCheck.isLe (a b : UpstreamCheck) : Bool :=
  if a.source ≠ b.source then decide (a.source.rank < b.source.rank)
  else if a.domain ≠ b.domain then a.domain.isLe b.domain
  else if a.pathPrefix ≠ b.pathPrefix then a.pathPrefix.isLe b.pathPrefix
  else a.url.isLe b.url

def Route.poolChecks (route : Route) (pathPrefix : Text) (upstreams : List Upstream) :
    List UpstreamCheck :=
  upstreams.map fun u => ⟨route.source, route.domain, pathPrefix, u.url⟩

def Route.upstreamChecks (route : Route) : List UpstreamCheck :=
  (route.paths.flatMap fun p => route.poolChecks p.pathPrefix p.upstreams) ++
    (route.rules.locationRoutes.flatMap fun l => route.poolChecks "/" l.upstreams) ++
    route.rules.trafficSplits.flatMap fun s => route.poolChecks "/" s.upstreams

def collectUpstreamChecks (routes : List Route) : List UpstreamCheck :=
  (routes.flatMap Route.upstreamChecks).dedup.insertionSort fun a b => a.isLe b = true

def healthUpdates (probe : UpstreamCheck → Bool) (routes : List Route) :
    List RouteUpstreamHealth :=
  (collectUpstreamChecks routes).map fun c => ⟨c.domain, c.pathPrefix, c.url, probe c⟩

def healthRound (probe : UpstreamCheck → Bool) (table : RouteTable) : RouteTable :=
  (Call.setRouteUpstreamHealthMany (healthUpdates probe table.routes)).prog.exec table

def TrafficMirrorConfig.active (mirror : TrafficMirrorConfig) : List Upstream :=
  if mirror.enabled ∧ mirror.percent ≠ 0 then mirror.upstreams else []

def Route.pooled (route : Route) : List Upstream :=
  (route.paths.flatMap fun p => p.upstreams) ++ route.rules.poolUpstreams

def Route.filteredByHealth (route : Route) : List Upstream :=
  route.pooled ++ route.rules.trafficMirroring.active

structure RoundCovers (probe : UpstreamCheck → Bool) (table : RouteTable) : Prop where
  probed : ∀ r ∈ table.routes, ∀ u ∈ r.filteredByHealth,
    ∃ c ∈ collectUpstreamChecks table.routes,
      c.source = r.source ∧ c.domain = r.domain ∧ c.url = u.url
  carried : ∀ r ∈ (healthRound probe table).routes, ∀ url healthy,
    (∃ c ∈ collectUpstreamChecks table.routes, c.domain = r.domain ∧ c.url = url) →
    (∀ c ∈ collectUpstreamChecks table.routes, c.domain = r.domain → c.url = url →
      probe c = healthy) →
    ∀ u ∈ r.filteredByHealth, u.url = url → u.healthy = healthy

def Addressed (table : RouteTable) : Prop :=
  ∀ c ∈ collectUpstreamChecks table.routes,
    normalizeDomain c.domain = c.domain ∧ c.domain ≠ [] ∧ c.url.trim ≠ []

section Rounds

variable {routes : List Route} {route : Route} {probe : UpstreamCheck → Bool}

lemma mem_collectUpstreamChecks {c : UpstreamCheck} :
    c ∈ collectUpstreamChecks routes ↔ ∃ r ∈ routes, c ∈ r.upstreamChecks := by
  rw [collectUpstreamChecks, mem_insertionSort, mem_dedup, mem_flatMap]

lemma exists_check_of_mem_pooled {u : Upstream} (hu : u ∈ route.pooled) :
    ∃ pathPrefix, ⟨route.source, route.domain, pathPrefix, u.url⟩ ∈ route.upstreamChecks ∧
      u ∈ route.upstreamsUnder pathPrefix := by
  have hcheck : ∀ {pathPrefix : Text} {pool : List Upstream}, u ∈ pool →
      (⟨route.source, route.domain, pathPrefix, u.url⟩ : UpstreamCheck) ∈
        route.poolChecks pathPrefix pool := fun hmem => mem_map.mpr ⟨u, hmem, rfl⟩
  simp only [Route.pooled, DomainRules.poolUpstreams, mem_append, mem_flatMap] at hu
  simp only [Route.upstreamChecks, Route.upstreamsUnder, DomainRules.poolUpstreams,
    mem_append, mem_flatMap, mem_filter, beq_iff_eq]
  rcases hu with ⟨p, hp, hu⟩ | ⟨s, hs, hu⟩ | ⟨l, hl, hu⟩
  · exact ⟨p.pathPrefix, .inl (.inl ⟨p, hp, hcheck hu⟩), .inl ⟨p, ⟨hp, rfl⟩, hu⟩⟩
  · exact ⟨"/", .inr ⟨s, hs, hcheck hu⟩, .inr (.inl ⟨s, hs, hu⟩)⟩
  · exact ⟨"/", .inl (.inr ⟨l, hl, hcheck hu⟩), .inr (.inr ⟨l, hl, hu⟩)⟩

lemma upstreamChecks_eraseHealth (route : Route) :
    route.eraseHealth.upstreamChecks = route.upstreamChecks := by
  simp only [Route.upstreamChecks, Route.poolChecks, Route.eraseHealth, DomainRules.eraseHealth,
    PathRoute.eraseHealth, flatMap_map, map_map, Function.comp_def, Upstream.eraseHealth]

lemma trafficMirroring_foldl_afterUpdate (updates : List RouteUpstreamHealth) (route : Route) :
    (updates.foldl Route.afterUpdate route).rules.trafficMirroring =
      route.rules.trafficMirroring := by
  induction updates generalizing route with
  | nil => rfl
  | cons update updates ih =>
    rw [foldl_cons, ih, Route.afterUpdate]
    split <;> rfl

lemma HealthIs.withRouteUpstreamHealthMany {healthy : Bool} {domain pathPrefix url : Text}
    {updates : List RouteUpstreamHealth} (h : HealthIs healthy domain pathPrefix url routes)
    (hagree : ∀ update ∈ updates, normalizeDomain update.domain = domain →
      update.upstreamUrl = url → update.healthy = healthy) :
    HealthIs healthy domain pathPrefix url (withRouteUpstreamHealthMany updates routes) := by
  induction updates generalizing routes with
  | nil => exact h
  | cons update updates ih =>
    refine ih ?_ fun other hother => hagree other (mem_cons_of_mem _ hother)
    dsimp only
    split
    · exact h
    · exact h.withRouteUpstreamHealth (hagree update mem_cons_self)

lemma healthIs_withRouteUpstreamHealthMany {update : RouteUpstreamHealth}
    {updates : List RouteUpstreamHealth} (hmem : update ∈ updates)
    (hignored : update.ignored = false)
    (hagree : ∀ other ∈ updates, normalizeDomain other.domain = normalizeDomain update.domain →
      other.upstreamUrl = update.upstreamUrl → other.healthy = update.healthy)
    (routes : List Route) :
    HealthIs update.healthy (normalizeDomain update.domain) update.pathPrefix update.upstreamUrl
      (withRouteUpstreamHealthMany updates routes) := by
  obtain ⟨before, after, rfl⟩ := append_of_mem hmem
  have hsplit : withRouteUpstreamHealthMany (before ++ update :: after) routes =
      withRouteUpstreamHealthMany after
        (withRouteUpstreamHealth update (withRouteUpstreamHealthMany before routes)) := by
    simp only [withRouteUpstreamHealthMany, foldl_append, foldl_cons, hignored,
      Bool.false_eq_true, if_false]
  rw [hsplit]
  exact (healthIs_withRouteUpstreamHealth update _).withRouteUpstreamHealthMany
    fun other hother => hagree other (by simp [hother])

lemma routes_healthRound (probe : UpstreamCheck → Bool)
    (hnodup : (routes.map dedupeKey).Nodup) :
    (healthRound probe (RouteTable.new routes)).routes =
      withRouteUpstreamHealthMany (healthUpdates probe routes) routes := by
  rw [healthRound, routes_new_of_nodup hnodup, exec_setRouteUpstreamHealthMany _ hnodup,
    routes_new_of_nodup ((sameDefinitions_withRouteUpstreamHealthMany _ routes).nodup hnodup)]

lemma healthy_of_mem_pooled (haddressed : ∀ c ∈ collectUpstreamChecks routes,
      normalizeDomain c.domain = c.domain ∧ c.domain ≠ [] ∧ c.url.trim ≠ [])
    (hroute : route ∈ withRouteUpstreamHealthMany (healthUpdates probe routes) routes)
    {healthy : Bool} {u : Upstream} (hu : u ∈ route.pooled)
    (hresults : ∀ c ∈ collectUpstreamChecks routes, c.domain = route.domain → c.url = u.url →
      probe c = healthy) : u.healthy = healthy := by
  obtain ⟨pathPrefix, hcheck, hunder⟩ := exists_check_of_mem_pooled hu
  obtain ⟨c, hmem, hdomain, hprefix, hurl⟩ : ∃ c ∈ collectUpstreamChecks routes,
      c.domain = route.domain ∧ c.pathPrefix = pathPrefix ∧ c.url = u.url := by
    have hroute' := hroute
    rw [withRouteUpstreamHealthMany_eq_map] at hroute'
    obtain ⟨r₀, hr₀, rfl⟩ := mem_map.mp hroute'
    rw [← upstreamChecks_eraseHealth, eraseHealth_foldl_afterUpdate,
      upstreamChecks_eraseHealth] at hcheck
    exact ⟨_, mem_collectUpstreamChecks.mpr ⟨r₀, hr₀, hcheck⟩, rfl, rfl, rfl⟩
  obtain ⟨hnormal, hne, hblank⟩ := haddressed c hmem
  have hignored : (⟨c.domain, c.pathPrefix, c.url, probe c⟩ : RouteUpstreamHealth).ignored =
      false := by
    simp only [RouteUpstreamHealth.ignored, hnormal, beq_eq_false_iff_ne.mpr hne,
      beq_eq_false_iff_ne.mpr hblank, Bool.or_false]
  have hhealth := healthIs_withRouteUpstreamHealthMany
    (show _ ∈ healthUpdates probe routes from mem_map.mpr ⟨c, hmem, rfl⟩) hignored ?_ routes
  · dsimp only at hhealth
    rw [hnormal, hdomain, hprefix, hurl, hresults c hmem hdomain hurl] at hhealth
    exact hhealth route hroute rfl u hunder rfl
  · -- the checks of the same URL under the same domain had the same result
    intro other hother
    obtain ⟨c', hc', rfl⟩ := mem_map.mp hother
    dsimp only
    rw [(haddressed c' hc').1, hnormal]
    intro hdomain' hurl'
    rw [hresults c hmem hdomain hurl,
      hresults c' hc' (hdomain'.trans hdomain) (hurl'.trans hurl)]

end Rounds

/-- **Active health checks.**  In a table whose checks reach their routes, a round covers the
upstreams that the proxy filters by health, whatever the results, exactly if no route has an active
mirror: mirrors are neither probed nor updated. -/
theorem health_round_covers_iff (routes : List Route) (haddressed : Addressed (.new routes)) :
    (∀ probe, RoundCovers probe (.new routes)) ↔
      ∀ r ∈ (RouteTable.new routes).routes, r.rules.trafficMirroring.active = [] := by
  have hnodup : ((dedupeRoutes routes).map dedupeKey).Nodup := nodup_dedupeRoutes routes
  have hround : ∀ probe, (healthRound probe (RouteTable.new routes)).routes =
      withRouteUpstreamHealthMany (healthUpdates probe (dedupeRoutes routes))
        (dedupeRoutes routes) := by
    intro probe
    rw [← new_dedupeRoutes, routes_healthRound probe hnodup]
  constructor
  · intro h r hr
    refine eq_nil_iff_forall_not_mem.mpr fun u hu => ?_
    -- all checks report the opposite of what the mirror says
    set probe : UpstreamCheck → Bool := fun _ => !u.healthy
    obtain ⟨c, hc, -, hdomain, hurl⟩ := (h probe).probed r hr u (mem_append_right _ hu)
    set r' := (healthUpdates probe (dedupeRoutes routes)).foldl Route.afterUpdate r with hr'
    have hmem : r' ∈ (healthRound probe (RouteTable.new routes)).routes := by
      rw [hround, withRouteUpstreamHealthMany_eq_map]
      exact mem_map.mpr ⟨r, hr, rfl⟩
    have hdomain' : r'.domain = r.domain := by
      show r'.eraseHealth.domain = r.eraseHealth.domain
      rw [hr', eraseHealth_foldl_afterUpdate]
    have hu' : u ∈ r'.filteredByHealth := by
      refine mem_append_right _ ?_
      rw [hr', trafficMirroring_foldl_afterUpdate]
      exact hu
    have hhealthy := (h probe).carried r' hmem u.url (!u.healthy)
      ⟨c, hc, hdomain.trans hdomain'.symm, hurl⟩ (fun _ _ _ _ => rfl) u hu' rfl
    cases hcase : u.healthy <;> simp [hcase] at hhealthy
  · intro hmirrors probe
    constructor
    · intro r hr u hu
      rw [Route.filteredByHealth, hmirrors r hr, append_nil] at hu
      obtain ⟨pathPrefix, hcheck, -⟩ := exists_check_of_mem_pooled hu
      exact ⟨_, mem_collectUpstreamChecks.mpr ⟨r, hr, hcheck⟩, rfl, rfl, rfl⟩
    · intro r hr url healthy _ hresults u hu hurl
      subst hurl
      rw [hround] at hr
      have hmirror : r.rules.trafficMirroring.active = [] := by
        rw [withRouteUpstreamHealthMany_eq_map] at hr
        obtain ⟨r₀, hr₀, rfl⟩ := mem_map.mp hr
        rw [trafficMirroring_foldl_afterUpdate]
        exact hmirrors r₀ hr₀
      rw [Route.filteredByHealth, hmirror, append_nil] at hu
      exact healthy_of_mem_pooled haddressed hr hu hresults

def mirroredRoute (mirrors : List Upstream) : Route where
  id := "r"
  domain := "a.io"
  source := .static
  paths := [{ pathPrefix := "/", upstreams := [{ url := "http://app:80" }] }]
  rules := { trafficMirroring := { enabled := true, upstreams := mirrors, percent := 10 } }

theorem health_round_covers_plain_route :
    Addressed (.new [mirroredRoute []]) ∧
      ∀ probe, RoundCovers probe (.new [mirroredRoute []]) := by
  have haddressed : Addressed (.new [mirroredRoute []]) := by
    unfold Addressed
    decide
  refine ⟨haddressed, (health_round_covers_iff _ haddressed).mpr fun r hr => ?_⟩
  obtain rfl := mem_singleton.mp (mem_of_mem_dedupeRoutes hr)
  rfl

/-- A mirror of its own is not probed; and after a round in which every check fails, a mirror that
is also an upstream of the path is still healthy. -/
theorem mirrors_not_covered :
    let table : RouteTable :=
      .new [mirroredRoute [{ url := "http://shadow:80" }, { url := "http://app:80" }]]
    Addressed table ∧
      (collectUpstreamChecks table.routes).map (fun c => c.url) = ["http://app:80".toList] ∧
      (healthRound (fun _ => false) table).routes.map (fun r =>
        (r.pooled.map fun u => (u.url, u.healthy),
          r.rules.trafficMirroring.active.map fun u => (u.url, u.healthy))) =
        [([("http://app:80".toList, false)],
          [("http://shadow:80".toList, true), ("http://app:80".toList, true)])] := by
  refine ⟨?_, ?_, ?_⟩
  · unfold Addressed
    decide
  · decide
  · decide

end PxxlEdge
