import PxxlEdge.Core.FindSpec
import PxxlEdge.Core.Published

/-!
Publishing again what is already installed: the containers' routes at every poll
(`replace_source`), an API route that is posted once more (`upsert_api_route`).
-/

namespace PxxlEdge

open RustStd Atomic List

/-! ### Routes without their health flags -/

def Upstream.eraseHealth (u : Upstream) : Upstream := { u with healthy := true }

def PathRoute.eraseHealth (p : PathRoute) : PathRoute :=
  { p with upstreams := p.upstreams.map Upstream.eraseHealth }

def DomainRules.eraseHealth (rules : DomainRules) : DomainRules :=
  { rules with
    locationRoutes := rules.locationRoutes.map fun l =>
      { l with upstreams := l.upstreams.map Upstream.eraseHealth }
    trafficSplits := rules.trafficSplits.map fun s =>
      { s with upstreams := s.upstreams.map Upstream.eraseHealth }
    trafficMirroring :=
      { rules.trafficMirroring with
        upstreams := rules.trafficMirroring.upstreams.map Upstream.eraseHealth }
    services := rules.services.mapValues fun s =>
      { s with upstreams := s.upstreams.map Upstream.eraseHealth } }

def Route.eraseHealth (r : Route) : Route :=
  { r with paths := r.paths.map PathRoute.eraseHealth, rules := r.rules.eraseHealth }

def RouteMatch.eraseHealth (m : RouteMatch) : RouteMatch :=
  ⟨m.route.eraseHealth, m.path.eraseHealth⟩

def SameDefinitions (routes routes' : List Route) : Prop :=
  routes.map Route.eraseHealth = routes'.map Route.eraseHealth

/-! ### The lookup, over the list of routes -/

def matchesIn (routes : List Route) (domain path : Text) (requireWwwAlias : Bool) :
    List RouteMatch :=
  ((routes.filter fun r => r.domain = domain).filter fun route =>
      !requireWwwAlias || routeAllowsWwwAlias route.domain route.rules.wwwAlias).filterMap
    fun route => (route.bestPath path).map fun p => { route, path := p }

def findIn (routes : List Route) (host path : Text) : Option RouteMatch :=
  let host := normalizeDomain host
  if host = [] then none
  else
    mergeBestRouteMatches <|
      if (matchesIn routes host path false).isEmpty then
        match wwwAliasBase host with
        | some baseDomain => matchesIn routes baseDomain path true
        | none => matchesIn routes host path false
      else matchesIn routes host path false

lemma find_eq_findIn (table : RouteTable) (host path : Text) :
    find table host path = findIn table.routes host path := by
  have hmatches : ∀ domain www,
      matchingRoutes table domain path www = matchesIn table.routes domain path www := by
    intro domain www
    rw [matchingRoutes, table.indexed, matchesIn]
  simp only [find, findMatches, hmatches]
  rfl

/-! ### Health flags are not read -/

lemma bestPath_eraseHealth (r : Route) (path : Text) :
    r.eraseHealth.bestPath path = (r.bestPath path).map PathRoute.eraseHealth := by
  rw [Route.bestPath, Route.bestPath, Route.eraseHealth, filter_map]
  exact maxByKey_map (fun p => p.pathPrefix.len) PathRoute.eraseHealth _

lemma matchesIn_eraseHealth (routes : List Route) (domain path : Text) (www : Bool) :
    matchesIn (routes.map Route.eraseHealth) domain path www =
      (matchesIn routes domain path www).map RouteMatch.eraseHealth := by
  rw [matchesIn, matchesIn, filter_map, filter_map, filterMap_map,
    map_filterMap]
  refine filterMap_congr fun r _ => ?_
  rw [Function.comp_apply, bestPath_eraseHealth, Option.map_map, Option.map_map]
  rfl

lemma selectMatches_eraseHealth (ms : List RouteMatch) :
    selectMatches (ms.map RouteMatch.eraseHealth) =
      (selectMatches ms).map RouteMatch.eraseHealth := by
  have hlen : (ms.map RouteMatch.eraseHealth).map (fun m => m.path.pathPrefix.len) =
      ms.map fun m => m.path.pathPrefix.len := map_map
  have hprio : ∀ n, (((ms.map RouteMatch.eraseHealth).filter fun m =>
      m.path.pathPrefix.len == n).map fun m => sourcePriority m.route.source) =
        (ms.filter fun m => m.path.pathPrefix.len == n).map fun m =>
          sourcePriority m.route.source := by
    intro n
    rw [filter_map, map_map]
    rfl
  simp only [selectMatches, hlen, hprio]
  split
  · rfl
  · split
    · rfl
    · exact filter_map

lemma absorb_eraseHealth (a b : RouteMatch) :
    a.eraseHealth.absorb b.eraseHealth = (a.absorb b).eraseHealth := by
  have hup := extendUniqueBy_map Upstream.url Upstream.eraseHealth (fun _ => rfl) a.path.upstreams
    b.path.upstreams
  simp only [RouteMatch.absorb, RouteMatch.eraseHealth, PathRoute.eraseHealth,
    extendUniqueUpstreams, hup]

lemma mergeBestRouteMatches_eraseHealth (ms : List RouteMatch) :
    mergeBestRouteMatches (ms.map RouteMatch.eraseHealth) =
      (mergeBestRouteMatches ms).map RouteMatch.eraseHealth := by
  rw [mergeBestRouteMatches, mergeBestRouteMatches, selectMatches_eraseHealth]
  cases selectMatches ms with
  | nil => rfl
  | cons first rest =>
    have hfold : (rest.map RouteMatch.eraseHealth).foldl RouteMatch.absorb first.eraseHealth =
        (rest.foldl RouteMatch.absorb first).eraseHealth := by
      rw [foldl_map]
      exact foldl_hom RouteMatch.eraseHealth fun a b => absorb_eraseHealth a b
    simp only [map_cons, hfold, Option.map_some]
    rfl

lemma findIn_eraseHealth (routes : List Route) (host path : Text) :
    findIn (routes.map Route.eraseHealth) host path =
      (findIn routes host path).map RouteMatch.eraseHealth := by
  simp only [findIn, matchesIn_eraseHealth, isEmpty_map]
  split
  · rfl
  · rw [← mergeBestRouteMatches_eraseHealth]
    congr 1
    split
    · split <;> rfl
    · rfl

/-! ### What of the order is read -/

def rankOf (routes : List Route) (domain : Text) (priority : ℕ) : List Route :=
  routes.filter fun r => r.domain = domain ∧ sourcePriority r.source = priority

lemma selectMatches_congr {ms ms' : List RouteMatch}
    (h : ∀ k, (ms.filter fun m => sourcePriority m.route.source == k) =
      ms'.filter fun m => sourcePriority m.route.source == k) :
    selectMatches ms = selectMatches ms' := by
  have hmem : ∀ m, m ∈ ms ↔ m ∈ ms' := by
    intro m
    have hm := congrArg (m ∈ ·) (h (sourcePriority m.route.source))
    simpa using hm
  have hlen : (ms.map fun m => m.path.pathPrefix.len).max? =
      (ms'.map fun m => m.path.pathPrefix.len).max? :=
    max?_congr fun n => by simp only [mem_map, hmem]
  have hprio : ∀ n, ((ms.filter fun m => m.path.pathPrefix.len == n).map fun m =>
      sourcePriority m.route.source).max? = ((ms'.filter fun m =>
        m.path.pathPrefix.len == n).map fun m => sourcePriority m.route.source).max? :=
    fun n => max?_congr fun k => by simp only [mem_map, mem_filter, hmem]
  have hboth : ∀ n k, (ms.filter fun m => m.path.pathPrefix.len == n &&
      sourcePriority m.route.source == k) = ms'.filter fun m => m.path.pathPrefix.len == n &&
        sourcePriority m.route.source == k := by
    intro n k
    rw [← filter_filter, h k, filter_filter]
  simp only [selectMatches, hlen, hprio, hboth]

lemma filter_matchesIn (routes : List Route) (domain path : Text) (www : Bool) (k : ℕ) :
    ((matchesIn routes domain path www).filter fun m => sourcePriority m.route.source == k) =
      matchesIn (rankOf routes domain k) domain path www := by
  rw [matchesIn, matchesIn, rankOf]
  induction routes with
  | nil => rfl
  | cons r routes ih =>
    by_cases hd : r.domain = domain <;> by_cases hk : sourcePriority r.source = k <;>
      by_cases hw : (!www || routeAllowsWwwAlias r.domain r.rules.wwwAlias) = true <;>
      cases hp : r.bestPath path <;> simp_all

lemma findIn_congr {routes routes' : List Route}
    (h : ∀ domain k, rankOf routes domain k = rankOf routes' domain k) (host path : Text) :
    findIn routes host path = findIn routes' host path := by
  have hselect : ∀ domain www, selectMatches (matchesIn routes domain path www) =
      selectMatches (matchesIn routes' domain path www) := fun domain www =>
    selectMatches_congr fun k => by rw [filter_matchesIn, filter_matchesIn, h]
  have hempty : ∀ domain www, (matchesIn routes domain path www).isEmpty =
      (matchesIn routes' domain path www).isEmpty := by
    intro domain www
    have hnil := congrArg (· = []) (hselect domain www)
    simp only [selectMatches_eq_nil, eq_iff_iff] at hnil
    rw [Bool.eq_iff_iff, List.isEmpty_iff, List.isEmpty_iff, hnil]
  have hmerge : ∀ domain www, mergeBestRouteMatches (matchesIn routes domain path www) =
      mergeBestRouteMatches (matchesIn routes' domain path www) := by
    intro domain www
    rw [mergeBestRouteMatches, mergeBestRouteMatches, hselect]
  simp only [findIn, hempty]
  split
  · rfl
  · split
    · split <;> exact hmerge _ _
    · exact hmerge _ _

/-! ### Some routes taken out and published again -/

section Republished

variable {own : Route → Bool} {routes published : List Route}

lemma map_dedupeKey_of_sameDefinitions {l l' : List Route} (h : SameDefinitions l l') :
    l.map dedupeKey = l'.map dedupeKey := by
  have hkeys := congrArg (List.map dedupeKey) h
  rwa [map_map, map_map] at hkeys

lemma dedupeRoutes_republished (hnodup : (routes.map dedupeKey).Nodup)
    (h : SameDefinitions published (routes.filter own)) :
    dedupeRoutes ((routes.filter fun r => !own r) ++ published) =
      (routes.filter fun r => !own r) ++ published := by
  refine lastByKey_of_nodup ?_
  have hperm : ((routes.filter fun r => !own r) ++ routes.filter own).Perm routes :=
    perm_append_comm.trans (filter_append_perm own routes)
  rw [map_append, map_dedupeKey_of_sameDefinitions h, ← map_append]
  exact (hperm.map dedupeKey).nodup_iff.mpr hnodup

lemma rankOf_republished
    (horder : routes.Pairwise fun a b => a.domain = b.domain →
      sourcePriority a.source = sourcePriority b.source → own a = true → own b = true)
    (domain : Text) (k : ℕ) :
    rankOf ((routes.filter fun r => !own r) ++ routes.filter own) domain k =
      rankOf routes domain k := by
  have hcomm : ∀ p : Route → Bool,
      rankOf (routes.filter p) domain k = (rankOf routes domain k).filter p := fun p => by
    rw [rankOf, rankOf, filter_filter, filter_filter]
    simp only [Bool.and_comm]
  have happend : rankOf ((routes.filter fun r => !own r) ++ routes.filter own) domain k =
      rankOf (routes.filter fun r => !own r) domain k ++ rankOf (routes.filter own) domain k :=
    filter_append _ _
  rw [happend, hcomm, hcomm]
  refine filter_append_filter (List.Pairwise.imp_of_mem ?_ (horder.filter _))
  intro a b ha hb hab
  obtain ⟨had, hak⟩ := of_decide_eq_true (mem_filter.mp ha).2
  obtain ⟨hbd, hbk⟩ := of_decide_eq_true (mem_filter.mp hb).2
  exact hab (had.trans hbd.symm) (hak.trans hbk.symm)

lemma findIn_republished (h : SameDefinitions published (routes.filter own))
    (horder : routes.Pairwise fun a b => a.domain = b.domain →
      sourcePriority a.source = sourcePriority b.source → own a = true → own b = true)
    (host path : Text) :
    (findIn ((routes.filter fun r => !own r) ++ published) host path).map
        RouteMatch.eraseHealth = (findIn routes host path).map RouteMatch.eraseHealth ∧
      (published = routes.filter own →
        findIn ((routes.filter fun r => !own r) ++ published) host path =
          findIn routes host path) := by
  have hmoved := findIn_congr (rankOf_republished horder) host path
  refine ⟨?_, fun heq => heq ▸ hmoved⟩
  rw [← findIn_eraseHealth, map_append, show published.map Route.eraseHealth = _ from h,
    ← map_append, findIn_eraseHealth, hmoved]

end Republished

/-! ### The two republications -/

def Republishes (table : RouteTable) : Call → Prop
  | .replaceSource source routes =>
    SameDefinitions routes (table.routes.filter fun r => r.source = source)
  | .upsertApiRoute route =>
    SameDefinitions [route]
      (table.routes.filter fun r => r.source = .api ∧ r.domain = route.domain)
  | _ => False

def CarriesHealth (table : RouteTable) : Call → Prop
  | .replaceSource source routes => routes = table.routes.filter fun r => r.source = source
  | .upsertApiRoute route =>
    [route] = table.routes.filter fun r => r.source = .api ∧ r.domain = route.domain
  | _ => True

def LastInRank (table : RouteTable) : Call → Prop
  | .replaceSource source _ =>
    table.routes.Pairwise fun a b => a.domain = b.domain →
      sourcePriority a.source = sourcePriority b.source → a.source = source → b.source = source
  | _ => True

lemma eq_api_of_sourcePriority {s : RouteSource} (h : sourcePriority .api = sourcePriority s) :
    s = .api := by
  revert h
  cases s <;> decide

lemma find_replaceSource {table : RouteTable} {source : RouteSource} {routes : List Route}
    (hnodup : (table.routes.map dedupeKey).Nodup)
    (hrep : Republishes table (.replaceSource source routes))
    (horder : LastInRank table (.replaceSource source routes)) (host path : Text) :
    (find ((Call.replaceSource source routes).prog.exec table) host path).map
        RouteMatch.eraseHealth = (find table host path).map RouteMatch.eraseHealth ∧
      (CarriesHealth table (.replaceSource source routes) →
        find ((Call.replaceSource source routes).prog.exec table) host path =
          find table host path) := by
  have hothers : withSource source routes table.routes =
      (table.routes.filter fun r => !decide (r.source = source)) ++ routes := rfl
  have hroutes : ((Call.replaceSource source routes).prog.exec table).routes =
      (table.routes.filter fun r => !decide (r.source = source)) ++ routes := by
    rw [← dedupeRoutes_republished hnodup hrep, ← hothers]
    rfl
  rw [find_eq_findIn, find_eq_findIn, hroutes]
  refine findIn_republished hrep (horder.imp fun hab hd hk ha => ?_) host path
  exact decide_eq_true (hab hd hk (of_decide_eq_true ha))

lemma find_upsertApiRoute {table : RouteTable} {route : Route}
    (hnodup : (table.routes.map dedupeKey).Nodup)
    (hrep : Republishes table (.upsertApiRoute route)) (host path : Text) :
    (find ((Call.upsertApiRoute route).prog.exec table) host path).map
        RouteMatch.eraseHealth = (find table host path).map RouteMatch.eraseHealth ∧
      (CarriesHealth table (.upsertApiRoute route) →
        find ((Call.upsertApiRoute route).prog.exec table) host path = find table host path) := by
  by_cases hany : (table.routes.any fun existing => apiRoutesEquivalent existing route) = true
  · -- the call returns at once
    have hsame : (Call.upsertApiRoute route).prog.exec table = table := by
      rw [Call.prog, Prog.exec, if_pos hany]
      rfl
    rw [hsame]
    exact ⟨rfl, fun _ => rfl⟩
  · have hothers : withApiRoute route table.routes = (table.routes.filter fun r =>
        !decide (r.source = .api ∧ r.domain = route.domain)) ++ [route] := by
      rw [withApiRoute, withoutApiDomain_eq]
      simp only [decide_not]
    have hroutes : ((Call.upsertApiRoute route).prog.exec table).routes =
        (table.routes.filter fun r => !decide (r.source = .api ∧ r.domain = route.domain)) ++
          [route] := by
      rw [← dedupeRoutes_republished hnodup hrep, ← hothers, Call.prog, Prog.exec, if_neg hany]
      rfl
    rw [find_eq_findIn, find_eq_findIn, hroutes]
    -- an API route stands alone in its rank
    refine findIn_republished hrep (pairwise_of_forall fun a b hd hk ha => ?_) host path
    obtain ⟨hapi, hdomain⟩ := of_decide_eq_true ha
    exact decide_eq_true ⟨eq_api_of_sourcePriority (hapi ▸ hk), hd ▸ hdomain⟩

/-- **Publishing again.**  In every reachable table, publishing routes that are installed
already changes the answers of the lookup in their health flags only, if in each rank the
published routes are last; and it changes nothing if they carry the flags in force. -/
theorem republication_keeps_find {ι : Type} [DecidableEq ι] (initial : List Route)
    (ops : ι → RegistryOp) (schedule : List ι) (call : Call)
    (hrep : Republishes (publishedTable initial ops schedule) call)
    (horder : LastInRank (publishedTable initial ops schedule) call) (host path : Text) :
    (find (call.prog.exec (publishedTable initial ops schedule)) host path).map
        RouteMatch.eraseHealth =
      (find (publishedTable initial ops schedule) host path).map RouteMatch.eraseHealth ∧
    (CarriesHealth (publishedTable initial ops schedule) call →
      find (call.prog.exec (publishedTable initial ops schedule)) host path =
        find (publishedTable initial ops schedule) host path) := by
  have hpublished : Published (fun _ => True) (publishedTable initial ops schedule) :=
    published_run (fun _ _ => trivial) (fun _ _ _ => trivial) schedule
  cases call with
  | replaceSource source routes => exact find_replaceSource hpublished.nodup hrep horder host path
  | upsertApiRoute route => exact find_upsertApiRoute hpublished.nodup hrep host path
  | _ => exact hrep.elim

def oneUpstream (source : RouteSource) (healthy : Bool) : Route where
  id := "web"
  domain := "a.com"
  source
  paths := [{ pathPrefix := "/", upstreams := [{ url := "http://b", healthy }] }]

def foundUnhealthy (source : RouteSource) : Fin 2 → RegistryOp
  | 0 => .call (.replaceSource source [oneUpstream source true])
  | 1 => .call (.setUpstreamHealth (Map.ofList [("http://b", false)]))

def unhealthyTable (source : RouteSource) : RouteTable :=
  publishedTable [] (foundUnhealthy source) [0, 0, 1, 1]

theorem republication_keeps_find_unhealthy :
    Republishes (unhealthyTable .docker) (.replaceSource .docker [oneUpstream .docker false]) ∧
      LastInRank (unhealthyTable .docker) (.replaceSource .docker [oneUpstream .docker false]) ∧
      CarriesHealth (unhealthyTable .docker) (.replaceSource .docker [oneUpstream .docker false]) ∧
      find ((Call.replaceSource .docker [oneUpstream .docker false]).prog.exec
          (unhealthyTable .docker)) "a.com" "/x" = find (unhealthyTable .docker) "a.com" "/x" := by
  have hrep : Republishes (unhealthyTable .docker)
      (.replaceSource .docker [oneUpstream .docker false]) := rfl
  have horder : LastInRank (unhealthyTable .docker)
      (.replaceSource .docker [oneUpstream .docker false]) :=
    pairwise_singleton _ (oneUpstream .docker false)
  have hcarries : CarriesHealth (unhealthyTable .docker)
      (.replaceSource .docker [oneUpstream .docker false]) := rfl
  exact ⟨hrep, horder, hcarries, (republication_keeps_find [] (foundUnhealthy .docker)
    [0, 0, 1, 1] _ hrep horder "a.com" "/x").2 hcarries⟩

def bothRuntimes : Fin 2 → RegistryOp
  | 0 => .call (.replaceSource .docker [oneUpstream .docker true])
  | 1 => .call (.replaceSource .podman
      [{ oneUpstream .podman true with rules := { maintenanceMode := true } }])

def bothRuntimesTable : RouteTable := publishedTable [] bothRuntimes [0, 0, 1, 1]

def matchedHealth (table : RouteTable) : Option (List Bool) :=
  (find table "a.com" "/").map fun m => m.path.upstreams.map Upstream.healthy

def matchedMaintenance (table : RouteTable) : Option Bool :=
  (find table "a.com" "/").map fun m => m.route.rules.maintenanceMode

/-- A poll of the containers marks an unhealthy upstream healthy again, and so does the API
route posted once more; and a poll of one runtime makes the rules of the other runtime's
route win. -/
theorem republication_changes_find :
    (Republishes (unhealthyTable .docker) (.replaceSource .docker [oneUpstream .docker true]) ∧
      matchedHealth (unhealthyTable .docker) = some [false] ∧
      matchedHealth ((Call.replaceSource .docker [oneUpstream .docker true]).prog.exec
        (unhealthyTable .docker)) = some [true]) ∧
    (Republishes (unhealthyTable .api) (.upsertApiRoute (oneUpstream .api true)) ∧
      matchedHealth (unhealthyTable .api) = some [false] ∧
      matchedHealth ((Call.upsertApiRoute (oneUpstream .api true)).prog.exec
        (unhealthyTable .api)) = some [true]) ∧
    Republishes bothRuntimesTable (.replaceSource .docker [oneUpstream .docker true]) ∧
      matchedMaintenance bothRuntimesTable = some false ∧
      matchedMaintenance ((Call.replaceSource .docker [oneUpstream .docker true]).prog.exec
        bothRuntimesTable) = some true := by
  refine ⟨⟨rfl, ?_, ?_⟩, ⟨rfl, ?_, ?_⟩, rfl, ?_, ?_⟩
  all_goals decide

end PxxlEdge
