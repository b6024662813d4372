import PxxlEdge.Control.Discovery
import PxxlEdge.Control.Snapshot
import PxxlEdge.Core.Health

/-!
How the edge comes by its routes: those of the configuration, of the snapshot
file and of Redis when it starts, and those of the control plane, of the events
and of the containers afterwards.

The JSON decoders are parameters.
-/

namespace PxxlEdge

open RustStd Atomic List

/-! ### The start -/

structure RouteCodec where
  decodeFile : List UInt8 → Except Text (List Route)
  decodeRecord : Text → Except Text Route

structure Boot where
  static : List Route
  static_source : ∀ r ∈ static, r.source = .static
  file : Except Text (List UInt8)
  redis : Except Text (List Text)

section Load

variable (C : RouteCodec) (U : UrlParser) (vars : EnvVars)

def loadHttpRoutes (file : Except Text (List UInt8)) : Except Text (List Route) := do
  let bytes ← file
  if bytes = [] then return []
  else
    let routes ← C.decodeFile bytes
    return loadHttpRoutesFromFile routes

def checkLoaded (route : Route) : Except Text Route :=
  match (loadedRoute route).validateForDynamicControlPlane U vars with
  | .error reason =>
    .error ("invalid persisted route " ++ (loadedRoute route).domain ++ ": " ++
      reason)
  | .ok () => .ok (loadedRoute route)

def loadRecord (value : Text) : Except Text Route := C.decodeRecord value >>= checkLoaded U vars

def goodRecords (values : List Text) : List Route :=
  values.filterMap fun value => (loadRecord C U vars value).toOption

def loadRoutes (redis : Except Text (List Text)) : Except Text (List Route) := do
  let values ← redis
  (values.take maxRoutesPerSource).mapM (loadRecord C U vars)

namespace Boot

variable (b : Boot)

def fileRoutes : List Route :=
  match loadHttpRoutes C b.file with
  | .ok routes => routes
  | .error _ => []

def redisRoutes : List Route :=
  match loadRoutes C U vars b.redis with
  | .ok routes => routes
  | .error _ => []

def initialRoutes : List Route := b.static ++ b.fileRoutes C ++ b.redisRoutes C U vars

def table : RouteTable := RouteTable.new (b.initialRoutes C U vars)

end Boot

end Load

/-! ### What is asked of the registry -/

inductive ControlOp where
  | event (env : WriteEnv) (event : RuntimeRouteEvent)
  | upsertInternalRoute (env : WriteEnv) (path : Text) (body : InternalRouteBody)
  | deleteInternalRoute (path : Text)
  | createDomain (env : WriteEnv) (body : DomainRouteBody)
  | deleteDomain (path : Text)
  | poll (now : Int) (provider : ContainerProvider) (publishedPortHost : Option Text)
      (answer : Except Text (List DockerContainerSummary))
  | healthChecks (updates : List RouteUpstreamHealth)
  | passiveHealth (update : RouteUpstreamHealth)

def stateUpsertApiRoute (route : Route) : Prog RouteTable :=
  .load fun table =>
    if table.routes.any fun existing => apiRoutesEquivalent existing route then .done
    else (Call.upsertApiRoute route).prog

def deleteNamed (domain : Text) : Prog RouteTable :=
  if domain = [] then .done else (Call.deleteApiDomain domain).prog

def adminDomain (path : Text) : Text :=
  normalizeDomain ((Text.trimStartText "/v1/domains/" path).trimMatches '/')

section Ops

variable (U : UrlParser) (vars : EnvVars)

def ControlOp.prog : ControlOp → Prog RouteTable
  | event env runtimeEvent =>
    match runtimeEvent.intoRoute U vars env.now with
    | .ok (some route) => stateUpsertApiRoute route
    | .ok none => .done
    | .error _ => .done
  | upsertInternalRoute env path body =>
    match internalRoute U vars env.now env.unixNow path body with
    | .error _ => .done
    | .ok route =>
      .load fun table =>
        if staleUpdate table route then .done
        else
          match validateApiRouteNetworkSafety U vars env.lookup route with
          | .error _ => .done
          | .ok () => stateUpsertApiRoute route
  | deleteInternalRoute path => deleteNamed (internalRouteHost path)
  | createDomain env body =>
    match body.intoRoute U vars env.now with
    | .error _ => .done
    | .ok route =>
      match validateApiRouteNetworkSafety U vars env.lookup route with
      | .error _ => .done
      | .ok () =>
        .load fun table =>
          if quotaExceeded table route then .done else stateUpsertApiRoute route
  | deleteDomain path => deleteNamed (adminDomain path)
  | poll now provider publishedPortHost answer =>
    match discoverOnce U vars now provider publishedPortHost answer with
    | .ok routes => (Call.replaceSource provider.routeSource routes).prog
    | .error _ => .done
  | healthChecks updates => (Call.setRouteUpstreamHealthMany updates).prog
  | passiveHealth update => (Call.setRouteUpstreamHealth update).prog

def tableSinceStart {ι : Type} [DecidableEq ι] (C : RouteCodec) (b : Boot) (ops : ι → ControlOp)
    (schedule : List ι) : RouteTable :=
  ((Sys.init (b.table C U vars)).run (fun i => (ops i).prog U vars) schedule).cell

end Ops

/-! ### An operation that runs alone -/

section Alone

variable (U : UrlParser) (vars : EnvVars)

lemma exec_stateUpsertApiRoute (route : Route) (table : RouteTable) :
    (stateUpsertApiRoute route).exec table = (upsertApiRoute table route).1 := by
  rw [stateUpsertApiRoute, Prog.exec, upsertApiRoute]
  split
  · rfl
  · rfl

lemma exec_event (env : WriteEnv) (event : RuntimeRouteEvent) (s : Stores) :
    ((ControlOp.event env event).prog U vars).exec s.table =
      (applyRuntimeRouteEvent U vars env event s).2.table := by
  rw [ControlOp.prog]
  cases hroute : event.intoRoute U vars env.now with
  | error error => simp only [applyRuntimeRouteEvent, hroute, Prog.exec]
  | ok route =>
    cases route with
    | none => simp only [applyRuntimeRouteEvent, hroute, Prog.exec]
    | some route =>
      rw [stores_applyRuntimeRouteEvent U vars hroute, table_commitRoute]
      exact exec_stateUpsertApiRoute route s.table

lemma exec_upsertInternalRoute (env : WriteEnv) (path : Text) (body : InternalRouteBody)
    (s : Stores) :
    ((ControlOp.upsertInternalRoute env path body).prog U vars).exec s.table =
      (upsertInternalRoute U vars env path body s).2.table := by
  rw [ControlOp.prog, upsertInternalRoute]
  cases internalRoute U vars env.now env.unixNow path body with
  | error error => rfl
  | ok route =>
    dsimp only [Prog.exec]
    split
    · rfl
    · cases validateApiRouteNetworkSafety U vars env.lookup route with
      | error error => rfl
      | ok u =>
        dsimp only
        rw [exec_stateUpsertApiRoute, ← table_commitRoute U vars env]
        split <;> rfl

lemma exec_createDomain (env : WriteEnv) (body : DomainRouteBody) (s : Stores) :
    ((ControlOp.createDomain env body).prog U vars).exec s.table =
      (createDomain U vars env body s).2.table := by
  rw [ControlOp.prog, createDomain]
  cases body.intoRoute U vars env.now with
  | error error => rfl
  | ok route =>
    dsimp only
    cases validateApiRouteNetworkSafety U vars env.lookup route with
    | error error => rfl
    | ok u =>
      dsimp only [Prog.exec]
      split
      · rfl
      · rw [exec_stateUpsertApiRoute, ← table_commitRoute U vars env]
        split <;> rfl

end Alone

/-! ### Routes that are checked -/

section Checked

variable (U : UrlParser) (vars : EnvVars)

def Checked (route : Route) : Prop :=
  route.source ≠ .static → route.validateForDynamicControlPlane U vars = .ok ()

lemma healthBlind_checked : HealthBlind (Checked U vars) := by
  refine healthBlind_of_eraseHealth fun r => ?_
  rw [Checked, validateForDynamicControlPlane_eraseHealth]
  rfl

variable {U vars}

lemma RuntimeRouteEvent.checked {env : WriteEnv} {event : RuntimeRouteEvent} {route : Route}
    (h : event.intoRoute U vars env.now = .ok (some route)) : Checked U vars route := by
  obtain ⟨hvalid, rfl⟩ := event.intoRoute_eq_some h
  exact fun _ => hvalid

lemma keeps_stateUpsertApiRoute {route : Route} (h : Checked U vars route) :
    (stateUpsertApiRoute route).Keeps (Written (Checked U vars)) := by
  intro table _
  dsimp only
  split
  · trivial
  · refine Call.keeps_written (healthBlind_checked U vars) (.upsertApiRoute route) fun r hr => ?_
    rw [mem_singleton.mp hr]
    exact h

lemma keeps_deleteNamed (domain : Text) :
    (deleteNamed domain).Keeps (Written (Checked U vars)) := by
  rw [deleteNamed]
  split
  · trivial
  · exact Call.keeps_written (healthBlind_checked U vars) (.deleteApiDomain domain) (by simp
      [RegistryOp.routes])

lemma ControlOp.keeps (op : ControlOp) : (op.prog U vars).Keeps (Written (Checked U vars)) := by
  cases op with
  | event env event =>
    rw [ControlOp.prog]
    split
    · next hroute => exact keeps_stateUpsertApiRoute (RuntimeRouteEvent.checked hroute)
    · trivial
    · trivial
  | upsertInternalRoute env path body =>
    rw [ControlOp.prog]
    split
    · trivial
    · next route hroute =>
      have hvalid := (body.intoRoute_eq_ok (intoRoute_of_internalRoute hroute).1).1
      intro table _
      dsimp only
      split
      · trivial
      · split
        · trivial
        · exact keeps_stateUpsertApiRoute fun _ => hvalid
  | deleteInternalRoute path => exact keeps_deleteNamed _
  | createDomain env body =>
    rw [ControlOp.prog]
    split
    · trivial
    · next route hroute =>
      have hvalid := (body.intoRoute_eq_ok hroute).1
      split
      · trivial
      · intro table _
        dsimp only
        split
        · trivial
        · exact keeps_stateUpsertApiRoute fun _ => hvalid
  | deleteDomain path => exact keeps_deleteNamed _
  | poll now provider publishedPortHost answer =>
    rw [ControlOp.prog]
    split
    · next routes hroutes =>
      exact Call.keeps_written (healthBlind_checked U vars) (.replaceSource _ routes)
        fun r hr _ => (mem_discoverOnce hroutes hr).2
    · trivial
  | healthChecks updates =>
    exact Call.keeps_written (healthBlind_checked U vars) (.setRouteUpstreamHealthMany updates)
      (by simp [RegistryOp.routes])
  | passiveHealth update =>
    exact Call.keeps_written (healthBlind_checked U vars) (.setRouteUpstreamHealth update)
      (by simp [RegistryOp.routes])

end Checked

/-! ### The routes of the start -/

section Start

variable {C : RouteCodec} {U : UrlParser} {vars : EnvVars} {b : Boot} {r : Route}

lemma redisLoadRoutes_eq (redis : Map Text Route) :
    redisLoadRoutes U vars redis =
      ((redis.entries.map fun e => e.2).take maxRoutesPerSource).mapM (checkLoaded U vars) := by
  rw [redisLoadRoutes]
  refine congrArg (fun check => List.mapM check _) ?_
  funext value
  cases hvalid : (loadedRoute value).validateForDynamicControlPlane U vars with
  | error reason => simp only [checkLoaded, hvalid]
  | ok u => simp only [checkLoaded, hvalid]

lemma loadRoutes_eq_redisLoadRoutes {values : List Text} {redis : Map Text Route}
    (hvalues : values.map C.decodeRecord = redis.entries.map fun e => .ok e.2) :
    loadRoutes C U vars (.ok values) = redisLoadRoutes U vars redis := by
  have hrecord : loadRecord C U vars = (· >>= checkLoaded U vars) ∘ C.decodeRecord := rfl
  have hload : loadRoutes C U vars (.ok values) =
      (values.take maxRoutesPerSource).mapM (loadRecord C U vars) := rfl
  rw [hload, redisLoadRoutes_eq, hrecord, ← mapM_map, map_take, hvalues,
    ← map_take, mapM_map, ← map_take, mapM_map]
  refine congrArg (fun check => List.mapM check _) ?_
  funext e
  rw [Function.comp_apply, Function.comp_apply, ok_bind]

lemma initialRoutes_eq_startupRoutes {bytes : List UInt8} {file : List Route}
    {values : List Text} {redis : Map Text Route} (hfile : b.file = .ok bytes) (hne : bytes ≠ [])
    (hdecode : C.decodeFile bytes = .ok file) (hredis : b.redis = .ok values)
    (hvalues : values.map C.decodeRecord = redis.entries.map fun e => .ok e.2) :
    b.initialRoutes C U vars = startupRoutes U vars b.static file redis := by
  have hroutes : b.fileRoutes C = loadHttpRoutesFromFile file := by
    simp [Boot.fileRoutes, loadHttpRoutes, hfile, hne, hdecode, bind, Except.bind, pure,
      Except.pure]
  rw [Boot.initialRoutes, hroutes, Boot.redisRoutes, hredis,
    loadRoutes_eq_redisLoadRoutes hvalues]
  rfl

lemma loadRecord_eq_ok {value : Text} (h : loadRecord C U vars value = .ok r) :
    r.source = .api ∧ r.validateForDynamicControlPlane U vars = .ok () := by
  rw [loadRecord] at h
  cases hdecode : C.decodeRecord value with
  | error error =>
    rw [hdecode] at h
    cases h
  | ok route =>
    rw [hdecode, ok_bind, checkLoaded] at h
    split at h
    · cases h
    · next hvalid =>
      obtain rfl := Except.ok.inj h
      exact ⟨rfl, hvalid⟩

lemma mem_redisRoutes (h : r ∈ b.redisRoutes C U vars) :
    r.source = .api ∧ r.validateForDynamicControlPlane U vars = .ok () := by
  rw [Boot.redisRoutes, loadRoutes] at h
  cases hredis : b.redis with
  | error error => simp [hredis, bind, Except.bind] at h
  | ok values =>
    simp only [hredis, bind, Except.bind] at h
    split at h
    · next routes hroutes =>
      obtain ⟨value, -, hvalue⟩ := (mem_iff_of_mapM_eq_ok hroutes).mp h
      exact loadRecord_eq_ok hvalue
    · cases h

lemma source_loadHttpRoutesFromFile {file : List Route} (h : r ∈ loadHttpRoutesFromFile file) :
    r.source = .api := by
  obtain ⟨value, -, rfl⟩ := mem_map.mp (mem_of_mem_filter (mem_of_mem_take h))
  rfl

lemma source_fileRoutes (h : r ∈ b.fileRoutes C) : r.source = .api := by
  rw [Boot.fileRoutes, loadHttpRoutes] at h
  cases hfile : b.file with
  | error error => simp [hfile, bind, Except.bind] at h
  | ok bytes =>
    simp only [hfile, bind, Except.bind] at h
    split_ifs at h
    · cases h
    · cases hdecode : C.decodeFile bytes with
      | error error => simp [hdecode] at h
      | ok routes =>
        simp only [hdecode] at h
        exact source_loadHttpRoutesFromFile h

lemma lastWith_dedupeKey {routes : List Route} (hroutes : ∀ r' ∈ routes, r'.source = .api)
    (hr : r.source = .api) :
    lastWith dedupeKey routes (dedupeKey r) = lastWith Route.domain routes r.domain := by
  rw [lastWith, lastWith]
  congr 1
  refine filter_congr fun r' hr' => ?_
  rw [Bool.eq_iff_iff, decide_eq_true_iff, decide_eq_true_iff, dedupeKey_eq_api_iff hr]
  exact and_iff_right (hroutes r' hr')

lemma mem_table_iff (hr : r.source = .api) :
    r ∈ (b.table C U vars).routes ↔
      (lastWith Route.domain (b.redisRoutes C U vars) r.domain).or
        (lastWith Route.domain (b.fileRoutes C) r.domain) = some r := by
  have hstatic : lastWith dedupeKey b.static (dedupeKey r) = none := by
    refine lastWith_eq_none.mpr fun r' hr' hkey => ?_
    have hapi := ((dedupeKey_eq_api_iff hr).mp hkey).1
    rw [b.static_source r' hr'] at hapi
    cases hapi
  change r ∈ lastByKey dedupeKey (b.initialRoutes C U vars) ↔ _
  rw [mem_lastByKey_iff, Boot.initialRoutes, lastWith_append, lastWith_append, hstatic,
    Option.or_none, lastWith_dedupeKey (fun r' hr' => (mem_redisRoutes hr').1) hr,
    lastWith_dedupeKey (fun r' hr' => source_fileRoutes hr') hr]

lemma checked_table_iff :
    (∀ r ∈ (b.table C U vars).routes, Checked U vars r) ↔
      ∀ route, lastWith Route.domain (b.fileRoutes C) route.domain = some route →
        (∀ r ∈ b.redisRoutes C U vars, r.domain ≠ route.domain) →
          route.validateForDynamicControlPlane U vars = .ok () := by
  constructor
  · intro h route hlast hredis
    have hapi : route.source = .api :=
      source_fileRoutes (mem_filter.mp (mem_of_getLast? hlast)).1
    have hmem : route ∈ (b.table C U vars).routes := by
      rw [mem_table_iff hapi, lastWith_eq_none.mpr hredis, Option.none_or]
      exact hlast
    exact h route hmem (by simp [hapi])
  · intro h r hr hdynamic
    have hinitial : r ∈ b.initialRoutes C U vars := mem_of_mem_dedupeRoutes hr
    rw [Boot.initialRoutes, mem_append, mem_append] at hinitial
    rcases hinitial with (hstatic | hfile) | hredis
    · exact absurd (b.static_source r hstatic) hdynamic
    · have hlast := (mem_table_iff (source_fileRoutes hfile)).mp hr
      cases hredis : lastWith Route.domain (b.redisRoutes C U vars) r.domain with
      | none =>
        rw [hredis, Option.none_or] at hlast
        exact h r hlast (lastWith_eq_none.mp hredis)
      | some r' =>
        -- the route is the one of Redis
        rw [hredis, Option.some_or, Option.some.injEq] at hlast
        rw [hlast] at hredis
        exact (mem_redisRoutes (mem_filter.mp (mem_of_getLast? hredis)).1).2
    · exact (mem_redisRoutes hredis).2

end Start

/-! ### Records of Redis -/

section Records

variable {C : RouteCodec} {U : UrlParser} {vars : EnvVars} {b : Boot} {values : List Text}

lemma mem_goodRecords {r : Route} :
    r ∈ goodRecords C U vars values ↔ ∃ value ∈ values, loadRecord C U vars value = .ok r := by
  rw [goodRecords, mem_filterMap]
  refine exists_congr fun value => and_congr_right fun _ => ?_
  cases loadRecord C U vars value <;> simp [Except.toOption]

lemma mem_redisRoutes_of_good (hredis : b.redis = .ok values)
    (hlen : values.length ≤ maxRoutesPerSource)
    (hgood : ∀ value ∈ values, ∃ route, loadRecord C U vars value = .ok route) {r : Route} :
    r ∈ b.redisRoutes C U vars ↔ r ∈ goodRecords C U vars values := by
  obtain ⟨routes, hroutes⟩ := exists_mapM_eq_ok.mpr hgood
  have hload : loadRoutes C U vars b.redis = .ok routes := by
    rw [loadRoutes, hredis, ← hroutes]
    exact congrArg (List.mapM _) (take_of_length_le hlen)
  rw [Boot.redisRoutes, hload, mem_goodRecords]
  exact mem_iff_of_mapM_eq_ok hroutes

lemma redisRoutes_of_bad (hredis : b.redis = .ok values)
    (hlen : values.length ≤ maxRoutesPerSource)
    (hbad : ¬ ∀ value ∈ values, ∃ route, loadRecord C U vars value = .ok route) :
    b.redisRoutes C U vars = [] := by
  have hload : loadRoutes C U vars b.redis = values.mapM (loadRecord C U vars) := by
    rw [loadRoutes, hredis]
    exact congrArg (List.mapM _) (take_of_length_le hlen)
  rw [Boot.redisRoutes, hload]
  cases hroutes : values.mapM (loadRecord C U vars) with
  | error error => rfl
  | ok routes => exact absurd (exists_mapM_eq_ok.mp ⟨routes, hroutes⟩) hbad

/-- **Records of Redis.**  Every record that decodes and passes the checks is a route of the
registry that the edge starts with, exactly if either every record does and those of one domain
agree, or else each that does is also the last route of its domain in the snapshot file. -/
theorem records_loaded_iff (C : RouteCodec) (U : UrlParser) (vars : EnvVars) (b : Boot)
    (values : List Text) (hredis : b.redis = .ok values)
    (hlen : values.length ≤ maxRoutesPerSource) :
    (∀ route ∈ goodRecords C U vars values, route ∈ (b.table C U vars).routes) ↔
      ((∀ value ∈ values, ∃ route, loadRecord C U vars value = .ok route) ∧
          ∀ route ∈ goodRecords C U vars values, ∀ route' ∈ goodRecords C U vars values,
            route.domain = route'.domain → route = route') ∨
        ((∃ value ∈ values, ∀ route, loadRecord C U vars value ≠ .ok route) ∧
          ∀ route ∈ goodRecords C U vars values,
            lastWith Route.domain (b.fileRoutes C) route.domain = some route) := by
  have hsource : ∀ route ∈ goodRecords C U vars values, route.source = .api := by
    intro route hroute
    obtain ⟨value, -, hvalue⟩ := mem_goodRecords.mp hroute
    exact (loadRecord_eq_ok hvalue).1
  by_cases hgood : ∀ value ∈ values, ∃ route, loadRecord C U vars value = .ok route
  · have hmem : ∀ route, route ∈ b.redisRoutes C U vars ↔ route ∈ goodRecords C U vars values :=
      fun route => mem_redisRoutes_of_good hredis hlen hgood
    have hnone : ¬ ∃ value ∈ values, ∀ route, loadRecord C U vars value ≠ .ok route := by
      rintro ⟨value, hvalue, hne⟩
      obtain ⟨route, hroute⟩ := hgood value hvalue
      exact hne route hroute
    have htable : ∀ route ∈ goodRecords C U vars values, route ∈ (b.table C U vars).routes ↔
        lastWith Route.domain (b.redisRoutes C U vars) route.domain = some route := by
      intro route hroute
      rw [mem_table_iff (hsource route hroute)]
      cases hlast : lastWith Route.domain (b.redisRoutes C U vars) route.domain with
      | none => exact absurd rfl (lastWith_eq_none.mp hlast route ((hmem route).mpr hroute))
      | some route' => rw [Option.some_or]
    rw [and_iff_right hgood, or_iff_left fun h => hnone h.1, forall₂_congr htable]
    simp only [← hmem]
    exact forall_lastWith_iff
  · have hempty := redisRoutes_of_bad hredis hlen hgood
    have hsome : ∃ value ∈ values, ∀ route, loadRecord C U vars value ≠ .ok route := by
      simpa using hgood
    rw [or_iff_right fun h => hgood h.1, and_iff_right hsome]
    refine forall₂_congr fun route hroute => ?_
    rw [mem_table_iff (hsource route hroute), hempty]
    rfl

end Records

/-! ### Every run -/

section Runs

variable (C : RouteCodec) (U : UrlParser) (vars : EnvVars) (b : Boot)

/-- **Routes that are not of the configuration.**  In every registry of every run, whatever the
operations and however their steps interleave, each API, Docker and Podman route passes the
checks of the control plane, exactly if each route of the snapshot file does that is the last
of its domain there and whose domain has no route in Redis. -/
theorem dynamic_routes_checked_iff :
    (∀ (ι : Type) [DecidableEq ι] (ops : ι → ControlOp) (schedule : List ι),
        ∀ r ∈ (tableSinceStart U vars C b ops schedule).routes, r.source ≠ .static →
          r.validateForDynamicControlPlane U vars = .ok ()) ↔
      ∀ route, lastWith Route.domain (b.fileRoutes C) route.domain = some route →
        (∀ r ∈ b.redisRoutes C U vars, r.domain ≠ route.domain) →
          route.validateForDynamicControlPlane U vars = .ok () := by
  rw [← checked_table_iff]
  constructor
  · intro h
    exact h Empty (fun i => i.elim) []
  · intro h ι _ ops schedule
    have hstart : Written (Checked U vars) (b.table C U vars) :=
      ⟨(b.table C U vars).routes, h, (new_dedupeRoutes _).symm⟩
    exact (run_keeps hstart (fun i => (ops i).keeps) schedule).forall_mem

end Runs

def sampleRecord (domain url : Text) : Text :=
  "\x7b\"id\":\"api\",\"domain\":\"" ++ domain ++
    "\",\"paths\":[\x7b\"prefix\":\"/\",\"upstreams\":[\x7b\"url\":\"" ++ url ++
    "\"\x7d]\x7d],\"tls\":true,\"source\":\"api\",\"created_at\":" ++
    "\"1970-01-01T00:00:00Z\",\"updated_at\":\"1970-01-01T00:00:00Z\"\x7d"

def decodedRecord (domain url : Text) : Route where
  id := "api"
  domain := domain
  source := .api
  paths := [{ pathPrefix := "/", upstreams := [{ url }] }]

def sampleCodec : RouteCodec where
  decodeFile := fun bytes =>
    if bytes = Text.asBytes ("[" ++ sampleRecord "a.com" "http://127.0.0.1:9000" ++
        "]") then
      .ok [decodedRecord "a.com" "http://127.0.0.1:9000"]
    else .error "expected value"
  decodeRecord := fun value =>
    if value = sampleRecord "a.com" "http://web.example" then
      .ok (decodedRecord "a.com" "http://web.example")
    else if value = sampleRecord "b.com" "http://web.example" then
      .ok (decodedRecord "b.com" "http://web.example")
    else .error "expected value"

def loopbackBoot : Boot where
  static := []
  static_source := by simp
  file := .ok (Text.asBytes ("[" ++ sampleRecord "a.com" "http://127.0.0.1:9000" ++
    "]"))
  redis := .ok []

/-- The route of the file is in force although it does not pass the checks. -/
theorem snapshot_route_unchecked :
    ¬ ∀ r ∈ (tableSinceStart .basic (fun _ => none) sampleCodec loopbackBoot
        (fun i : Empty => i.elim) []).routes, r.source ≠ .static →
      r.validateForDynamicControlPlane .basic (fun _ => none) = .ok () := by
  decide +kernel

def recordsOnly (values : List Text) : Boot where
  static := []
  static_source := by simp
  file := .error "No such file or directory (os error 2)"
  redis := .ok values

def twoRecords : List Text :=
  [sampleRecord "a.com" "http://web.example", sampleRecord "b.com" "http://web.example"]

theorem records_loaded_two :
    (goodRecords sampleCodec .basic (fun _ => none) twoRecords).length = 2 ∧
      ∀ route ∈ goodRecords sampleCodec .basic (fun _ => none) twoRecords,
        route ∈ ((recordsOnly twoRecords).table sampleCodec .basic (fun _ => none)).routes := by
  have hload : ∀ value ∈ twoRecords,
      (loadRecord sampleCodec .basic (fun _ => none) value).isOk = true := by
    decide +kernel
  have hdomains : (goodRecords sampleCodec .basic (fun _ => none) twoRecords).map Route.domain =
      ["a.com".toList, "b.com".toList] := by
    decide +kernel
  have hnodup : ((goodRecords sampleCodec .basic (fun _ => none) twoRecords).map
      Route.domain).Nodup := by
    rw [hdomains]
    decide
  refine ⟨?_, (records_loaded_iff sampleCodec .basic (fun _ => none) (recordsOnly twoRecords)
    twoRecords rfl (by decide)).mpr (.inl ⟨?_, ?_⟩)⟩
  · exact (length_map Route.domain).symm.trans (congrArg List.length hdomains)
  · intro value hvalue
    have hok := hload value hvalue
    cases hroute : loadRecord sampleCodec .basic (fun _ => none) value with
    | error error =>
      rw [hroute] at hok
      cases hok
    | ok route => exact ⟨route, rfl⟩
  · intro route hroute route' hroute' hdomain
    exact inj_on_of_nodup_map hnodup hroute hroute' hdomain

def cutRecord : List Text :=
  [sampleRecord "a.com" "http://web.example",
    (sampleRecord "b.com" "http://web.example").take 40]

/-- The record that was cut off keeps the other one from being loaded. -/
theorem cut_record_removes_other :
    ¬ ∀ route ∈ goodRecords sampleCodec .basic (fun _ => none) cutRecord,
      route ∈ ((recordsOnly cutRecord).table sampleCodec .basic (fun _ => none)).routes := by
  have hgood : goodRecords sampleCodec .basic (fun _ => none) cutRecord ≠ [] := by
    rw [← length_pos_iff]
    decide +kernel
  have htable : ((recordsOnly cutRecord).table sampleCodec .basic (fun _ => none)).routes = [] := by
    rw [← length_eq_zero_iff]
    decide +kernel
  intro h
  obtain ⟨route, hroute⟩ := exists_mem_of_ne_nil _ hgood
  have hmem := h route hroute
  rw [htable] at hmem
  cases hmem

end PxxlEdge
