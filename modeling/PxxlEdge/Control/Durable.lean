import PxxlEdge.Control.Writes
import PxxlEdge.Lib.Run

/-!
Is a route that was reported as written in Redis?  The registry is changed before
Redis is, and a write that finds its route in the registry does not go to Redis
at all.  So when Redis has failed once, a retry of the same write reports success
without having stored anything.
-/

namespace PxxlEdge

open RustStd Run

inductive RouteWrite where
  | event (event : RuntimeRouteEvent)
  | put (path : Text) (body : InternalRouteBody)
  | post (body : DomainRouteBody)

variable {t : Tracked}

section Durable

variable (U : UrlParser) (vars : EnvVars)

def RouteWrite.accepted (env : WriteEnv) (s : Stores) : RouteWrite → Option Route
  | event e =>
    match e.intoRoute U vars env.now with
    | .ok route => route
    | .error _ => none
  | put path body =>
    match internalRoute U vars env.now env.unixNow path body with
    | .ok route =>
      if staleUpdate s.table route then none
      else if (validateApiRouteNetworkSafety U vars env.lookup route).isOk then some route
      else none
    | .error _ => none
  | post body =>
    match body.intoRoute U vars env.now with
    | .ok route =>
      if (validateApiRouteNetworkSafety U vars env.lookup route).isOk then
        if quotaExceeded s.table route then none else some route
      else none
    | .error _ => none

def RouteWrite.perform (env : WriteEnv) (s : Stores) : RouteWrite → Bool × Stores
  | event e =>
    let result := applyRuntimeRouteEvent U vars env e s
    (result.1.isOk, result.2)
  | put path body =>
    let result := upsertInternalRoute U vars env path body s
    (decide (result.1.status < 300), result.2)
  | post body =>
    let result := createDomain U vars env body s
    (decide (result.1.status < 300), result.2)

def InRedis (s : Stores) (domain : Text) : Prop :=
  ∃ r, apiRoutesOf s.table domain = [r] ∧ s.redis.lookup domain = some r

/-! ### What a write does -/

variable {U vars}

lemma isOk_eq_true {ε : Type} {e : Except ε Unit} : e.isOk = true ↔ e = .ok () := by
  cases e with
  | error => simp [Except.isOk, Except.toBool]
  | ok u => simp [Except.isOk, Except.toBool]

variable {env : WriteEnv} {s : Stores}

lemma RouteWrite.perform_of_not_accepted {w : RouteWrite}
    (h : w.accepted U vars env s = none) : (w.perform U vars env s).2 = s := by
  cases w with
  | event e =>
    rw [accepted] at h
    rw [perform, applyRuntimeRouteEvent]
    cases hroute : e.intoRoute U vars env.now with
    | error error => rfl
    | ok route =>
      rw [hroute] at h
      obtain rfl : route = none := h
      rfl
  | put path body =>
    rw [accepted] at h
    rw [perform, upsertInternalRoute]
    cases hroute : internalRoute U vars env.now env.unixNow path body with
    | error error => rfl
    | ok route =>
      simp only [hroute] at h
      dsimp only
      split
      · rfl
      · next hstale =>
        rw [if_neg hstale] at h
        cases hsafe : validateApiRouteNetworkSafety U vars env.lookup route with
        | error error => rfl
        | ok u => simp [isOk_eq_true.mpr hsafe] at h
  | post body =>
    rw [accepted] at h
    rw [perform, createDomain]
    cases hroute : body.intoRoute U vars env.now with
    | error error => rfl
    | ok route =>
      simp only [hroute] at h
      cases hsafe : validateApiRouteNetworkSafety U vars env.lookup route with
      | error error => simp only [hsafe]
      | ok u =>
        rw [if_pos (isOk_eq_true.mpr hsafe)] at h
        have hquota : quotaExceeded s.table route = true := by
          by_contra hq
          simp [hq] at h
        simp only [hsafe, hquota, if_true]

variable {route : Route}

lemma RouteWrite.perform_of_accepted {w : RouteWrite} (h : w.accepted U vars env s = some route) :
    route.source = .api ∧ (w.perform U vars env s).2 = (commitRoute U vars env route s).2 ∧
      ((w.perform U vars env s).1 = true → (commitRoute U vars env route s).1.isOk = true) := by
  cases w with
  | event e =>
    rw [accepted] at h
    cases hroute : e.intoRoute U vars env.now with
    | error error => simp [hroute] at h
    | ok r =>
      simp only [hroute] at h
      subst h
      obtain ⟨-, rfl⟩ := e.intoRoute_eq_some hroute
      refine ⟨rfl, stores_applyRuntimeRouteEvent U vars hroute s, fun hok => ?_⟩
      rw [perform, applyRuntimeRouteEvent, hroute] at hok
      cases hcommit : (commitRoute U vars env (e.newRoute env.now) s).1 with
      | error error => simp [hcommit, Except.isOk, Except.toBool] at hok
      | ok changed => rfl
  | put path body =>
    rw [accepted] at h
    cases hroute : internalRoute U vars env.now env.unixNow path body with
    | error error => simp [hroute] at h
    | ok r =>
      simp only [hroute] at h
      split_ifs at h with hstale hsafe
      obtain rfl := Option.some.inj h
      have hsource := (internalRoute_eq_ok hroute).1
      rw [perform, upsertInternalRoute, hroute]
      simp only [hstale, isOk_eq_true.mp hsafe]
      cases hcommit : (commitRoute U vars env r s).1 with
      | error error => simp [hsource]
      | ok changed => exact ⟨hsource, by simp, fun _ => rfl⟩
  | post body =>
    rw [accepted] at h
    cases hroute : body.intoRoute U vars env.now with
    | error error => simp [hroute] at h
    | ok r =>
      simp only [hroute] at h
      split_ifs at h with hsafe hquota
      obtain rfl := Option.some.inj h
      have hsource := (body.intoRoute_eq_ok hroute).2
      rw [perform, createDomain, hroute]
      simp only [isOk_eq_true.mp hsafe, hquota]
      cases hcommit : (commitRoute U vars env r s).1 with
      | error error => simp [hsource]
      | ok changed => cases changed <;> exact ⟨hsource, by simp, fun _ => rfl⟩

/-! ### What reaches Redis -/

variable (U vars) in
def reachesRedis (hset : HsetOutcome) (route : Route) : Bool :=
  ((persistedRoute route).validateForDynamicControlPlane U vars).isOk &&
    match hset with
    | .unreachable _ => false
    | .failed _ made => made
    | .stored => true

lemma redisUpsertRoute_snd (hset : HsetOutcome) (route : Route) (redis : Map Text Route) :
    (redisUpsertRoute U vars hset route redis).2 =
      if reachesRedis U vars hset route then
        redis.insert (persistedRoute route).domain (persistedRoute route)
      else redis := by
  cases hvalid : (persistedRoute route).validateForDynamicControlPlane U vars with
  | error reason =>
    cases hset <;> simp [redisUpsertRoute, reachesRedis, hvalid, Except.isOk, Except.toBool]
  | ok u =>
    cases hset <;> simp [redisUpsertRoute, reachesRedis, hvalid, Except.isOk, Except.toBool]

lemma reachesRedis_of_isOk {hset : HsetOutcome} {redis : Map Text Route}
    (h : (redisUpsertRoute U vars hset route redis).1.isOk = true) :
    reachesRedis U vars hset route = true := by
  cases hvalid : (persistedRoute route).validateForDynamicControlPlane U vars with
  | error reason => cases hset <;> simp [redisUpsertRoute, hvalid, Except.isOk, Except.toBool] at h
  | ok u =>
    cases hset with
    | unreachable error => simp [redisUpsertRoute, Except.isOk, Except.toBool] at h
    | failed error made => simp [redisUpsertRoute, hvalid, Except.isOk, Except.toBool] at h
    | stored => simp [reachesRedis, hvalid, Except.isOk, Except.toBool]

/-! ### Runs -/

structure Tracked where
  stores : Stores
  unstored : Set Text

def unstoredAfter (changed reached : Bool) (domain : Text) (unstored : Set Text) : Set Text :=
  { d | if changed = true ∧ d = domain then reached = false else d ∈ unstored }

variable (U vars) in
def Tracked.step (t : Tracked) (w : RouteWrite × WriteEnv) : Tracked where
  stores := (w.1.perform U vars w.2 t.stores).2
  unstored :=
    match w.1.accepted U vars w.2 t.stores with
    | none => t.unstored
    | some route =>
      unstoredAfter (upsertApiRoute t.stores.table route).2
        (reachesRedis U vars w.2.hset route) route.domain t.unstored

variable (U vars) in
def NoLostRetry (t : Tracked) (w : RouteWrite × WriteEnv) : Prop :=
  ∀ route, w.1.accepted U vars w.2 t.stores = some route →
    normalizeDomain route.domain = route.domain ∧
      ((upsertApiRoute t.stores.table route).2 = false → route.domain ∉ t.unstored)

structure Tracked.Stored (t : Tracked) : Prop where
  reachable : Reachable t.stores.table
  stored : ∀ r ∈ t.stores.table.routes, r.source = .api → r.domain ∉ t.unstored →
    t.stores.redis.lookup r.domain = some r

lemma commitRoute_unchanged
    (h : (upsertApiRoute s.table route).2 = false) : (commitRoute U vars env route s).2 = s := by
  rw [commitRoute, h]
  simp [(upsertApiRoute_unchanged h).1]

variable (U vars) in
lemma redis_commitRoute (env : WriteEnv)
    (hsource : route.source = .api) (hnormal : normalizeDomain route.domain = route.domain)
    (h : (upsertApiRoute s.table route).2 = true) :
    (commitRoute U vars env route s).2.redis =
      if reachesRedis U vars env.hset route then s.redis.insert route.domain route
      else s.redis := by
  rw [commitRoute, h, if_pos rfl]
  simp only [redisUpsertRoute_snd, persistedRoute_eq hsource hnormal]

variable (U vars) in
lemma Tracked.Stored.commit (h : t.Stored) (env : WriteEnv)
    (hsource : route.source = .api) (hnormal : normalizeDomain route.domain = route.domain) :
    Tracked.Stored ⟨(commitRoute U vars env route t.stores).2,
      unstoredAfter (upsertApiRoute t.stores.table route).2 (reachesRedis U vars env.hset route)
        route.domain t.unstored⟩ := by
  cases hchanged : (upsertApiRoute t.stores.table route).2 with
  | false =>
    rw [commitRoute_unchanged hchanged]
    exact ⟨h.reachable, fun r hr hapi hstored =>
      h.stored r hr hapi (by simpa [unstoredAfter] using hstored)⟩
  | true =>
    have hredis := redis_commitRoute U vars env hsource hnormal hchanged
    refine ⟨?_, fun r hr hapi hstored => ?_⟩
    · rw [table_commitRoute]
      exact h.reachable.upsert route
    · simp only [table_commitRoute, routes_upsertApiRoute h.reachable hsource hchanged,
        withApiRoute, List.mem_append, List.mem_singleton] at hr
      simp only [hredis]
      rcases hr with hr | rfl
      · -- a route of another domain
        obtain ⟨hmem, hne⟩ := mem_withoutApiDomain.mp hr
        have hdomain : r.domain ≠ route.domain := fun hd => hne ⟨hapi, hd⟩
        have hold := h.stored r hmem hapi (by simpa [unstoredAfter, hdomain] using hstored)
        split
        · rw [AList.lookup_insert_ne hdomain, hold]
        · exact hold
      · have hreach : reachesRedis U vars env.hset r = true := by
          simpa [unstoredAfter] using hstored
        rw [if_pos hreach, AList.lookup_insert]

lemma Tracked.Stored.step (h : t.Stored) (w : RouteWrite × WriteEnv)
    (hw : NoLostRetry U vars t w) : (t.step U vars w).Stored := by
  rw [Tracked.step]
  cases haccepted : w.1.accepted U vars w.2 t.stores with
  | none =>
    rw [RouteWrite.perform_of_not_accepted haccepted]
    exact ⟨h.reachable, h.stored⟩
  | some route =>
    obtain ⟨hsource, hstores, -⟩ := RouteWrite.perform_of_accepted haccepted
    rw [hstores]
    exact h.commit U vars w.2 hsource (hw route haccepted).1

lemma not_mem_unstoredAfter {unstored : Set Text}
    (hretry : (upsertApiRoute s.table route).2 = false → route.domain ∉ unstored)
    (hok : (commitRoute U vars env route s).1.isOk = true) :
    route.domain ∉ unstoredAfter (upsertApiRoute s.table route).2
      (reachesRedis U vars env.hset route) route.domain unstored := by
  cases hchanged : (upsertApiRoute s.table route).2 with
  | false => simpa [unstoredAfter] using hretry hchanged
  | true =>
    rw [commitRoute, hchanged, if_pos rfl] at hok
    have hreach : reachesRedis U vars env.hset route = true := by
      apply reachesRedis_of_isOk
      cases hwrite : (redisUpsertRoute U vars env.hset route s.redis).1 with
      | error error => simp [hwrite, Except.isOk, Except.toBool, Except.map] at hok
      | ok u => rfl
    simp [unstoredAfter, hreach]

lemma Tracked.Stored.success (h : t.Stored) {w : RouteWrite × WriteEnv}
    (hw : NoLostRetry U vars t w)
    (haccepted : w.1.accepted U vars w.2 t.stores = some route)
    (hok : (w.1.perform U vars w.2 t.stores).1 = true) :
    InRedis (w.1.perform U vars w.2 t.stores).2 route.domain := by
  obtain ⟨hsource, hstores, hcommit⟩ := RouteWrite.perform_of_accepted haccepted
  obtain ⟨hnormal, hretry⟩ := hw route haccepted
  have hnext := h.commit U vars w.2 hsource hnormal
  obtain ⟨-, installed, hinstalled, -⟩ := upsertApiRoute_frame h.reachable hsource
  rw [hstores]
  have htable : apiRoutesOf (commitRoute U vars w.2 route t.stores).2.table route.domain =
      [installed] := by
    rw [table_commitRoute, hinstalled]
  have hmem : installed ∈ apiRoutesOf (commitRoute U vars w.2 route t.stores).2.table
      route.domain := by
    simp [htable]
  obtain ⟨hmem, hkey⟩ := List.mem_filter.mp hmem
  obtain ⟨hapi, hdomain⟩ := of_decide_eq_true hkey
  have hstored := hnext.stored installed hmem hapi
  rw [hdomain] at hstored
  exact ⟨installed, htable, hstored (not_mem_unstoredAfter hretry (hcommit hok))⟩

variable (U vars) in
/-- **Reported writes are in Redis.**  In every run of writes, with Redis failing at any of
them, in which no write returns early on a domain whose last change has not reached Redis:
whenever a write reports success, the Redis entry of its domain is the API route in memory. -/
theorem success_in_redis (t : Tracked) (ht : t.Stored) (writes : List (RouteWrite × WriteEnv))
    (w : RouteWrite × WriteEnv)
    (hrun : Along (Tracked.step U vars) (NoLostRetry U vars) t (writes ++ [w])) (route : Route)
    (haccepted : w.1.accepted U vars w.2 (run (Tracked.step U vars) t writes).stores = some route)
    (hok : (w.1.perform U vars w.2 (run (Tracked.step U vars) t writes).stores).1 = true) :
    InRedis (w.1.perform U vars w.2 (run (Tracked.step U vars) t writes).stores).2
      route.domain := by
  obtain ⟨hwrites, hw⟩ := along_concat.mp hrun
  have hstored : (run (Tracked.step U vars) t writes).Stored :=
    hwrites.invariant _ (fun t w h hw => h.step w hw) ht
  exact hstored.success hw haccepted hok

end Durable

/-! ### A failure and what follows -/

def emptyStores : Tracked := ⟨⟨RouteTable.new [], ∅⟩, ∅⟩

lemma stored_emptyStores : emptyStores.Stored where
  reachable := ⟨[], by simp, rfl⟩
  stored := fun r hr => by simp [emptyStores, RouteTable.new, dedupeRoutes] at hr

def deployment (upstream : Text) : RouteWrite :=
  .put "/internal/routes/a.com" { upstream := some upstream, routeVersion := some 1 }

def redisDown : WriteEnv := { hset := .unreachable "connection refused" }

lemma noLostRetry_of_changed {w : RouteWrite × WriteEnv}
    (h : (w.1.accepted .basic (fun _ => none) w.2 t.stores).map
      (fun r => (r.domain, (upsertApiRoute t.stores.table r).2)) = some ("a.com".toList, true)) :
    NoLostRetry .basic (fun _ => none) t w := by
  intro route haccepted
  simp only [haccepted, Option.map_some, Option.some.injEq, Prod.mk.injEq] at h
  rw [h.1, h.2]
  exact ⟨by decide, by simp⟩

theorem success_in_redis_after_failure :
    ∃ route,
      (deployment "http://new.example").accepted .basic (fun _ => none) {}
        (run (Tracked.step .basic fun _ => none) emptyStores
          [(deployment "http://old.example", redisDown)]).stores = some route ∧
      InRedis ((deployment "http://new.example").perform .basic (fun _ => none) {}
        (run (Tracked.step .basic fun _ => none) emptyStores
          [(deployment "http://old.example", redisDown)]).stores).2 route.domain := by
  have hfirst : NoLostRetry .basic (fun _ => none) emptyStores
      (deployment "http://old.example", redisDown) :=
    noLostRetry_of_changed (by decide)
  have hsecond : NoLostRetry .basic (fun _ => none)
      (run (Tracked.step .basic fun _ => none) emptyStores
        [(deployment "http://old.example", redisDown)]) (deployment "http://new.example", {}) :=
    noLostRetry_of_changed (by decide)
  have haccepted : ((deployment "http://new.example").accepted .basic (fun _ => none) {}
      (run (Tracked.step .basic fun _ => none) emptyStores
        [(deployment "http://old.example", redisDown)]).stores).isSome = true := by
    decide
  obtain ⟨route, hroute⟩ := Option.isSome_iff_exists.mp haccepted
  exact ⟨route, hroute, success_in_redis .basic (fun _ => none) emptyStores stored_emptyStores
    [(deployment "http://old.example", redisDown)] (deployment "http://new.example", {})
    ⟨hfirst, hsecond, trivial⟩ route hroute (by decide)⟩

def dottedDomain : RouteWrite :=
  .post { domain := "a.com. . .", upstreams := [{ url := "http://new.example" }] }

/-- The deployment is refused while Redis is down.  Sent again, it is reported as done, and
Redis still knows nothing of it.  The dotted domain is installed as `a.com. ` and stored as
`a.com`. -/
theorem success_not_in_redis :
    (((deployment "http://new.example").perform .basic (fun _ => none) redisDown
        emptyStores.stores).1 = false ∧
      ((deployment "http://new.example").perform .basic (fun _ => none) {}
        (emptyStores.step .basic (fun _ => none)
          (deployment "http://new.example", redisDown)).stores).1 = true ∧
      ((deployment "http://new.example").perform .basic (fun _ => none) {}
        (emptyStores.step .basic (fun _ => none)
          (deployment "http://new.example", redisDown)).stores).2.redis.lookup
            "a.com".toList = none) ∧
    (dottedDomain.perform .basic (fun _ => none) {} emptyStores.stores).1 = true ∧
      ((dottedDomain.perform .basic (fun _ => none) {} emptyStores.stores).2.table.routes.map
        Route.domain) = ["a.com. ".toList] ∧
      (dottedDomain.perform .basic (fun _ => none) {} emptyStores.stores).2.redis.lookup
        "a.com. ".toList = none := by
  refine ⟨⟨by decide, by decide, ?_⟩, by decide, by decide, ?_⟩
  · rw [← Option.isNone_iff_eq_none]
    decide
  · rw [← Option.isNone_iff_eq_none]
    decide

end PxxlEdge
